import Ghostbro.Foundation.Text
import Ghostbro.Relay.Wire

/-!
# Package specs in job records

A package job stores its spec as one text, which the worker decodes again before it fetches.  The
version stands after an `@`, and a package name may hold an `@` itself.  A spec with a version is
read back whole, since a version holds no `@`.  Without a version the last `@` of the name is taken
for the separator, unless it is the first character, as in an npm scope.
-/

namespace Ghostbro.Relay

open Text

/-- `PackageSpec::decode`. -/
def PackageSpec.decode (encoded : String) : Except String PackageSpec :=
  match splitOnce ':' encoded.toList with
  | none => .error "malformed package spec, missing ecosystem"
  | some (ecosystem, rest) =>
    let (name, version) :=
      match rsplitOnce '@' rest with
      -- an npm scope has nothing before its `@`
      | some (name, version) => if name ≠ [] then (name, version) else (rest, [])
      | none => (rest, [])
    parse (String.ofList ecosystem) (String.ofList name) (String.ofList version)

/-! ### What `parse` accepts -/

theorem nonEmpty_eq (text : String) : nonEmpty text =
    if trim isWhitespace text.toList = [] then none
    else some (String.ofList (trim isWhitespace text.toList)) := rfl

/-- A version that was trimmed once is kept as it is. -/
theorem nonEmpty_of_nonEmpty {text version : String} (h : nonEmpty text = some version) :
    nonEmpty version = some version := by
  rw [nonEmpty_eq] at h
  split at h
  · cases h
  · next hne =>
    obtain rfl := Option.some.inj h
    rw [nonEmpty_eq, String.toList_ofList, trim_trim, if_neg hne]

/-- An accepted spec holds the name as it was given and the trimmed version. -/
theorem PackageSpec.parse_eq_ok {ecosystem name version : String} {spec : PackageSpec} :
    parse ecosystem name version = .ok spec ↔
      Ecosystem.parse ecosystem = .ok spec.ecosystem ∧ validatePackageName name = .ok () ∧
        spec.name = name ∧ spec.version = nonEmpty version ∧
        (∀ given ∈ nonEmpty version, validatePackageVersion given = .ok ()) ∧
        (nonEmpty version = none → spec.ecosystem ≠ .crates) := by
  obtain ⟨kind, specName, specVersion⟩ := spec
  unfold parse
  cases hecosystem : Ecosystem.parse ecosystem with
  | error error => simp [bind, Except.bind]
  | ok parsed =>
    cases hname : validatePackageName name with
    | error error => simp [bind, Except.bind]
    | ok _ =>
      cases hversion : nonEmpty version with
      | none =>
        by_cases hcrates : parsed = .crates
        · simp +contextual [bind, Except.bind, hcrates, eq_comm]
        · simp [bind, Except.bind, pure, Except.pure, hcrates]
          grind
      | some given =>
        cases hvalid : validatePackageVersion given with
        | error error => simp [bind, Except.bind, hvalid]
        | ok _ =>
          simp [bind, Except.bind, pure, Except.pure, hvalid, eq_comm]

theorem name_ne_nil_of_validate {name : String} (h : validatePackageName name = .ok ()) :
    name.toList ≠ [] := by
  intro hnil
  have hempty : name = "" := by simpa using hnil
  rw [hempty] at h
  revert h
  decide

/-- A validated version holds no `@`. -/
theorem at_not_mem_of_validate {version : String} (h : validatePackageVersion version = .ok ()) :
    '@' ∉ version.toList := by
  intro hmem
  have hbyte : (64 : UInt8) ∈ utf8 version := mem_utf8 hmem (by decide)
  simp only [validatePackageVersion] at h
  split at h
  · cases h
  · split at h
    · next hall =>
      have hallowed := List.all_eq_true.mp hall 64 hbyte
      revert hallowed
      decide
    · cases h

/-! ### Decoding what was encoded -/

theorem Ecosystem.parse_text (ecosystem : Ecosystem) :
    Ecosystem.parse ecosystem.text = .ok ecosystem := by
  cases ecosystem <;> decide

theorem colon_not_mem_text (ecosystem : Ecosystem) : ':' ∉ ecosystem.text.toList := by
  cases ecosystem <;> decide

/-- What follows the first colon of an encoded spec is its name and its version. -/
theorem splitOnce_encode (spec : PackageSpec) : splitOnce ':' spec.encode.toList =
    some (spec.ecosystem.text.toList,
      spec.name.toList ++ (spec.version.elim [] fun version ↦ '@' :: version.toList)) := by
  have hsplit (rest : List Char) := splitOnce_append (colon_not_mem_text spec.ecosystem) rest
  unfold PackageSpec.encode
  cases spec.version with
  | none => simpa using hsplit spec.name.toList
  | some version => simpa using hsplit (spec.name.toList ++ '@' :: version.toList)

/-- The text form decodes to the spec it was made from, if the version can be told from the
name. -/
theorem decode_encode_iff {spec : PackageSpec} {name version : String}
    (hname : validatePackageName name = .ok ()) (hspec : spec.name = name)
    (hversion : spec.version = nonEmpty version)
    (hvalid : ∀ given ∈ nonEmpty version, validatePackageVersion given = .ok ())
    (hcrates : nonEmpty version = none → spec.ecosystem ≠ .crates) :
    PackageSpec.decode spec.encode = .ok spec ↔
      nonEmpty version ≠ none ∨ '@' ∉ name.toList.tail := by
  have hne := name_ne_nil_of_validate hname
  rw [PackageSpec.decode, splitOnce_encode, hspec, hversion]
  cases hgiven : nonEmpty version with
  | some given =>
    have hat := at_not_mem_of_validate (hvalid given hgiven)
    simp only [Option.elim_some, rsplitOnce_append name.toList hat, if_pos hne,
      String.ofList_toList]
    rw [PackageSpec.parse_eq_ok, nonEmpty_of_nonEmpty hgiven]
    simp_all [Ecosystem.parse_text]
  | none =>
    have hwhole : PackageSpec.parse (String.ofList spec.ecosystem.text.toList)
        (String.ofList name.toList) (String.ofList []) = .ok spec := by
      have hempty : nonEmpty "" = none := by decide
      rw [String.ofList_toList, String.ofList_toList, PackageSpec.parse_eq_ok]
      simp_all [Ecosystem.parse_text]
    simp only [Option.elim_none, List.append_nil, ne_eq, not_true_eq_false, false_or]
    cases hsplit : rsplitOnce '@' name.toList with
    | none =>
      have hat : '@' ∉ name.toList := rsplitOnce_eq_none.mp hsplit
      exact iff_of_true hwhole fun hmem ↦ hat (List.mem_of_mem_tail hmem)
    | some parts =>
      obtain ⟨before, after⟩ := parts
      obtain ⟨hjoined, hafter⟩ := rsplitOnce_eq_some.mp hsplit
      cases before with
      | nil =>
        refine iff_of_true (by simpa using hwhole) ?_
        simpa [hjoined] using hafter
      | cons first before =>
        -- the worker reads a shorter name
        refine iff_of_false ?_ (by simp [hjoined])
        intro hdecoded
        have hread := (PackageSpec.parse_eq_ok.mp hdecoded).2.2.1
        have hlength := congrArg (fun text ↦ text.toList.length) (hread.symm.trans hspec)
        simp [hjoined] at hlength

/-- Exactly the specs without a version whose name holds an `@` after its first character are not
read back from the job record. -/
theorem package_spec_round_trips_iff {ecosystem name version : String} {spec : PackageSpec}
    (h : PackageSpec.parse ecosystem name version = .ok spec) :
    PackageSpec.decode spec.encode = .ok spec ↔
      nonEmpty version ≠ none ∨ '@' ∉ name.toList.tail := by
  obtain ⟨-, hname, hspec, hversion, hvalid, hcrates⟩ := PackageSpec.parse_eq_ok.mp h
  exact decode_encode_iff hname hspec hversion hvalid hcrates

theorem package_spec_round_trips_requests :
    PackageSpec.parse "pypi" "requests" "2.31.0" = .ok ⟨.pypi, "requests", some "2.31.0"⟩ ∧
      (PackageSpec.decode (PackageSpec.encode ⟨.pypi, "requests", some "2.31.0"⟩) =
          .ok ⟨.pypi, "requests", some "2.31.0"⟩ ↔
        nonEmpty "2.31.0" ≠ none ∨ '@' ∉ "requests".toList.tail) := by
  have h : PackageSpec.parse "pypi" "requests" "2.31.0" =
      .ok ⟨.pypi, "requests", some "2.31.0"⟩ := by
    rw [PackageSpec.parse_eq_ok]
    decide
  exact ⟨h, package_spec_round_trips_iff h⟩

/-- The name `foo@1.0` without a version is accepted and fetched as version `1.0` of `foo`. -/
theorem package_spec_does_not_round_trip :
    ¬∀ (ecosystem name version : String) (spec : PackageSpec),
      PackageSpec.parse ecosystem name version = .ok spec →
        PackageSpec.decode spec.encode = .ok spec := by
  intro hall
  have hparsed : PackageSpec.parse "npm" "foo@1.0" "" = .ok ⟨.npm, "foo@1.0", none⟩ := by
    rw [PackageSpec.parse_eq_ok]
    decide
  have hdecoded := hall "npm" "foo@1.0" "" _ hparsed
  revert hdecoded
  decide

end Ghostbro.Relay
