import Ghostbro.Foundation.Base64
import Ghostbro.Foundation.Machine
import Ghostbro.Foundation.Text
import Ghostbro.Relay.Wire
import Ghostbro.Server.CounterState

/-!
# The static identity of the server

`load_or_generate_static_key` reads the private key of the server, or generates a pair if there is
no file and the operator has opted in.  The private file is truncated and then written, and the
public file after it, so a call that fails or dies can leave either file cut short; the next start
reads what is there.  Clients pin the public key: the key of the server may only change after the
operator has taken the file away and opted in again, and what is left of a cut file may not pass
for a key of its own.

The base64 crate and `snow` are parameters.
-/

namespace Ghostbro.StaticKey

open Machine

/-- `snow::Keypair` for the curve whose public keys are `derive` of the private ones. -/
structure Keypair (derive : Bytes → Bytes) where
  privateKey : Bytes
  publicKey : Bytes
  length_privateKey : privateKey.length = 32
  length_publicKey : publicKey.length = 32
  publicKey_eq : publicKey = derive privateKey

/-- How far a write gets that fails or whose process dies. -/
inductive WriteFault
  | open
  | write (written : ℕ)

/-- What the system answers to the calls on files. -/
structure Faults where
  /-- Reading fails with another error than `NotFound`. -/
  read : Bool
  writePrivate : Option WriteFault
  writePublic : Option WriteFault

section

variable {derive : Bytes → Bytes} {codec : Base64.Codec} {path : Path} {files : FileSystem}

/-! ### The code -/

/-- `fs::write`: truncate the file, then write all of it. -/
def writeFile (path : Path) (contents : String) (files : FileSystem) :
    Option WriteFault → FileSystem × Except Unit Unit
  | none => (files.insert path contents, .ok ())
  | some .open => (files, .error ())
  | some (.write written) =>
    (files.insert path (String.ofList (contents.toList.take written)), .error ())

/-- `write_private_key_file`, whose mode only restricts who reads the file. -/
def writePrivateKeyFile (path : Path) (contents : String) (files : FileSystem)
    (fault : Option WriteFault) : FileSystem × Except Unit Unit :=
  writeFile path contents files fault

/-- `public_key_path`. -/
def publicKeyPath (path : Path) : Path :=
  if path.extension = some "key" then path.withExtension "pub"
  else path.withExtension "noise.pub"

/-- The line of a key. -/
def keyLine (codec : Base64.Codec) (key : Bytes) : String := codec.encode key ++ "\n"

/-- `contents.trim()`. -/
def trim (contents : String) : String :=
  String.ofList (Text.trim Relay.isWhitespace contents.toList)

/-- The key in the text of a private file. -/
def parsePrivateKey (codec : Base64.Codec) (path : Path) (contents : String) :
    Except String Bytes :=
  match codec.decode (trim contents) with
  | none => .error s!"failed to decode Noise private key {path.display}"
  | some key =>
    if key.length ≠ 32 then .error s!"Noise private key must be 32 bytes, got {key.length}"
    else .ok key

/-- `load_or_generate_static_key`.  `optedIn` says that `GHOSTBRO_GENERATE_IDENTITY` is set, and
`generated` is what `generate_keypair` returns. -/
def loadOrGenerateStaticKey (codec : Base64.Codec) (path : Path) (optedIn : Bool)
    (generated : Option (Keypair derive)) (faults : Faults) (files : FileSystem) :
    FileSystem × Except String Bytes :=
  if faults.read then (files, .error s!"failed to read {path.display}")
  else
    match files.lookup path with
    | some contents => (files, parsePrivateKey codec path contents)
    | none =>
      if optedIn = false then
        (files, .error (s!"Noise static identity file {path.display} not found; refusing to mint " ++
          "a new pinned identity on the serving path. Provision the identity out of band, or set " ++
          "GHOSTBRO_GENERATE_IDENTITY=1 to opt into auto-generation (provisioning and smoke " ++
          "tests only)."))
      else
        match generated with
        | none => (files, .error "failed to generate Noise static keypair")
        | some keypair =>
          match writePrivateKeyFile path (keyLine codec keypair.privateKey) files
              faults.writePrivate with
          | (files, .error ()) =>
            (files, .error s!"failed to write Noise private key {path.display}")
          | (files, .ok ()) =>
            match writeFile (publicKeyPath path) (keyLine codec keypair.publicKey) files
                faults.writePublic with
            | (files, .error ()) =>
              (files, .error s!"failed to write Noise public key for {path.display}")
            | (files, .ok ()) => (files, .ok keypair.privateKey)

/-- `load_static_private_key`: the conversion to an array checks the length again. -/
def loadStaticPrivateKey (codec : Base64.Codec) (path : Path) (optedIn : Bool)
    (generated : Option (Keypair derive)) (faults : Faults) (files : FileSystem) :
    FileSystem × Except String Bytes :=
  match loadOrGenerateStaticKey codec path optedIn generated faults files with
  | (files, .error message) => (files, .error message)
  | (files, .ok key) =>
    if key.length = 32 then (files, .ok key)
    else (files, .error "Noise static private key must be 32 bytes")

/-! ### The two files -/

theorem not_mem_extension {path : Path} {extension : String}
    (h : path.extension = some extension) : '.' ∉ extension.toList := by
  simp only [Path.extension, Path.splitAtDot] at h
  split at h
  · rw [← Option.some.inj h, String.toList_ofList, List.mem_reverse]
    intro hmem
    simpa using List.mem_takeWhile_imp hmem
  · cases h

theorem extension_of_withExtension_eq {path : Path} {extension : String}
    (h : path.withExtension extension = path) : path.extension = some extension := by
  have hname : (Path.splitAtDot path.fileName).1 ++ "." ++ extension = path.fileName :=
    congrArg Path.fileName h
  cases hextension : path.extension with
  | none =>
    have hstem : (Path.splitAtDot path.fileName).1 = path.fileName := by
      rw [Path.extension, Path.splitAtDot] at hextension
      rw [Path.splitAtDot]
      split at hextension
      · cases hextension
      · next hdot => rw [if_neg hdot]
    rw [hstem] at hname
    have hlength := congrArg String.length hname
    rw [String.length_append, String.length_append] at hlength
    have hdot : ".".length = 1 := by decide
    omega
  | some other =>
    have hsplit := hname.trans (Path.append_of_splitAtDot hextension).symm
    rw [(String.append_right_inj _).mp hsplit]

/-- The public key never goes to the file of the private one. -/
theorem publicKeyPath_ne (path : Path) : publicKeyPath path ≠ path := by
  intro heq
  rw [publicKeyPath] at heq
  split at heq
  · next hkey =>
    have hpub := extension_of_withExtension_eq heq
    rw [hkey] at hpub
    exact absurd (Option.some.inj hpub) (by decide)
  · have hpub := not_mem_extension (extension_of_withExtension_eq heq)
    exact hpub (by simp)

/-! ### The lines of keys -/

theorem isWhitespace_of_isAlphanum {symbol : Char} (h : symbol.isAlphanum = true) :
    Relay.isWhitespace symbol = false := by
  have hcode : 48 ≤ symbol.toNat ∧ symbol.toNat ≤ 57 ∨ 65 ≤ symbol.toNat ∧ symbol.toNat ≤ 122 := by
    delta Char.isAlphanum Char.isAlpha Char.isUpper Char.isLower Char.isDigit at h
    simp only [Bool.or_eq_true, Bool.and_eq_true, decide_eq_true_eq, ge_iff_le,
      UInt32.le_iff_toNat_le] at h
    have heq : symbol.val.toNat = symbol.toNat := rfl
    simp only [heq, Char.reduceVal, UInt32.reduceToNat] at h
    omega
  simp only [Relay.isWhitespace, Bool.or_eq_false_iff, Bool.and_eq_false_iff,
    decide_eq_false_iff_not]
  omega

theorem isWhitespace_of_mem_encode {key : Bytes} :
    ∀ symbol ∈ (codec.encode key).toList, Relay.isWhitespace symbol = false := by
  intro symbol hmem
  rcases codec.mem_encode key symbol hmem with halphanum | hmark
  · exact isWhitespace_of_isAlphanum halphanum
  · have hmarks : ∀ mark ∈ ['+', '/', '='], Relay.isWhitespace mark = false := by
      simp [Relay.isWhitespace]
    exact hmarks symbol hmark

theorem trim_take_encode (key : Bytes) (written : ℕ) :
    trim (String.ofList ((codec.encode key).toList.take written)) =
      String.ofList ((codec.encode key).toList.take written) := by
  rw [trim, String.toList_ofList, Text.trim_eq_self]
  intro symbol hmem
  exact isWhitespace_of_mem_encode symbol (List.mem_of_mem_take hmem)

theorem trim_keyLine (key : Bytes) : trim (keyLine codec key) = codec.encode key := by
  rw [trim, keyLine, String.toList_append]
  rw [show "\n".toList = ['\n'] from rfl, Text.trim_concat isWhitespace_of_mem_encode (by decide),
    String.ofList_toList]

theorem parsePrivateKey_eq_ok {contents : String} {key : Bytes} :
    parsePrivateKey codec path contents = .ok key ↔
      codec.decode (trim contents) = some key ∧ key.length = 32 := by
  rw [parsePrivateKey]
  cases codec.decode (trim contents) with
  | none => simp
  | some decoded =>
    by_cases hlength : decoded.length = 32
    · rw [Option.some_inj]
      simp only [hlength, ne_eq, not_true_eq_false, if_false, Except.ok.injEq]
      constructor
      · rintro rfl
        exact ⟨rfl, hlength⟩
      · exact And.left
    · rw [Option.some_inj]
      simp only [hlength, ne_eq, not_false_eq_true, if_true, reduceCtorEq, false_iff]
      rintro ⟨rfl, hkey⟩
      exact hlength hkey

/-- What is left of the line of a key holds that key, or none. -/
theorem parsePrivateKey_take {key part : Bytes} {written : ℕ} (hkey : key.length = 32)
    (h : parsePrivateKey codec path
      (String.ofList ((keyLine codec key).toList.take written)) = .ok part) : part = key := by
  obtain ⟨hdecode, hpart⟩ := parsePrivateKey_eq_ok.mp h
  have hline : (keyLine codec key).toList = (codec.encode key).toList ++ ['\n'] := by
    rw [keyLine, String.toList_append]
    rfl
  rcases lt_or_ge (codec.encode key).toList.length written with hwhole | hcut
  · rw [List.take_of_length_le (by simpa [hline] using Nat.succ_le_of_lt hwhole),
      String.ofList_toList,
      trim_keyLine, codec.decode_encode] at hdecode
    exact (Option.some.inj hdecode).symm
  · rw [hline, List.take_append_of_le_length hcut, trim_take_encode] at hdecode
    rcases hcut.lt_or_eq with hshort | hlast
    · rw [String.length_toList] at hshort
      have hlt := codec.length_lt_of_decode_take hshort hdecode
      omega
    · rw [hlast, List.take_length, String.ofList_toList, codec.decode_encode] at hdecode
      exact (Option.some.inj hdecode).symm

theorem parsePrivateKey_keyLine {key : Bytes} (hkey : key.length = 32) :
    parsePrivateKey codec path (keyLine codec key) = .ok key := by
  rw [parsePrivateKey_eq_ok, trim_keyLine]
  exact ⟨codec.decode_encode key, hkey⟩

/-! ### What one call does -/

/-- The key that the private file holds. -/
def stored (codec : Base64.Codec) (path : Path) (files : FileSystem) : Option Bytes := do
  let contents ← files.lookup path
  (parsePrivateKey codec path contents).toOption

/-- The key that the public file holds. -/
def published (codec : Base64.Codec) (path : Path) (files : FileSystem) : Option Bytes :=
  stored codec (publicKeyPath path) files

/-- The file holds the first symbols of the line of the key. -/
def HoldsPart (codec : Base64.Codec) (path : Path) (files : FileSystem) (key : Bytes) : Prop :=
  ∃ written, files.lookup path = some (String.ofList ((keyLine codec key).toList.take written))

theorem HoldsPart.eq_of_stored {key part : Bytes} (h : HoldsPart codec path files key)
    (hkey : key.length = 32) (hstored : stored codec path files = some part) : part = key := by
  obtain ⟨written, hlookup⟩ := h
  rw [stored, hlookup, Option.bind_eq_bind, Option.bind_some] at hstored
  cases hparse : parsePrivateKey codec path
      (String.ofList ((keyLine codec key).toList.take written)) with
  | error message =>
    rw [hparse] at hstored
    cases hstored
  | ok other =>
    rw [hparse] at hstored
    rw [← Option.some.inj hstored]
    exact parsePrivateKey_take hkey hparse

theorem stored_of_lookup {key : Bytes} (hkey : key.length = 32)
    (h : files.lookup path = some (keyLine codec key)) : stored codec path files = some key := by
  rw [stored, h, Option.bind_eq_bind, Option.bind_some, parsePrivateKey_keyLine hkey]
  rfl

section Write

variable {contents : String} {fault : Option WriteFault} {after : FileSystem}
  {result : Except Unit Unit}

theorem lookup_writeFile_of_ne {other : Path} (hne : other ≠ path)
    (h : writeFile path contents files fault = (after, result)) :
    after.lookup other = files.lookup other := by
  rw [show after = (writeFile path contents files fault).1 by rw [h]]
  cases fault with
  | none => rw [writeFile, HashMap.lookup_insert_ite, if_neg hne]
  | some point =>
    cases point with
    | «open» => rfl
    | write written => rw [writeFile, HashMap.lookup_insert_ite, if_neg hne]

theorem lookup_writeFile_of_ok (h : writeFile path contents files fault = (after, .ok ())) :
    after.lookup path = some contents := by
  cases fault with
  | none =>
    obtain rfl : files.insert path contents = after := congrArg Prod.fst h
    rw [HashMap.lookup_insert_ite, if_pos rfl]
  | some point =>
    cases point with
    | «open» => cases h
    | write written => cases h

/-- A write leaves the old file or the front of the new one. -/
theorem lookup_writeFile (h : writeFile path contents files fault = (after, result)) :
    after.lookup path = files.lookup path ∨
      ∃ written, after.lookup path = some (String.ofList (contents.toList.take written)) := by
  rw [show after = (writeFile path contents files fault).1 by rw [h]]
  cases fault with
  | none =>
    refine .inr ⟨contents.toList.length, ?_⟩
    rw [writeFile, HashMap.lookup_insert_ite, if_pos rfl, List.take_length, String.ofList_toList]
  | some point =>
    cases point with
    | «open» => exact .inl rfl
    | write written =>
      exact .inr ⟨written, by rw [writeFile, HashMap.lookup_insert_ite, if_pos rfl]⟩

end Write

/-- All that one call can do, and the key that is seen of it. -/
inductive Called (codec : Base64.Codec) (path : Path) (files : FileSystem) :
    Bool → Option (Keypair derive) → FileSystem → Option Bytes → Prop
  | unchanged {optedIn : Bool} {generated : Option (Keypair derive)} {seen : Option Bytes} :
      (∀ key, seen = some key → stored codec path files = some key) →
      Called codec path files optedIn generated files seen
  | cut {keypair : Keypair derive} {after : FileSystem} :
      files.lookup path = none →
      after.lookup path = none ∨ HoldsPart codec path after keypair.privateKey →
      after.lookup (publicKeyPath path) = files.lookup (publicKeyPath path) →
      Called codec path files true (some keypair) after none
  | minted {keypair : Keypair derive} {after : FileSystem} {seen : Option Bytes} :
      files.lookup path = none → after.lookup path = some (keyLine codec keypair.privateKey) →
      after.lookup (publicKeyPath path) = files.lookup (publicKeyPath path) ∨
        HoldsPart codec (publicKeyPath path) after keypair.publicKey →
      (∀ key, seen = some key → key = keypair.privateKey) →
      Called codec path files true (some keypair) after seen

/-- The process may die before it uses the key. -/
theorem Called.dies {optedIn : Bool} {generated : Option (Keypair derive)} {after : FileSystem}
    {seen : Option Bytes} (h : Called codec path files optedIn generated after seen) :
    Called codec path files optedIn generated after none := by
  cases h with
  | unchanged _ => exact .unchanged (by simp)
  | cut hlookup hprivate hpublic => exact .cut hlookup hprivate hpublic
  | minted hlookup hprivate hpublic _ => exact .minted hlookup hprivate hpublic (by simp)

theorem called_of_load {optedIn : Bool} {generated : Option (Keypair derive)} {faults : Faults}
    {after : FileSystem} {result : Except String Bytes}
    (h : loadOrGenerateStaticKey codec path optedIn generated faults files = (after, result)) :
    Called codec path files optedIn generated after result.toOption := by
  unfold loadOrGenerateStaticKey at h
  split at h
  · cases h
    exact .unchanged (by simp [Except.toOption])
  · cases hlookup : files.lookup path with
    | some contents =>
      rw [hlookup] at h
      cases hparse : parsePrivateKey codec path contents with
      | error message =>
        simp only [hparse] at h
        cases h
        exact .unchanged (by simp [Except.toOption])
      | ok key =>
        simp only [hparse] at h
        cases h
        apply Called.unchanged
        intro seen hseen
        rw [stored, hlookup, Option.bind_eq_bind, Option.bind_some, hparse, hseen]
    | none =>
      simp only [hlookup] at h
      split at h
      · cases h
        exact .unchanged (by simp [Except.toOption])
      · next hoptedIn =>
        rw [Bool.not_eq_false] at hoptedIn
        subst hoptedIn
        cases generated with
        | none =>
          cases h
          exact .unchanged (by simp [Except.toOption])
        | some keypair =>
          simp only [writePrivateKeyFile] at h
          split at h
          · next written hwrite =>
            cases h
            refine .cut hlookup ?_ (lookup_writeFile_of_ne (publicKeyPath_ne path) hwrite)
            rw [← hlookup]
            exact lookup_writeFile hwrite
          · next written hwrite =>
            have hprivate := lookup_writeFile_of_ok hwrite
            have hpublic := lookup_writeFile_of_ne (publicKeyPath_ne path) hwrite
            split at h
            · next last hlast =>
              cases h
              refine .minted hlookup ?_ ?_ (by simp [Except.toOption])
              · rw [lookup_writeFile_of_ne (publicKeyPath_ne path).symm hlast, hprivate]
              · rw [← hpublic]
                exact lookup_writeFile hlast
            · next last hlast =>
              cases h
              refine .minted hlookup ?_ ?_ (by simp [Except.toOption])
              · rw [lookup_writeFile_of_ne (publicKeyPath_ne path).symm hlast, hprivate]
              · rw [← hpublic]
                exact lookup_writeFile hlast

theorem length_of_stored {key : Bytes} (h : stored codec path files = some key) :
    key.length = 32 := by
  rw [stored, Option.bind_eq_bind, Option.bind_eq_some_iff] at h
  obtain ⟨contents, -, hparse⟩ := h
  cases hresult : parsePrivateKey codec path contents with
  | error message =>
    rw [hresult] at hparse
    cases hparse
  | ok found =>
    rw [hresult] at hparse
    rw [← Option.some.inj hparse]
    exact (parsePrivateKey_eq_ok.mp hresult).2

/-- The conversion to an array never fails. -/
theorem loadStaticPrivateKey_eq {optedIn : Bool} {generated : Option (Keypair derive)}
    {faults : Faults} : loadStaticPrivateKey codec path optedIn generated faults files =
      loadOrGenerateStaticKey codec path optedIn generated faults files := by
  unfold loadStaticPrivateKey
  split
  · next hload => rw [hload]
  · next key hload =>
    rw [hload, if_pos]
    have hcalled := called_of_load hload
    generalize hseen : (Except.ok key : Except String Bytes).toOption = seen at hcalled
    cases hcalled with
    | unchanged hstored => exact length_of_stored (hstored key hseen.symm)
    | cut _ _ _ => cases hseen
    | @minted keypair _ _ _ _ _ hkey =>
      rw [hkey key hseen.symm]
      exact keypair.length_privateKey

/-- A call without faults generates the pair that the next call loads. -/
theorem load_of_lookup_none {keypair : Keypair derive} (h : files.lookup path = none) :
    loadOrGenerateStaticKey codec path true (some keypair) ⟨false, none, none⟩ files =
      ((files.insert path (keyLine codec keypair.privateKey)).insert (publicKeyPath path)
        (keyLine codec keypair.publicKey), .ok keypair.privateKey) := by
  simp [loadOrGenerateStaticKey, h, writePrivateKeyFile, writeFile]

theorem load_of_lookup {optedIn : Bool} {generated : Option (Keypair derive)} {contents : String}
    (h : files.lookup path = some contents) :
    loadOrGenerateStaticKey codec path optedIn generated ⟨false, none, none⟩ files =
      (files, parsePrivateKey codec path contents) := by
  simp [loadOrGenerateStaticKey, h]

theorem load_cut {keypair : Keypair derive} (written : ℕ) (h : files.lookup path = none) :
    loadOrGenerateStaticKey codec path true (some keypair) ⟨false, some (.write written), none⟩
        files =
      (files.insert path (String.ofList ((keyLine codec keypair.privateKey).toList.take written)),
        .error s!"failed to write Noise private key {path.display}") := by
  simp [loadOrGenerateStaticKey, h, writePrivateKeyFile, writeFile]

/-! ### Restarts -/

/-- One start of the server, or the operator takes the private file away. -/
inductive Event (derive : Bytes → Bytes)
  /-- `dies` says that the process does not get to use the key. -/
  | start (optedIn : Bool) (generated : Option (Keypair derive)) (faults : Faults) (dies : Bool)
  | remove

/-- What there is to see of an event. -/
inductive Output (derive : Bytes → Bytes)
  | started (optedIn : Bool) (generated : Option (Keypair derive)) (key : Option Bytes)
  | removed

/-- The key that a start returned. -/
def Output.key : Output derive → Option Bytes
  | .started _ _ key => key
  | .removed => none

def step (codec : Base64.Codec) (path : Path) :
    Step FileSystem (Event derive) (Output derive)
  | files, .start optedIn generated faults dies =>
    let result := loadOrGenerateStaticKey codec path optedIn generated faults files
    some (result.1, some (.started optedIn generated
      (if dies then none else result.2.toOption)))
  | files, .remove => some (files.erase path, some .removed)

theorem called_of_step {optedIn : Bool} {generated : Option (Keypair derive)} {faults : Faults}
    {dies : Bool} {after : FileSystem} {emitted : Option (Output derive)}
    (h : step codec path files (.start optedIn generated faults dies) = some (after, emitted)) :
    ∃ seen, emitted = some (.started optedIn generated seen) ∧
      Called codec path files optedIn generated after seen := by
  simp only [step, Option.some.injEq, Prod.mk.injEq] at h
  obtain ⟨rfl, rfl⟩ := h
  refine ⟨_, rfl, ?_⟩
  have hcalled := called_of_load (rfl :
    loadOrGenerateStaticKey codec path optedIn generated faults files = (_, _))
  cases dies with
  | true => exact hcalled.dies
  | false => exact hcalled

/-! ### When the key changes -/

/-- The operator took the private file away and then opted in. -/
def Reminted (outputs : List (Output derive)) : Prop :=
  ∃ before after, outputs = before ++ .removed :: after ∧
    ∃ generated key, Output.started true generated key ∈ after

theorem Reminted.append {outputs : List (Output derive)} (h : Reminted outputs)
    (later : List (Output derive)) : Reminted (outputs ++ later) := by
  obtain ⟨before, after, rfl, generated, key, hmem⟩ := h
  exact ⟨before, after ++ later, by simp, generated, key, List.mem_append_left _ hmem⟩

theorem reminted_of_removed {outputs : List (Output derive)} (h : .removed ∈ outputs)
    (generated : Option (Keypair derive)) (key : Option Bytes) :
    Reminted (outputs ++ [.started true generated key]) := by
  obtain ⟨before, after, rfl⟩ := List.append_of_mem h
  exact ⟨before, after ++ [.started true generated key], by simp, generated, key, by simp⟩

/-- What has become of a key since it was returned. -/
inductive Followed (codec : Base64.Codec) (path : Path) (files : FileSystem) (key : Bytes)
    (since : List (Output derive)) : Prop
  | kept : stored codec path files = some key → Followed codec path files key since
  | lost : files.lookup path = none → .removed ∈ since → Followed codec path files key since
  | replaced : Reminted since → Followed codec path files key since

/-- Each key that was returned is kept, lost or replaced. -/
def AllFollowed (codec : Base64.Codec) (path : Path) (outputs : List (Output derive))
    (files : FileSystem) : Prop :=
  ∀ before output after key, outputs = before ++ output :: after → output.key = some key →
    Followed codec path files key after

theorem Followed.step {key : Bytes} {since : List (Output derive)} {event : Event derive}
    {after : FileSystem} {emitted : Option (Output derive)}
    (h : Followed codec path files key since)
    (hstep : step codec path files event = some (after, emitted)) :
    Followed codec path after key (since ++ emitted.toList) := by
  cases event with
  | remove =>
    obtain ⟨rfl, rfl⟩ : files.erase path = after ∧ some Output.removed = emitted := by
      simpa [StaticKey.step] using hstep
    cases h with
    | kept _ | lost _ _ =>
      exact .lost (by rw [HashMap.lookup_erase_ite, if_pos rfl]) (by simp)
    | replaced h => exact .replaced (h.append _)
  | start optedIn generated faults dies =>
    obtain ⟨seen, rfl, hcalled⟩ := called_of_step hstep
    cases h with
    | kept hstored =>
      cases hcalled with
      | unchanged _ => exact .kept hstored
      | cut hlookup _ _ | minted hlookup _ _ _ =>
        rw [stored, hlookup] at hstored
        cases hstored
    | lost hlookup hremoved =>
      cases hcalled with
      | unchanged _ => exact .lost hlookup (List.mem_append_left _ hremoved)
      | cut _ _ _ | minted _ _ _ _ => exact .replaced (reminted_of_removed hremoved _ _)
    | replaced h => exact .replaced (h.append _)

/-- The key that a start returns is then in the file. -/
theorem stored_of_step {event : Event derive} {after : FileSystem} {output : Output derive}
    {key : Bytes} (hstep : step codec path files event = some (after, some output))
    (hkey : output.key = some key) : stored codec path after = some key := by
  cases event with
  | remove =>
    obtain ⟨-, rfl⟩ : files.erase path = after ∧ Output.removed = output := by
      simpa [StaticKey.step] using hstep
    cases hkey
  | start optedIn generated faults dies =>
    obtain ⟨seen, heq, hcalled⟩ := called_of_step hstep
    obtain rfl := Option.some.inj heq
    obtain rfl : seen = some key := hkey
    cases hcalled with
    | unchanged hstored => exact hstored key rfl
    | @minted keypair _ _ hlookup hprivate _ hseen =>
      rw [hseen key rfl]
      exact stored_of_lookup keypair.length_privateKey hprivate

theorem AllFollowed.step {outputs : List (Output derive)} {event : Event derive}
    {after : FileSystem} {emitted : Option (Output derive)}
    (h : AllFollowed codec path outputs files)
    (hstep : step codec path files event = some (after, emitted)) :
    AllFollowed codec path (outputs ++ emitted.toList) after := by
  intro before output later key hsplit hkey
  cases emitted with
  | none =>
    rw [Option.toList_none, List.append_nil] at hsplit
    simpa using (h before output later key hsplit hkey).step hstep
  | some emitted =>
    rcases List.eq_nil_or_concat later with rfl | ⟨middle, final, rfl⟩
    · obtain ⟨rfl, hsingle⟩ := List.append_inj' hsplit rfl
      obtain rfl : emitted = output := by simpa using hsingle
      exact .kept (stored_of_step hstep hkey)
    · have hsplit' : outputs ++ [emitted] = (before ++ output :: middle) ++ [final] := by
        simpa using hsplit
      obtain ⟨hfront, hlast⟩ := List.append_inj' hsplit' rfl
      obtain rfl : emitted = final := by simpa using hlast
      rw [List.concat_eq_append]
      exact (h before output middle key hfront hkey).step hstep

/-- A start returns the key that an earlier start returned, unless the operator took the private
file away and opted in again between them. -/
def KeepsKey (outputs : List (Output derive)) (output : Output derive) : Prop :=
  ∀ before earlier middle key key', outputs = before ++ earlier :: middle →
    earlier.key = some key → output.key = some key' → key' = key ∨ Reminted (middle ++ [output])

/-- Whatever fails and whenever the process dies, the server keeps its key. -/
theorem keepsKey_of_run {events : List (Event derive)} {outputs : List (Output derive)}
    {last : FileSystem} (hrun : Run (step codec path) unrestricted files events outputs last) :
    EachAfter KeepsKey outputs := by
  refine hrun.history (AllFollowed codec path) (by intro before _ _ _ h; simp at h)
    (fun _ _ _ _ _ h _ hstep ↦ h.step hstep) ?_
  intro outputs files event after output hall _ hstep before earlier middle key key' hsplit hkey
    hkey'
  have hstored := stored_of_step hstep hkey'
  have hfollowed := (hall before earlier middle key hsplit hkey).step hstep
  cases hfollowed with
  | kept hkept =>
    rw [hstored] at hkept
    exact .inl (Option.some.inj hkept)
  | lost hlookup _ =>
    rw [stored, hlookup] at hstored
    cases hstored
  | replaced h => exact .inr h

/-! ### Where the keys come from -/

/-- A start that was opted in generated the pair. -/
def Minted (outputs : List (Output derive)) (keypair : Keypair derive) : Prop :=
  ∃ key, Output.started true (some keypair) key ∈ outputs

theorem Minted.append {outputs : List (Output derive)} {keypair : Keypair derive}
    (h : Minted outputs keypair) (later : List (Output derive)) :
    Minted (outputs ++ later) keypair := by
  obtain ⟨key, hmem⟩ := h
  exact ⟨key, List.mem_append_left _ hmem⟩

/-- The files come from one pair, and the public file is only written once the private one is
complete. -/
structure Provisioned (codec : Base64.Codec) (path : Path) (outputs : List (Output derive))
    (files : FileSystem) : Prop where
  privateFile : files.lookup path = none ∨
    ∃ keypair, Minted outputs keypair ∧ HoldsPart codec path files keypair.privateKey
  publicFile : .removed ∈ outputs ∨ files.lookup (publicKeyPath path) = none ∨
    ∃ keypair, Minted outputs keypair ∧
      files.lookup path = some (keyLine codec keypair.privateKey) ∧
      HoldsPart codec (publicKeyPath path) files keypair.publicKey

theorem holdsPart_of_lookup {key : Bytes} (h : files.lookup path = some (keyLine codec key)) :
    HoldsPart codec path files key := by
  refine ⟨(keyLine codec key).toList.length, ?_⟩
  rw [h, List.take_length, String.ofList_toList]

theorem minted_started {outputs : List (Output derive)} {keypair : Keypair derive}
    {seen : Option Bytes} : Minted (outputs ++ [.started true (some keypair) seen]) keypair :=
  ⟨seen, by simp⟩

theorem Provisioned.step {outputs : List (Output derive)} {event : Event derive}
    {after : FileSystem} {emitted : Option (Output derive)}
    (h : Provisioned codec path outputs files)
    (hstep : step codec path files event = some (after, emitted)) :
    Provisioned codec path (outputs ++ emitted.toList) after := by
  cases event with
  | remove =>
    obtain ⟨rfl, rfl⟩ : files.erase path = after ∧ some Output.removed = emitted := by
      simpa [StaticKey.step] using hstep
    exact ⟨.inl (by rw [HashMap.lookup_erase_ite, if_pos rfl]), .inl (by simp)⟩
  | start optedIn generated faults dies =>
    obtain ⟨seen, rfl, hcalled⟩ := called_of_step hstep
    have hpublic (hlookup : files.lookup path = none) :
        .removed ∈ outputs ∨ files.lookup (publicKeyPath path) = none := by
      rcases h.publicFile with hremoved | hnone | ⟨keypair, -, hsome, -⟩
      · exact .inl hremoved
      · exact .inr hnone
      · rw [hlookup] at hsome
        cases hsome
    cases hcalled with
    | unchanged _ =>
      constructor
      · apply h.privateFile.imp_right
        rintro ⟨keypair, hminted, hholds⟩
        exact ⟨keypair, hminted.append _, hholds⟩
      · apply h.publicFile.imp (List.mem_append_left _)
        apply Or.imp_right
        rintro ⟨keypair, hminted, hholds⟩
        exact ⟨keypair, hminted.append _, hholds⟩
    | @cut keypair _ hlookup hprivate hkept =>
      constructor
      · exact hprivate.imp_right fun hholds ↦ ⟨keypair, minted_started, hholds⟩
      · rw [hkept]
        exact (hpublic hlookup).imp (List.mem_append_left _) .inl
    | @minted keypair _ _ hlookup hprivate hwritten _ =>
      constructor
      · exact .inr ⟨keypair, minted_started, holdsPart_of_lookup hprivate⟩
      · apply (hpublic hlookup).imp (List.mem_append_left _)
        intro hnone
        rw [← hnone]
        exact hwritten.imp_right fun hholds ↦ ⟨keypair, minted_started, hprivate, hholds⟩

/-- On a disk without an identity, every key that a start returns was generated as a whole by a
start that was opted in, however the files were cut; and until the operator takes the private file
away, a key in the public file is the public half of the key in use. -/
theorem key_minted {events : List (Event derive)} {outputs : List (Output derive)}
    {last : FileSystem} (hprivate : files.lookup path = none)
    (hpublic : files.lookup (publicKeyPath path) = none)
    (hrun : Run (step codec path) unrestricted files events outputs last) :
    EachAfter (fun before output ↦ ∀ key, output.key = some key →
        ∃ keypair, Minted (before ++ [output]) keypair ∧ keypair.privateKey = key) outputs ∧
      (.removed ∉ outputs → ∀ key, published codec path last = some key →
        ∃ secret, stored codec path last = some secret ∧ derive secret = key) := by
  have hstart : Provisioned codec path ([] : List (Output derive)) files :=
    ⟨.inl hprivate, .inr (.inl hpublic)⟩
  constructor
  · refine hrun.history (Provisioned codec path) hstart (fun _ _ _ _ _ h _ hstep ↦ h.step hstep) ?_
    intro outputs files event after output h _ hstep key hkey
    have hstored := stored_of_step hstep hkey
    rcases (h.step hstep).privateFile with hnone | ⟨keypair, hminted, hholds⟩
    · rw [stored, hnone] at hstored
      cases hstored
    · exact ⟨keypair, hminted, (hholds.eq_of_stored keypair.length_privateKey hstored).symm⟩
  · intro hremoved key hpublished
    have h := hrun.invariant (Provisioned codec path) hstart fun _ _ _ _ _ h _ hstep ↦ h.step hstep
    rcases h.publicFile with hmem | hnone | ⟨keypair, -, hcomplete, hholds⟩
    · exact absurd hmem hremoved
    · rw [published, stored, hnone] at hpublished
      cases hpublished
    · refine ⟨keypair.privateKey, stored_of_lookup keypair.length_privateKey hcomplete, ?_⟩
      rw [← keypair.publicKey_eq]
      exact (hholds.eq_of_stored keypair.length_publicKey hpublished).symm

end

/-! ### A sample run -/

namespace Sample

def privateKey : Bytes :=
  [0x77, 0x07, 0x6d, 0x0a, 0x73, 0x18, 0xa5, 0x7d, 0x3c, 0x16, 0xc1, 0x72, 0x51, 0xb2, 0x66, 0x45,
    0xdf, 0x4c, 0x2f, 0x87, 0xeb, 0xc0, 0x99, 0x2a, 0xb1, 0x77, 0xfb, 0xa5, 0x1d, 0xb9, 0x2c, 0x2a]

def publicKey : Bytes :=
  [0x85, 0x20, 0xf0, 0x09, 0x89, 0x30, 0xa7, 0x54, 0x74, 0x8b, 0x7d, 0xdc, 0xb4, 0x3e, 0xf7, 0x5a,
    0x0d, 0xbf, 0x3a, 0x0d, 0x26, 0x38, 0x1a, 0xf4, 0xeb, 0xa4, 0xa9, 0x8e, 0xaa, 0x9b, 0x4e, 0x6a]

/-- The public key of the one private key of the sample. -/
def derive (_ : Bytes) : Bytes := publicKey

def keypair : Keypair derive where
  privateKey := privateKey
  publicKey := publicKey
  length_privateKey := rfl
  length_publicKey := rfl
  publicKey_eq := rfl

def codec : Base64.Codec := Base64.standard.codec

def path : Path := ⟨["etc", "ghostbro"], "server.key"⟩

/-- The first start dies after eight symbols, so the operator clears the file; the second start
generates the pair again and the third one loads it. -/
def events : List (Event derive) :=
  [.start true (some keypair) ⟨false, some (.write 8), none⟩ true, .remove,
    .start true (some keypair) ⟨false, none, none⟩ false,
    .start false none ⟨false, none, none⟩ false]

def outputs : List (Output derive) :=
  [.started true (some keypair) none, .removed, .started true (some keypair) (some privateKey),
    .started false none (some privateKey)]

def cutFiles : FileSystem :=
  AList.insert path (String.ofList ((keyLine codec privateKey).toList.take 8)) ∅

/-- Both key files next to the others. -/
def withKeys (others : FileSystem) : FileSystem :=
  (others.insert path (keyLine codec privateKey)).insert (publicKeyPath path)
    (keyLine codec publicKey)

def files : FileSystem := withKeys (cutFiles.erase path)

theorem step_start_of_lookup_none {others : FileSystem} (hlookup : others.lookup path = none) :
    step codec path others (.start true (some keypair) ⟨false, none, none⟩ false) =
      some (withKeys others, some (.started true (some keypair) (some privateKey))) := by
  rw [step, load_of_lookup_none hlookup]
  rfl

theorem step_start_withKeys (others : FileSystem) :
    step codec path (withKeys others) (.start false (@none (Keypair derive))
        ⟨false, none, none⟩ false) =
      some (withKeys others, some (.started false none (some privateKey))) := by
  have hlookup : (withKeys others).lookup path = some (keyLine codec privateKey) := by
    rw [withKeys, HashMap.lookup_insert_ite, if_neg (publicKeyPath_ne path).symm,
      HashMap.lookup_insert_ite, if_pos rfl]
  rw [step, load_of_lookup hlookup, parsePrivateKey_keyLine (by rfl)]
  rfl

theorem run : Run (step codec path) unrestricted ∅ events outputs files := by
  have hcut : step codec path ∅ (.start true (some keypair) ⟨false, some (.write 8), none⟩ true) =
      some (cutFiles, some (.started true (some keypair) none)) := by
    rw [step, load_cut 8 rfl]
    rfl
  have hremoved : step codec path cutFiles .remove =
      some (cutFiles.erase path, some (@Output.removed derive)) := rfl
  have herased : (cutFiles.erase path).lookup path = none := by
    rw [HashMap.lookup_erase_ite, if_pos rfl]
  exact .snoc (.snoc (.snoc (.snoc .nil trivial hcut) trivial hremoved) trivial
    (step_start_of_lookup_none herased)) trivial (step_start_withKeys _)

/-- The first start generates the pair and the second one loads it. -/
def keptEvents : List (Event derive) :=
  [.start true (some keypair) ⟨false, none, none⟩ false,
    .start false none ⟨false, none, none⟩ false]

def keptOutputs : List (Output derive) :=
  [.started true (some keypair) (some privateKey), .started false none (some privateKey)]

theorem run_kept :
    Run (step codec path) unrestricted ∅ keptEvents keptOutputs (withKeys ∅) :=
  .snoc (.snoc .nil trivial (step_start_of_lookup_none rfl)) trivial (step_start_withKeys ∅)

theorem published_withKeys (others : FileSystem) :
    published codec path (withKeys others) = some publicKey := by
  apply stored_of_lookup keypair.length_publicKey
  rw [withKeys, HashMap.lookup_insert_ite, if_pos rfl]
  rfl

end Sample

theorem keepsKey_of_run_sample :
    Run (step Sample.codec Sample.path) unrestricted ∅ Sample.events Sample.outputs Sample.files ∧
      EachAfter KeepsKey Sample.outputs :=
  ⟨Sample.run, keepsKey_of_run Sample.run⟩

theorem key_minted_sample :
    EachAfter (fun before output ↦ ∀ key, output.key = some key →
        ∃ keypair, Minted (before ++ [output]) keypair ∧ keypair.privateKey = key)
          Sample.outputs ∧
      (.removed ∉ Sample.outputs → ∀ key,
        published Sample.codec Sample.path Sample.files = some key →
          ∃ secret, stored Sample.codec Sample.path Sample.files = some secret ∧
            Sample.derive secret = key) ∧
      Run (step Sample.codec Sample.path) unrestricted ∅ Sample.keptEvents Sample.keptOutputs
        (Sample.withKeys ∅) ∧
      published Sample.codec Sample.path (Sample.withKeys ∅) = some Sample.publicKey ∧
      ∃ secret, stored Sample.codec Sample.path (Sample.withKeys ∅) = some secret ∧
        Sample.derive secret = Sample.publicKey := by
  obtain ⟨hgenerated, hpublic⟩ := key_minted rfl rfl Sample.run
  have hkept := (key_minted rfl rfl Sample.run_kept).2 (by simp [Sample.keptOutputs])
  have hpublished := Sample.published_withKeys ∅
  exact ⟨hgenerated, hpublic, Sample.run_kept, hpublished, hkept _ hpublished⟩

end Ghostbro.StaticKey
