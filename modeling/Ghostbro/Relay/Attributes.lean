import Ghostbro.Relay.Elements
import Ghostbro.Relay.Entities

/-!
# Attributes of a tag

`attr_value` does not take the list of attributes apart.  It searches the tag for the name, and
takes the first occurrence that stands behind a blank and in front of an equals sign.  In a tag
with quoted values that is the attribute itself, unless the value of an earlier attribute holds a
blank, the name and an equals sign: then the link gets its target from there.
-/

namespace Ghostbro.Relay.Normalize

open Text

/-! ### Searching without offsets -/

/-- What follows the equals sign behind a name. -/
def behindName (behind : List Char) : Option (List Char) :=
  match behind.dropWhile isWhitespace with
  | '=' :: region => some (region.dropWhile isWhitespace)
  | _ => none

/-- What follows the equals sign, if the text starts with the attribute. -/
def named (attr text : List Char) : Option (List Char) :=
  if startsWith attr text then behindName (text.drop attr.length) else none

/-- The region of the first attribute that is at the start or behind a blank. -/
def findValue (attr : List Char) : Bool → List Char → Option (List Char)
  | _, [] => none
  | start, symbol :: rest =>
    match if start then named attr (symbol :: rest) else none with
    | some region => some region
    | none => findValue attr (isAsciiWhitespace symbol.toNat) rest

/-- The value that a region starts with. -/
def regionValue (region : List Char) : List Char :=
  match region.dropWhile isWhitespace with
  | '"' :: rest => decodeRest (rest.takeWhile (· ≠ '"'))
  | '\'' :: rest => decodeRest (rest.takeWhile (· ≠ '\''))
  | region =>
    decodeRest (region.takeWhile fun symbol ↦
      !(isAsciiWhitespace symbol.toNat || symbol = '>'))

/-- A name may start behind this text. -/
def endsBlank (start : Bool) (done : List Char) : Bool :=
  match done.getLast? with
  | none => start
  | some symbol => isAsciiWhitespace symbol.toNat

theorem parseAttrValue_eq (region : List Char) :
    parseAttrValue region = some (regionValue region) := by
  unfold parseAttrValue
  split
  · next hquote =>
    rw [regionValue, hquote]
    exact decodeEntities_eq _
  · next hquote =>
    rw [regionValue, hquote]
    exact decodeEntities_eq _
  · next hdouble hsingle =>
    unfold regionValue
    split
    · next hquote => exact absurd hquote (hdouble _)
    · next hquote => exact absurd hquote (hsingle _)
    · exact decodeEntities_eq _

theorem endsBlank_nil (start : Bool) : endsBlank start [] = start := rfl

theorem endsBlank_append_singleton (start : Bool) (done : List Char) (symbol : Char) :
    endsBlank start (done ++ [symbol]) = isAsciiWhitespace symbol.toNat := by
  rw [endsBlank, List.getLast?_concat]

theorem endsBlank_append (start : Bool) (done text : List Char) :
    endsBlank start (done ++ text) = endsBlank (endsBlank start done) text := by
  rcases List.eq_nil_or_concat text with rfl | ⟨init, last, rfl⟩
  · rw [List.append_nil, endsBlank_nil]
  · rw [List.concat_eq_append, ← List.append_assoc, endsBlank_append_singleton,
      endsBlank_append_singleton]

theorem endsBlank_cons (start : Bool) (symbol : Char) (text : List Char) :
    endsBlank start (symbol :: text) = endsBlank (isAsciiWhitespace symbol.toNat) text :=
  endsBlank_append start [symbol] text

variable {attr front tail : List Char}

/-- Text in which no name starts is passed. -/
theorem findValue_append (start : Bool)
    (h : ∀ text back, front = text ++ back → back ≠ [] → named attr (back ++ tail) = none) :
    findValue attr start (front ++ tail) = findValue attr (endsBlank start front) tail := by
  induction front generalizing start with
  | nil => rfl
  | cons symbol front ih =>
    have hhead : named attr (symbol :: (front ++ tail)) = none :=
      h [] (symbol :: front) rfl (by simp)
    rw [List.cons_append, findValue, hhead, ite_self, endsBlank_cons]
    apply ih
    intro text back hparts
    exact h (symbol :: text) back (by rw [hparts]; rfl)

/-! ### The byte before a name -/

/-- The last byte of a character is a blank if the character is. -/
theorem exists_utf8EncodeChar_concat (symbol : Char) :
    ∃ bytes byte, String.utf8EncodeChar symbol = bytes ++ [byte] ∧
      isAsciiWhitespace byte.toNat = isAsciiWhitespace symbol.toNat := by
  have hencoded : String.utf8EncodeChar symbol = String.utf8EncodeChar symbol := rfl
  conv_rhs at hencoded => rw [String.utf8EncodeChar]
  have hlarge {code : ℕ} (h : 127 < code) : isAsciiWhitespace code = false := by
    simp only [isAsciiWhitespace, Bool.or_eq_false_iff, decide_eq_false_iff_not]
    omega
  -- the last byte of a longer encoding is 128 at least
  split_ifs at hencoded with hone htwo hthree
  · refine ⟨[], _, hencoded, ?_⟩
    have hbyte : (UInt8.ofNat symbol.val.toNat).toNat = symbol.toNat := by
      change symbol.toNat ≤ 127 at hone
      change symbol.toNat % 256 = symbol.toNat
      omega
    exact congrArg isAsciiWhitespace hbyte
  all_goals
    have hlast : isAsciiWhitespace (UInt8.ofNat (symbol.val.toNat % 64 + 128)).toNat =
        isAsciiWhitespace symbol.toNat := by
      have hsymbol : isAsciiWhitespace symbol.toNat = false := hlarge (not_le.mp hone)
      rw [hsymbol, UInt8.toNat_ofNat']
      apply hlarge
      omega
  · exact ⟨[_], _, hencoded, hlast⟩
  · exact ⟨[_, _], _, hencoded, hlast⟩
  · exact ⟨[_, _, _], _, hencoded, hlast⟩

theorem byteAt_before (done after : List Char) (symbol : Char) :
    (byteAt (done ++ symbol :: after) (byteLen (done ++ [symbol]) - 1)).map
      (fun byte ↦ isAsciiWhitespace byte.toNat) = some (isAsciiWhitespace symbol.toNat) := by
  obtain ⟨bytes, byte, hencoded, hblank⟩ := exists_utf8EncodeChar_concat symbol
  have hlength : byteLen (done ++ [symbol]) - 1 =
      (done.flatMap String.utf8EncodeChar ++ bytes).length := by
    rw [← length_flatMap_utf8EncodeChar, List.flatMap_append, List.flatMap_singleton, hencoded]
    simp only [List.length_append, List.length_singleton]
    omega
  have hbytes : (done ++ symbol :: after).flatMap String.utf8EncodeChar =
      (done.flatMap String.utf8EncodeChar ++ bytes) ++
        byte :: after.flatMap String.utf8EncodeChar := by
    rw [List.flatMap_append, List.flatMap_cons, hencoded]
    simp
  rw [byteAt, hbytes, hlength, List.getElem?_append_right le_rfl, Nat.sub_self]
  exact congrArg some hblank

/-! ### The loop -/

theorem isWhitespace_of_printable {symbol : Char} (h : 33 ≤ symbol.toNat)
    (h' : symbol.toNat ≤ 126) :
    isWhitespace symbol = false := by
  simp only [isWhitespace, Bool.or_eq_false_iff, Bool.and_eq_false_iff, decide_eq_false_iff_not]
  omega

theorem isAsciiWhitespace_of_printable {code : ℕ} (h : 33 ≤ code) :
    isAsciiWhitespace code = false := by
  simp only [isAsciiWhitespace, Bool.or_eq_false_iff, decide_eq_false_iff_not]
  omega

theorem isWhitespace_toLower (symbol : Char) :
    isWhitespace symbol.toLower = isWhitespace symbol := by
  have hcode := toNat_toLower symbol
  split_ifs at hcode with hupper
  · rw [isWhitespace_of_printable (by omega) (by omega),
      isWhitespace_of_printable (by omega) (by omega)]
  · rw [isWhitespace, isWhitespace, hcode]

theorem isAsciiWhitespace_toLower (symbol : Char) :
    isAsciiWhitespace symbol.toLower.toNat = isAsciiWhitespace symbol.toNat := by
  have hcode := toNat_toLower symbol
  split_ifs at hcode with hupper
  · rw [isAsciiWhitespace_of_printable (by omega), isAsciiWhitespace_of_printable (by omega)]
  · rw [hcode]

theorem dropWhile_toAsciiLowercase (text : List Char) :
    (toAsciiLowercase text).dropWhile isWhitespace =
      toAsciiLowercase (text.dropWhile isWhitespace) := by
  have hblank : isWhitespace ∘ Char.toLower = isWhitespace := by
    funext symbol
    exact isWhitespace_toLower symbol
  rw [toAsciiLowercase, toAsciiLowercase, List.dropWhile_map, hblank]

/-- The equals sign in the lower-case copy is one of the tag. -/
theorem stripPrefix_toAsciiLowercase (behind : List Char) :
    (stripPrefix ['='] ((toAsciiLowercase behind).dropWhile isWhitespace)).map
        (·.dropWhile isWhitespace) = (behindName behind).map toAsciiLowercase := by
  rw [dropWhile_toAsciiLowercase, behindName]
  cases behind.dropWhile isWhitespace with
  | nil => rfl
  | cons symbol region =>
    have hequals : symbol.toLower = '=' ↔ symbol = '=' := toLower_eq_iff (by decide)
    have hlower : toAsciiLowercase (symbol :: region) = symbol.toLower :: toAsciiLowercase region :=
      rfl
    rw [hlower, stripPrefix]
    by_cases h : symbol = '='
    · rw [h]
      exact congrArg some (dropWhile_toAsciiLowercase region)
    · have hne : '=' ≠ symbol.toLower := fun heq ↦ h (hequals.mp heq.symm)
      rw [if_neg (by simpa using hne)]
      split
      · next heq => exact absurd (List.cons.inj heq).1 h
      · rfl

theorem behindName_suffix {behind region : List Char} (h : behindName behind = some region) :
    region <:+ behind := by
  unfold behindName at h
  split at h
  · next rest hrest =>
    obtain rfl := Option.some.inj h
    have hbehind : '=' :: rest <:+ behind := hrest ▸ List.dropWhile_suffix isWhitespace
    exact ((List.dropWhile_suffix isWhitespace).trans (List.suffix_cons '=' rest)).trans hbehind
  · contradiction

/-- The check of the byte before a name. -/
theorem before_ok (done after : List Char) :
    (if byteLen done = 0 then some true
      else (byteAt (toAsciiLowercase (done ++ after)) (byteLen done - 1)).map
        fun byte ↦ isAsciiWhitespace byte.toNat) = some (endsBlank true done) := by
  rcases List.eq_nil_or_concat done with rfl | ⟨init, last, rfl⟩
  · rfl
  · have hpos : byteLen (init.concat last) ≠ 0 := by
      have hsize := last.utf8Size_pos
      rw [List.concat_eq_append, byteLen_append, byteLen_cons]
      omega
    have hbyte := byteAt_before (toAsciiLowercase init) (toAsciiLowercase after) last.toLower
    have hlower : toAsciiLowercase init ++ [last.toLower] = toAsciiLowercase (init ++ [last]) :=
      (toAsciiLowercase_append init [last]).symm
    have htext : toAsciiLowercase (init ++ [last] ++ after) =
        toAsciiLowercase init ++ last.toLower :: toAsciiLowercase after := by
      rw [toAsciiLowercase_append, ← hlower, List.append_assoc]
      rfl
    rw [hlower, byteLen_toAsciiLowercase, isAsciiWhitespace_toLower] at hbyte
    rw [if_neg hpos, List.concat_eq_append, htext, hbyte, endsBlank_append_singleton]

theorem startsWith_iff {text : List Char} : startsWith attr text = true ↔
    ∃ name behind, text = name ++ behind ∧ toAsciiLowercase name = attr := by
  constructor
  · intro h
    obtain ⟨name, behind, rfl, hlength, -⟩ := startsWith_parts h
    have hstart := List.isPrefixOf_iff_prefix.mp h
    rw [toAsciiLowercase_append] at hstart
    have hlower : (toAsciiLowercase name).length = attr.length := by
      rw [toAsciiLowercase, List.length_map, hlength]
    have hsame := List.prefix_of_prefix_length_le hstart (List.prefix_append _ _) hlower.ge
    exact ⟨name, behind, rfl, (hsame.eq_of_length hlower.symm).symm⟩
  · rintro ⟨name, behind, rfl, rfl⟩
    rw [startsWith, toAsciiLowercase_append, List.isPrefixOf_iff_prefix]
    exact List.prefix_append _ _

/-- The value behind an equals sign is read where it stands in the tag. -/
theorem value_step {text before behind : List Char} (htext : text = before ++ behind) (ok : Bool)
    {later : Option (Option (List Char))} {value : Option (List Char)}
    (hlater : later = some (value.map regionValue)) :
    (match ok, stripPrefix ['='] ((toAsciiLowercase behind).dropWhile isWhitespace) with
      | true, some value =>
        if byteLen (value.dropWhile isWhitespace) ≤ byteLen text then
          (startingAt text (byteLen text - byteLen (value.dropWhile isWhitespace))).bind
            fun region ↦ (parseAttrValue region).map some
        else none
      | _, _ => later) =
      some (Option.map regionValue (match if ok then behindName behind else none with
        | some region => some region
        | none => value)) := by
  have hequals := stripPrefix_toAsciiLowercase behind
  cases ok with
  | false => exact hlater
  | true =>
    cases hbehind : behindName behind with
    | none =>
      rw [hbehind, Option.map_none, Option.map_eq_none_iff] at hequals
      rw [hequals]
      exact hlater
    | some region =>
      rw [hbehind, Option.map_some] at hequals
      obtain ⟨stripped, hstripped, hregion⟩ := Option.map_eq_some_iff.mp hequals
      obtain ⟨front, rfl⟩ := behindName_suffix hbehind
      have hoffset : byteLen text - byteLen region = byteLen (before ++ front) := by
        rw [htext, ← List.append_assoc, byteLen_append, Nat.add_sub_cancel]
      have hstart : startingAt text (byteLen (before ++ front)) = some region := by
        rw [htext, ← List.append_assoc, startingAt_append]
      have hle : byteLen region ≤ byteLen text := by
        rw [htext, byteLen_append, byteLen_append]
        omega
      simp only [hstripped, hregion, byteLen_toAsciiLowercase, if_pos hle, hoffset, hstart,
        Option.bind_some, parseAttrValue_eq, Option.map_some, if_true]

section Loop

variable {first : Char} {name done rest : List Char} {fuel : ℕ}

/-- A name does not start inside itself. -/
theorem named_inside (hfirst : first ∉ name) {occurrence behind : List Char}
    (hoccurrence : toAsciiLowercase occurrence = first :: name) {text back : List Char}
    (hparts : occurrence.tail = text ++ back) (hback : back ≠ []) :
    named (first :: name) (back ++ behind) = none := by
  cases back with
  | nil => exact absurd rfl hback
  | cons symbol back =>
    have hmem : symbol ∈ occurrence.tail := by
      rw [hparts]
      exact List.mem_append_right text List.mem_cons_self
    have hname : toAsciiLowercase occurrence.tail = name := by
      have htail := congrArg List.tail hoccurrence
      rwa [toAsciiLowercase, ← List.map_tail] at htail
    have hne : first ≠ symbol.toLower := by
      rintro rfl
      exact hfirst (hname ▸ List.mem_map_of_mem hmem)
    have hstart : startsWith (first :: name) (symbol :: back ++ behind) = false := by
      have hlower : toAsciiLowercase (symbol :: back ++ behind) =
        symbol.toLower :: toAsciiLowercase (back ++ behind) := rfl
      rw [startsWith, hlower, List.isPrefixOf_cons_cons]
      simp [hne]
    rw [named, hstart]
    rfl

/-- At an occurrence of the name, what is before and behind it decides. -/
theorem findValue_found (hfirst : first ∉ name) {start : Bool} {front occurrence behind : List Char}
    (hfind : breakAt (startsWith (first :: name)) rest = some (front, occurrence ++ behind))
    (hlength : occurrence.length = (first :: name).length) :
    findValue (first :: name) start rest =
      match if endsBlank start front then behindName behind else none with
      | some region => some region
      | none => findValue (first :: name) (endsBlank start (front ++ occurrence)) behind := by
  obtain ⟨rfl, hfound⟩ := breakAt_eq_some hfind
  have hoccurrence : toAsciiLowercase occurrence = first :: name := by
    obtain ⟨other, behind', hparts, hother⟩ := startsWith_iff.mp hfound
    have hsame : occurrence.length = other.length := by
      rw [hlength, ← hother, toAsciiLowercase, List.length_map]
    rw [(List.append_inj hparts hsame).1, hother]
  have hnamed : named (first :: name) (occurrence ++ behind) = behindName behind := by
    rw [named, if_pos hfound, ← hlength, List.drop_left]
  rw [findValue_append]
  · cases occurrence with
    | nil => contradiction
    | cons symbol occurrence =>
      have hinside : findValue (first :: name) (isAsciiWhitespace symbol.toNat)
          (occurrence ++ behind) =
            findValue (first :: name) (endsBlank start (front ++ symbol :: occurrence)) behind := by
        rw [findValue_append, endsBlank_append, endsBlank_cons]
        intro text back
        exact named_inside hfirst hoccurrence
      rw [← hnamed, ← hinside]
      rfl
  · intro text back hparts hback
    rw [named, breakAt_first hfind hparts hback]
    rfl

/-- `attr_value` parses the region of the first attribute. -/
theorem attrValueLoop_eq (hfirst : first ∉ name) (hfuel : rest.length < fuel) :
    attrValueLoop (done ++ rest) (toAsciiLowercase (done ++ rest)) (first :: name) fuel
        (byteLen done) =
      some ((findValue (first :: name) (endsBlank true done) rest).map regionValue) := by
  induction fuel generalizing done rest with
  | zero => omega
  | succ fuel ih =>
    rw [attrValueLoop, startingAt_toAsciiLowercase]
    simp only [Option.bind_eq_bind, Option.bind_some, find_toAsciiLowercase]
    cases hfind : breakAt (startsWith (first :: name)) rest with
    | none =>
      have hnone := @findValue_append (first :: name) rest [] (endsBlank true done) (by
        intro text back hparts hback
        rw [named, List.append_nil, breakAt_eq_none hfind hparts]
        rfl)
      rw [List.append_nil] at hnone
      rw [hnone]
      rfl
    | some parts =>
      obtain ⟨front, tail⟩ := parts
      have hparts := breakAt_eq_some hfind
      obtain ⟨occurrence, behind, rfl, hlength, hbytes⟩ := startsWith_parts hparts.2
      have hrest := hparts.1
      rw [findValue_found hfirst hfind hlength]
      have hbefore := before_ok (done ++ front) (occurrence ++ behind)
      have htext : done ++ rest = (done ++ front ++ occurrence) ++ behind := by
        rw [hrest]
        simp only [List.append_assoc]
      have hoffset : byteLen done + byteLen front + byteLen (first :: name) =
          byteLen (done ++ front ++ occurrence) := by
        rw [byteLen_append, byteLen_append, hbytes]
      have hlowered : startingAt (toAsciiLowercase (done ++ rest))
          (byteLen done + byteLen front + byteLen (first :: name)) =
            some (toAsciiLowercase behind) := by
        rw [hoffset, htext, startingAt_toAsciiLowercase]
      have hlater : attrValueLoop (done ++ rest) (toAsciiLowercase (done ++ rest)) (first :: name)
          fuel (byteLen done + byteLen front + byteLen (first :: name)) =
            some ((findValue (first :: name) (endsBlank (endsBlank true done)
              (front ++ occurrence)) behind).map regionValue) := by
        have hshorter : behind.length < fuel := by
          rw [hrest, List.length_append, List.length_append, hlength, List.length_cons] at hfuel
          omega
        rw [hoffset, htext, ih hshorter, ← endsBlank_append, List.append_assoc]
      have hstep := @value_step (done ++ rest) (done ++ front ++ occurrence) behind htext
      rw [byteLen_append, List.append_assoc, ← hrest, endsBlank_append] at hbefore
      dsimp only [Option.map_some]
      split
      · next hstart =>
        rw [if_pos hstart, Option.some_inj] at hbefore
        rw [hlowered, Option.bind_some, ← hbefore]
        exact hstep true hlater
      · next hstart =>
        rw [if_neg hstart] at hbefore
        rw [hbefore, Option.bind_some, hlowered, Option.bind_some]
        exact hstep _ hlater

theorem attrValue_eq (hfirst : first ∉ name) (rawTag : List Char) :
    attrValue rawTag (first :: name) =
      some ((findValue (first :: name) true rawTag).map regionValue) :=
  @attrValueLoop_eq first name [] rawTag _ hfirst (Nat.lt_succ_of_le (length_le_byteLen rawTag))

end Loop

/-! ### What a name starts -/

theorem behindName_eq_some {behind region : List Char} : behindName behind = some region ↔
    ∃ gap rest, behind = gap ++ '=' :: rest ∧ (∀ symbol ∈ gap, isWhitespace symbol = true) ∧
      rest.dropWhile isWhitespace = region := by
  constructor
  · intro h
    unfold behindName at h
    split at h
    · next rest hrest =>
      refine ⟨behind.takeWhile isWhitespace, rest, ?_, ?_, Option.some.inj h⟩
      · rw [← hrest, List.takeWhile_append_dropWhile]
      · intro symbol hsymbol
        exact List.mem_takeWhile_imp hsymbol
    · contradiction
  · rintro ⟨gap, rest, rfl, hgap, rfl⟩
    rw [behindName, List.dropWhile_append_of_pos hgap, List.dropWhile_cons_of_neg (by decide)]
    rfl

/-- The attribute at the start of a text: the name, blanks and an equals sign. -/
theorem named_eq_some {text region : List Char} : named attr text = some region ↔
    ∃ name gap rest, text = name ++ (gap ++ '=' :: rest) ∧ toAsciiLowercase name = attr ∧
      (∀ symbol ∈ gap, isWhitespace symbol = true) ∧ rest.dropWhile isWhitespace = region := by
  constructor
  · intro h
    unfold named at h
    split at h
    · next hstart =>
      obtain ⟨name, behind, rfl, rfl⟩ := startsWith_iff.mp hstart
      rw [toAsciiLowercase, List.length_map, List.drop_left, behindName_eq_some] at h
      obtain ⟨gap, rest, rfl, hgap, hregion⟩ := h
      exact ⟨name, gap, rest, rfl, rfl, hgap, hregion⟩
    · contradiction
  · rintro ⟨name, gap, rest, rfl, rfl, hgap, hregion⟩
    have hstart : startsWith (toAsciiLowercase name) (name ++ (gap ++ '=' :: rest)) = true :=
      startsWith_iff.mpr ⟨name, _, rfl, rfl⟩
    rw [named, if_pos hstart, toAsciiLowercase, List.length_map, List.drop_left,
      behindName_eq_some]
    exact ⟨gap, rest, rfl, hgap, hregion⟩

/-- Text without blanks that no name can start in is passed. -/
theorem findValue_skip {word : List Char}
    (hword : ∀ symbol ∈ word, isAsciiWhitespace symbol.toNat = false) (rest : List Char) :
    findValue attr false (word ++ rest) = findValue attr false rest := by
  induction word with
  | nil => rfl
  | cons symbol word ih =>
    rw [List.forall_mem_cons] at hword
    rw [List.cons_append, findValue, hword.1]
    exact ih hword.2

/-! ### Written values -/

/-- A symbol of a value as it is written. -/
def encodeSymbol (symbol : Char) : List Char :=
  if symbol = '&' then "&amp;".toList
  else if symbol = '<' then "&lt;".toList
  else if symbol = '>' then "&gt;".toList
  else if symbol = '"' then "&quot;".toList
  else [symbol]

def encodeValue (value : List Char) : List Char := value.flatMap encodeSymbol

/-- The value holds a blank, the name and an equals sign. -/
def Mentions (attr value : List Char) : Prop :=
  ∃ front blank name gap after, value = front ++ blank :: (name ++ (gap ++ '=' :: after)) ∧
    isAsciiWhitespace blank.toNat = true ∧ toAsciiLowercase name = attr ∧
    ∀ symbol ∈ gap, isWhitespace symbol = true

theorem forall_mem_of_all {p : Char → Prop} [DecidablePred p] {text : List Char}
    (h : (text.all fun symbol ↦ p symbol) = true) : ∀ symbol ∈ text, p symbol := by
  simpa using h

/-- An entity that stands for a symbol. -/
structure EntityOf (symbol : Char) (entity : List Char) : Prop where
  written : encodeSymbol symbol = '&' :: (entity ++ [';'])
  unterminated : ';' ∉ entity
  reached : byteLen entity + 1 ≤ 10
  decoded : decoded entity = [symbol]
  inert : ∀ other ∈ '&' :: (entity ++ [';']), isAsciiWhitespace other.toNat = false ∧ other ≠ '"'

/-- A symbol is written as it is, or as an entity. -/
theorem encodeSymbol_cases (symbol : Char) :
    (symbol ≠ '&' ∧ symbol ≠ '"' ∧ encodeSymbol symbol = [symbol]) ∨
      isAsciiWhitespace symbol.toNat = false ∧ ∃ entity, EntityOf symbol entity := by
  by_cases hamp : symbol = '&'
  · subst hamp
    exact .inr ⟨by decide, "amp".toList, rfl, by decide, by decide, by decide,
      forall_mem_of_all (by decide)⟩
  · by_cases hlt : symbol = '<'
    · subst hlt
      exact .inr ⟨by decide, "lt".toList, rfl, by decide, by decide, by decide,
        forall_mem_of_all (by decide)⟩
    · by_cases hgt : symbol = '>'
      · subst hgt
        exact .inr ⟨by decide, "gt".toList, rfl, by decide, by decide, by decide,
          forall_mem_of_all (by decide)⟩
      · by_cases hquot : symbol = '"'
        · subst hquot
          exact .inr ⟨by decide, "quot".toList, rfl, by decide, by decide, by decide,
            forall_mem_of_all (by decide)⟩
        · apply Or.inl
          rw [encodeSymbol, if_neg hamp, if_neg hlt, if_neg hgt, if_neg hquot]
          exact ⟨hamp, hquot, rfl⟩

theorem decodeRest_cons {symbol : Char} (h : symbol ≠ '&') (rest : List Char) :
    decodeRest (symbol :: rest) = symbol :: decodeRest rest := by
  cases hamp : splitOnce '&' rest with
  | none =>
    have hnone := splitOnce_eq_none.mp hamp
    rw [decodeRest_of_not_mem hnone, decodeRest_of_not_mem]
    simp [hnone, Ne.symm h]
  | some parts =>
    obtain ⟨front, tail⟩ := parts
    obtain ⟨rfl, hfront⟩ := splitOnce_eq_some.mp hamp
    have hlonger : '&' ∉ symbol :: front := by simp [hfront, Ne.symm h]
    rw [← List.cons_append]
    by_cases htail : ∀ entity after, splitOnce ';' tail = some (entity, after) →
        10 < byteLen entity + 1
    · rw [decodeRest_bare hfront htail, decodeRest_bare hlonger htail, List.cons_append]
    · push Not at htail
      obtain ⟨entity, after, hsemi, hreach⟩ := htail
      obtain ⟨rfl, hentity⟩ := splitOnce_eq_some.mp hsemi
      rw [decodeRest_reached hfront hentity hreach, decodeRest_reached hlonger hentity hreach]
      rfl

theorem encodeValue_cons (symbol : Char) (value : List Char) :
    encodeValue (symbol :: value) = encodeSymbol symbol ++ encodeValue value := List.flatMap_cons

/-- Text that decodes to the same in front of any text, and holds all its apostrophes itself. -/
structure DecodesTo (text plain : List Char) : Prop where
  decoded : ∀ rest, decodeRest (text ++ rest) = plain ++ decodeRest rest
  apostrophe : '\'' ∈ plain → '\'' ∈ text

namespace DecodesTo

variable {text text' plain plain' : List Char}

theorem nil : DecodesTo [] [] := ⟨fun _ ↦ rfl, id⟩

theorem append (h : DecodesTo text plain) (h' : DecodesTo text' plain') :
    DecodesTo (text ++ text') (plain ++ plain') := by
  constructor
  · intro rest
    rw [List.append_assoc, h.decoded, h'.decoded, List.append_assoc]
  · intro hmem
    rw [List.mem_append] at hmem ⊢
    exact hmem.imp h.apostrophe h'.apostrophe

theorem singleton {symbol : Char} (h : symbol ≠ '&') : DecodesTo [symbol] [symbol] :=
  ⟨fun rest ↦ decodeRest_cons h rest, id⟩

theorem of_symbol (symbol : Char) : DecodesTo (encodeSymbol symbol) [symbol] := by
  constructor
  · intro rest
    rcases encodeSymbol_cases symbol with ⟨hamp, -, hplain⟩ | ⟨-, entity, hentity⟩
    · rw [hplain]
      exact decodeRest_cons hamp rest
    · have hreached := decodeRest_reached List.not_mem_nil hentity.unterminated hentity.reached rest
      rw [hentity.decoded] at hreached
      rw [hentity.written, List.cons_append, List.append_assoc, List.singleton_append]
      exact hreached
  · intro hmem
    obtain rfl := List.mem_singleton.mp hmem
    decide

theorem of_value (value : List Char) : DecodesTo (encodeValue value) value := by
  induction value with
  | nil => exact nil
  | cons symbol value ih =>
    rw [encodeValue_cons]
    exact (of_symbol symbol).append ih

/-- Text without an ampersand decodes to itself. -/
theorem of_not_mem (h : '&' ∉ text) : DecodesTo text text := by
  induction text with
  | nil => exact nil
  | cons symbol text ih =>
    rw [List.mem_cons, not_or] at h
    exact (singleton (Ne.symm h.1)).append (ih h.2)

end DecodesTo

theorem not_mem_encodeValue (value : List Char) : '"' ∉ encodeValue value := by
  intro h
  obtain ⟨symbol, -, hsymbol⟩ := List.mem_flatMap.mp h
  rcases encodeSymbol_cases symbol with ⟨-, hquote, hplain⟩ | ⟨-, entity, hentity⟩
  · rw [hplain, List.mem_singleton] at hsymbol
    exact hquote hsymbol.symm
  · rw [hentity.written] at hsymbol
    exact (hentity.inert _ hsymbol).2 rfl

/-! ### Searching a written value -/

/-- Plain text that a written value starts with is text of the value. -/
theorem encodeValue_inv {plain value rest region : List Char}
    (hplain : ∀ symbol ∈ plain, encodeSymbol symbol = [symbol])
    (h : encodeValue value ++ '"' :: rest = plain ++ region) :
    ∃ after, value = plain ++ after ∧ region = encodeValue after ++ '"' :: rest := by
  induction plain generalizing value with
  | nil => exact ⟨value, rfl, h.symm⟩
  | cons first plain ih =>
    rw [List.forall_mem_cons] at hplain
    cases value with
    | nil =>
      obtain rfl := (List.cons.inj h).1
      exact absurd hplain.1 (by decide)
    | cons symbol value =>
      rw [encodeValue_cons, List.append_assoc] at h
      rcases encodeSymbol_cases symbol with ⟨-, -, hsymbol⟩ | ⟨-, entity, hentity⟩
      · rw [hsymbol] at h
        obtain ⟨rfl, hrest⟩ := List.cons.inj h
        obtain ⟨after, rfl, hregion⟩ := ih hplain.2 hrest
        exact ⟨after, rfl, hregion⟩
      · rw [hentity.written] at h
        obtain rfl := (List.cons.inj h).1
        exact absurd hplain.1 (by decide)

theorem encodeValue_append_of_plain {plain : List Char}
    (hplain : ∀ symbol ∈ plain, encodeSymbol symbol = [symbol]) (value : List Char) :
    encodeValue (plain ++ value) = plain ++ encodeValue value := by
  induction plain with
  | nil => rfl
  | cons symbol plain ih =>
    rw [List.forall_mem_cons] at hplain
    rw [List.cons_append, encodeValue_cons, hplain.1, ih hplain.2]
    rfl

theorem isAlpha_iff {symbol : Char} : symbol.isAlpha = true ↔
    65 ≤ symbol.toNat ∧ symbol.toNat ≤ 90 ∨ 97 ≤ symbol.toNat ∧ symbol.toNat ≤ 122 := by
  change (decide (65 ≤ symbol.val ∧ symbol.val ≤ 90) ||
    (decide (97 ≤ symbol.val) && decide (symbol.val ≤ 122))) = true ↔ _
  simp [UInt32.le_iff_toNat_le]

theorem isAlpha_toLower {symbol : Char} (h : symbol.toLower.isAlpha = true) :
    symbol.isAlpha = true := by
  have hcode := toNat_toLower symbol
  rw [isAlpha_iff] at h ⊢
  split_ifs at hcode <;> omega

theorem encodeSymbol_of_ne {symbol : Char} (hamp : symbol ≠ '&') (hlt : symbol ≠ '<')
    (hgt : symbol ≠ '>') (hquot : symbol ≠ '"') : encodeSymbol symbol = [symbol] := by
  rw [encodeSymbol, if_neg hamp, if_neg hlt, if_neg hgt, if_neg hquot]

theorem encodeSymbol_of_isAlpha {symbol : Char} (h : symbol.isAlpha = true) :
    encodeSymbol symbol = [symbol] := by
  apply encodeSymbol_of_ne
  all_goals
    rintro rfl
    exact absurd h (by decide)

theorem encodeSymbol_of_isWhitespace {symbol : Char} (h : isWhitespace symbol = true) :
    encodeSymbol symbol = [symbol] := by
  apply encodeSymbol_of_ne
  all_goals
    rintro rfl
    exact absurd h (by decide)

theorem isAlpha_of_toAsciiLowercase (hletters : ∀ symbol ∈ attr, symbol.isAlpha = true)
    {name : List Char} (hname : toAsciiLowercase name = attr) :
    ∀ symbol ∈ name, symbol.isAlpha = true := by
  intro symbol hsymbol
  apply isAlpha_toLower
  apply hletters
  rw [← hname]
  exact List.mem_map_of_mem hsymbol

theorem plain_of_named (hletters : ∀ symbol ∈ attr, symbol.isAlpha = true)
    {name gap : List Char} (hname : toAsciiLowercase name = attr)
    (hgap : ∀ symbol ∈ gap, isWhitespace symbol = true) :
    ∀ symbol ∈ name ++ (gap ++ ['=']), encodeSymbol symbol = [symbol] := by
  intro symbol hsymbol
  rw [List.mem_append, List.mem_append, List.mem_singleton] at hsymbol
  rcases hsymbol with hletter | hblank | hequals
  · exact encodeSymbol_of_isAlpha (isAlpha_of_toAsciiLowercase hletters hname symbol hletter)
  · exact encodeSymbol_of_isWhitespace (hgap symbol hblank)
  · rw [hequals]
    rfl

/-- A written value starts with the attribute if and only if the value does. -/
theorem named_encodeValue_none (hletters : ∀ symbol ∈ attr, symbol.isAlpha = true)
    {value : List Char} (h : named attr value = none) (rest : List Char) :
    named attr (encodeValue value ++ '"' :: rest) = none := by
  rw [Option.eq_none_iff_forall_ne_some]
  intro region hregion
  obtain ⟨name, gap, behind, htext, hname, hgap, -⟩ := named_eq_some.mp hregion
  have hparts : encodeValue value ++ '"' :: rest = (name ++ (gap ++ ['='])) ++ behind := by
    rw [htext]
    simp
  obtain ⟨after, hvalue, -⟩ := encodeValue_inv (plain_of_named hletters hname hgap) hparts
  have hsome : named attr value = some (after.dropWhile isWhitespace) :=
    named_eq_some.mpr ⟨name, gap, after, by simpa using hvalue, hname, hgap, rfl⟩
  rw [h] at hsome
  contradiction

theorem named_encodeValue_some (hletters : ∀ symbol ∈ attr, symbol.isAlpha = true)
    {value : List Char} (h : named attr value ≠ none) :
    ∃ after, ∀ rest, named attr (encodeValue value ++ '"' :: rest) =
      some ((encodeValue after ++ '"' :: rest).dropWhile isWhitespace) := by
  obtain ⟨region, hregion⟩ := Option.ne_none_iff_exists'.mp h
  obtain ⟨name, gap, after, htext, hname, hgap, -⟩ := named_eq_some.mp hregion
  have hvalue : value = (name ++ (gap ++ ['='])) ++ after := by
    rw [htext]
    simp
  refine ⟨after, fun rest ↦ ?_⟩
  rw [hvalue, encodeValue_append_of_plain (plain_of_named hletters hname hgap)]
  exact named_eq_some.mpr ⟨name, gap, _, by simp, hname, hgap, rfl⟩

/-- One symbol of a written value is passed. -/
theorem findValue_encodeSymbol {start : Bool} {symbol : Char} {text : List Char}
    (h : start = true → named attr (encodeSymbol symbol ++ text) = none) :
    findValue attr start (encodeSymbol symbol ++ text) =
      findValue attr (isAsciiWhitespace symbol.toNat) text := by
  have hnone : (if start then named attr (encodeSymbol symbol ++ text) else none) = none := by
    split
    · next hstart => exact h hstart
    · rfl
  rcases encodeSymbol_cases symbol with ⟨-, -, hplain⟩ | ⟨hblank, entity, hentity⟩
  · rw [hplain, List.singleton_append] at hnone ⊢
    rw [findValue, hnone]
  · have hinert : ∀ other ∈ entity ++ [';'], isAsciiWhitespace other.toNat = false := by
      intro other hother
      exact (hentity.inert other (List.mem_cons_of_mem _ hother)).1
    rw [hentity.written, List.cons_append] at hnone ⊢
    rw [findValue, hnone, hblank]
    exact findValue_skip hinert text

theorem findValue_of_named {text region : List Char} (h : named attr text = some region) :
    findValue attr true text = some region := by
  cases text with
  | nil =>
    obtain ⟨name, gap, rest, htext, -⟩ := named_eq_some.mp h
    simp at htext
  | cons symbol text => rw [findValue, if_pos rfl, h]

theorem mentions_cons {symbol : Char} {value : List Char} : Mentions attr (symbol :: value) ↔
    (isAsciiWhitespace symbol.toNat = true ∧ named attr value ≠ none) ∨ Mentions attr value := by
  constructor
  · rintro ⟨front, blank, name, gap, after, hparts, hblank, hname, hgap⟩
    cases front with
    | nil =>
      obtain ⟨rfl, rfl⟩ := List.cons.inj hparts
      have hnamed := named_eq_some.mpr ⟨name, gap, after, rfl, hname, hgap, rfl⟩
      exact .inl ⟨hblank, by simp [hnamed]⟩
    | cons first front =>
      exact .inr ⟨front, blank, name, gap, after, (List.cons.inj hparts).2, hblank, hname, hgap⟩
  · rintro (⟨hblank, hnamed⟩ | ⟨front, blank, name, gap, after, rfl, hblank, hname, hgap⟩)
    · obtain ⟨region, hregion⟩ := Option.ne_none_iff_exists'.mp hnamed
      obtain ⟨name, gap, after, rfl, hname, hgap, -⟩ := named_eq_some.mp hregion
      exact ⟨[], symbol, name, gap, after, rfl, hblank, hname, hgap⟩
    · exact ⟨symbol :: front, blank, name, gap, after, rfl, hblank, hname, hgap⟩

/-- A value without the attribute is passed. -/
theorem findValue_encodeValue_none (hletters : ∀ symbol ∈ attr, symbol.isAlpha = true)
    {start : Bool} {value : List Char} (hstart : start = true → named attr value = none)
    (hvalue : ¬Mentions attr value) (rest : List Char) :
    findValue attr start (encodeValue value ++ '"' :: rest) = findValue attr false rest := by
  induction value generalizing start with
  | nil =>
    have hnone : (if start then named attr ('"' :: rest) else none) = none := by
      split
      · next h => exact named_encodeValue_none hletters (hstart h) rest
      · rfl
    change findValue attr start ('"' :: rest) = _
    rw [findValue, hnone]
    rfl
  | cons symbol value ih =>
    rw [mentions_cons, not_or, not_and, not_not] at hvalue
    rw [encodeValue_cons, List.append_assoc, findValue_encodeSymbol]
    · exact ih hvalue.1 hvalue.2
    · intro h
      rw [← List.append_assoc, ← encodeValue_cons]
      exact named_encodeValue_none hletters (hstart h) rest

/-- A value with the attribute ends the search. -/
theorem findValue_encodeValue_some (hletters : ∀ symbol ∈ attr, symbol.isAlpha = true)
    {start : Bool} {value : List Char}
    (h : (start = true ∧ named attr value ≠ none) ∨ Mentions attr value) :
    ∃ after, ∀ rest, findValue attr start (encodeValue value ++ '"' :: rest) =
      some ((encodeValue after ++ '"' :: rest).dropWhile isWhitespace) := by
  induction value generalizing start with
  | nil =>
    rcases h with ⟨-, hnamed⟩ | ⟨front, blank, name, gap, after, hparts, -⟩
    · obtain ⟨region, hregion⟩ := Option.ne_none_iff_exists'.mp hnamed
      obtain ⟨name, gap, rest, htext, -⟩ := named_eq_some.mp hregion
      simp at htext
    · simp at hparts
  | cons symbol value ih =>
    by_cases hhere : start = true ∧ named attr (symbol :: value) ≠ none
    · obtain ⟨after, hafter⟩ := named_encodeValue_some hletters hhere.2
      refine ⟨after, fun rest ↦ ?_⟩
      rw [hhere.1]
      exact findValue_of_named (hafter rest)
    · obtain ⟨after, hafter⟩ := ih (mentions_cons.mp (h.resolve_left hhere))
      rw [not_and, not_not] at hhere
      refine ⟨after, fun rest ↦ ?_⟩
      rw [encodeValue_cons, List.append_assoc, findValue_encodeSymbol]
      · exact hafter rest
      · intro hstart
        rw [← List.append_assoc, ← encodeValue_cons]
        exact named_encodeValue_none hletters (hhere hstart) rest

/-! ### Serialized tags -/

/-- An attribute of a tag. -/
structure Attribute where
  name : List Char
  value : List Char
  deriving DecidableEq

/-- The attribute as it is written, with a space in front. -/
def Attribute.text (entry : Attribute) : List Char :=
  ' ' :: (entry.name ++ '=' :: '"' :: (encodeValue entry.value ++ ['"']))

/-- The body of a tag: its name, and the attributes behind single spaces. -/
def serializeTag (tag : List Char) (attributes : List Attribute) : List Char :=
  tag ++ attributes.flatMap Attribute.text

/-- An ASCII alphabetic name. -/
def IsName (name : List Char) : Prop := name ≠ [] ∧ ∀ symbol ∈ name, symbol.isAlpha = true

/-- A word, and a symbol that belongs to none. -/
theorem word_inj {word word' : List Char} {mark mark' : Char} {rest rest' : List Char}
    (hword : ∀ symbol ∈ word, symbol.isAlphanum = true)
    (hword' : ∀ symbol ∈ word', symbol.isAlphanum = true) (hmark : mark.isAlphanum = false)
    (hmark' : mark'.isAlphanum = false) (h : word ++ mark :: rest = word' ++ mark' :: rest') :
    word = word' ∧ mark :: rest = mark' :: rest' := by
  have htake := congrArg (List.takeWhile Char.isAlphanum) h
  rw [List.takeWhile_append_of_pos hword, List.takeWhile_append_of_pos hword',
    List.takeWhile_cons_of_neg (by simp [hmark]), List.takeWhile_cons_of_neg (by simp [hmark']),
    List.append_nil, List.append_nil] at htake
  exact ⟨htake, List.append_cancel_left (htake ▸ h)⟩

theorem isAlphanum_of_isAlpha {symbol : Char} (h : symbol.isAlpha = true) :
    symbol.isAlphanum = true := by
  rw [Char.isAlphanum, h]
  rfl

theorem isAlphanum_range {symbol : Char} (h : symbol.isAlphanum = true) :
    48 ≤ symbol.toNat ∧ symbol.toNat ≤ 122 := by
  rw [Char.isAlphanum, Bool.or_eq_true] at h
  rcases h with hletter | hdigit
  · rw [isAlpha_iff] at hletter
    omega
  · simp only [Char.isDigit, Bool.and_eq_true, decide_eq_true_eq, UInt32.le_iff_toNat_le] at hdigit
    have hcode : symbol.toNat = symbol.val.toNat := rfl
    have hfirst : ('0' : Char).val.toNat = 48 := rfl
    have hlast : ('9' : Char).val.toNat = 57 := rfl
    omega

theorem isAlphanum_of_isWhitespace {symbol : Char} (h : isWhitespace symbol = true) :
    symbol.isAlphanum = false := by
  by_contra hword
  rw [Bool.not_eq_false] at hword
  have hcode := isAlphanum_range hword
  rw [isWhitespace_of_printable (by omega) (by omega)] at h
  contradiction

theorem isAsciiWhitespace_of_isAlphanum {symbol : Char} (h : symbol.isAlphanum = true) :
    isAsciiWhitespace symbol.toNat = false :=
  isAsciiWhitespace_of_printable (by have hcode := isAlphanum_range h; omega)

/-- An attribute stands behind a word, which is its whole name. -/
theorem named_word {word rest region : List Char} {mark : Char} (hattr : IsName attr)
    (hword : ∀ symbol ∈ word, symbol.isAlphanum = true) (hmark : mark.isAlphanum = false)
    (h : named attr (word ++ mark :: rest) = some region) :
    toAsciiLowercase word = attr ∧ behindName (mark :: rest) = some region := by
  obtain ⟨name, gap, behind, htext, hname, hgap, hregion⟩ := named_eq_some.mp h
  have hletters : ∀ symbol ∈ name, symbol.isAlphanum = true := by
    intro symbol hsymbol
    exact isAlphanum_of_isAlpha (isAlpha_of_toAsciiLowercase hattr.2 hname symbol hsymbol)
  have hbehind : word = name ∧ mark :: rest = gap ++ '=' :: behind := by
    cases gap with
    | nil => exact word_inj hword hletters hmark (by decide) htext
    | cons blank gap =>
      rw [List.forall_mem_cons] at hgap
      exact word_inj hword hletters hmark (isAlphanum_of_isWhitespace hgap.1) htext
  rw [hbehind.1, hbehind.2]
  exact ⟨hname, behindName_eq_some.mpr ⟨gap, behind, rfl, hgap, hregion⟩⟩

theorem named_of_word {word : List Char}
    (hword : ∀ symbol ∈ word, symbol.isAlphanum = true) : named attr word = none := by
  rw [Option.eq_none_iff_forall_ne_some]
  intro region hregion
  obtain ⟨name, gap, behind, rfl, -⟩ := named_eq_some.mp hregion
  exact absurd (hword '=' (by simp)) (by decide)

/-- A word in front of a symbol that belongs to none is passed. -/
theorem findValue_word {word rest : List Char}
    (hword : ∀ symbol ∈ word, symbol.isAlphanum = true)
    (hnamed : named attr (word ++ rest) = none) (hne : word ≠ []) :
    findValue attr true (word ++ rest) = findValue attr false rest := by
  obtain ⟨first, word, rfl⟩ := List.exists_cons_of_ne_nil hne
  rw [List.forall_mem_cons] at hword
  rw [List.cons_append, findValue, if_pos rfl, ← List.cons_append, hnamed,
    isAsciiWhitespace_of_isAlphanum hword.1]
  exact findValue_skip (fun symbol hsymbol ↦
    isAsciiWhitespace_of_isAlphanum (hword.2 symbol hsymbol)) rest

/-- The search goes through one attribute. -/
theorem findValue_attribute (hattr : IsName attr) {entry : Attribute} (hname : IsName entry.name)
    (start : Bool) (rest : List Char) :
    findValue attr start (entry.text ++ rest) =
      if toAsciiLowercase entry.name = attr then
        some ('"' :: (encodeValue entry.value ++ '"' :: rest))
      else findValue attr false (encodeValue entry.value ++ '"' :: rest) := by
  have hword : ∀ symbol ∈ entry.name, symbol.isAlphanum = true := by
    intro symbol hsymbol
    exact isAlphanum_of_isAlpha (hname.2 symbol hsymbol)
  have htext : entry.text ++ rest =
      ' ' :: (entry.name ++ '=' :: '"' :: (encodeValue entry.value ++ '"' :: rest)) := by
    simp [Attribute.text]
  have hspace (text : List Char) :
      findValue attr start (' ' :: text) = findValue attr true text := by
    have hnone : named attr (' ' :: text) = none := by
      rw [Option.eq_none_iff_forall_ne_some]
      intro region hregion
      exact hattr.1 (@named_word _ [] _ _ _ hattr (by simp) (by decide) hregion).1.symm
    rw [findValue, hnone, ite_self]
    rfl
  rw [htext, hspace]
  split
  · next heq =>
    exact findValue_of_named (named_eq_some.mpr ⟨entry.name, [], _, rfl, heq, by simp, by
      rw [List.dropWhile_cons_of_neg (by decide)]⟩)
  · next hne =>
    have hnone : named attr (entry.name ++
        '=' :: '"' :: (encodeValue entry.value ++ '"' :: rest)) = none := by
      rw [Option.eq_none_iff_forall_ne_some]
      intro region hregion
      exact hne (named_word hattr hword (by decide) hregion).1
    rw [findValue_word hword hnone hname.1]
    rfl

/-- The search goes through the name of the tag. -/
theorem findValue_tag (hattr : IsName attr) {tag : List Char} {entries : List Attribute}
    (htag : ∀ symbol ∈ tag, symbol.isAlphanum = true)
    (hnames : ∀ entry ∈ entries, IsName entry.name) :
    findValue attr true (serializeTag tag entries) =
      findValue attr tag.isEmpty (entries.flatMap Attribute.text) := by
  by_cases hne : tag = []
  · rw [hne]
    rfl
  · rw [List.isEmpty_eq_false_iff.mpr hne]
    apply findValue_word htag _ hne
    cases entries with
    | nil => exact named_of_word (by simpa using htag)
    | cons entry entries =>
      rw [Option.eq_none_iff_forall_ne_some]
      intro region hregion
      have hname := (hnames entry List.mem_cons_self)
      obtain ⟨first, name, hfirst⟩ := List.exists_cons_of_ne_nil hname.1
      have hbehind := (named_word hattr htag (by decide) hregion).2
      obtain ⟨gap, behind, hparts, hgap, -⟩ := behindName_eq_some.mp hbehind
      have hletter := hname.2 first (by simp [hfirst])
      rw [hfirst] at hparts
      -- Behind the space there is the first letter of a name.
      match gap, hgap with
      | [], _ => exact absurd (List.cons.inj hparts).1 (by decide)
      | [_], _ =>
        obtain rfl := (List.cons.inj (List.cons.inj hparts).2).1
        exact absurd hletter (by decide)
      | _ :: blank :: _, hgap =>
        obtain rfl := (List.cons.inj (List.cons.inj hparts).2).1
        have hblank := isAlphanum_of_isWhitespace (hgap first (by simp))
        rw [isAlphanum_of_isAlpha hletter] at hblank
        contradiction

/-! ### The attribute and the others -/

/-- An attribute of another name. -/
def IsOther (attr : List Char) (entry : Attribute) : Prop :=
  IsName entry.name ∧ toAsciiLowercase entry.name ≠ attr

variable {before entries : List Attribute}

/-- Other attributes whose values do not mention the name are passed. -/
theorem findValue_others (hattr : IsName attr) (hother : ∀ entry ∈ before, IsOther attr entry)
    (hmention : ∀ entry ∈ before, ¬Mentions attr entry.value) (start : Bool) (rest : List Char) :
    ∃ start', findValue attr start (before.flatMap Attribute.text ++ rest) =
      findValue attr start' rest := by
  induction before generalizing start with
  | nil => exact ⟨start, rfl⟩
  | cons entry before ih =>
    rw [List.forall_mem_cons] at hother hmention
    obtain ⟨start', hstart'⟩ := ih hother.2 hmention.2 false
    refine ⟨start', ?_⟩
    rw [List.flatMap_cons, List.append_assoc, findValue_attribute hattr hother.1.1,
      if_neg hother.1.2, findValue_encodeValue_none hattr.2 (by simp) hmention.1, hstart']

/-- The search ends in the first value that mentions the name. -/
theorem findValue_mentioned (hattr : IsName attr) (hother : ∀ entry ∈ before, IsOther attr entry)
    (hmention : ∃ entry ∈ before, Mentions attr entry.value) (start : Bool) :
    ∃ (after : List Char) (entries : List Attribute),
      (∀ entry ∈ entries, IsName entry.name) ∧ ∀ rest,
      findValue attr start (before.flatMap Attribute.text ++ rest) =
        some ((encodeValue after ++ '"' :: (entries.flatMap Attribute.text ++ rest)).dropWhile
          isWhitespace) := by
  induction before generalizing start with
  | nil => simp at hmention
  | cons entry before ih =>
    rw [List.forall_mem_cons] at hother
    by_cases hvalue : Mentions attr entry.value
    · obtain ⟨after, hafter⟩ :=
        findValue_encodeValue_some hattr.2 (@Or.inr (false = true ∧ _) _ hvalue)
      refine ⟨after, before, fun other hmem ↦ (hother.2 other hmem).1, fun rest ↦ ?_⟩
      rw [List.flatMap_cons, List.append_assoc, findValue_attribute hattr hother.1.1,
        if_neg hother.1.2, hafter]
    · have hlater : ∃ other ∈ before, Mentions attr other.value := by
        obtain ⟨other, hmem, hother'⟩ := hmention
        rcases List.mem_cons.mp hmem with rfl | hbefore
        · exact absurd hother' hvalue
        · exact ⟨other, hbefore, hother'⟩
      obtain ⟨after, entries, hentries, hafter⟩ := ih hother.2 hlater false
      refine ⟨after, entries, hentries, fun rest ↦ ?_⟩
      rw [List.flatMap_cons, List.append_assoc, findValue_attribute hattr hother.1.1,
        if_neg hother.1.2, findValue_encodeValue_none hattr.2 (by simp) hvalue, hafter]

theorem takeWhile_ne_of_not_mem {mark : Char} {text : List Char} (h : mark ∉ text)
    (rest : List Char) :
    (text ++ rest).takeWhile (· ≠ mark) = text ++ rest.takeWhile (· ≠ mark) := by
  apply List.takeWhile_append_of_pos
  intro symbol hsymbol
  rw [decide_eq_true_iff]
  exact ne_of_mem_of_not_mem hsymbol h

/-- A quoted value is read as it was. -/
theorem regionValue_encodeValue (value rest : List Char) :
    regionValue ('"' :: (encodeValue value ++ '"' :: rest)) = value := by
  have htake : (encodeValue value ++ '"' :: rest).takeWhile (· ≠ '"') = encodeValue value := by
    rw [takeWhile_ne_of_not_mem (not_mem_encodeValue value),
      List.takeWhile_cons_of_neg (by simp), List.append_nil]
  have hvalue := (DecodesTo.of_value value).decoded []
  rw [List.append_nil, decodeRest_of_not_mem List.not_mem_nil, List.append_nil, ← htake] at hvalue
  exact hvalue

/-! ### Values read from the wrong place -/

theorem not_mem_of_isName {name : List Char} (h : IsName name) : '&' ∉ name := by
  intro hmem
  exact absurd (h.2 _ hmem) (by decide)

/-- Written attributes decode to themselves with their values. -/
theorem exists_decodesTo {entries : List Attribute} (h : ∀ entry ∈ entries, IsName entry.name) :
    ∃ plain, DecodesTo (entries.flatMap Attribute.text) plain := by
  induction entries with
  | nil => exact ⟨[], DecodesTo.nil⟩
  | cons entry entries ih =>
    rw [List.forall_mem_cons] at h
    obtain ⟨plain, hplain⟩ := ih h.2
    have hfront : '&' ∉ ' ' :: (entry.name ++ ['=', '"']) := by
      simp [not_mem_of_isName h.1]
    have htext : entry.text =
        ' ' :: (entry.name ++ ['=', '"']) ++ encodeValue entry.value ++ ['"'] := by
      simp [Attribute.text]
    rw [List.flatMap_cons, htext]
    exact ⟨_, (((DecodesTo.of_not_mem hfront).append (DecodesTo.of_value entry.value)).append
      (DecodesTo.singleton (by decide))).append hplain⟩

theorem takeWhile_append_of_mem {α : Type} {keep : α → Bool} {text : List α} {symbol : α}
    (hmem : symbol ∈ text) (hsymbol : keep symbol = false) (rest : List α) :
    (text ++ rest).takeWhile keep = text.takeWhile keep := by
  induction text with
  | nil => contradiction
  | cons first text ih =>
    by_cases hfirst : keep first = true
    · have hne : symbol ≠ first := by
        rintro rfl
        rw [hsymbol] at hfirst
        contradiction
      rw [List.cons_append, List.takeWhile_cons_of_pos hfirst, List.takeWhile_cons_of_pos hfirst,
        ih (List.mem_of_ne_of_mem hne hmem)]
    · rw [List.cons_append, List.takeWhile_cons_of_neg hfirst, List.takeWhile_cons_of_neg hfirst]

theorem regionValue_double (rest : List Char) :
    regionValue ('"' :: rest) = decodeRest (rest.takeWhile (· ≠ '"')) := rfl

theorem regionValue_single (rest : List Char) :
    regionValue ('\'' :: rest) = decodeRest (rest.takeWhile (· ≠ '\'')) := rfl

theorem regionValue_bare {first : Char} (hfirst : isWhitespace first = false)
    (hdouble : first ≠ '"') (hsingle : first ≠ '\'') (rest : List Char) :
    regionValue (first :: rest) = decodeRest ((first :: rest).takeWhile fun symbol ↦
      !(isAsciiWhitespace symbol.toNat || symbol = '>')) := by
  have hregion : (first :: rest).dropWhile isWhitespace = first :: rest :=
    List.dropWhile_cons_of_neg (by simp [hfirst])
  unfold regionValue
  rw [hregion]
  split
  · next h => exact absurd (List.cons.inj h).1 hdouble
  · next h => exact absurd (List.cons.inj h).1 hsingle
  · rfl

/-- A value read from a front with a blank and a quote is found in the front, unless the front opens
an apostrophe that it does not close. -/
theorem regionValue_append {first : Char} {front : List Char}
    (hfirst : isWhitespace first = false) (hspace : ' ' ∈ front) (hquote : '"' ∈ front) :
    (∃ value, ∀ rest, regionValue (first :: (front ++ rest)) = value) ∨
      first = '\'' ∧ '\'' ∉ front := by
  by_cases hdouble : first = '"'
  · refine .inl ⟨decodeRest (front.takeWhile (· ≠ '"')), fun rest ↦ ?_⟩
    rw [hdouble, regionValue_double, takeWhile_append_of_mem hquote (by simp)]
  · by_cases hsingle : first = '\''
    · by_cases hclosed : '\'' ∈ front
      · refine .inl ⟨decodeRest (front.takeWhile (· ≠ '\'')), fun rest ↦ ?_⟩
        rw [hsingle, regionValue_single, takeWhile_append_of_mem hclosed (by simp)]
      · exact .inr ⟨hsingle, hclosed⟩
    · refine .inl ⟨decodeRest ((first :: front).takeWhile fun symbol ↦
        !(isAsciiWhitespace symbol.toNat || symbol = '>')), fun rest ↦ ?_⟩
      rw [regionValue_bare hfirst hdouble hsingle, ← List.cons_append]
      exact congrArg decodeRest
        (takeWhile_append_of_mem (List.mem_cons_of_mem first hspace) (by decide) rest)

theorem apostrophe_mem_of_encodeValue {value : List Char} (h : '\'' ∈ encodeValue value) :
    '\'' ∈ value := by
  obtain ⟨symbol, hsymbol, hmem⟩ := List.mem_flatMap.mp h
  have hsame : symbol = '\'' := by
    unfold encodeSymbol at hmem
    split_ifs at hmem
    case neg => exact (List.mem_singleton.mp hmem).symm
    all_goals exact absurd hmem (by decide)
  rwa [hsame] at hsymbol

/-- A value behind an open apostrophe is not read as it is. -/
theorem regionValue_open {front plain : List Char} (hfront : '\'' ∉ front)
    (hplain : DecodesTo front plain) (hne : plain ≠ []) (value rest : List Char) :
    regionValue ('\'' :: (front ++ (encodeValue value ++ '"' :: rest))) ≠ value := by
  rw [regionValue_single, takeWhile_ne_of_not_mem hfront]
  by_cases hvalue : '\'' ∈ value
  · -- What is read ends in front of the first apostrophe of the value, and holds none.
    obtain ⟨taken, left, rfl, htaken⟩ := List.eq_append_cons_of_mem hvalue
    have hencoded : encodeValue (taken ++ '\'' :: left) =
        encodeValue taken ++ '\'' :: encodeValue left := by
      simp [encodeValue, encodeSymbol]
    rw [hencoded, List.append_assoc,
      takeWhile_ne_of_not_mem (mt apostrophe_mem_of_encodeValue htaken),
      List.cons_append, List.takeWhile_cons_of_neg (by simp), hplain.decoded,
      (DecodesTo.of_value taken).decoded, decodeRest_of_not_mem List.not_mem_nil, List.append_nil]
    intro h
    have hmem : '\'' ∈ plain ++ taken := by
      rw [h]
      simp
    rcases List.mem_append.mp hmem with hin | hin
    · exact hfront (hplain.apostrophe hin)
    · exact htaken hin
  · -- What is read holds the whole value, and the front.
    rw [takeWhile_ne_of_not_mem (mt apostrophe_mem_of_encodeValue hvalue),
      hplain.decoded, (DecodesTo.of_value value).decoded]
    intro h
    have hlength := congrArg List.length h
    have hpos := List.length_pos_of_ne_nil hne
    rw [List.length_append, List.length_append] at hlength
    omega

/-- What a region starts with behind a name that is found in a value. -/
theorem dropWhile_encodeValue (after : List Char) :
    ∃ first front, (∀ rest, (encodeValue after ++ '"' :: rest).dropWhile isWhitespace =
      first :: (front ++ rest)) ∧ isWhitespace first = false ∧
        (first = '\'' → ∃ plain, DecodesTo front plain) := by
  induction after with
  | nil => exact ⟨'"', [], fun rest ↦ rfl, rfl, fun h ↦ absurd h (by decide)⟩
  | cons symbol after ih =>
    by_cases hblank : isWhitespace symbol = true
    · obtain ⟨first, front, hregion, hfirst⟩ := ih
      refine ⟨first, front, fun rest ↦ ?_, hfirst⟩
      rw [encodeValue_cons, encodeSymbol_of_isWhitespace hblank, List.append_assoc,
        List.singleton_append, List.dropWhile_cons_of_pos hblank, hregion]
    · rcases encodeSymbol_cases symbol with ⟨-, -, hplain⟩ | ⟨-, entity, hentity⟩
      · refine ⟨symbol, encodeValue after ++ ['"'], fun rest ↦ ?_, by simpa using hblank, fun _ ↦
          ⟨_, (DecodesTo.of_value after).append (DecodesTo.singleton (by decide))⟩⟩
        rw [encodeValue_cons, hplain, List.append_assoc, List.singleton_append,
          List.dropWhile_cons_of_neg hblank, List.append_assoc, List.singleton_append]
      · refine ⟨'&', entity ++ [';'] ++ encodeValue after ++ ['"'], fun rest ↦ ?_, rfl, fun h ↦
          absurd h (by decide)⟩
        rw [encodeValue_cons, hentity.written, List.append_assoc, List.cons_append,
          List.dropWhile_cons_of_neg (by decide)]
        simp

/-- Behind a name that is found in another value, one value is read at most. -/
theorem regionValue_unique {name after rest value value' : List Char} {entries : List Attribute}
    (hname : IsName name) (hentries : ∀ entry ∈ entries, IsName entry.name)
    (h : regionValue ((encodeValue after ++ '"' :: (entries.flatMap Attribute.text ++
      ((Attribute.mk name value).text ++ rest))).dropWhile isWhitespace) = value)
    (h' : regionValue ((encodeValue after ++ '"' :: (entries.flatMap Attribute.text ++
      ((Attribute.mk name value').text ++ rest))).dropWhile isWhitespace) = value') :
    value = value' := by
  obtain ⟨first, front, hregion, hfirst, hopen⟩ := dropWhile_encodeValue after
  have hletters : '&' ∉ ' ' :: (name ++ ['=', '"']) := by
    simp [not_mem_of_isName hname]
  let middle := entries.flatMap Attribute.text ++ ' ' :: (name ++ ['=', '"'])
  have htext (other : List Char) : front ++ (entries.flatMap Attribute.text ++
      ((Attribute.mk name other).text ++ rest)) =
        front ++ middle ++ (encodeValue other ++ '"' :: rest) := by
    simp [middle, Attribute.text]
  rw [hregion, htext] at h h'
  have hspace : ' ' ∈ front ++ middle := by simp [middle]
  have hquote : '"' ∈ front ++ middle := by simp [middle]
  rcases regionValue_append hfirst hspace hquote with ⟨read, hread⟩ | ⟨hapostrophe, hclosed⟩
  · rw [← h, ← h', hread, hread]
  · obtain ⟨plain, hplain⟩ := hopen hapostrophe
    obtain ⟨written, hwritten⟩ := exists_decodesTo hentries
    rw [hapostrophe] at h
    refine absurd h (regionValue_open hclosed
      (hplain.append (hwritten.append (DecodesTo.of_not_mem hletters))) ?_ value rest)
    simp

/-! ### The target of a link -/

section Href

variable {first : Char} {name tag : List Char} {after : List Attribute}

theorem isName_of_toAsciiLowercase {attr written : List Char} (hattr : IsName attr)
    (hwritten : toAsciiLowercase written = attr) : IsName written := by
  refine ⟨?_, isAlpha_of_toAsciiLowercase hattr.2 hwritten⟩
  rintro rfl
  exact hattr.1 hwritten.symm

theorem attrValue_serializeTag (hfirst : first ∉ name) (hattr : IsName (first :: name))
    (htag : ∀ symbol ∈ tag, symbol.isAlphanum = true)
    (hnames : ∀ entry ∈ entries, IsName entry.name) :
    attrValue (serializeTag tag entries) (first :: name) =
      some ((findValue (first :: name) tag.isEmpty (entries.flatMap Attribute.text)).map
        regionValue) := by
  rw [attrValue_eq hfirst, findValue_tag hattr htag hnames]

theorem isName_insert (hattr : IsName (first :: name))
    (hother : ∀ entry ∈ before ++ after, IsOther (first :: name) entry) {entry : Attribute}
    (hentry : toAsciiLowercase entry.name = first :: name) :
    ∀ other ∈ before ++ entry :: after, IsName other.name := by
  intro other hmem
  rw [List.mem_append, List.mem_cons, or_left_comm, ← List.mem_append] at hmem
  rcases hmem with rfl | hmem
  · exact isName_of_toAsciiLowercase hattr hentry
  · exact (hother other hmem).1

/-- The value of the attribute, if no earlier value mentions it. -/
theorem attrValue_of_not_mentions (hfirst : first ∉ name) (hattr : IsName (first :: name))
    (htag : ∀ symbol ∈ tag, symbol.isAlphanum = true)
    (hother : ∀ entry ∈ before ++ after, IsOther (first :: name) entry)
    (hmention : ∀ entry ∈ before, ¬Mentions (first :: name) entry.value) {entry : Attribute}
    (hentry : toAsciiLowercase entry.name = first :: name) :
    attrValue (serializeTag tag (before ++ entry :: after)) (first :: name) =
      some (some entry.value) := by
  have hbefore : ∀ other ∈ before, IsOther (first :: name) other := fun other hmem ↦
    hother other (List.mem_append_left after hmem)
  obtain ⟨start, hstart⟩ := findValue_others hattr hbefore hmention tag.isEmpty
    (entry.text ++ after.flatMap Attribute.text)
  rw [attrValue_serializeTag hfirst hattr htag (isName_insert hattr hother hentry),
    List.flatMap_append, List.flatMap_cons, hstart,
    findValue_attribute hattr (isName_of_toAsciiLowercase hattr hentry), if_pos hentry,
    Option.map_some, regionValue_encodeValue]

/-- No value, if there is neither the attribute nor a value that mentions it. -/
theorem attrValue_eq_none_iff (hfirst : first ∉ name) (hattr : IsName (first :: name))
    (htag : ∀ symbol ∈ tag, symbol.isAlphanum = true)
    (hother : ∀ entry ∈ entries, IsOther (first :: name) entry) :
    attrValue (serializeTag tag entries) (first :: name) = some none ↔
      ∀ entry ∈ entries, ¬Mentions (first :: name) entry.value := by
  rw [attrValue_serializeTag hfirst hattr htag fun entry hmem ↦ (hother entry hmem).1,
    Option.some_inj, Option.map_eq_none_iff]
  constructor
  · intro hnone
    by_contra hmention
    push Not at hmention
    obtain ⟨value, later, -, hfound⟩ := findValue_mentioned hattr hother hmention tag.isEmpty
    have hsome := hfound []
    rw [List.append_nil, hnone] at hsome
    contradiction
  · intro hmention
    obtain ⟨start, hstart⟩ := findValue_others hattr hother hmention tag.isEmpty []
    rw [List.append_nil] at hstart
    rw [hstart, findValue]

/-- Behind a value that mentions the attribute, one value is returned at most. -/
theorem attrValue_unique (hfirst : first ∉ name) (hattr : IsName (first :: name))
    (htag : ∀ symbol ∈ tag, symbol.isAlphanum = true)
    (hother : ∀ entry ∈ before ++ after, IsOther (first :: name) entry)
    (hmention : ∃ entry ∈ before, Mentions (first :: name) entry.value)
    {written value value' : List Char} (hwritten : toAsciiLowercase written = first :: name)
    (h : attrValue (serializeTag tag (before ++ ⟨written, value⟩ :: after)) (first :: name) =
      some (some value))
    (h' : attrValue (serializeTag tag (before ++ ⟨written, value'⟩ :: after)) (first :: name) =
      some (some value')) : value = value' := by
  have hbefore : ∀ other ∈ before, IsOther (first :: name) other := fun other hmem ↦
    hother other (List.mem_append_left after hmem)
  obtain ⟨rest, later, hlater, hfound⟩ := findValue_mentioned hattr hbefore hmention tag.isEmpty
  have hread (read : List Char) :
      attrValue (serializeTag tag (before ++ ⟨written, read⟩ :: after)) (first :: name) =
        some (some (regionValue ((encodeValue rest ++ '"' :: (later.flatMap Attribute.text ++
          ((Attribute.mk written read).text ++ after.flatMap Attribute.text))).dropWhile
            isWhitespace))) := by
    rw [attrValue_serializeTag hfirst hattr htag (isName_insert hattr hother hwritten),
      List.flatMap_append, List.flatMap_cons, hfound]
    rfl
  rw [hread, Option.some_inj, Option.some_inj] at h h'
  exact regionValue_unique (isName_of_toAsciiLowercase hattr hwritten) hlater h h'

end Href

/-- Whatever the other attributes, the link has the target of its own `href` if and only if no value
in front of it holds a blank, `href` and an equals sign; behind such a value one target is right at
most.  Without an `href` there is no target if and only if no value at all mentions it. -/
theorem attrValue_href_exact_iff {tag : List Char} {before after : List Attribute}
    (htag : ∀ symbol ∈ tag, symbol.isAlphanum = true)
    (hother : ∀ entry ∈ before ++ after, IsOther "href".toList entry) :
    ((∀ entry : Attribute, toAsciiLowercase entry.name = "href".toList →
        attrValue (serializeTag tag (before ++ entry :: after)) "href".toList =
          some (some entry.value)) ↔
      ∀ other ∈ before, ¬Mentions "href".toList other.value) ∧
    ((∃ other ∈ before, Mentions "href".toList other.value) →
      ∀ name value value', toAsciiLowercase name = "href".toList →
        attrValue (serializeTag tag (before ++ ⟨name, value⟩ :: after)) "href".toList =
          some (some value) →
        attrValue (serializeTag tag (before ++ ⟨name, value'⟩ :: after)) "href".toList =
          some (some value') → value = value') ∧
    (attrValue (serializeTag tag (before ++ after)) "href".toList = some none ↔
      ∀ other ∈ before ++ after, ¬Mentions "href".toList other.value) := by
  have hfirst : 'h' ∉ ['r', 'e', 'f'] := by decide
  have hattr : IsName ['h', 'r', 'e', 'f'] := ⟨by decide, forall_mem_of_all (by decide)⟩
  have hunique (hmention : ∃ other ∈ before, Mentions "href".toList other.value)
      (name value value' : List Char) (hname : toAsciiLowercase name = "href".toList) :=
    @attrValue_unique before _ _ _ _ hfirst hattr htag hother hmention name value value' hname
  refine ⟨⟨fun h ↦ ?_, fun h entry hentry ↦ ?_⟩, hunique, ?_⟩
  · by_contra hmention
    push Not at hmention
    have hempty := hunique hmention "href".toList [] ['x'] rfl (h ⟨"href".toList, []⟩ rfl)
      (h ⟨"href".toList, ['x']⟩ rfl)
    contradiction
  · exact attrValue_of_not_mentions hfirst hattr htag hother h hentry
  · exact attrValue_eq_none_iff hfirst hattr htag hother

theorem attrValue_href_exact_sample :
    attrValue (serializeTag "a".toList
      [⟨"title".toList, "href=".toList⟩, ⟨"HREF".toList, "/?q=\"a\"&b".toList⟩]) "href".toList =
        some (some "/?q=\"a\"&b".toList) := by
  refine (@attrValue_href_exact_iff "a".toList [⟨"title".toList, "href=".toList⟩] []
    (forall_mem_of_all (by decide)) ?_).1.mpr ?_ ⟨"HREF".toList, _⟩ (by decide)
  · intro entry hentry
    obtain rfl := List.mem_singleton.mp hentry
    exact ⟨⟨by decide, forall_mem_of_all (by decide)⟩, by decide⟩
  · -- The value is the name and an equals sign, but no blank stands in front of them.
    intro entry hentry
    obtain rfl := List.mem_singleton.mp hentry
    rintro ⟨front, blank, name, gap, after, hparts, hblank, -⟩
    have hmem : blank ∈ "href=".toList := by
      change "href=".toList = _ at hparts
      rw [hparts]
      simp
    have hnone : ∀ symbol ∈ "href=".toList, isAsciiWhitespace symbol.toNat = false :=
      forall_mem_of_all (by decide)
    rw [hnone blank hmem] at hblank
    contradiction

/-- The link goes to a target from its title. -/
theorem attrValue_href_not_exact :
    serializeTag "a".toList
      [⟨"title".toList, "see href=x".toList⟩, ⟨"href".toList, "y".toList⟩] =
        "a title=\"see href=x\" href=\"y\"".toList ∧
    attrValue "a title=\"see href=x\" href=\"y\"".toList "href".toList =
      some (some "x\"".toList) ∧ "x\"".toList ≠ "y".toList := by
  refine ⟨?_, ?_, ?_⟩
  · decide
  · decide
  · decide

end Ghostbro.Relay.Normalize
