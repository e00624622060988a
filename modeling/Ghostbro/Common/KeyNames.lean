import Ghostbro.Common.Keys
import Ghostbro.Foundation.Text

/-!
# The names that parse

`key_id_from_hex` cuts the bytes of a name into pairs and leaves each pair to an integer parser,
which also takes a plus sign in front of a digit.  So a name parses if each of its eight pairs is a
digit or a sign and a digit, and it parses as the key whose written name it is, up to letter case
and with zeros for the signs.
-/

namespace Ghostbro.Keys

/-! ### Readable names -/

def isHexDigit (symbol : Char) : Bool := symbol ∈ "0123456789abcdefABCDEF".toList

/-- Sixteen hexadecimal digits. -/
def IsHexName (name : String) : Prop :=
  name.toList.length = 16 ∧ ∀ symbol ∈ name.toList, isHexDigit symbol = true

def SameUpToCase (name name' : String) : Prop :=
  name.toList.map Char.toLower = name'.toList.map Char.toLower

/-- The symbols of a name two by two. -/
def charPairs : List Char → List (Char × Char)
  | first :: second :: rest => (first, second) :: charPairs rest
  | _ => []

/-- A digit or a plus sign, and a digit. -/
def readable (pair : Char × Char) : Bool :=
  (isHexDigit pair.1 || pair.1 = '+') && isHexDigit pair.2

/-- Eight readable pairs, at least one of them with a sign. -/
def Signed (name : String) : Prop :=
  name.toList.length = 16 ∧ (charPairs name.toList).all readable = true ∧ '+' ∈ name.toList

instance (name : String) : Decidable (Signed name) := inferInstanceAs (Decidable (_ ∧ _ ∧ _))

/-- The two digits of a pair as they are written. -/
def written (pair : Char × Char) : List Char :=
  [if pair.1 = '+' then '0' else pair.1.toLower, pair.2.toLower]

/-! ### One pair -/

theorem hexDigit_ofNat {symbol : Char} (h : symbol.toNat < 128) :
    (hexDigit (UInt8.ofNat symbol.toNat)).isSome = isHexDigit symbol ∧
      ∀ digit, hexDigit (UInt8.ofNat symbol.toNat) = some digit →
        digit < 16 ∧ Nat.digitChar digit = symbol.toLower := by
  have hall : ∀ code : Fin 128, (hexDigit (UInt8.ofNat code)).isSome =
      isHexDigit (Char.ofNat code) ∧ ∀ digit ∈ hexDigit (UInt8.ofNat code),
        digit < 16 ∧ Nat.digitChar digit = (Char.ofNat code).toLower := by decide +kernel
  simpa using hall ⟨symbol.toNat, h⟩

theorem digitChar_inj {digit digit' : ℕ} (h : digit < 16) (h' : digit' < 16)
    (heq : Nat.digitChar digit = Nat.digitChar digit') : digit = digit' := by
  have hall : ∀ digit digit' : Fin 16, Nat.digitChar digit = Nat.digitChar digit' →
      digit = digit' := by decide
  exact Fin.mk.inj (hall ⟨digit, h⟩ ⟨digit', h'⟩ heq)

/-- The byte whose two written digits these are. -/
theorem hexByte_eq_iff {high low : ℕ} (hhigh : high < 16) (hlow : low < 16) (byte : UInt8) :
    [Nat.digitChar high, Nat.digitChar low] = hexByte byte ↔
      UInt8.ofNat (high * 16 + low) = byte := by
  have hlt := byte.toNat_lt
  constructor
  · intro h
    obtain ⟨hfirst, hsecond, -⟩ : _ ∧ _ ∧ True := by simpa [hexByte] using h
    have hquotient := digitChar_inj hhigh (by omega) hfirst
    have hremainder := digitChar_inj hlow (by omega) hsecond
    apply UInt8.toNat_inj.mp
    rw [UInt8.toNat_ofNat']
    omega
  · rintro rfl
    have hvalue : (UInt8.ofNat (high * 16 + low)).toNat = high * 16 + low := by
      rw [UInt8.toNat_ofNat']
      omega
    have hquotient : (high * 16 + low) / 16 = high := by omega
    have hremainder : (high * 16 + low) % 16 = low := by omega
    rw [hexByte, hvalue, hquotient, hremainder]

theorem u8FromStrRadix16_pair {first second : Char} (hfirst : first.toNat < 128)
    (hsecond : second.toNat < 128) (byte : UInt8) :
    u8FromStrRadix16 [UInt8.ofNat first.toNat, UInt8.ofNat second.toNat] = some byte ↔
      readable (first, second) = true ∧ written (first, second) = hexByte byte := by
  obtain ⟨hsome, hdigit⟩ := hexDigit_ofNat hfirst
  obtain ⟨hsome', hdigit'⟩ := hexDigit_ofNat hsecond
  have hsign : UInt8.ofNat first.toNat = 43 ↔ first = '+' := by
    rw [← UInt8.toNat_inj, ← Char.toNat_inj, UInt8.toNat_ofNat', Nat.mod_eq_of_lt (by omega)]
    rfl
  cases hlow : hexDigit (UInt8.ofNat second.toNat) with
  | none =>
    rw [hlow] at hsome'
    have hnone : u8FromStrRadix16 [UInt8.ofNat first.toNat, UInt8.ofNat second.toNat] = none := by
      unfold u8FromStrRadix16 hexDigits
      split_ifs <;> cases hexDigit (UInt8.ofNat first.toNat) <;> simp_all
    simp [hnone, readable, ← hsome']
  | some low =>
    obtain ⟨hlt, hchar⟩ := hdigit' low hlow
    rw [hlow] at hsome'
    by_cases hplus : first = '+'
    · have hread : u8FromStrRadix16 [UInt8.ofNat first.toNat, UInt8.ofNat second.toNat] =
          some (UInt8.ofNat low) := by
        have hsmall : low < 256 := by omega
        simp [u8FromStrRadix16, hexDigits, hsign.mpr hplus, hlow, hsmall]
      have hbyte : ['0', Nat.digitChar low] = hexByte byte ↔ UInt8.ofNat (0 * 16 + low) = byte :=
        @hexByte_eq_iff 0 low (by decide) hlt byte
      rw [Nat.zero_mul, Nat.zero_add] at hbyte
      rw [hread]
      simp only [readable, written, hplus, ← hsome', ← hchar]
      simpa using hbyte.symm
    · have hnosign : ¬UInt8.ofNat first.toNat = 43 := fun h ↦ hplus (hsign.mp h)
      cases hhigh : hexDigit (UInt8.ofNat first.toNat) with
      | none =>
        rw [hhigh] at hsome
        simp [u8FromStrRadix16, hexDigits, hnosign, hhigh, readable, hplus, ← hsome]
      | some high =>
        obtain ⟨hlt', hchar'⟩ := hdigit high hhigh
        rw [hhigh] at hsome
        have hsmall : high * 16 + low < 256 := by omega
        have hread : u8FromStrRadix16 [UInt8.ofNat first.toNat, UInt8.ofNat second.toNat] =
            some (UInt8.ofNat (high * 16 + low)) := by
          simp [u8FromStrRadix16, hexDigits, hnosign, hhigh, hlow, hsmall]
        rw [hread]
        simp only [readable, written, hplus, ← hsome, ← hsome', ← hchar, ← hchar']
        simpa using (hexByte_eq_iff hlt' hlt byte).symm

/-! ### Whole names -/

theorem chunksExact2_map (symbols : List Char) :
    chunksExact2 (symbols.map fun symbol ↦ UInt8.ofNat symbol.toNat) =
      (charPairs symbols).map fun pair ↦
        [UInt8.ofNat pair.1.toNat, UInt8.ofNat pair.2.toNat] := by
  induction symbols using charPairs.induct with
  | case1 first second rest ih => simpa [chunksExact2, charPairs] using ih
  | case2 symbols hshort =>
    cases symbols with
    | nil => rfl
    | cons first rest =>
      cases rest with
      | nil => rfl
      | cons second rest => exact absurd rfl (hshort first second rest)

/-- What is left of an even number of items when no pair is left. -/
theorem eq_nil_of_short {α : Type} {items : List α} (heven : items.length % 2 = 0)
    (hshort : ∀ first second rest, items = first :: second :: rest → False) : items = [] := by
  cases items with
  | nil => rfl
  | cons first rest =>
    cases rest with
    | nil => simp at heven
    | cons second rest => exact absurd rfl (hshort first second rest)

theorem flatMap_charPairs {symbols : List Char} (h : symbols.length % 2 = 0) :
    (charPairs symbols).flatMap (fun pair ↦ [pair.1, pair.2]) = symbols := by
  induction symbols using charPairs.induct with
  | case1 first second rest ih =>
    rw [List.length_cons, List.length_cons] at h
    simp [charPairs, ih (by omega)]
  | case2 symbols hshort =>
    rw [eq_nil_of_short h hshort]
    rfl

theorem mem_of_mem_charPairs {symbols : List Char} {pair : Char × Char}
    (h : pair ∈ charPairs symbols) : pair.1 ∈ symbols ∧ pair.2 ∈ symbols := by
  induction symbols using charPairs.induct with
  | case1 first second rest ih =>
    rcases List.mem_cons.mp h with rfl | hrest
    · simp
    · simp [ih hrest]
  | case2 symbols hshort => simp [charPairs] at h

theorem mapM_pairs {pairs : List (Char × Char)}
    (hascii : ∀ pair ∈ pairs, pair.1.toNat < 128 ∧ pair.2.toNat < 128) (bytes : Bytes) :
    (pairs.map fun pair ↦ [UInt8.ofNat pair.1.toNat, UInt8.ofNat pair.2.toNat]).mapM
        u8FromStrRadix16 = some bytes ↔
      pairs.all readable = true ∧ pairs.flatMap written = bytes.flatMap hexByte := by
  induction pairs generalizing bytes with
  | nil => cases bytes <;> simp [hexByte]
  | cons pair rest ih =>
    obtain ⟨hfirst, hsecond⟩ := hascii pair List.mem_cons_self
    have hpair := u8FromStrRadix16_pair hfirst hsecond
    have hrest := ih fun pair hmem ↦ hascii pair (List.mem_cons_of_mem _ hmem)
    rw [List.map_cons, List.mapM_cons, List.all_cons, Bool.and_eq_true, List.flatMap_cons]
    cases bytes with
    | nil => simp [Option.bind_eq_some_iff, written]
    | cons byte bytes =>
      have hmap : (do
          let byte' ← u8FromStrRadix16 [UInt8.ofNat pair.1.toNat, UInt8.ofNat pair.2.toNat]
          let bytes' ← (rest.map fun pair ↦
            [UInt8.ofNat pair.1.toNat, UInt8.ofNat pair.2.toNat]).mapM u8FromStrRadix16
          pure (byte' :: bytes')) = some (byte :: bytes) ↔
          (readable pair = true ∧ written pair = hexByte byte) ∧ rest.all readable = true ∧
            rest.flatMap written = bytes.flatMap hexByte := by
        rw [← hpair, ← hrest]
        simp [Option.bind_eq_some_iff]
      rw [hmap, List.flatMap_cons]
      constructor
      · rintro ⟨⟨hread, hwritten⟩, hreads, hwrittens⟩
        exact ⟨⟨hread, hreads⟩, by rw [hwritten, hwrittens]⟩
      · rintro ⟨⟨hread, hreads⟩, hwrittens⟩
        obtain ⟨hwritten, hrests⟩ := List.append_inj hwrittens rfl
        exact ⟨⟨hread, hwritten⟩, hreads, hrests⟩

theorem toNat_lt_of_readable {pair : Char × Char} (h : readable pair = true) :
    pair.1.toNat < 128 ∧ pair.2.toNat < 128 := by
  have hdigit {symbol : Char} (h : isHexDigit symbol = true) : symbol.toNat < 128 := by
    have hall : ∀ digit ∈ "0123456789abcdefABCDEF".toList, digit.toNat < 128 := by simp
    exact hall symbol (of_decide_eq_true h)
  rw [readable, Bool.and_eq_true, Bool.or_eq_true, decide_eq_true_eq] at h
  refine ⟨?_, hdigit h.2⟩
  rcases h.1 with hfirst | hplus
  · exact hdigit hfirst
  · rw [hplus]
    decide

theorem length_flatMap_of_two {α β : Type} {f : α → List β} (hf : ∀ item, (f item).length = 2)
    (items : List α) : (items.flatMap f).length = 2 * items.length := by
  induction items with
  | nil => rfl
  | cons item items ih =>
    rw [List.flatMap_cons, List.length_append, ih, hf, List.length_cons]
    omega

theorem length_charPairs {symbols : List Char} (h : symbols.length % 2 = 0) :
    2 * (charPairs symbols).length = symbols.length := by
  calc
    2 * (charPairs symbols).length =
        ((charPairs symbols).flatMap fun pair ↦ [pair.1, pair.2]).length :=
      (length_flatMap_of_two (fun _ ↦ rfl) _).symm
    _ = symbols.length := by rw [flatMap_charPairs h]

theorem length_written (pairs : List (Char × Char)) :
    (pairs.flatMap written).length = 2 * pairs.length :=
  length_flatMap_of_two (fun _ ↦ rfl) pairs

theorem length_hexBytes (bytes : Bytes) : (bytes.flatMap hexByte).length = 2 * bytes.length :=
  length_flatMap_of_two (fun _ ↦ rfl) bytes

/-- A chunk that parses holds ASCII bytes only. -/
theorem toNat_lt_of_chunk {first second byte : UInt8}
    (h : u8FromStrRadix16 [first, second] = some byte) :
    first.toNat < 128 ∧ second.toNat < 128 := by
  have hdigit {byte : UInt8} (h : hexDigit byte ≠ none) : byte.toNat < 128 := by
    have hall : ∀ byte : Fin 256, hexDigit (UInt8.ofNat byte) ≠ none → byte.val < 128 := by
      decide +kernel
    have hlt := hall ⟨byte.toNat, byte.toNat_lt⟩
    rw [UInt8.ofNat_toNat] at hlt
    exact hlt h
  have hparts : (first = 43 ∨ hexDigit first ≠ none) ∧ hexDigit second ≠ none := by
    constructor
    · by_contra! hfirst
      simp [u8FromStrRadix16, hexDigits, hfirst] at h
    · intro hsecond
      unfold u8FromStrRadix16 hexDigits at h
      split_ifs at h <;> cases hfirst : hexDigit first <;> simp [hfirst, hsecond] at h
  refine ⟨?_, hdigit hparts.2⟩
  rcases hparts.1 with rfl | hfirst
  · decide
  · exact hdigit hfirst

/-- So does a string of chunks. -/
theorem toNat_lt_of_mapM {bytes parsed : Bytes} (heven : bytes.length % 2 = 0)
    (h : (chunksExact2 bytes).mapM u8FromStrRadix16 = some parsed) :
    ∀ byte ∈ bytes, byte.toNat < 128 := by
  induction bytes using chunksExact2.induct generalizing parsed with
  | case1 first second rest ih =>
    rw [chunksExact2, List.mapM_cons] at h
    obtain ⟨byte, hbyte, htail⟩ := Option.bind_eq_some_iff.mp h
    obtain ⟨bytes, hbytes, -⟩ := Option.bind_eq_some_iff.mp htail
    rw [List.length_cons, List.length_cons] at heven
    have hrest := ih (by omega) hbytes
    obtain ⟨hfirst, hsecond⟩ := toNat_lt_of_chunk hbyte
    simpa [hfirst, hsecond] using hrest
  | case2 bytes hshort =>
    rw [eq_nil_of_short heven hshort]
    simp

/-- What a name parses as. -/
theorem keyIdFromHex_eq_some_iff (name : String) (keyId : KeyId) :
    keyIdFromHex name = some keyId ↔ name.toList.length = 16 ∧
      (charPairs name.toList).all readable = true ∧
        (charPairs name.toList).flatMap written = (keyIdHex keyId).toList := by
  have hwritten : (keyIdHex keyId).toList = keyId.toList.flatMap hexByte := String.toList_ofList
  rw [keyIdFromHex, toList_toByteArray, hwritten]
  constructor
  · intro h
    split at h
    · cases h
    · next hlength =>
      obtain ⟨parsed, hparsed, rfl⟩ := Option.map_eq_some_iff.mp h
      have hlength := not_not.mp hlength
      have hascii := Text.flatMap_utf8EncodeChar_of_lt (toNat_lt_of_mapM (by omega) hparsed)
      rw [Text.flatMap_utf8EncodeChar_eq_map hascii] at hparsed hlength
      rw [List.length_map] at hlength
      rw [chunksExact2_map, mapM_pairs] at hparsed
      · have hpairs : 2 * (charPairs name.toList).length = name.toList.length :=
          length_charPairs (by omega)
        have hlengths := congrArg List.length hparsed.2
        rw [length_written, length_hexBytes] at hlengths
        have hread : (readArray 8 parsed 0).toList = parsed := by
          rw [toList_readArray (by omega), List.drop_zero, List.take_of_length_le (by omega)]
        rw [hread]
        exact ⟨hlength, hparsed⟩
      · intro pair hmem
        obtain ⟨hfirst, hsecond⟩ := mem_of_mem_charPairs hmem
        exact ⟨hascii _ hfirst, hascii _ hsecond⟩
  · rintro ⟨hlength, hreadable, hpairs⟩
    have hpairsAscii : ∀ pair ∈ charPairs name.toList,
        pair.1.toNat < 128 ∧ pair.2.toNat < 128 :=
      fun pair hmem ↦ toNat_lt_of_readable (List.all_eq_true.mp hreadable pair hmem)
    have hascii : ∀ symbol ∈ name.toList, symbol.toNat < 128 := by
      intro symbol hmem
      rw [← flatMap_charPairs (show name.toList.length % 2 = 0 by omega)] at hmem
      obtain ⟨pair, hpair, hsymbol⟩ := List.mem_flatMap.mp hmem
      obtain ⟨hfirst, hsecond⟩ := hpairsAscii pair hpair
      rcases List.mem_cons.mp hsymbol with rfl | hlast
      · exact hfirst
      · rwa [List.mem_singleton.mp hlast]
    have hparsed := (mapM_pairs hpairsAscii keyId.toList).mpr ⟨hreadable, hpairs⟩
    rw [Text.flatMap_utf8EncodeChar_eq_map hascii, List.length_map, hlength,
      if_neg (not_not.mpr rfl), chunksExact2_map, hparsed, Option.map_some, readArray_toList]

/-! ### Exact names -/

theorem toLower_digitChar {digit : ℕ} (h : digit < 16) :
    (Nat.digitChar digit).toLower = Nat.digitChar digit := by
  have hall : ∀ digit : Fin 16, (Nat.digitChar digit).toLower = Nat.digitChar digit := by decide
  exact hall ⟨digit, h⟩

theorem toLower_keyIdHex (keyId : KeyId) :
    (keyIdHex keyId).toList.map Char.toLower = (keyIdHex keyId).toList := by
  have hbyte (byte : UInt8) : (hexByte byte).map Char.toLower = hexByte byte := by
    have hlt := byte.toNat_lt
    simp [hexByte, toLower_digitChar (show byte.toNat / 16 < 16 by omega),
      toLower_digitChar (show byte.toNat % 16 < 16 by omega)]
  rw [keyIdHex, String.toList_ofList, List.map_flatMap]
  simp only [hbyte]

/-- Without a sign the pairs are written as the symbols are. -/
theorem flatMap_written {symbols : List Char} (heven : symbols.length % 2 = 0)
    (hplus : '+' ∉ symbols) :
    (charPairs symbols).flatMap written = symbols.map Char.toLower := by
  conv_rhs => rw [← flatMap_charPairs heven, List.map_flatMap]
  apply List.flatMap_congr
  intro pair hmem
  have hfirst : pair.1 ≠ '+' := fun h ↦ hplus (h ▸ (mem_of_mem_charPairs hmem).1)
  simp [written, hfirst]

theorem isHexName_iff {name : String} (hplus : '+' ∉ name.toList) :
    IsHexName name ↔
      name.toList.length = 16 ∧ (charPairs name.toList).all readable = true := by
  apply and_congr_right
  intro hlength
  have hsymbols := flatMap_charPairs (show name.toList.length % 2 = 0 by omega)
  rw [List.all_eq_true]
  constructor
  · intro h pair hmem
    obtain ⟨hfirst, hsecond⟩ := mem_of_mem_charPairs hmem
    simp [readable, h _ hfirst, h _ hsecond]
  · intro h symbol hmem
    rw [← hsymbols] at hmem
    obtain ⟨pair, hpair, hsymbol⟩ := List.mem_flatMap.mp hmem
    have hfirst : pair.1 ≠ '+' := fun h ↦ hplus (h ▸ (mem_of_mem_charPairs hpair).1)
    have hreadable := h pair hpair
    simp only [readable, hfirst, decide_false, Bool.or_false, Bool.and_eq_true] at hreadable
    rcases List.mem_cons.mp hsymbol with rfl | hlast
    · exact hreadable.1
    · rw [List.mem_singleton.mp hlast]
      exact hreadable.2

theorem plus_not_mem_of_isHexName {name : String} (h : IsHexName name) : '+' ∉ name.toList := by
  intro hmem
  exact absurd (h.2 _ hmem) (by decide)

/-- An unsigned name parses exactly as the key whose written name it is. -/
theorem keyIdFromHex_of_not_signed {name : String} (h : ¬Signed name) (keyId : KeyId) :
    keyIdFromHex name = some keyId ↔
      IsHexName name ∧ SameUpToCase name (keyIdHex keyId) := by
  rw [keyIdFromHex_eq_some_iff, SameUpToCase, toLower_keyIdHex]
  by_cases hplus : '+' ∈ name.toList
  · constructor
    · rintro ⟨hlength, hreadable, -⟩
      exact absurd ⟨hlength, hreadable, hplus⟩ h
    · rintro ⟨hname, -⟩
      exact absurd hplus (plus_not_mem_of_isHexName hname)
  · rw [isHexName_iff hplus, and_assoc]
    apply and_congr_right
    intro hlength
    rw [flatMap_written (by omega) hplus]

/-- A readable pair is written as some byte is. -/
theorem exists_hexByte {pair : Char × Char} (h : readable pair = true) :
    ∃ byte, written pair = hexByte byte := by
  have hdigit {symbol : Char} (hascii : symbol.toNat < 128) (h : isHexDigit symbol = true) :
      ∃ digit < 16, Nat.digitChar digit = symbol.toLower := by
    obtain ⟨hsome, hchar⟩ := hexDigit_ofNat hascii
    rw [h] at hsome
    obtain ⟨digit, hvalue⟩ := Option.isSome_iff_exists.mp hsome
    exact ⟨digit, hchar digit hvalue⟩
  obtain ⟨hascii, hascii'⟩ := toNat_lt_of_readable h
  rw [readable, Bool.and_eq_true, Bool.or_eq_true, decide_eq_true_eq] at h
  obtain ⟨low, hlow, hsecond⟩ := hdigit hascii' h.2
  have hhigh : ∃ high < 16, Nat.digitChar high =
      if pair.1 = '+' then '0' else pair.1.toLower := by
    split
    · exact ⟨0, by decide, rfl⟩
    · next hplus => exact hdigit hascii (h.1.resolve_right hplus)
  obtain ⟨high, hhigh, hfirst⟩ := hhigh
  refine ⟨UInt8.ofNat (high * 16 + low), ?_⟩
  rw [← (hexByte_eq_iff hhigh hlow _).mpr rfl, written, hfirst, hsecond]

theorem exists_hexBytes {pairs : List (Char × Char)} (h : pairs.all readable = true) :
    ∃ bytes : Bytes, bytes.length = pairs.length ∧
      pairs.flatMap written = bytes.flatMap hexByte := by
  induction pairs with
  | nil => exact ⟨[], rfl, rfl⟩
  | cons pair rest ih =>
    rw [List.all_cons, Bool.and_eq_true] at h
    obtain ⟨byte, hbyte⟩ := exists_hexByte h.1
    obtain ⟨bytes, hlength, hbytes⟩ := ih h.2
    refine ⟨byte :: bytes, by rw [List.length_cons, List.length_cons, hlength], ?_⟩
    rw [List.flatMap_cons, List.flatMap_cons, hbyte, hbytes]

/-- A signed name parses, too. -/
theorem exists_keyIdFromHex_of_signed {name : String} (h : Signed name) :
    ∃ keyId, keyIdFromHex name = some keyId := by
  obtain ⟨hlength, hreadable, -⟩ := h
  obtain ⟨bytes, hbytes, hwritten⟩ := exists_hexBytes hreadable
  have hpairs : 2 * (charPairs name.toList).length = name.toList.length :=
    length_charPairs (by omega)
  refine ⟨⟨bytes.toArray, by rw [List.size_toArray]; omega⟩, ?_⟩
  rw [keyIdFromHex_eq_some_iff, hwritten, keyIdHex, String.toList_ofList]
  exact ⟨hlength, hreadable, rfl⟩

/-- Written names parse back, and a name parses exactly as the key it names, and as no key of
another unsigned name, unless it has a plus sign for the first digit of a pair. -/
theorem keyIdFromHex_exact_iff (name : String) :
    (∀ keyId, keyIdFromHex (keyIdHex keyId) = some keyId) ∧
      (((∀ keyId, keyIdFromHex name = some keyId ↔
          IsHexName name ∧ SameUpToCase name (keyIdHex keyId)) ∧
        ∀ name' keyId, ¬Signed name' → keyIdFromHex name = some keyId →
          keyIdFromHex name' = some keyId → SameUpToCase name name') ↔
      ¬Signed name) := by
  refine ⟨keyIdFromHex_keyIdHex, ?_, ?_⟩
  · rintro ⟨hexact, -⟩ hsigned
    obtain ⟨keyId, hkey⟩ := exists_keyIdFromHex_of_signed hsigned
    exact plus_not_mem_of_isHexName ((hexact keyId).mp hkey).1 hsigned.2.2
  · intro hsigned
    refine ⟨keyIdFromHex_of_not_signed hsigned, ?_⟩
    intro name' keyId hsigned' hkey hkey'
    have hsame := ((keyIdFromHex_of_not_signed hsigned keyId).mp hkey).2
    have hsame' := ((keyIdFromHex_of_not_signed hsigned' keyId).mp hkey').2
    exact hsame.trans hsame'.symm

/-- The name `+5+5+5+5+5+5+5+5` parses as the key `0505050505050505`. -/
theorem keyIdFromHex_not_exact :
    ¬∀ name keyId, keyIdFromHex name = some keyId ↔
      IsHexName name ∧ SameUpToCase name (keyIdHex keyId) := by
  intro hall
  have hparsed := (hall "+5+5+5+5+5+5+5+5" (Vector.replicate 8 5)).mp (by decide +kernel)
  exact plus_not_mem_of_isHexName hparsed.1 (by decide)

end Ghostbro.Keys
