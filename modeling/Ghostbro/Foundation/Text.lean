import Mathlib.Algebra.GroupWithZero.Nat
import Mathlib.Data.List.DropRight

/-!
# Texts as lists of symbols

Splitting a text at the first or at the last occurrence of a separator, and trimming it.  A split
is known from the side of the text on which the separator does not occur, so a text that was joined
splits again exactly when that side is free of the separator.

A text of characters is also addressed by the byte offsets of its UTF-8 encoding.  A slice exists
if its ends are in bounds and between two characters, which the offset of a part of the text
always is; so a scanner by offsets is read as a scanner of what is left of its text.
-/

namespace Ghostbro.Text

variable {α : Type*}

/-! ### Trimming -/

/-- The text without the blanks at either end. -/
def trim (isBlank : α → Bool) (text : List α) : List α :=
  (text.dropWhile isBlank).rdropWhile isBlank

/-- A trimmed text has nothing left to trim. -/
@[simp]
theorem trim_trim (isBlank : α → Bool) (text : List α) :
    trim isBlank (trim isBlank text) = trim isBlank text := by
  have hfront : (trim isBlank text).dropWhile isBlank = trim isBlank text := by
    rw [List.dropWhile_eq_self_iff]
    intro hlength
    have hstart : trim isBlank text <+: text.dropWhile isBlank := List.rdropWhile_prefix _ _
    have hhead := List.dropWhile_get_zero_not isBlank text (hlength.trans_le hstart.length_le)
    rw [hstart.getElem hlength]
    simpa using hhead
  conv_lhs => rw [trim, hfront]
  exact List.rdropWhile_idempotent _ _

/-- A text without blanks has nothing to trim. -/
theorem trim_eq_self {isBlank : α → Bool} {text : List α}
    (h : ∀ symbol ∈ text, isBlank symbol = false) : trim isBlank text = text := by
  have hfront : text.dropWhile isBlank = text := by
    rw [List.dropWhile_eq_self_iff]
    intro hlength
    rw [h _ (List.getElem_mem hlength)]
    decide
  rw [trim, hfront, List.rdropWhile_eq_self_iff]
  intro hne
  rw [h _ (List.getLast_mem hne)]
  decide

/-- A blank behind a text without blanks is trimmed. -/
theorem trim_concat {isBlank : α → Bool} {text : List α} {blank : α}
    (h : ∀ symbol ∈ text, isBlank symbol = false) (hblank : isBlank blank = true) :
    trim isBlank (text ++ [blank]) = text := by
  cases text with
  | nil => simp [trim, hblank]
  | cons first rest =>
    have hfirst : isBlank first = false := h first List.mem_cons_self
    have hfront : (first :: rest ++ [blank]).dropWhile isBlank = first :: rest ++ [blank] := by
      rw [List.cons_append, List.dropWhile_cons_of_neg (by simp [hfirst])]
    have hback := trim_eq_self h
    rw [trim, List.dropWhile_cons_of_neg (by simp [hfirst])] at hback
    rw [trim, hfront, List.rdropWhile_concat_pos _ _ _ hblank, hback]

section

variable [DecidableEq α]

/-! ### Splitting at a separator -/

/-- The parts before and after the first occurrence of the separator. -/
def splitOnce (separator : α) : List α → Option (List α × List α)
  | [] => none
  | symbol :: rest =>
    if symbol = separator then some ([], rest)
    else (splitOnce separator rest).map fun (before, after) ↦ (symbol :: before, after)

/-- The parts before and after the last occurrence of the separator. -/
def rsplitOnce (separator : α) (text : List α) : Option (List α × List α) :=
  (splitOnce separator text.reverse).map fun (after, before) ↦ (before.reverse, after.reverse)

@[simp]
theorem splitOnce_eq_none {separator : α} {text : List α} :
    splitOnce separator text = none ↔ separator ∉ text := by
  induction text with
  | nil => simp [splitOnce]
  | cons symbol rest ih =>
    by_cases h : symbol = separator
    · simp [splitOnce, h]
    · simp [splitOnce, h, ih, Ne.symm h]

/-- A joined text splits where it was joined if the separator is not in the first part. -/
theorem splitOnce_append {separator : α} {before : List α} (h : separator ∉ before)
    (after : List α) :
    splitOnce separator (before ++ separator :: after) = some (before, after) := by
  induction before with
  | nil => simp [splitOnce]
  | cons symbol rest ih =>
    have hne : symbol ≠ separator := fun heq ↦ h (heq ▸ List.mem_cons_self)
    have hrest : separator ∉ rest := fun hmem ↦ h (List.mem_cons_of_mem symbol hmem)
    rw [List.cons_append, splitOnce, if_neg hne, ih hrest, Option.map_some]

theorem splitOnce_eq_some {separator : α} {text before after : List α} :
    splitOnce separator text = some (before, after) ↔
      text = before ++ separator :: after ∧ separator ∉ before := by
  constructor
  · intro h
    induction text generalizing before with
    | nil => cases h
    | cons symbol rest ih =>
      rw [splitOnce] at h
      split at h
      next heq =>
        obtain ⟨rfl, rfl⟩ : [] = before ∧ rest = after := by simpa using h
        simp [heq]
      next hne =>
        obtain ⟨⟨before', after'⟩, hrest, hparts⟩ := Option.map_eq_some_iff.mp h
        obtain ⟨rfl, rfl⟩ : symbol :: before' = before ∧ after' = after := by simpa using hparts
        have hsplit := ih hrest
        refine ⟨by rw [hsplit.1, List.cons_append], ?_⟩
        simp [Ne.symm hne, hsplit.2]
  · intro h
    rw [h.1]
    exact splitOnce_append h.2 after

/-- What follows a separator does not change the first element. -/
theorem takeWhile_ne_append (separator : α) (before after : List α) :
    (before ++ separator :: after).takeWhile (· ≠ separator) =
      before.takeWhile (· ≠ separator) := by
  induction before with
  | nil => simp
  | cons symbol rest ih =>
    rw [List.cons_append, List.takeWhile_cons, List.takeWhile_cons, ih]

@[simp]
theorem rsplitOnce_eq_none {separator : α} {text : List α} :
    rsplitOnce separator text = none ↔ separator ∉ text := by
  simp [rsplitOnce]

/-- A joined text splits where it was joined if the separator is not in the second part. -/
theorem rsplitOnce_append {separator : α} (before : List α) {after : List α}
    (h : separator ∉ after) :
    rsplitOnce separator (before ++ separator :: after) = some (before, after) := by
  have hsplit : splitOnce separator (after.reverse ++ separator :: before.reverse) =
      some (after.reverse, before.reverse) := splitOnce_append (by simpa using h) _
  simp [rsplitOnce, hsplit]

theorem rsplitOnce_eq_some {separator : α} {text before after : List α} :
    rsplitOnce separator text = some (before, after) ↔
      text = before ++ separator :: after ∧ separator ∉ after := by
  constructor
  · intro h
    obtain ⟨⟨after', before'⟩, hsplit, hparts⟩ := Option.map_eq_some_iff.mp h
    obtain ⟨rfl, rfl⟩ : before'.reverse = before ∧ after'.reverse = after := by
      simpa using hparts
    have hreversed := splitOnce_eq_some.mp hsplit
    refine ⟨?_, by simpa using hreversed.2⟩
    rw [← List.reverse_reverse text, hreversed.1]
    simp
  · intro h
    rw [h.1]
    exact rsplitOnce_append before h.2

end

/-! ### The first suffix with a property -/

/-- The text before and from the first suffix that has the property. -/
def breakAt (found : List α → Bool) : List α → Option (List α × List α)
  | [] => if found [] then some ([], []) else none
  | symbol :: rest =>
    if found (symbol :: rest) then some ([], symbol :: rest)
    else (breakAt found rest).map fun (before, after) ↦ (symbol :: before, after)

theorem breakAt_self {found : List α → Bool} {text : List α} (h : found text = true) :
    breakAt found text = some ([], text) := by
  cases text <;> rw [breakAt, if_pos h]

theorem breakAt_eq_some {found : List α → Bool} {text before after : List α}
    (h : breakAt found text = some (before, after)) :
    text = before ++ after ∧ found after = true := by
  induction text generalizing before with
  | nil =>
    rw [breakAt] at h
    split at h
    · next hfound =>
      obtain ⟨rfl, rfl⟩ : [] = before ∧ [] = after := by simpa using h
      exact ⟨rfl, hfound⟩
    · cases h
  | cons symbol rest ih =>
    rw [breakAt] at h
    split at h
    · next hfound =>
      obtain ⟨rfl, rfl⟩ : [] = before ∧ symbol :: rest = after := by simpa using h
      exact ⟨rfl, hfound⟩
    · obtain ⟨⟨before', after'⟩, hrest, hparts⟩ := Option.map_eq_some_iff.mp h
      obtain ⟨rfl, rfl⟩ : symbol :: before' = before ∧ after' = after := by simpa using hparts
      exact ⟨by rw [(ih hrest).1, List.cons_append], (ih hrest).2⟩

/-- Nothing is found in a text without the property. -/
theorem breakAt_eq_none {found : List α → Bool} {text : List α} (h : breakAt found text = none)
    {front back : List α} (hparts : text = front ++ back) : found back = false := by
  induction text generalizing front with
  | nil =>
    obtain ⟨rfl, rfl⟩ := List.append_eq_nil_iff.mp hparts.symm
    rw [breakAt] at h
    split at h
    · cases h
    · next hfound => exact Bool.eq_false_iff.mpr hfound
  | cons symbol rest ih =>
    rw [breakAt] at h
    split at h
    · cases h
    · next hfound =>
      cases front with
      | nil =>
        rw [List.nil_append] at hparts
        exact hparts ▸ Bool.eq_false_iff.mpr hfound
      | cons first front => exact ih (Option.map_eq_none_iff.mp h) (List.cons.inj hparts).2

/-- What is found is the first. -/
theorem breakAt_first {found : List α → Bool} {text before after front back : List α}
    (h : breakAt found text = some (before, after)) (hparts : before = front ++ back)
    (hback : back ≠ []) : found (back ++ after) = false := by
  induction text generalizing before front with
  | nil =>
    rw [breakAt] at h
    split at h
    · obtain ⟨rfl, rfl⟩ := Prod.mk.inj (Option.some.inj h)
      exact absurd (List.append_eq_nil_iff.mp hparts.symm).2 hback
    · cases h
  | cons symbol rest ih =>
    have hwhole := (breakAt_eq_some h).1
    rw [breakAt] at h
    split at h
    · obtain ⟨rfl, rfl⟩ := Prod.mk.inj (Option.some.inj h)
      exact absurd (List.append_eq_nil_iff.mp hparts.symm).2 hback
    · next hfound =>
      obtain ⟨⟨before', after'⟩, hrest, heq⟩ := Option.map_eq_some_iff.mp h
      obtain ⟨rfl, rfl⟩ := Prod.mk.inj heq
      cases front with
      | nil =>
        rw [List.nil_append] at hparts
        rw [← hparts, ← hwhole]
        exact Bool.eq_false_iff.mpr hfound
      | cons first front => exact ih hrest (List.cons.inj hparts).2

/-- A search passes the first part of a text if it finds nothing that starts there. -/
theorem breakAt_append {found : List α → Bool} {before after : List α}
    (h : ∀ front back, before = front ++ back → back ≠ [] → found (back ++ after) = false) :
    breakAt found (before ++ after) =
      (breakAt found after).map fun (front, back) ↦ (before ++ front, back) := by
  induction before with
  | nil => simp
  | cons symbol rest ih =>
    have hhead : found (symbol :: (rest ++ after)) = false := h [] (symbol :: rest) rfl (by simp)
    have hrest := ih fun front back hparts ↦ h (symbol :: front) back (by rw [hparts]; rfl)
    rw [List.cons_append, breakAt, hhead, if_neg (by decide), hrest, Option.map_map]
    rfl

/-- A search in a text that is mapped symbol by symbol. -/
theorem breakAt_map {β : Type*} (f : α → β) (found : List β → Bool) (text : List α) :
    breakAt found (text.map f) =
      (breakAt (fun suffix ↦ found (suffix.map f)) text).map fun (before, after) ↦
        (before.map f, after.map f) := by
  induction text with
  | nil =>
    simp only [List.map_nil, breakAt]
    split_ifs <;> rfl
  | cons symbol rest ih =>
    simp only [List.map_cons, breakAt, ih]
    split_ifs
    · rfl
    · simp only [Option.map_map]
      rfl

/-! ### Byte offsets -/

/-- `str::len`. -/
def byteLen (text : List Char) : ℕ := (text.map Char.utf8Size).sum

@[simp]
theorem byteLen_nil : byteLen [] = 0 := rfl

@[simp]
theorem byteLen_cons (symbol : Char) (text : List Char) :
    byteLen (symbol :: text) = symbol.utf8Size + byteLen text := by
  simp [byteLen]

@[simp]
theorem byteLen_append (text text' : List Char) :
    byteLen (text ++ text') = byteLen text + byteLen text' := by
  simp [byteLen]

theorem byteLen_map {f : Char → Char} (hf : ∀ symbol, (f symbol).utf8Size = symbol.utf8Size)
    (text : List Char) : byteLen (text.map f) = byteLen text := by
  induction text with
  | nil => rfl
  | cons symbol rest ih => rw [List.map_cons, byteLen_cons, byteLen_cons, hf, ih]

theorem length_le_byteLen (text : List Char) : text.length ≤ byteLen text := by
  induction text with
  | nil => exact le_rfl
  | cons symbol rest ih =>
    have hpos := symbol.utf8Size_pos
    rw [List.length_cons, byteLen_cons]
    omega

/-- `str::split_at_checked`: the parts of a text before and from a byte offset, if the offset is in
bounds and between two characters. -/
def splitAt (text : List Char) (offset : ℕ) : Option (List Char × List Char) :=
  match text with
  | [] => if offset = 0 then some ([], []) else none
  | symbol :: rest =>
    if offset = 0 then some ([], symbol :: rest)
    else if offset < symbol.utf8Size then none
    else (splitAt rest (offset - symbol.utf8Size)).map fun (before, after) ↦
      (symbol :: before, after)

/-- The offset of a part of the text is in bounds and between two characters. -/
@[simp]
theorem splitAt_append (before after : List Char) :
    splitAt (before ++ after) (byteLen before) = some (before, after) := by
  induction before with
  | nil => cases after <;> simp [splitAt]
  | cons symbol rest ih =>
    have hpos := symbol.utf8Size_pos
    have hrest : symbol.utf8Size + byteLen rest - symbol.utf8Size = byteLen rest := by omega
    rw [List.cons_append, splitAt, byteLen_cons, if_neg (by omega), if_neg (by omega), hrest, ih,
      Option.map_some]

/-- `&text[..stop]`; none is a panic. -/
def upTo (text : List Char) (stop : ℕ) : Option (List Char) := (splitAt text stop).map Prod.fst

/-- `&text[start..]`. -/
def startingAt (text : List Char) (start : ℕ) : Option (List Char) :=
  (splitAt text start).map Prod.snd

/-- `&text[start..stop]`. -/
def slice (text : List Char) (start stop : ℕ) : Option (List Char) :=
  if start ≤ stop then (upTo text stop).bind fun front ↦ startingAt front start else none

@[simp]
theorem upTo_append (before after : List Char) :
    upTo (before ++ after) (byteLen before) = some before := by
  simp [upTo]

@[simp]
theorem startingAt_append (before after : List Char) :
    startingAt (before ++ after) (byteLen before) = some after := by
  simp [startingAt]

/-- The slice between the ends of two parts of a text. -/
theorem slice_append (before middle after : List Char) :
    slice (before ++ (middle ++ after)) (byteLen before) (byteLen before + byteLen middle) =
      some middle := by
  have hfront : upTo (before ++ (middle ++ after)) (byteLen before + byteLen middle) =
      some (before ++ middle) := by
    rw [← List.append_assoc, ← byteLen_append]
    exact upTo_append _ _
  rw [slice, if_pos (Nat.le_add_right _ _), hfront, Option.bind_some, startingAt_append]

/-- `str::find` of a text: the byte offset of its first occurrence. -/
def find (pattern text : List Char) : Option ℕ :=
  (breakAt (pattern.isPrefixOf ·) text).map fun parts ↦ byteLen parts.1

/-- `str::find` of a character. -/
def findChar (symbol : Char) (text : List Char) : Option ℕ :=
  (splitOnce symbol text).map fun parts ↦ byteLen parts.1

/-- An occurrence of a pattern splits the text around it. -/
theorem find_eq_some {pattern text : List Char} {offset : ℕ} (h : find pattern text = some offset) :
    ∃ before after, text = before ++ (pattern ++ after) ∧ offset = byteLen before := by
  obtain ⟨⟨before, suffix⟩, hbreak, rfl⟩ := Option.map_eq_some_iff.mp h
  obtain ⟨htext, hfound⟩ := breakAt_eq_some hbreak
  obtain ⟨after, hsuffix⟩ := List.isPrefixOf_iff_prefix.mp hfound
  exact ⟨before, after, by rw [htext, hsuffix], rfl⟩

theorem findChar_eq_none {symbol : Char} {text : List Char} (h : symbol ∉ text) :
    findChar symbol text = none := by
  rw [findChar, splitOnce_eq_none.mpr h, Option.map_none]

theorem findChar_append {symbol : Char} {before : List Char} (h : symbol ∉ before)
    (after : List Char) : findChar symbol (before ++ symbol :: after) = some (byteLen before) := by
  rw [findChar, splitOnce_append h, Option.map_some]

/-- `str::as_bytes` at an index. -/
def byteAt (text : List Char) (index : ℕ) : Option UInt8 :=
  (text.flatMap String.utf8EncodeChar)[index]?

theorem length_flatMap_utf8EncodeChar (text : List Char) :
    (text.flatMap String.utf8EncodeChar).length = byteLen text := by
  induction text with
  | nil => rfl
  | cons symbol rest ih =>
    rw [List.flatMap_cons, List.length_append, ih, String.length_utf8EncodeChar, byteLen_cons]

/-- The byte behind a part of the text. -/
theorem byteAt_append (before after : List Char) :
    byteAt (before ++ after) (byteLen before) = byteAt after 0 := by
  rw [byteAt, byteAt, List.flatMap_append, ← length_flatMap_utf8EncodeChar,
    List.getElem?_append_right le_rfl, Nat.sub_self]

/-- A character starts with a byte of its own, or with one that is no ASCII byte. -/
theorem exists_utf8EncodeChar (symbol : Char) :
    ∃ byte bytes, String.utf8EncodeChar symbol = byte :: bytes ∧
      (byte.toNat < 128 → byte.toNat = symbol.toNat ∧ bytes = []) := by
  have hencoded : String.utf8EncodeChar symbol = String.utf8EncodeChar symbol := rfl
  conv_rhs at hencoded => rw [String.utf8EncodeChar]
  -- the first byte of a longer encoding is 192 at least
  split_ifs at hencoded with hone htwo hthree
  all_goals refine ⟨_, _, hencoded, fun hascii ↦ ?_⟩
  · constructor
    · change symbol.toNat ≤ 127 at hone
      change symbol.toNat % 256 = symbol.toNat
      omega
    · rfl
  all_goals
    rw [UInt8.toNat_ofNat'] at hascii
    omega

theorem utf8EncodeChar_of_lt {symbol : Char} (h : symbol.toNat < 128) :
    String.utf8EncodeChar symbol = [UInt8.ofNat symbol.toNat] := by
  have hsmall : symbol.val.toNat ≤ 127 := Nat.le_of_lt_succ h
  rw [String.utf8EncodeChar, if_pos hsmall]
  rfl

/-- A text whose bytes are ASCII has one byte for each character. -/
theorem flatMap_utf8EncodeChar_of_lt {text : List Char}
    (h : ∀ byte ∈ text.flatMap String.utf8EncodeChar, byte.toNat < 128) :
    ∀ symbol ∈ text, symbol.toNat < 128 := by
  intro symbol hmem
  obtain ⟨byte, bytes, hencoded, hascii⟩ := exists_utf8EncodeChar symbol
  have hbyte : byte ∈ text.flatMap String.utf8EncodeChar :=
    List.mem_flatMap.mpr ⟨symbol, hmem, by simp [hencoded]⟩
  rw [← (hascii (h byte hbyte)).1]
  exact h byte hbyte

theorem flatMap_utf8EncodeChar_eq_map {text : List Char}
    (h : ∀ symbol ∈ text, symbol.toNat < 128) :
    text.flatMap String.utf8EncodeChar = text.map fun symbol ↦ UInt8.ofNat symbol.toNat := by
  rw [List.map_eq_flatMap]
  exact List.flatMap_congr fun symbol hmem ↦ utf8EncodeChar_of_lt (h symbol hmem)

/-- The first byte of a character is its code, or no ASCII byte. -/
theorem byteAt_cons_zero (symbol : Char) (rest : List Char) :
    ∃ byte, byteAt (symbol :: rest) 0 = some byte ∧
      (byte.toNat < 128 → byte.toNat = symbol.toNat) := by
  obtain ⟨byte, bytes, hencoded, hascii⟩ := exists_utf8EncodeChar symbol
  refine ⟨byte, ?_, fun h ↦ (hascii h).1⟩
  rw [byteAt, List.flatMap_cons, hencoded]
  rfl

end Ghostbro.Text
