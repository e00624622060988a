import Ghostbro.Relay.NormalizerSafety
import Mathlib.Data.List.Chain
import Mathlib.Data.List.Flatten

/-!
# The normal form of normalized text

`collapse_whitespace` reads a text line by line.  A line keeps its symbols and single spaces between
them; of the blank lines between two lines the first is kept.  The blank lines are counted in 32
bits with a sign, and a count that has wrapped around is small again.
-/

namespace Ghostbro.Relay.Normalize

open Text

/-! ### Trimming -/

section Trim

variable {α : Type*} {isBlank : α → Bool} {text : List α}

theorem head?_dropWhile (isBlank : α → Bool) (text : List α) :
    ∀ symbol ∈ (text.dropWhile isBlank).head?, isBlank symbol = false := by
  induction text with
  | nil => simp
  | cons symbol rest ih =>
    cases h : isBlank symbol with
    | true => simpa [h] using ih
    | false => simp [h]

theorem getLast?_rdropWhile (isBlank : α → Bool) (text : List α) :
    ∀ symbol ∈ (text.rdropWhile isBlank).getLast?, isBlank symbol = false := by
  rw [List.rdropWhile, List.getLast?_reverse]
  exact head?_dropWhile isBlank text.reverse

theorem filter_dropWhile (isBlank : α → Bool) (text : List α) :
    (text.dropWhile isBlank).filter (!isBlank ·) = text.filter (!isBlank ·) := by
  induction text with
  | nil => rfl
  | cons symbol rest ih =>
    cases h : isBlank symbol with
    | true => simpa [h] using ih
    | false => simp [h]

theorem filter_rdropWhile (isBlank : α → Bool) (text : List α) :
    (text.rdropWhile isBlank).filter (!isBlank ·) = text.filter (!isBlank ·) := by
  rw [List.rdropWhile, List.filter_reverse, filter_dropWhile, ← List.filter_reverse,
    List.reverse_reverse]

theorem trim_infix (isBlank : α → Bool) (text : List α) : trim isBlank text <:+: text :=
  (List.rdropWhile_prefix _ _).isInfix.trans (List.dropWhile_suffix _).isInfix

theorem head?_trim (isBlank : α → Bool) (text : List α) :
    ∀ symbol ∈ (trim isBlank text).head?, isBlank symbol = false := by
  intro symbol hsymbol
  apply head?_dropWhile isBlank text
  obtain ⟨blanks, hparts⟩ := List.rdropWhile_prefix isBlank (text.dropWhile isBlank)
  rw [← hparts, List.head?_append, show List.rdropWhile isBlank _ = trim isBlank text from rfl,
    Option.mem_def.mp hsymbol]
  rfl

theorem filter_trim (isBlank : α → Bool) (text : List α) :
    (trim isBlank text).filter (!isBlank ·) = text.filter (!isBlank ·) := by
  rw [trim, filter_rdropWhile, filter_dropWhile]

theorem trim_of_ends (hhead : ∀ symbol ∈ text.head?, isBlank symbol = false)
    (hlast : ∀ symbol ∈ text.getLast?, isBlank symbol = false) : trim isBlank text = text := by
  have hfront : text.dropWhile isBlank = text := by
    cases text with
    | nil => rfl
    | cons symbol rest => simp [hhead symbol rfl]
  rw [trim, hfront, List.rdropWhile_eq_self_iff]
  intro hne
  simp [hlast _ (List.getLast?_eq_some_getLast hne)]

end Trim

/-! ### One line -/

/-- A line without white space except for single spaces between its symbols. -/
structure NormalLine (line : List Char) : Prop where
  spaces : ∀ symbol ∈ line, isWhitespace symbol → symbol = ' '
  first : ∀ symbol ∈ line.head?, isWhitespace symbol = false
  last : ∀ symbol ∈ line.getLast?, isWhitespace symbol = false
  single : line.IsChain fun symbol next ↦ ¬(symbol = ' ' ∧ next = ' ')

/-- The loop of `collapse_inline_spaces`, by what it adds to its output. -/
def collapseRest : Bool → List Char → List Char
  | _, [] => []
  | lastSpace, symbol :: rest =>
    if isWhitespace symbol then (if lastSpace then [] else [' ']) ++ collapseRest true rest
    else symbol :: collapseRest false rest

theorem collapseInlineSpaces_eq (line : List Char) :
    collapseInlineSpaces line = trim isWhitespace (collapseRest false line) := by
  have hloop (output : List Char) (lastSpace : Bool) (rest : List Char) :
      (rest.foldl (fun state ch ↦
        if isWhitespace ch then (if state.2 then state.1 else state.1 ++ [' '], true)
        else (state.1 ++ [ch], false)) (output, lastSpace)).1 =
      output ++ collapseRest lastSpace rest := by
    induction rest generalizing output lastSpace with
    | nil => simp [collapseRest]
    | cons symbol rest ih =>
      rw [List.foldl_cons, collapseRest]
      cases hsymbol : isWhitespace symbol with
      | true => cases lastSpace <;> simp [ih]
      | false => simp [ih]
  exact congrArg (trim isWhitespace) (hloop [] false line)

theorem spaces_collapseRest (lastSpace : Bool) (line : List Char) :
    ∀ symbol ∈ collapseRest lastSpace line, isWhitespace symbol → symbol = ' ' := by
  induction line generalizing lastSpace with
  | nil => simp [collapseRest]
  | cons symbol rest ih =>
    rw [collapseRest]
    split
    · cases lastSpace <;> simpa using ih true
    · next hsymbol => simpa [hsymbol] using ih false

theorem single_collapseRest (lastSpace : Bool) (line : List Char) :
    (lastSpace = true → ∀ symbol ∈ (collapseRest lastSpace line).head?, symbol ≠ ' ') ∧
      (collapseRest lastSpace line).IsChain fun symbol next ↦ ¬(symbol = ' ' ∧ next = ' ') := by
  induction line generalizing lastSpace with
  | nil => simp [collapseRest]
  | cons symbol rest ih =>
    rw [collapseRest]
    split
    · cases lastSpace with
      | true => simpa using ih true
      | false =>
        have hrest := ih true
        simp only [Bool.false_eq_true, ↓reduceIte, List.singleton_append, List.isChain_cons]
        exact ⟨nofun, fun next hnext h ↦ hrest.1 rfl next hnext h.2, hrest.2⟩
    · next hsymbol =>
      have hspace : symbol ≠ ' ' := by
        rintro rfl
        exact hsymbol (by decide)
      rw [List.isChain_cons]
      exact ⟨by simp [hspace], fun next _ h ↦ hspace h.1, (ih false).2⟩

theorem filter_collapseRest (lastSpace : Bool) (line : List Char) :
    (collapseRest lastSpace line).filter (!isWhitespace ·) = line.filter (!isWhitespace ·) := by
  induction line generalizing lastSpace with
  | nil => rfl
  | cons symbol rest ih =>
    rw [collapseRest]
    split
    · next hsymbol =>
      have hspace : isWhitespace ' ' = true := by decide
      cases lastSpace <;> simp [hsymbol, hspace, ih]
    · next hsymbol => simp [hsymbol, ih]

theorem collapseRest_of_single (lastSpace : Bool) {line : List Char}
    (hspaces : ∀ symbol ∈ line, isWhitespace symbol → symbol = ' ')
    (hhead : ∀ symbol ∈ line.head?, lastSpace = true → symbol ≠ ' ')
    (hsingle : line.IsChain fun symbol next ↦ ¬(symbol = ' ' ∧ next = ' ')) :
    collapseRest lastSpace line = line := by
  induction line generalizing lastSpace with
  | nil => rfl
  | cons symbol rest ih =>
    rw [List.isChain_cons] at hsingle
    have hrest := fun next hnext ↦ hspaces next (List.mem_cons_of_mem symbol hnext)
    rw [collapseRest]
    split
    · next hsymbol =>
      obtain rfl := hspaces symbol List.mem_cons_self hsymbol
      have hlater : ∀ next ∈ rest.head?, next ≠ ' ' := fun next hnext h ↦
        hsingle.1 next hnext ⟨rfl, h⟩
      cases lastSpace with
      | true => exact absurd rfl (hhead ' ' rfl rfl)
      | false =>
        rw [ih true hrest (fun next hnext _ ↦ hlater next hnext) hsingle.2]
        rfl
    · rw [ih false hrest (by simp) hsingle.2]

theorem normalLine_singleton {symbol : Char} (h : isWhitespace symbol = false) :
    NormalLine [symbol] :=
  ⟨by simp [h], by simp [h], by simp [h], List.isChain_singleton _⟩

theorem normalLine_collapseInlineSpaces (line : List Char) :
    NormalLine (collapseInlineSpaces line) := by
  rw [collapseInlineSpaces_eq]
  have hpart := trim_infix isWhitespace (collapseRest false line)
  have hchain := (single_collapseRest false line).2
  obtain ⟨front, back, hparts⟩ := id hpart
  rw [← hparts] at hchain
  exact {
    spaces := fun symbol hsymbol ↦ spaces_collapseRest false line symbol (hpart.subset hsymbol)
    first := head?_trim _ _
    last := getLast?_rdropWhile _ _
    single := hchain.left_of_append.right_of_append }

theorem collapseInlineSpaces_of_normalLine {line : List Char} (h : NormalLine line) :
    collapseInlineSpaces line = line := by
  rw [collapseInlineSpaces_eq, collapseRest_of_single false h.spaces (by simp) h.single]
  exact trim_of_ends h.first h.last

theorem filter_collapseInlineSpaces (line : List Char) :
    (collapseInlineSpaces line).filter (!isWhitespace ·) = line.filter (!isWhitespace ·) := by
  rw [collapseInlineSpaces_eq, filter_trim, filter_collapseRest]

/-! ### Splitting into lines -/

/-- A line without its line break. -/
def unbroken (line : List Char) : List Char :=
  if line.getLast? = some '\n' then
    let line := line.dropLast
    if line.getLast? = some '\r' then line.dropLast else line
  else line

theorem lines_eq (text : List Char) : lines text = (splitInclusive '\n' text).map unbroken := rfl

theorem flatten_splitInclusive (text : List Char) :
    (splitInclusive '\n' text).flatten = text := by
  induction text with
  | nil => rfl
  | cons symbol rest ih =>
    rw [splitInclusive]
    split
    · rw [List.flatten_cons, ih]
      rfl
    · conv_rhs => rw [← ih]
      cases splitInclusive '\n' rest <;> simp

theorem filter_dropLast {line : List Char} {symbol : Char} (hlast : line.getLast? = some symbol)
    (hsymbol : isWhitespace symbol = true) :
    line.dropLast.filter (!isWhitespace ·) = line.filter (!isWhitespace ·) := by
  have hparts := List.dropLast_append_getLast? symbol hlast
  conv_rhs => rw [← hparts, List.filter_append]
  simp [hsymbol]

theorem filter_unbroken (line : List Char) :
    (unbroken line).filter (!isWhitespace ·) = line.filter (!isWhitespace ·) := by
  unfold unbroken
  split
  · next hbreak =>
    have hline := filter_dropLast hbreak (by decide)
    dsimp only
    split
    · next hreturn => rw [filter_dropLast hreturn (by decide), hline]
    · exact hline
  · rfl

theorem filter_lines (text : List Char) :
    (lines text).flatten.filter (!isWhitespace ·) = text.filter (!isWhitespace ·) := by
  conv_rhs => rw [← flatten_splitInclusive text]
  rw [lines_eq, List.filter_flatten, List.filter_flatten, List.map_map]
  congr 1
  apply List.map_congr_left
  intro line _
  exact filter_unbroken line

theorem splitInclusive_append {line : List Char} (h : '\n' ∉ line) (rest : List Char) :
    splitInclusive '\n' (line ++ '\n' :: rest) =
      (line ++ ['\n']) :: splitInclusive '\n' rest := by
  induction line with
  | nil => simp [splitInclusive]
  | cons symbol line ih =>
    rw [List.mem_cons, not_or] at h
    rw [List.cons_append, splitInclusive, if_neg (Ne.symm h.1), ih h.2]
    rfl

theorem splitInclusive_last {line : List Char} (h : '\n' ∉ line) (hne : line ≠ []) :
    splitInclusive '\n' line = [line] := by
  induction line with
  | nil => contradiction
  | cons symbol line ih =>
    rw [List.mem_cons, not_or] at h
    rw [splitInclusive, if_neg (Ne.symm h.1)]
    by_cases hline : line = []
    · rw [hline]
      rfl
    · rw [ih h.2 hline]

theorem NormalLine.not_mem {line : List Char} (h : NormalLine line) : '\n' ∉ line := by
  intro hmem
  exact absurd (h.spaces '\n' hmem (by decide)) (by decide)

/-- A normal line keeps its end. -/
theorem unbroken_of_normalLine {line : List Char} (h : NormalLine line) :
    unbroken line = line ∧ unbroken (line ++ ['\n']) = line := by
  have hreturn : line.getLast? ≠ some '\r' := by
    intro hlast
    exact absurd (h.last '\r' hlast) (by decide)
  have hbreak : line.getLast? ≠ some '\n' := by
    intro hlast
    exact absurd (h.last '\n' hlast) (by decide)
  simp [unbroken, hreturn, hbreak]

theorem lines_intercalate {parts : List (List Char)} (h : ∀ line ∈ parts, NormalLine line)
    (hlast : ∀ line ∈ parts.getLast?, line ≠ []) : lines (['\n'].intercalate parts) = parts := by
  induction parts with
  | nil => rfl
  | cons line rest ih =>
    have hline := h line List.mem_cons_self
    cases rest with
    | nil =>
      rw [List.intercalate_singleton, lines_eq,
        splitInclusive_last hline.not_mem (hlast line rfl), List.map_singleton,
        (unbroken_of_normalLine hline).1]
    | cons next rest =>
      have hparts := fun part hpart ↦ h part (List.mem_cons_of_mem line hpart)
      have hrest := ih hparts (by simpa using hlast)
      rw [List.intercalate_cons_cons, List.append_assoc, List.singleton_append, lines_eq,
        splitInclusive_append hline.not_mem, List.map_cons, (unbroken_of_normalLine hline).2,
        ← lines_eq, hrest]

theorem filter_intercalate (parts : List (List Char)) :
    (['\n'].intercalate parts).filter (!isWhitespace ·) =
      parts.flatten.filter (!isWhitespace ·) := by
  have hbreak : isWhitespace '\n' = true := by decide
  induction parts with
  | nil => rfl
  | cons line rest ih =>
    cases rest with
    | nil => simp
    | cons next rest =>
      rw [List.intercalate_cons_cons, List.filter_append, List.filter_append, ih,
        List.flatten_cons, List.filter_append]
      simp [hbreak]

/-! ### Blank lines -/

/-- What `collapse_whitespace` does with one collapsed line. -/
def keepLine : List (List Char) × Int32 → List Char → List (List Char) × Int32
  | (kept, blankRun), line =>
    if line = [] then
      (if blankRun + 1 ≤ 1 ∧ kept ≠ [] then kept ++ [[]] else kept, blankRun + 1)
    else (kept ++ [line], 0)

/-- The lines that `collapse_whitespace` joins. -/
def keptLines (collapsed : List (List Char)) : List (List Char) :=
  (collapsed.foldl keepLine ([], 0)).1.rdropWhile (· = [])

/-- The lines of a text with their white space collapsed. -/
def collapsedLines (text : List Char) : List (List Char) := (lines text).map collapseInlineSpaces

theorem collapseWhitespace_eq (input : List Char) :
    collapseWhitespace input = ['\n'].intercalate (keptLines (collapsedLines input)) := by
  rw [keptLines, collapsedLines, List.foldl_map]
  rfl

/-- The lines that are not empty, each with the number of empty lines right before it. -/
def gaps : ℕ → List (List Char) → List (ℕ × List Char)
  | _, [] => []
  | run, line :: rest => if line = [] then gaps (run + 1) rest else (run, line) :: gaps 0 rest

/-- The number of empty lines that are kept of a run. -/
def keptBlanks : ℕ → ℕ
  | 0 => 0
  | run + 1 => keptBlanks run + if Int32.ofNat (run + 1) ≤ 1 then 1 else 0

/-- The lines kept of some gaps. -/
def spread (gaps : List (ℕ × List Char)) : List (List Char) :=
  gaps.flatMap fun (run, line) ↦ List.replicate (keptBlanks run) [] ++ [line]

theorem ofNat_le_one_of_lt {run : ℕ} (h : run < 2 ^ 31) : Int32.ofNat run ≤ 1 ↔ run ≤ 1 := by
  rw [Int32.le_iff_toInt_le, Int32.toInt_ofNat_of_lt h]
  exact Int.ofNat_le

theorem keptBlanks_of_lt {run : ℕ} (h : run < 2 ^ 31) : keptBlanks run = min run 1 := by
  induction run with
  | zero => rfl
  | succ run ih =>
    have hcount := ofNat_le_one_of_lt h
    rw [keptBlanks, ih (Nat.lt_of_succ_lt h)]
    split
    · next hpushed =>
      have hone := hcount.mp hpushed
      omega
    · next hdropped =>
      have hmany := mt hcount.mpr hdropped
      omega

theorem keptBlanks_mono {run run' : ℕ} (h : run ≤ run') : keptBlanks run ≤ keptBlanks run' := by
  induction h with
  | refl => exact le_rfl
  | step _ ih => exact ih.trans (Nat.le_add_right _ _)

/-- Of a run within the range of the count at most one line is kept. -/
theorem keptBlanks_le_one_iff {run : ℕ} : keptBlanks run ≤ 1 ↔ run < 2 ^ 31 := by
  constructor
  · intro hkept
    by_contra hlong
    -- the count is negative at the last line of the first 2^31
    have hwrapped : Int32.ofNat (2147483647 + 1) ≤ 1 := by decide
    have htwo : keptBlanks (2147483647 + 1) = 2 := by
      rw [keptBlanks, if_pos hwrapped, keptBlanks_of_lt (by decide), Nat.min_eq_right (by decide)]
    have hmono := keptBlanks_mono (Nat.le_of_not_lt hlong)
    rw [show 2 ^ 31 = 2147483647 + 1 by norm_num, htwo] at hmono
    omega
  · intro hshort
    rw [keptBlanks_of_lt hshort]
    exact Nat.min_le_right run 1

theorem rdropWhile_append_replicate {kept : List (List Char)} (run : ℕ)
    (hlast : ∀ line ∈ kept.getLast?, line ≠ []) :
    (kept ++ List.replicate run []).rdropWhile (· = []) = kept := by
  induction run with
  | zero =>
    rw [List.replicate_zero, List.append_nil, List.rdropWhile_eq_self_iff]
    intro hne
    simpa using hlast _ (List.getLast?_eq_some_getLast hne)
  | succ run ih =>
    rw [List.replicate_succ', ← List.append_assoc, List.rdropWhile_concat_pos _ _ _ (by simp), ih]

/-- Behind a line, each gap keeps what the count lets through. -/
theorem foldl_keepLine {kept : List (List Char)} (run : ℕ) (collapsed : List (List Char))
    (hne : kept ≠ []) (hlast : ∀ line ∈ kept.getLast?, line ≠ []) :
    (collapsed.foldl keepLine
      (kept ++ List.replicate (keptBlanks run) [], Int32.ofNat run)).1.rdropWhile (· = []) =
      kept ++ spread (gaps run collapsed) := by
  induction collapsed generalizing kept run with
  | nil =>
    rw [List.foldl_nil, rdropWhile_append_replicate _ hlast]
    exact (List.append_nil kept).symm
  | cons line rest ih =>
    rw [List.foldl_cons, keepLine, gaps]
    by_cases hline : line = []
    · have hcount : Int32.ofNat run + 1 = Int32.ofNat (run + 1) := (Int32.ofNat_add run 1).symm
      have hkept : (if Int32.ofNat (run + 1) ≤ 1 ∧
            kept ++ List.replicate (keptBlanks run) [] ≠ [] then
          kept ++ List.replicate (keptBlanks run) [] ++ [[]]
          else kept ++ List.replicate (keptBlanks run) []) =
            kept ++ List.replicate (keptBlanks (run + 1)) [] := by
        rw [keptBlanks]
        split
        · next hpushed => rw [if_pos hpushed.1, List.replicate_succ', List.append_assoc]
        · next hdropped =>
          rw [if_neg fun hcounted ↦ hdropped ⟨hcounted, by simp [hne]⟩, Nat.add_zero]
      rw [if_pos hline, if_pos hline, hcount, hkept]
      exact ih (run + 1) hne hlast
    · rw [if_neg hline, if_neg hline]
      have hnext := @ih (kept ++ List.replicate (keptBlanks run) [] ++ [line]) 0 (by simp)
        (by simpa using hline)
      simpa [spread, keptBlanks] using hnext

/-- Before the first line nothing is kept. -/
theorem foldl_keepLine_nil (run : ℕ) (collapsed : List (List Char)) :
    (collapsed.foldl keepLine ([], Int32.ofNat run)).1.rdropWhile (· = []) =
      match gaps run collapsed with
      | [] => []
      | (_, first) :: later => first :: spread later := by
  induction collapsed generalizing run with
  | nil => rfl
  | cons line rest ih =>
    rw [List.foldl_cons, keepLine, gaps]
    by_cases hline : line = []
    · have hcount : Int32.ofNat run + 1 = Int32.ofNat (run + 1) := (Int32.ofNat_add run 1).symm
      rw [if_pos hline, if_pos hline, hcount, if_neg (by simp)]
      exact ih (run + 1)
    · rw [if_neg hline, if_neg hline]
      exact @foldl_keepLine [line] 0 rest (by simp) (by simpa using hline)

theorem keptLines_eq (collapsed : List (List Char)) :
    keptLines collapsed =
      match gaps 0 collapsed with
      | [] => []
      | (_, first) :: later => first :: spread later :=
  foldl_keepLine_nil 0 collapsed

/-! ### The lines that are kept -/

/-- No two empty lines follow each other. -/
def SingleBlanks (parts : List (List Char)) : Prop :=
  parts.IsChain fun line next ↦ ¬(line = [] ∧ next = [])

theorem singleBlanks_cons_cons {line next : List Char} {rest : List (List Char)} :
    SingleBlanks (line :: next :: rest) ↔
      ¬(line = [] ∧ next = []) ∧ SingleBlanks (next :: rest) := List.isChain_cons_cons

theorem mem_of_mem_gaps {run : ℕ} {collapsed : List (List Char)} {gap : ℕ × List Char}
    (h : gap ∈ gaps run collapsed) : gap.2 ∈ collapsed ∧ gap.2 ≠ [] := by
  induction collapsed generalizing run with
  | nil => cases h
  | cons line rest ih =>
    rw [gaps] at h
    split at h
    · exact ⟨List.mem_cons_of_mem line (ih h).1, (ih h).2⟩
    · next hline =>
      cases h with
      | head => exact ⟨List.mem_cons_self, hline⟩
      | tail _ hrest => exact ⟨List.mem_cons_of_mem line (ih hrest).1, (ih hrest).2⟩

theorem flatten_gaps (run : ℕ) (collapsed : List (List Char)) :
    ((gaps run collapsed).map Prod.snd).flatten = collapsed.flatten := by
  induction collapsed generalizing run with
  | nil => rfl
  | cons line rest ih =>
    rw [gaps]
    split
    · next hline => rw [ih, hline]; rfl
    · simp [ih]

theorem spread_cons (run : ℕ) (line : List Char) (later : List (ℕ × List Char)) :
    spread ((run, line) :: later) = List.replicate (keptBlanks run) [] ++ line :: spread later := by
  simp [spread]

theorem flatten_spread (later : List (ℕ × List Char)) :
    (spread later).flatten = (later.map Prod.snd).flatten := by
  induction later with
  | nil => rfl
  | cons gap later ih =>
    rw [spread_cons, List.flatten_append, List.flatten_cons, ih]
    simp

theorem gaps_replicate_append (run count : ℕ) (rest : List (List Char)) :
    gaps run (List.replicate count [] ++ rest) = gaps (run + count) rest := by
  induction count generalizing run with
  | zero => rfl
  | succ count ih =>
    rw [List.replicate_succ, List.cons_append, gaps, if_pos rfl, ih, Nat.add_right_comm,
      Nat.add_assoc]

/-- The empty lines between two others are single exactly if each gap keeps one at most. -/
theorem singleBlanks_spread {first : List Char} {later : List (ℕ × List Char)}
    (hfirst : first ≠ []) (hlater : ∀ gap ∈ later, gap.2 ≠ []) :
    SingleBlanks (first :: spread later) ↔ ∀ gap ∈ later, keptBlanks gap.1 ≤ 1 := by
  induction later generalizing first with
  | nil => simp [spread, SingleBlanks]
  | cons gap later ih =>
    obtain ⟨run, line⟩ := gap
    have hline : line ≠ [] := hlater _ List.mem_cons_self
    have hrest := ih hline fun gap hgap ↦ hlater gap (List.mem_cons_of_mem _ hgap)
    rw [spread_cons, List.forall_mem_cons, ← hrest]
    generalize keptBlanks run = count
    match count with
    | 0 => simp [singleBlanks_cons_cons, hfirst]
    | 1 => simp [singleBlanks_cons_cons, hfirst, hline]
    | count + 2 => simp [singleBlanks_cons_cons, List.replicate_succ]

/-- What is kept is kept again. -/
theorem gaps_spread {later : List (ℕ × List Char)} (hlater : ∀ gap ∈ later, gap.2 ≠ []) :
    gaps 0 (spread later) = later.map fun gap ↦ (keptBlanks gap.1, gap.2) := by
  induction later with
  | nil => rfl
  | cons gap later ih =>
    obtain ⟨run, line⟩ := gap
    have hline : line ≠ [] := hlater _ List.mem_cons_self
    rw [spread_cons, gaps_replicate_append, gaps, if_neg hline, Nat.zero_add, List.map_cons,
      ih fun gap hgap ↦ hlater gap (List.mem_cons_of_mem _ hgap)]

theorem spread_kept {later : List (ℕ × List Char)} (h : ∀ gap ∈ later, keptBlanks gap.1 ≤ 1) :
    spread (later.map fun gap ↦ (keptBlanks gap.1, gap.2)) = spread later := by
  induction later with
  | nil => rfl
  | cons gap later ih =>
    obtain ⟨run, line⟩ := gap
    have hrun : keptBlanks run ≤ 1 := h _ List.mem_cons_self
    have hagain : keptBlanks (keptBlanks run) = keptBlanks run := by
      rw [keptBlanks_of_lt (by omega), Nat.min_eq_left hrun]
    rw [List.map_cons, spread_cons, spread_cons, hagain,
      ih fun gap hgap ↦ h gap (List.mem_cons_of_mem _ hgap)]

theorem mem_of_mem_keptLines {collapsed : List (List Char)} {line : List Char}
    (h : line ∈ keptLines collapsed) : line = [] ∨ line ∈ collapsed := by
  have hgap (gap : ℕ × List Char) (hgap : gap ∈ gaps 0 collapsed) : gap.2 ∈ collapsed :=
    (mem_of_mem_gaps hgap).1
  rw [keptLines_eq] at h
  cases hgaps : gaps 0 collapsed with
  | nil => simp [hgaps] at h
  | cons first later =>
    rw [hgaps] at h hgap
    cases h with
    | head => exact .inr (hgap _ List.mem_cons_self)
    | tail _ hlater =>
      obtain ⟨gap, hmem, hline⟩ := List.mem_flatMap.mp hlater
      rw [List.mem_append, List.mem_replicate, List.mem_singleton] at hline
      cases hline with
      | inl hblank => exact .inl hblank.2
      | inr hline => exact .inr (hline ▸ hgap gap (List.mem_cons_of_mem _ hmem))

theorem head?_keptLines (collapsed : List (List Char)) :
    ∀ line ∈ (keptLines collapsed).head?, line ≠ [] := by
  rw [keptLines_eq]
  cases hgaps : gaps 0 collapsed with
  | nil => simp
  | cons first later =>
    have hfirst := (mem_of_mem_gaps (hgaps ▸ List.mem_cons_self)).2
    simpa using hfirst

theorem getLast?_keptLines (collapsed : List (List Char)) :
    ∀ line ∈ (keptLines collapsed).getLast?, line ≠ [] := by
  intro line hline
  simpa using getLast?_rdropWhile (· = []) _ line hline

theorem flatten_keptLines (collapsed : List (List Char)) :
    (keptLines collapsed).flatten = collapsed.flatten := by
  rw [keptLines_eq, ← flatten_gaps 0 collapsed]
  cases gaps 0 collapsed with
  | nil => rfl
  | cons first later => rw [List.flatten_cons, flatten_spread, List.map_cons, List.flatten_cons]

theorem singleBlanks_keptLines (collapsed : List (List Char)) :
    SingleBlanks (keptLines collapsed) ↔ ∀ gap ∈ (gaps 0 collapsed).tail, gap.1 < 2 ^ 31 := by
  have hne (gap : ℕ × List Char) (hgap : gap ∈ gaps 0 collapsed) : gap.2 ≠ [] :=
    (mem_of_mem_gaps hgap).2
  rw [keptLines_eq]
  cases hgaps : gaps 0 collapsed with
  | nil => simp [SingleBlanks]
  | cons first later =>
    rw [hgaps, List.forall_mem_cons] at hne
    rw [List.tail_cons, singleBlanks_spread hne.1 hne.2]
    simp only [keptBlanks_le_one_iff]

theorem keptLines_keptLines {collapsed : List (List Char)}
    (h : SingleBlanks (keptLines collapsed)) :
    keptLines (keptLines collapsed) = keptLines collapsed := by
  have hne (gap : ℕ × List Char) (hgap : gap ∈ gaps 0 collapsed) : gap.2 ≠ [] :=
    (mem_of_mem_gaps hgap).2
  rw [singleBlanks_keptLines] at h
  rw [keptLines_eq collapsed]
  cases hgaps : gaps 0 collapsed with
  | nil => rfl
  | cons first later =>
    rw [hgaps, List.forall_mem_cons] at hne
    rw [hgaps, List.tail_cons] at h
    rw [keptLines_eq, gaps, if_neg hne.1, gaps_spread hne.2]
    dsimp only
    rw [spread_kept fun gap hgap ↦ keptBlanks_le_one_iff.mpr (h gap hgap)]

/-! ### The normal form -/

/-- White space only as single spaces inside lines and as line breaks, no two empty lines in a row,
and neither the first nor the last line empty. -/
structure NormalForm (text : List Char) : Prop where
  line : ∀ line ∈ text.splitOn '\n', NormalLine line
  blanks : SingleBlanks (text.splitOn '\n')
  first : text ≠ [] → ∀ line ∈ (text.splitOn '\n').head?, line ≠ []
  last : text ≠ [] → ∀ line ∈ (text.splitOn '\n').getLast?, line ≠ []

theorem normalForm_intercalate {parts : List (List Char)}
    (hlines : ∀ line ∈ parts, NormalLine line) (hfirst : ∀ line ∈ parts.head?, line ≠ [])
    (hlast : ∀ line ∈ parts.getLast?, line ≠ []) :
    NormalForm (['\n'].intercalate parts) ↔ SingleBlanks parts := by
  by_cases hparts : parts = []
  · rw [hparts]
    have hempty : NormalForm [] := {
      line := by
        rw [List.splitOn_nil, List.forall_mem_singleton]
        exact ⟨by simp, by simp, by simp, List.isChain_nil⟩
      blanks := List.isChain_singleton []
      first := by simp
      last := by simp }
    exact iff_of_true hempty List.isChain_nil
  · have hbreak := fun line hline ↦ (hlines line hline).not_mem
    have hsplit := List.splitOn_intercalate '\n' hbreak hparts
    constructor
    · intro h
      rw [← hsplit]
      exact h.blanks
    · intro h
      exact {
        line := by rwa [hsplit]
        blanks := by rwa [hsplit]
        first := fun _ ↦ by rwa [hsplit]
        last := fun _ ↦ by rwa [hsplit] }

theorem normalLine_of_mem_keptLines {text line : List Char}
    (h : line ∈ keptLines (collapsedLines text)) : NormalLine line := by
  cases mem_of_mem_keptLines h with
  | inl hblank =>
    rw [hblank]
    exact ⟨by simp, by simp, by simp, List.isChain_nil⟩
  | inr hline =>
    obtain ⟨raw, -, rfl⟩ := List.mem_map.mp hline
    exact normalLine_collapseInlineSpaces raw

theorem normalForm_collapseWhitespace (text : List Char) :
    NormalForm (collapseWhitespace text) ↔ SingleBlanks (keptLines (collapsedLines text)) := by
  rw [collapseWhitespace_eq]
  exact normalForm_intercalate (fun line ↦ normalLine_of_mem_keptLines) (head?_keptLines _)
    (getLast?_keptLines _)

theorem collapsedLines_collapseWhitespace (text : List Char) :
    collapsedLines (collapseWhitespace text) = keptLines (collapsedLines text) := by
  rw [collapseWhitespace_eq, collapsedLines,
    lines_intercalate (fun line ↦ normalLine_of_mem_keptLines) (getLast?_keptLines _)]
  calc
    (keptLines (collapsedLines text)).map collapseInlineSpaces =
        (keptLines (collapsedLines text)).map id :=
      List.map_congr_left fun line hline ↦
        collapseInlineSpaces_of_normalLine (normalLine_of_mem_keptLines hline)
    _ = keptLines (collapsedLines text) := List.map_id _

theorem collapseWhitespace_idem {text : List Char} (h : NormalForm (collapseWhitespace text)) :
    collapseWhitespace (collapseWhitespace text) = collapseWhitespace text := by
  rw [collapseWhitespace_eq (collapseWhitespace text), collapsedLines_collapseWhitespace,
    keptLines_keptLines ((normalForm_collapseWhitespace text).mp h), ← collapseWhitespace_eq]

theorem filter_collapseWhitespace (text : List Char) :
    (collapseWhitespace text).filter (!isWhitespace ·) = text.filter (!isWhitespace ·) := by
  rw [collapseWhitespace_eq, filter_intercalate, flatten_keptLines, ← filter_lines text,
    collapsedLines, List.filter_flatten, List.filter_flatten, List.map_map]
  congr 1
  apply List.map_congr_left
  intro line _
  exact filter_collapseInlineSpaces line

/-! ### Runs of blank lines -/

/-- Between two lines that are not blank there are less than 2^31 blank ones. -/
def ShortBlankRuns (text : List Char) : Prop :=
  ∀ before line run next after,
    collapsedLines text = before ++ line :: (List.replicate run [] ++ next :: after) →
      line ≠ [] → next ≠ [] → run < 2 ^ 31

theorem gaps_append (run : ℕ) (before : List (List Char)) {line : List Char} (hline : line ≠ [])
    (rest : List (List Char)) :
    ∃ gap front, gaps run (before ++ line :: rest) = gap :: (front ++ gaps 0 rest) := by
  induction before generalizing run with
  | nil =>
    rw [List.nil_append, gaps, if_neg hline]
    exact ⟨_, [], rfl⟩
  | cons first before ih =>
    rw [List.cons_append, gaps]
    split
    · exact ih (run + 1)
    · obtain ⟨gap, front, hgaps⟩ := ih 0
      rw [hgaps]
      exact ⟨_, gap :: front, rfl⟩

/-- The line of the gap stands behind another line and the empty lines of the gap. -/
def Behind (collapsed : List (List Char)) (gap : ℕ × List Char) : Prop :=
  ∃ before line after,
    collapsed = before ++ line :: (List.replicate gap.1 [] ++ gap.2 :: after) ∧ line ≠ []

theorem Behind.cons {collapsed : List (List Char)} {gap : ℕ × List Char}
    (h : Behind collapsed gap) (first : List Char) : Behind (first :: collapsed) gap := by
  obtain ⟨before, line, after, hparts, hline⟩ := h
  exact ⟨first :: before, line, after, congrArg (first :: ·) hparts, hline⟩

theorem behind_of_mem_gaps {run : ℕ} {collapsed : List (List Char)} {gap : ℕ × List Char}
    (h : gap ∈ gaps run collapsed) :
    (∃ count after, collapsed = List.replicate count [] ++ gap.2 :: after ∧
      gap.1 = run + count) ∨ Behind collapsed gap := by
  induction collapsed generalizing run with
  | nil => cases h
  | cons line rest ih =>
    rw [gaps] at h
    split at h
    · next hline =>
      cases ih h with
      | inl hstart =>
        obtain ⟨count, after, hparts, hcount⟩ := hstart
        exact .inl ⟨count + 1, after, by rw [hline, hparts]; rfl, by omega⟩
      | inr hbehind => exact .inr (hbehind.cons line)
    · next hline =>
      cases h with
      | head => exact .inl ⟨0, rest, rfl, rfl⟩
      | tail _ hrest =>
        cases ih hrest with
        | inl hstart =>
          obtain ⟨count, after, hparts, hcount⟩ := hstart
          rw [Nat.zero_add] at hcount
          exact .inr ⟨[], line, after, by rw [hcount, hparts]; rfl, hline⟩
        | inr hbehind => exact .inr (hbehind.cons line)

theorem behind_of_mem_tail {run : ℕ} {collapsed : List (List Char)} {gap : ℕ × List Char}
    (h : gap ∈ (gaps run collapsed).tail) : Behind collapsed gap := by
  induction collapsed generalizing run with
  | nil => cases h
  | cons line rest ih =>
    rw [gaps] at h
    split at h
    · exact (ih h).cons line
    · next hline =>
      cases behind_of_mem_gaps h with
      | inl hstart =>
        obtain ⟨count, after, hparts, hcount⟩ := hstart
        rw [Nat.zero_add] at hcount
        exact ⟨[], line, after, by rw [hcount, hparts]; rfl, hline⟩
      | inr hbehind => exact hbehind.cons line

theorem shortBlankRuns_iff (text : List Char) :
    ShortBlankRuns text ↔ ∀ gap ∈ (gaps 0 (collapsedLines text)).tail, gap.1 < 2 ^ 31 := by
  constructor
  · intro h gap hgap
    obtain ⟨before, line, after, hparts, hline⟩ := behind_of_mem_tail hgap
    have hnext := (mem_of_mem_gaps (List.mem_of_mem_tail hgap)).2
    exact h before line gap.1 gap.2 after hparts hline hnext
  · intro h before line run next after hparts hline hnext
    obtain ⟨first, front, hgaps⟩ :=
      gaps_append 0 before hline (List.replicate run [] ++ next :: after)
    rw [hparts, hgaps, List.tail_cons, gaps_replicate_append, gaps, if_neg hnext] at h
    have hrun := h (0 + run, next) (by simp)
    rwa [Nat.zero_add] at hrun

theorem collapseWhitespace_normalForm_iff (text : List Char) :
    NormalForm (collapseWhitespace text) ↔ ShortBlankRuns text := by
  rw [normalForm_collapseWhitespace, singleBlanks_keptLines, shortBlankRuns_iff]

/-- Normalized text is in normal form and collapses to itself exactly if nowhere in the rendered
text 2^31 or more blank lines stand between two others.  Collapsing keeps the other symbols. -/
theorem htmlToMarkdown_normalForm_iff (html input : List Char) :
    ((∃ markdown, htmlToMarkdown html = some markdown ∧ NormalForm markdown ∧
        collapseWhitespace markdown = markdown) ↔
      ∃ rendered, (stripNoiseBlocks html).bind renderTokens = some rendered ∧
        ShortBlankRuns rendered) ∧
      (collapseWhitespace input).filter (!isWhitespace ·) = input.filter (!isWhitespace ·) := by
  refine ⟨?_, filter_collapseWhitespace input⟩
  obtain ⟨stripped, hstripped⟩ := stripNoiseBlocks_eq_some html
  obtain ⟨rendered, hrendered⟩ := renderTokens_eq_some stripped
  have hmarkdown : htmlToMarkdown html = some (collapseWhitespace rendered) := by
    rw [htmlToMarkdown, hstripped, Option.bind_eq_bind, Option.bind_some, hrendered]
    rfl
  rw [hstripped, Option.bind_some, hrendered, hmarkdown]
  constructor
  · rintro ⟨markdown, hsome, hnormal, -⟩
    obtain rfl := Option.some.inj hsome
    exact ⟨rendered, rfl, (collapseWhitespace_normalForm_iff rendered).mp hnormal⟩
  · rintro ⟨text, hsome, hshort⟩
    obtain rfl := Option.some.inj hsome
    have hnormal := (collapseWhitespace_normalForm_iff rendered).mpr hshort
    exact ⟨_, rfl, hnormal, collapseWhitespace_idem hnormal⟩

/-! ### A count that wraps -/

theorem textRun_of_not_mem {rest : List Char} (h : '<' ∉ rest) (offset : ℕ) :
    textRun offset (charIndices offset rest) = (offset + byteLen rest, []) := by
  induction rest generalizing offset with
  | nil => rfl
  | cons symbol rest ih =>
    rw [List.mem_cons, not_or] at h
    rw [charIndices, textRun, if_neg (Ne.symm h.1), ih h.2, byteLen_cons, Nat.add_assoc]

/-- A text without markup renders as itself. -/
theorem htmlToMarkdown_of_not_mem {html : List Char} (htag : '<' ∉ html) (hamp : '&' ∉ html) :
    htmlToMarkdown html = some (collapseWhitespace html) := by
  have hcomments : stripComments html = some html := by
    have hbreak : find "<!--".toList html = none := by
      by_contra hfound
      obtain ⟨start, hstart⟩ := Option.ne_none_iff_exists'.mp hfound
      obtain ⟨before, after, rfl, -⟩ := find_eq_some hstart
      exact htag (by simp)
    rw [stripComments, stripCommentsLoop, hbreak, List.nil_append]
  have helement (tag : List Char) : stripElement html tag = some html := by
    have htext := stripRest_text htag tag []
    rw [stripRest_nil, List.append_nil] at htext
    rw [stripElement_eq, htext]
  have hstripped : stripNoiseBlocks html = some html := by
    rw [stripNoiseBlocks, hcomments]
    simp [noiseTags, helement]
  have hrendered : renderTokens html = some html := by
    unfold renderTokens
    cases html with
    | nil => rfl
    | cons symbol rest =>
      have hslice : slice (symbol :: rest) 0 (symbol.utf8Size + byteLen rest) =
          some (symbol :: rest) := by
        simpa using slice_append [] (symbol :: rest) []
      have hsymbol : symbol ≠ '<' := fun h ↦ htag (h ▸ List.mem_cons_self)
      rw [List.mem_cons, not_or] at htag
      rw [byteLen_cons, charIndices, renderLoop, if_pos hsymbol, Nat.zero_add,
        textRun_of_not_mem htag.2]
      dsimp only
      rw [hslice, Option.bind_eq_bind, Option.bind_some, decodeEntities_eq,
        decodeRest_of_not_mem hamp, Option.bind_some]
      obtain ⟨fuel, hfuel⟩ : ∃ fuel, symbol.utf8Size + byteLen rest = fuel + 1 :=
        Nat.exists_eq_add_of_le' (by have := symbol.utf8Size_pos; omega)
      rw [hfuel]
      rfl
  rw [htmlToMarkdown, hstripped, Option.bind_eq_bind, Option.bind_some, hrendered]
  rfl

/-- Two lines with empty lines between them. -/
def farApart (run : ℕ) : List Char := 'a' :: (List.replicate (run + 1) '\n' ++ ['b'])

theorem farApart_eq (run : ℕ) :
    farApart run = ['\n'].intercalate (['a'] :: (List.replicate run [] ++ [['b']])) := by
  have hblanks : ['\n'].intercalate (List.replicate run [] ++ [['b']]) =
      List.replicate run '\n' ++ ['b'] := by
    induction run with
    | zero => rfl
    | succ run ih =>
      rw [List.replicate_succ, List.cons_append, List.intercalate_cons_of_ne_nil (by simp), ih]
      rfl
  rw [List.intercalate_cons_of_ne_nil (by simp), hblanks]
  rfl

theorem collapsedLines_farApart (run : ℕ) :
    collapsedLines (farApart run) = ['a'] :: (List.replicate run [] ++ [['b']]) := by
  have hlines : ∀ line ∈ ['a'] :: (List.replicate run [] ++ [['b']]), NormalLine line := by
    intro line hline
    have hcases : line = ['a'] ∨ line = [] ∨ line = ['b'] := by
      simp only [List.mem_cons, List.mem_append, List.mem_replicate, List.not_mem_nil, or_false]
        at hline
      tauto
    rcases hcases with rfl | rfl | rfl
    · exact normalLine_singleton (by decide)
    · exact ⟨by simp, by simp, by simp, List.isChain_nil⟩
    · exact normalLine_singleton (by decide)
  rw [farApart_eq, collapsedLines, lines_intercalate hlines (by simp [List.getLast?_cons])]
  calc
    _ = (['a'] :: (List.replicate run [] ++ [['b']])).map id :=
      List.map_congr_left fun line hline ↦ collapseInlineSpaces_of_normalLine (hlines line hline)
    _ = _ := List.map_id _

theorem not_normalForm_farApart {run : ℕ} (hrun : 2 ^ 31 ≤ run) :
    ¬∃ markdown, htmlToMarkdown (farApart run) = some markdown ∧ NormalForm markdown := by
  rintro ⟨markdown, hmarkdown, hnormal⟩
  rw [htmlToMarkdown_of_not_mem (by simp [farApart]) (by simp [farApart])] at hmarkdown
  rw [← Option.some.inj hmarkdown, collapseWhitespace_normalForm_iff] at hnormal
  have hlt := hnormal [] ['a'] run ['b'] [] (collapsedLines_farApart run) (by simp) (by simp)
  omega

/-- Of 2^31 blank lines the last is counted like the first, and both are kept. -/
theorem htmlToMarkdown_not_normalForm :
    ¬∃ markdown, htmlToMarkdown (farApart (2 ^ 31)) = some markdown ∧ NormalForm markdown :=
  not_normalForm_farApart (Nat.le_refl (2 ^ 31))

end Ghostbro.Relay.Normalize
