import Ghostbro.Relay.Normalize

/-!
# Noise elements

`strip_element` searches a lower-case copy of the text for an open tag, and from there for the
first close tag of the same name.  `stripRest` says the same without offsets.  On a document of
properly nested elements the search is a machine with two states: outside, where it copies, and
inside, where it waits for a close tag.  It comes out at the first one, also if that belongs to an
element of the same name further in.
-/

namespace Ghostbro.Relay.Normalize

open Text

/-! ### Lower case -/

/-- The code of a letter in lower case. -/
theorem toNat_toLower (symbol : Char) :
    symbol.toLower.toNat =
      if 65 ≤ symbol.toNat ∧ symbol.toNat ≤ 90 then symbol.toNat + 32 else symbol.toNat := by
  have hrange : symbol.val ≥ 'A'.val ∧ symbol.val ≤ 'Z'.val ↔
      65 ≤ symbol.toNat ∧ symbol.toNat ≤ 90 := Iff.rfl
  unfold Char.toLower
  split
  · next hupper =>
    have hcode := hrange.mp hupper
    rw [if_pos hcode]
    change (symbol.val + ('a'.val - 'A'.val)).toNat = _
    rw [UInt32.toNat_add]
    change (symbol.toNat + 32) % 2 ^ 32 = _
    omega
  · next hlower => rw [if_neg fun hcode ↦ hlower (hrange.mpr hcode)]

/-- A lower-case copy has its bytes where the text has them. -/
theorem utf8Size_toLower (symbol : Char) : symbol.toLower.utf8Size = symbol.utf8Size := by
  have hsize (symbol : Char) : symbol.utf8Size =
      if symbol.toNat ≤ 127 then 1 else if symbol.toNat ≤ 2047 then 2
        else if symbol.toNat ≤ 65535 then 3 else 4 := rfl
  have hcode := toNat_toLower symbol
  rw [hsize, hsize, hcode]
  split_ifs <;> omega

@[simp]
theorem byteLen_toAsciiLowercase (text : List Char) :
    byteLen (toAsciiLowercase text) = byteLen text :=
  byteLen_map utf8Size_toLower text

@[simp]
theorem toAsciiLowercase_append (text text' : List Char) :
    toAsciiLowercase (text ++ text') = toAsciiLowercase text ++ toAsciiLowercase text' :=
  List.map_append

/-- Lower case makes no symbol below the letters and changes none. -/
theorem toLower_eq_iff {symbol mark : Char} (hmark : mark.toNat < 65) :
    symbol.toLower = mark ↔ symbol = mark := by
  have hcode := toNat_toLower symbol
  rw [← Char.toNat_inj, ← Char.toNat_inj]
  split_ifs at hcode <;> omega

/-! ### Searching without offsets -/

/-- The text starts with the pattern, up to the case of its letters. -/
def startsWith (pattern text : List Char) : Bool := pattern.isPrefixOf (toAsciiLowercase text)

/-- What is left behind the first close tag. -/
def afterClose (tag rest : List Char) : List Char :=
  match breakAt (startsWith ('<' :: '/' :: tag ++ ['>'])) rest with
  | none => []
  | some (_, tail) => tail.drop (tag.length + 3)

theorem afterClose_lt (tag : List Char) {rest : List Char} (h : rest ≠ []) :
    (afterClose tag rest).length < rest.length := by
  have hpos := List.length_pos_iff.mpr h
  unfold afterClose
  split
  · exact hpos
  · next hfound =>
    have hlength := congrArg List.length (breakAt_eq_some hfound).1
    rw [List.length_append] at hlength
    rw [List.length_drop]
    omega

theorem ne_nil_of_startsWith {symbol : Char} {pattern text : List Char}
    (h : startsWith (symbol :: pattern) text = true) : text ≠ [] := by
  rintro rfl
  cases h

/-- The text that `strip_element` still appends when this rest is left. -/
def stripRest (tag rest : List Char) : List Char :=
  match _hopen : breakAt (startsWith ('<' :: tag)) rest with
  | none => rest
  | some (front, tail) =>
    if isTagBoundary (byteAt (toAsciiLowercase (tail.drop (tag.length + 1))) 0) then
      front ++ stripRest tag (afterClose tag tail)
    else front ++ tail.take (tag.length + 1) ++ stripRest tag (tail.drop (tag.length + 1))
termination_by rest.length
decreasing_by
  all_goals
    obtain ⟨hrest, hfound⟩ := breakAt_eq_some _hopen
    have hlength := congrArg List.length hrest
    have hne := ne_nil_of_startsWith hfound
    rw [List.length_append] at hlength
  · have hlt := afterClose_lt tag hne
    omega
  · have hpos := List.length_pos_iff.mpr hne
    rw [List.length_drop]
    omega

theorem stripRest_none {tag rest : List Char} (h : breakAt (startsWith ('<' :: tag)) rest = none) :
    stripRest tag rest = rest := by
  rw [stripRest]
  split
  · rfl
  · next hopen => rw [h] at hopen; cases hopen

theorem stripRest_some {tag rest front tail : List Char}
    (h : breakAt (startsWith ('<' :: tag)) rest = some (front, tail)) :
    stripRest tag rest =
      if isTagBoundary (byteAt (toAsciiLowercase (tail.drop (tag.length + 1))) 0) then
        front ++ stripRest tag (afterClose tag tail)
      else front ++ tail.take (tag.length + 1) ++ stripRest tag (tail.drop (tag.length + 1)) := by
  rw [stripRest]
  split
  · next hopen => rw [h] at hopen; cases hopen
  · next hopen =>
    rw [h] at hopen
    obtain ⟨rfl, rfl⟩ := Prod.mk.inj (Option.some.inj hopen)
    rfl

theorem stripRest_nil (tag : List Char) : stripRest tag [] = [] := stripRest_none rfl

/-! ### The loop -/

/-- A search in the lower-case copy. -/
theorem find_toAsciiLowercase (pattern text : List Char) :
    find pattern (toAsciiLowercase text) =
      (breakAt (startsWith pattern) text).map fun parts ↦ byteLen parts.1 := by
  rw [find, toAsciiLowercase, breakAt_map, Option.map_map]
  congr 1
  funext parts
  exact byteLen_toAsciiLowercase parts.1

/-- The occurrence that a search finds is as long as its pattern. -/
theorem startsWith_parts {pattern text : List Char} (h : startsWith pattern text = true) :
    ∃ name behind, text = name ++ behind ∧ name.length = pattern.length ∧
      byteLen name = byteLen pattern := by
  have hstart := List.isPrefixOf_iff_prefix.mp h
  have htake : toAsciiLowercase (text.take pattern.length) = pattern := by
    rw [toAsciiLowercase, List.map_take]
    exact (List.prefix_iff_eq_take.mp hstart).symm
  refine ⟨_, _, (List.take_append_drop pattern.length text).symm, ?_, ?_⟩
  · apply List.length_take_of_le
    simpa [toAsciiLowercase] using hstart.length_le
  · rw [← byteLen_toAsciiLowercase, htake]

theorem startingAt_toAsciiLowercase (before after : List Char) :
    startingAt (toAsciiLowercase (before ++ after)) (byteLen before) =
      some (toAsciiLowercase after) := by
  rw [toAsciiLowercase_append, ← byteLen_toAsciiLowercase before, startingAt_append]

theorem byteAt_toAsciiLowercase (before after : List Char) :
    byteAt (toAsciiLowercase (before ++ after)) (byteLen before) =
      byteAt (toAsciiLowercase after) 0 := by
  rw [toAsciiLowercase_append, ← byteLen_toAsciiLowercase before, byteAt_append]

/-- The rest behind the first close tag, where the loop goes on. -/
theorem afterClose_eq_some {tag text front tail : List Char}
    (h : breakAt (startsWith ('<' :: '/' :: tag ++ ['>'])) text = some (front, tail)) :
    ∃ close, text = front ++ close ++ afterClose tag text ∧
      byteLen close = byteLen ('<' :: '/' :: tag ++ ['>']) := by
  obtain ⟨htext, hfound⟩ := breakAt_eq_some h
  obtain ⟨close, behind, rfl, hlength, hbytes⟩ := startsWith_parts hfound
  have hlength' : close.length = tag.length + 3 := by simpa using hlength
  refine ⟨close, ?_, hbytes⟩
  rw [afterClose, h]
  dsimp only
  rw [← hlength', List.drop_left, List.append_assoc]
  exact htext

/-- The loop of `strip_element` with `done` behind it. -/
def stripFrom (tag done rest : List Char) (fuel : ℕ) (output : List Char) : Option (List Char) :=
  stripElementLoop (done ++ rest) (toAsciiLowercase (done ++ rest)) ('<' :: tag)
    ('<' :: '/' :: tag ++ ['>']) fuel (byteLen done) output

section Step

variable {tag done rest front name behind : List Char} {fuel : ℕ} {output : List Char}

theorem byteLen_lt_of_ne_nil (h : rest ≠ []) : byteLen done < byteLen (done ++ rest) := by
  obtain ⟨symbol, rest, rfl⟩ := List.exists_cons_of_ne_nil h
  have hpos := symbol.utf8Size_pos
  rw [byteLen_append, byteLen_cons]
  omega

/-- The loop ends when no open tag is left. -/
theorem stripFrom_none (h : breakAt (startsWith ('<' :: tag)) rest = none) :
    stripFrom tag done rest (fuel + 1) output = some (output ++ rest) := by
  rw [stripFrom, stripElementLoop]
  by_cases hrest : rest = []
  · rw [hrest, List.append_nil, if_neg (lt_irrefl _), List.append_nil]
  · rw [if_pos (byteLen_lt_of_ne_nil hrest), startingAt_toAsciiLowercase]
    simp [find_toAsciiLowercase, h]

/-- The byte that is read behind the name. -/
theorem byteAt_behind (hbytes : byteLen name = byteLen ('<' :: tag)) :
    byteAt (toAsciiLowercase (done ++ (front ++ (name ++ behind))))
        (byteLen done + byteLen front + byteLen ('<' :: tag)) =
      byteAt (toAsciiLowercase behind) 0 := by
  have hbyte := byteAt_toAsciiLowercase (done ++ front ++ name) behind
  rw [byteLen_append, byteLen_append, hbytes] at hbyte
  simpa only [List.append_assoc] using hbyte

/-- A longer name is copied. -/
theorem stripFrom_longer
    (hopen : breakAt (startsWith ('<' :: tag)) rest = some (front, name ++ behind))
    (hbytes : byteLen name = byteLen ('<' :: tag))
    (hlonger : isTagBoundary (byteAt (toAsciiLowercase behind) 0) = false) :
    stripFrom tag done rest (fuel + 1) output =
      stripFrom tag (done ++ front ++ name) behind fuel (output ++ (front ++ name)) := by
  obtain ⟨rfl, hfound⟩ := breakAt_eq_some hopen
  have hne := List.append_ne_nil_of_right_ne_nil front (ne_nil_of_startsWith hfound)
  have hslice := slice_append done (front ++ name) behind
  rw [byteLen_append, hbytes, ← Nat.add_assoc, List.append_assoc] at hslice
  rw [stripFrom, stripElementLoop, if_pos (byteLen_lt_of_ne_nil hne),
    startingAt_toAsciiLowercase]
  simp only [Option.bind_eq_bind, Option.bind_some, find_toAsciiLowercase, hopen, Option.map_some,
    byteAt_behind hbytes, hlonger, Bool.false_eq_true, if_false, hslice]
  rw [stripFrom, byteLen_append, byteLen_append, hbytes]
  simp only [List.append_assoc]

/-- Behind an open tag the loop goes on where the first close tag ends, or at the end of the
text. -/
theorem stripFrom_element
    (hopen : breakAt (startsWith ('<' :: tag)) rest = some (front, name ++ behind))
    (hbytes : byteLen name = byteLen ('<' :: tag))
    (hboundary : isTagBoundary (byteAt (toAsciiLowercase behind) 0) = true) :
    ∃ skipped, stripFrom tag done rest (fuel + 1) output =
      stripFrom tag (done ++ front ++ skipped) (afterClose tag (name ++ behind)) fuel
        (output ++ front) := by
  obtain ⟨rfl, hfound⟩ := breakAt_eq_some hopen
  have hne := List.append_ne_nil_of_right_ne_nil front (ne_nil_of_startsWith hfound)
  have hlowered := startingAt_toAsciiLowercase (done ++ front) (name ++ behind)
  rw [byteLen_append, List.append_assoc] at hlowered
  have hstep : stripFrom tag done (front ++ (name ++ behind)) (fuel + 1) output =
      stripElementLoop (done ++ (front ++ (name ++ behind)))
        (toAsciiLowercase (done ++ (front ++ (name ++ behind)))) ('<' :: tag)
        ('<' :: '/' :: tag ++ ['>']) fuel
        (match breakAt (startsWith ('<' :: '/' :: tag ++ ['>'])) (name ++ behind) with
          | some parts =>
            byteLen done + byteLen front + byteLen parts.1 + byteLen ('<' :: '/' :: tag ++ ['>'])
          | none => byteLen (done ++ (front ++ (name ++ behind))))
        (output ++ front) := by
    rw [stripFrom, stripElementLoop, if_pos (byteLen_lt_of_ne_nil hne),
      startingAt_toAsciiLowercase]
    simp only [Option.bind_eq_bind, Option.bind_some, find_toAsciiLowercase, hopen,
      Option.map_some, byteAt_behind hbytes, hboundary, if_true, slice_append, hlowered]
    cases breakAt (startsWith ('<' :: '/' :: tag ++ ['>'])) (name ++ behind) <;> rfl
  cases hclose : breakAt (startsWith ('<' :: '/' :: tag ++ ['>'])) (name ++ behind) with
  | none =>
    have hend : afterClose tag (name ++ behind) = [] := by rw [afterClose, hclose]
    use name ++ behind
    rw [hstep, hclose, hend, stripFrom, List.append_nil]
    simp only [List.append_assoc]
  | some parts =>
    obtain ⟨close, htext, hcloseBytes⟩ := afterClose_eq_some hclose
    use parts.1 ++ close
    have hwhole : done ++ front ++ (parts.1 ++ close) ++ afterClose tag (name ++ behind) =
        done ++ (front ++ (name ++ behind)) := by
      rw [List.append_assoc, ← htext, List.append_assoc]
    have hoffset : byteLen (done ++ front ++ (parts.1 ++ close)) =
        byteLen done + byteLen front + byteLen parts.1 +
          byteLen ('<' :: '/' :: tag ++ ['>']) := by
      simp only [byteLen_append, hcloseBytes, Nat.add_assoc]
    rw [hstep, hclose, stripFrom, hwhole, hoffset]

end Step

/-- Every slice of the loop exists, also at the offsets into the lower-case copy, and its fuel
suffices. -/
theorem stripFrom_eq (tag done rest : List Char) {fuel : ℕ} (hfuel : rest.length < fuel)
    (output : List Char) :
    stripFrom tag done rest fuel output = some (output ++ stripRest tag rest) := by
  induction fuel generalizing done rest output with
  | zero => omega
  | succ fuel ih =>
    cases hopen : breakAt (startsWith ('<' :: tag)) rest with
    | none => rw [stripFrom_none hopen, stripRest_none hopen]
    | some parts =>
      obtain ⟨front, tail⟩ := parts
      obtain ⟨hrest, hfound⟩ := breakAt_eq_some hopen
      obtain ⟨name, behind, rfl, hlength, hbytes⟩ := startsWith_parts hfound
      rw [List.length_cons] at hlength
      have hlengths := congrArg List.length hrest
      rw [List.length_append, List.length_append] at hlengths
      rw [stripRest_some hopen, ← hlength, List.take_left, List.drop_left]
      cases hboundary : isTagBoundary (byteAt (toAsciiLowercase behind) 0) with
      | true =>
        obtain ⟨skipped, hstep⟩ := stripFrom_element hopen hbytes hboundary
        have hshorter := afterClose_lt tag (ne_nil_of_startsWith hfound)
        rw [List.length_append] at hshorter
        rw [hstep, ih _ _ (by omega), if_pos rfl, List.append_assoc]
      | false =>
        rw [stripFrom_longer hopen hbytes hboundary, ih _ _ (by omega), if_neg Bool.false_ne_true]
        simp only [List.append_assoc]

/-- `strip_element` panics on no text. -/
theorem stripElement_eq (input tag : List Char) :
    stripElement input tag = some (stripRest tag input) := by
  have hloop := stripFrom_eq tag [] input (Nat.lt_succ_of_le (length_le_byteLen input)) []
  simpa [stripFrom, stripElement] using hloop

/-! ### Documents -/

/-- The symbols that may stand in the name of a tag. -/
def isNameSymbol (symbol : Char) : Bool :=
  symbol ∉ ['<', '>', ' ', '/', '\t', '\n', '\r']

/-- The open tag and the close tag of an element; either may be in either case. -/
structure Tags where
  opening : List Char
  attributes : List Char
  closing : List Char
  opening_ne_nil : opening ≠ []
  isNameSymbol_opening : ∀ symbol ∈ opening, isNameSymbol symbol = true
  head_attributes : ∀ symbol ∈ attributes.head?, symbol ∈ [' ', '/', '\t', '\n', '\r']
  not_mem_attributes : '<' ∉ attributes
  closing_eq : toAsciiLowercase closing = toAsciiLowercase opening

/-- The name of the element. -/
def Tags.name (tags : Tags) : List Char := toAsciiLowercase tags.opening

def Tags.openTag (tags : Tags) : List Char := '<' :: (tags.opening ++ tags.attributes ++ ['>'])

def Tags.closeTag (tags : Tags) : List Char := '<' :: ('/' :: tags.closing ++ ['>'])

/-- A document of text and properly nested elements, from left to right. -/
inductive Document where
  | empty
  | text (content : List Char) (hcontent : '<' ∉ content) (next : Document)
  | element (tags : Tags) (content next : Document)

namespace Document

/-- The document as it is written. -/
def source : Document → List Char
  | empty => []
  | text content _ next => content ++ next.source
  | element tags content next => tags.openTag ++ content.source ++ tags.closeTag ++ next.source

/-- The document without its outermost elements of a name. -/
def remove (tag : List Char) : Document → Document
  | empty => empty
  | text content hcontent next => text content hcontent (next.remove tag)
  | element tags content next =>
    if tags.name = tag then next.remove tag
    else element tags (content.remove tag) (next.remove tag)

/-- An element of the name stands somewhere in the document. -/
def contains (tag : List Char) : Document → Bool
  | empty => false
  | text _ _ next => next.contains tag
  | element tags content next => tags.name = tag || content.contains tag || next.contains tag

/-- An element of the name stands inside another one. -/
def selfNested (tag : List Char) : Document → Bool
  | empty => false
  | text _ _ next => next.selfNested tag
  | element tags content next =>
    (if tags.name = tag then content.contains tag else content.selfNested tag) ||
      next.selfNested tag

/-- What `strip_element` leaves of a document that it reads outside of an element of the name, or
inside of one whose close tag it waits for. -/
def kept (tag : List Char) : Bool → Document → List Char
  | _, empty => []
  | inside, text content _ next => (if inside then [] else content) ++ next.kept tag inside
  | inside, element tags content next =>
    let entered := inside || tags.name = tag
    -- any close tag of the name leads out
    let waiting := entered && !content.contains tag
    (if entered then [] else tags.openTag) ++ content.kept tag entered ++
      (if waiting then [] else tags.closeTag) ++ next.kept tag (waiting && tags.name ≠ tag)

end Document

/-! ### One tag -/

/-- The names that the elements to be removed may have. -/
def IsTagName (tag : List Char) : Prop := tag ≠ [] ∧ ∀ symbol ∈ tag, isNameSymbol symbol = true

theorem isNameSymbol_toLower (symbol : Char) :
    isNameSymbol symbol.toLower = isNameSymbol symbol := by
  have hmarks : ∀ mark ∈ ['<', '>', ' ', '/', '\t', '\n', '\r'], mark.toNat < 65 := by simp
  have hmem : symbol.toLower ∈ ['<', '>', ' ', '/', '\t', '\n', '\r'] ↔
      symbol ∈ ['<', '>', ' ', '/', '\t', '\n', '\r'] := by
    constructor
    · intro h
      rwa [(toLower_eq_iff (hmarks _ h)).mp rfl]
    · intro h
      rwa [(toLower_eq_iff (hmarks _ h)).mpr rfl]
  rw [isNameSymbol, isNameSymbol, decide_eq_decide, not_iff_not]
  exact hmem

theorem isNameSymbol_of_mem_name {tags : Tags} {symbol : Char} (h : symbol ∈ tags.name) :
    isNameSymbol symbol = true := by
  obtain ⟨upper, hupper, rfl⟩ := List.mem_map.mp h
  rw [isNameSymbol_toLower]
  exact tags.isNameSymbol_opening upper hupper

theorem not_mem_of_isNameSymbol {name : List Char} {mark : Char}
    (h : ∀ symbol ∈ name, isNameSymbol symbol = true) (hmark : isNameSymbol mark = false) :
    mark ∉ name := by
  intro hmem
  rw [h mark hmem] at hmark
  cases hmark

/-- The byte behind a name of which more is to come is no boundary. -/
theorem isTagBoundary_of_isNameSymbol {symbol : Char} (h : isNameSymbol symbol = true)
    (rest : List Char) : isTagBoundary (byteAt (symbol :: rest) 0) = false := by
  obtain ⟨byte, hbyte, hascii⟩ := byteAt_cons_zero symbol rest
  have hne : ∀ mark : UInt8, mark ∈ [62, 32, 47, 9, 10, 13] → byte ≠ mark := by
    intro mark hmark heq
    have hmarks : ∀ mark : UInt8, mark ∈ [62, 32, 47, 9, 10, 13] →
        mark.toNat < 128 ∧ isNameSymbol (Char.ofNat mark.toNat) = false := by
      simp [isNameSymbol]
    obtain ⟨hsmall, hsymbol⟩ := hmarks mark hmark
    rw [heq] at hascii
    rw [hascii hsmall, Char.ofNat_toNat, h] at hsymbol
    cases hsymbol
  rw [hbyte, isTagBoundary]
  simp only [List.mem_cons, List.not_mem_nil, forall_eq_or_imp] at hne
  simp [hne]

theorem isTagBoundary_of_head {attributes : List Char} (rest : List Char)
    (h : ∀ symbol ∈ attributes.head?, symbol ∈ [' ', '/', '\t', '\n', '\r']) :
    isTagBoundary (byteAt (toAsciiLowercase (attributes ++ '>' :: rest)) 0) = true := by
  have hbyte (symbol : Char) (rest : List Char)
      (hsymbol : symbol ∈ ['>', ' ', '/', '\t', '\n', '\r']) :
      isTagBoundary (byteAt (toAsciiLowercase (symbol :: rest)) 0) = true := by
    simp only [List.mem_cons, List.not_mem_nil, or_false] at hsymbol
    rcases hsymbol with rfl | rfl | rfl | rfl | rfl | rfl <;> rfl
  cases attributes with
  | nil => exact hbyte '>' rest (by simp)
  | cons symbol attributes => exact hbyte symbol _ (List.mem_cons_of_mem _ (h symbol rfl))

namespace Tags

variable (tags : Tags)

theorem toAsciiLowercase_openTag (rest : List Char) :
    toAsciiLowercase (tags.openTag ++ rest) =
      '<' :: (tags.name ++ toAsciiLowercase (tags.attributes ++ '>' :: rest)) := by
  simp [openTag, name, toAsciiLowercase]

theorem toAsciiLowercase_closeTag (rest : List Char) :
    toAsciiLowercase (tags.closeTag ++ rest) =
      '<' :: '/' :: (tags.name ++ '>' :: toAsciiLowercase rest) := by
  have hclosing : tags.closing.map Char.toLower = tags.name := tags.closing_eq
  simp [closeTag, toAsciiLowercase, hclosing]

/-- An open tag starts with the name that is looked for only if its own name does. -/
theorem prefix_of_startsWith_openTag {tag rest : List Char}
    (htag : ∀ symbol ∈ tag, isNameSymbol symbol = true)
    (h : startsWith ('<' :: tag) (tags.openTag ++ rest) = true) : tag <+: tags.name := by
  rw [startsWith, toAsciiLowercase_openTag, List.isPrefixOf_iff_prefix,
    List.cons_prefix_cons] at h
  rcases List.prefix_or_prefix_of_prefix h.2 (List.prefix_append _ _) with hshort | ⟨more, rfl⟩
  · exact hshort
  · have hbehind := isTagBoundary_of_head rest tags.head_attributes
    obtain ⟨last, hlast⟩ := (List.prefix_append_right_inj _).mp h.2
    cases more with
    | nil => simp
    | cons symbol more =>
      -- a symbol of the name would stand where the attributes start
      rw [← hlast, List.cons_append, isTagBoundary_of_isNameSymbol (htag symbol (by simp))]
        at hbehind
      cases hbehind

theorem startsWith_openTag (rest : List Char) :
    startsWith ('<' :: tags.name) (tags.openTag ++ rest) = true := by
  rw [startsWith, toAsciiLowercase_openTag, List.isPrefixOf_iff_prefix, List.cons_prefix_cons]
  exact ⟨rfl, List.prefix_append _ _⟩

theorem not_startsWith_close_openTag (pattern rest : List Char) :
    startsWith ('<' :: '/' :: pattern) (tags.openTag ++ rest) = false := by
  have hname : tags.name ≠ [] := by simpa [name, toAsciiLowercase] using tags.opening_ne_nil
  obtain ⟨symbol, more, hmore⟩ := List.exists_cons_of_ne_nil hname
  have hsymbol : isNameSymbol symbol = true := isNameSymbol_of_mem_name (by rw [hmore]; simp)
  rw [startsWith, toAsciiLowercase_openTag, hmore, ← Bool.not_eq_true, List.isPrefixOf_iff_prefix,
    List.cons_append, List.cons_prefix_cons, List.cons_prefix_cons]
  rintro ⟨-, rfl, -⟩
  cases hsymbol

theorem not_startsWith_closeTag {tag : List Char} (htag : IsTagName tag) (rest : List Char) :
    startsWith ('<' :: tag) (tags.closeTag ++ rest) = false := by
  obtain ⟨symbol, more, rfl⟩ := List.exists_cons_of_ne_nil htag.1
  have hsymbol : isNameSymbol symbol = true := htag.2 symbol List.mem_cons_self
  rw [startsWith, toAsciiLowercase_closeTag, ← Bool.not_eq_true, List.isPrefixOf_iff_prefix,
    List.cons_prefix_cons, List.cons_prefix_cons]
  rintro ⟨-, rfl, -⟩
  cases hsymbol

theorem startsWith_closeTag_iff {tag : List Char} (htag : IsTagName tag) (rest : List Char) :
    startsWith ('<' :: '/' :: tag ++ ['>']) (tags.closeTag ++ rest) = true ↔ tags.name = tag := by
  rw [startsWith, toAsciiLowercase_closeTag, List.isPrefixOf_iff_prefix, List.cons_append,
    List.cons_append, List.cons_prefix_cons, List.cons_prefix_cons]
  have hname : '>' ∉ tags.name :=
    not_mem_of_isNameSymbol (fun _ ↦ isNameSymbol_of_mem_name) (by decide)
  have hgt : '>' ∉ tag := not_mem_of_isNameSymbol htag.2 (by decide)
  constructor
  · rintro ⟨-, -, more, hmore⟩
    have hsplit := congrArg (splitOnce '>') hmore
    rw [List.append_assoc, List.singleton_append, splitOnce_append hgt, splitOnce_append hname]
      at hsplit
    exact (Prod.mk.inj (Option.some.inj hsplit)).1.symm
  · rintro rfl
    exact ⟨rfl, rfl, by simp [List.prefix_append_right_inj]⟩

end Tags

/-! ### The scanner on a document -/

/-- What `strip_element` still appends, outside of an element of the name or inside of one. -/
def scan (tag : List Char) (inside : Bool) (rest : List Char) : List Char :=
  stripRest tag (if inside then afterClose tag rest else rest)

/-- A text without tags holds nothing that the scanner looks for. -/
theorem breakAt_startsWith_text {piece : List Char} (hpiece : '<' ∉ piece)
    (pattern rest : List Char) :
    breakAt (startsWith ('<' :: pattern)) (piece ++ rest) =
      (breakAt (startsWith ('<' :: pattern)) rest).map fun (front, back) ↦
        (piece ++ front, back) := by
  apply breakAt_append
  rintro front back rfl hback
  obtain ⟨symbol, back, rfl⟩ := List.exists_cons_of_ne_nil hback
  have hsymbol : '<' ≠ symbol.toLower := by
    intro heq
    rw [(toLower_eq_iff (by decide)).mp heq.symm] at hpiece
    simp at hpiece
  rw [startsWith, ← Bool.not_eq_true, List.isPrefixOf_iff_prefix, List.cons_append,
    toAsciiLowercase, List.map_cons, List.cons_prefix_cons]
  exact fun h ↦ hsymbol h.1

/-- So does a tag that does not start with it. -/
theorem breakAt_startsWith_tag {body pattern rest : List Char} (hbody : '<' ∉ body)
    (hhead : startsWith ('<' :: pattern) ('<' :: body ++ rest) = false) :
    breakAt (startsWith ('<' :: pattern)) ('<' :: body ++ rest) =
      (breakAt (startsWith ('<' :: pattern)) rest).map fun (front, back) ↦
        ('<' :: body ++ front, back) := by
  rw [List.cons_append] at hhead ⊢
  rw [breakAt, hhead, if_neg (by decide), breakAt_startsWith_text hbody, Option.map_map]
  rfl

theorem stripRest_append {tag piece rest : List Char}
    (h : breakAt (startsWith ('<' :: tag)) (piece ++ rest) =
      (breakAt (startsWith ('<' :: tag)) rest).map fun (front, back) ↦ (piece ++ front, back)) :
    stripRest tag (piece ++ rest) = piece ++ stripRest tag rest := by
  cases hrest : breakAt (startsWith ('<' :: tag)) rest with
  | none =>
    rw [hrest, Option.map_none] at h
    rw [stripRest_none h, stripRest_none hrest]
  | some parts =>
    rw [hrest, Option.map_some] at h
    rw [stripRest_some h, stripRest_some hrest]
    split <;> simp only [List.append_assoc]

theorem afterClose_append {tag piece rest : List Char}
    (h : breakAt (startsWith ('<' :: '/' :: tag ++ ['>'])) (piece ++ rest) =
      (breakAt (startsWith ('<' :: '/' :: tag ++ ['>'])) rest).map fun (front, back) ↦
        (piece ++ front, back)) :
    afterClose tag (piece ++ rest) = afterClose tag rest := by
  rw [afterClose, h, afterClose]
  cases breakAt (startsWith ('<' :: '/' :: tag ++ ['>'])) rest <;> rfl

theorem stripRest_text {content : List Char} (hcontent : '<' ∉ content) (tag rest : List Char) :
    stripRest tag (content ++ rest) = content ++ stripRest tag rest :=
  stripRest_append (breakAt_startsWith_text hcontent tag rest)

theorem scan_text {content : List Char} (hcontent : '<' ∉ content) (tag : List Char)
    (inside : Bool) (rest : List Char) :
    scan tag inside (content ++ rest) =
      (if inside then [] else content) ++ scan tag inside rest := by
  cases inside with
  | false => exact stripRest_text hcontent tag rest
  | true =>
    have hskip := breakAt_startsWith_text hcontent ('/' :: tag ++ ['>']) rest
    exact congrArg (stripRest tag) (afterClose_append hskip)

theorem Tags.not_mem_openTag_tail (tags : Tags) :
    '<' ∉ tags.opening ++ tags.attributes ++ ['>'] := by
  have hopening : '<' ∉ tags.opening :=
    not_mem_of_isNameSymbol tags.isNameSymbol_opening (by decide)
  simp [hopening, tags.not_mem_attributes]

theorem Tags.not_mem_closeTag_tail (tags : Tags) : '<' ∉ '/' :: tags.closing ++ ['>'] := by
  have hclosing : '<' ∉ tags.closing := by
    intro hmem
    have hname : '<' ∈ tags.name := by
      rw [name, ← tags.closing_eq]
      exact List.mem_map.mpr ⟨'<', hmem, by decide⟩
    exact absurd (isNameSymbol_of_mem_name hname) (by decide)
  simp [hclosing]

/-- The scanner goes inside at an open tag of the name. -/
theorem stripRest_openTag_self (tags : Tags) (rest : List Char) :
    stripRest tags.name (tags.openTag ++ rest) =
      stripRest tags.name (afterClose tags.name rest) := by
  have hbehind : (tags.openTag ++ rest).drop (tags.name.length + 1) =
      tags.attributes ++ '>' :: rest := by
    simp [Tags.openTag, Tags.name, toAsciiLowercase]
  rw [stripRest_some (breakAt_self (tags.startsWith_openTag rest)), hbehind,
    isTagBoundary_of_head rest tags.head_attributes, if_pos rfl, List.nil_append]
  apply congrArg
  apply afterClose_append
  exact breakAt_startsWith_tag tags.not_mem_openTag_tail
    (tags.not_startsWith_close_openTag (tags.name ++ ['>']) rest)

/-- It copies an open tag of another name, also if that only continues the name. -/
theorem stripRest_openTag {tag : List Char} (htag : IsTagName tag) {tags : Tags}
    (hname : tags.name ≠ tag) (rest : List Char) :
    stripRest tag (tags.openTag ++ rest) = tags.openTag ++ stripRest tag rest := by
  cases hstarts : startsWith ('<' :: tag) (tags.openTag ++ rest) with
  | false => exact stripRest_append (breakAt_startsWith_tag tags.not_mem_openTag_tail hstarts)
  | true =>
    have hstart := tags.prefix_of_startsWith_openTag htag.2 hstarts
    have hle : tag.length ≤ tags.opening.length := by
      simpa [Tags.name, toAsciiLowercase] using hstart.length_le
    -- what the name goes on with, and the rest of the tag
    obtain ⟨front, more, hopening, hfront⟩ : ∃ front more, tags.opening = front ++ more ∧
        front.length = tag.length :=
      ⟨_, _, (List.take_append_drop tag.length _).symm, List.length_take_of_le hle⟩
    have hparts : tags.openTag ++ rest =
        '<' :: front ++ (more ++ tags.attributes ++ ['>'] ++ rest) := by
      simp [Tags.openTag, hopening]
    have hlength : ('<' :: front).length = tag.length + 1 := by rw [List.length_cons, hfront]
    have hmore : more ≠ [] := by
      rintro rfl
      apply hname
      apply (hstart.eq_of_length ?_).symm
      rw [Tags.name, toAsciiLowercase, List.length_map, hopening, List.append_nil, hfront]
    obtain ⟨symbol, more, rfl⟩ := List.exists_cons_of_ne_nil hmore
    have hsymbol : isNameSymbol symbol.toLower = true := by
      rw [isNameSymbol_toLower]
      exact tags.isNameSymbol_opening symbol (by rw [hopening]; simp)
    have htail : '<' ∉ symbol :: more ++ tags.attributes ++ ['>'] := by
      have hall := tags.not_mem_openTag_tail
      rw [hopening] at hall
      simp only [List.mem_append, not_or] at hall ⊢
      tauto
    rw [stripRest_some (breakAt_self hstarts), hparts, ← hlength, List.drop_left, List.take_left,
      stripRest_text htail]
    have hbehind : isTagBoundary (byteAt (toAsciiLowercase
        (symbol :: more ++ tags.attributes ++ ['>'] ++ rest)) 0) = false :=
      isTagBoundary_of_isNameSymbol hsymbol _
    rw [hbehind, if_neg (by decide)]
    simp [Tags.openTag, hopening]

theorem scan_openTag {tag : List Char} (htag : IsTagName tag) (tags : Tags) (inside : Bool)
    (rest : List Char) :
    scan tag inside (tags.openTag ++ rest) =
      (if inside || tags.name = tag then [] else tags.openTag) ++
        scan tag (inside || tags.name = tag) rest := by
  cases inside with
  | true =>
    have hskip := breakAt_startsWith_tag tags.not_mem_openTag_tail
      (tags.not_startsWith_close_openTag (tag ++ ['>']) rest)
    exact congrArg (stripRest tag) (afterClose_append hskip)
  | false =>
    by_cases hname : tags.name = tag
    · subst hname
      simpa [scan] using stripRest_openTag_self tags rest
    · simpa [scan, hname] using stripRest_openTag htag hname rest

theorem scan_closeTag {tag : List Char} (htag : IsTagName tag) (tags : Tags) (inside : Bool)
    (rest : List Char) :
    scan tag inside (tags.closeTag ++ rest) =
      (if inside then [] else tags.closeTag) ++ scan tag (inside && tags.name ≠ tag) rest := by
  cases inside with
  | false =>
    exact stripRest_append
      (breakAt_startsWith_tag tags.not_mem_closeTag_tail (tags.not_startsWith_closeTag htag rest))
  | true =>
    have hcloses := tags.startsWith_closeTag_iff htag rest
    by_cases hname : tags.name = tag
    · have hclosing : tags.closing.length = tag.length := by
        rw [← hname]
        simpa [toAsciiLowercase, Tags.name] using congrArg List.length tags.closing_eq
      have hafter : afterClose tag (tags.closeTag ++ rest) = rest := by
        rw [afterClose, breakAt_self (hcloses.mpr hname)]
        simp [Tags.closeTag, ← hclosing]
      simp [scan, hname, hafter]
    · have hfalse := Bool.not_eq_true _ ▸ mt hcloses.mp hname
      have hafter : afterClose tag (tags.closeTag ++ rest) = afterClose tag rest :=
        afterClose_append (breakAt_startsWith_tag tags.not_mem_closeTag_tail hfalse)
      simp [scan, hname, hafter]

/-- The scanner reads a document as the machine with two states reads its elements. -/
theorem scan_source {tag : List Char} (htag : IsTagName tag) (document : Document) (inside : Bool)
    (rest : List Char) :
    scan tag inside (document.source ++ rest) =
      document.kept tag inside ++ scan tag (inside && !document.contains tag) rest := by
  induction document generalizing inside rest with
  | empty => simp [Document.source, Document.kept, Document.contains]
  | text content hcontent next ih =>
    rw [Document.source, List.append_assoc, scan_text hcontent, ih, ← List.append_assoc]
    rfl
  | element tags content next ihcontent ihnext =>
    have hstate : ((((inside || tags.name = tag) && !content.contains tag) && tags.name ≠ tag) &&
        (!next.contains tag)) = (inside && !(Document.element tags content next).contains tag) := by
      by_cases hname : tags.name = tag <;> simp [Document.contains, hname, Bool.and_assoc]
    rw [Document.source, List.append_assoc, List.append_assoc, List.append_assoc,
      scan_openTag htag, ihcontent, scan_closeTag htag, ihnext, ← hstate]
    simp only [Document.kept, List.append_assoc]

/-- What `strip_element` makes of every document. -/
theorem stripElement_source {tag : List Char} (htag : IsTagName tag) (document : Document) :
    stripElement document.source tag = some (document.kept tag false) := by
  have hscan := scan_source htag document false []
  rw [List.append_nil] at hscan
  rw [stripElement_eq]
  simpa [scan, stripRest_nil] using hscan

/-! ### What is left -/

namespace Document

variable (tag : List Char)

/-- Inside of an element nothing is kept up to the first close tag of its name. -/
theorem kept_of_not_contains {document : Document} (h : document.contains tag = false) :
    document.kept tag true = [] := by
  induction document with
  | empty => rfl
  | text content hcontent next ih => exact ih h
  | element tags content next ihcontent ihnext =>
    simp only [contains, Bool.or_eq_false_iff, decide_eq_false_iff_not] at h
    simp [kept, h, ihcontent h.1.2, ihnext h.2]

theorem kept_eq_of_not_selfNested {document : Document} (h : document.selfNested tag = false) :
    document.kept tag false = (document.remove tag).source := by
  induction document with
  | empty => rfl
  | text content hcontent next ih => exact congrArg (content ++ ·) (ih h)
  | element tags content next ihcontent ihnext =>
    simp only [selfNested, Bool.or_eq_false_iff] at h
    by_cases hname : tags.name = tag
    · rw [if_pos hname] at h
      simp [kept, remove, hname, h.1, kept_of_not_contains tag h.1, ihnext h.2]
    · rw [if_neg hname] at h
      simp [kept, remove, source, hname, ihcontent h.1, ihnext h.2]

/-- Nothing is lost that stands outside of the elements of the name. -/
theorem length_remove_le (document : Document) :
    (document.remove tag).source.length ≤ (document.kept tag false).length := by
  induction document with
  | empty => exact le_rfl
  | text content hcontent next ih => simpa [kept, remove, source] using ih
  | element tags content next ihcontent ihnext =>
    by_cases hname : tags.name = tag
    · simp only [kept, remove, hname, if_true, decide_true, Bool.or_true, Bool.true_and,
        List.length_append, ne_eq, not_true_eq_false, decide_false, Bool.and_false]
      omega
    · simp only [kept, remove, source, hname, if_false, decide_false, Bool.or_false,
        Bool.false_and, Bool.false_eq_true, List.length_append]
      omega

/-- A close tag is left where an element of the name stands inside another one. -/
theorem length_remove_lt_of_selfNested {document : Document}
    (h : document.selfNested tag = true) :
    (document.remove tag).source.length < (document.kept tag false).length := by
  induction document with
  | empty => cases h
  | text content hcontent next ih => simpa [kept, remove, source] using ih h
  | element tags content next ihcontent ihnext =>
    have hcontent := length_remove_le tag content
    have hnext := length_remove_le tag next
    have hclose : 0 < tags.closeTag.length := Nat.succ_pos _
    simp only [selfNested, Bool.or_eq_true] at h
    by_cases hname : tags.name = tag
    · rw [if_pos hname] at h
      simp only [kept, remove, hname, if_true, decide_true, Bool.or_true, Bool.true_and,
        List.length_append, ne_eq, not_true_eq_false, decide_false, Bool.and_false]
      rcases h with hinner | hlater
      · simp only [hinner, Bool.not_true, Bool.false_eq_true, if_false]
        omega
      · have hlt := ihnext hlater
        omega
    · rw [if_neg hname] at h
      simp only [kept, remove, source, hname, if_false, decide_false, Bool.or_false,
        Bool.false_and, Bool.false_eq_true, List.length_append]
      rcases h with hinner | hlater
      · have hlt := ihcontent hinner
        omega
      · have hlt := ihnext hlater
        omega

end Document

theorem isTagName_of_mem_noiseTags {tag : String} (h : tag ∈ noiseTags) : IsTagName tag.toList := by
  have hall : ∀ tag ∈ noiseTags, IsTagName tag.toList := by
    simp [noiseTags, IsTagName, isNameSymbol]
  exact hall tag h

/-- A noise element is removed whole from exactly those documents in which no element of its name
stands inside another one. -/
theorem stripElement_removes_iff {tag : String} (htag : tag ∈ noiseTags) (document : Document) :
    stripElement document.source tag.toList = some (document.remove tag.toList).source ↔
      document.selfNested tag.toList = false := by
  rw [stripElement_source (isTagName_of_mem_noiseTags htag), Option.some_inj]
  constructor
  · intro heq
    rw [← Bool.not_eq_true]
    intro hnested
    have hlt := Document.length_remove_lt_of_selfNested tag.toList hnested
    rw [heq] at hlt
    exact lt_irrefl _ hlt
  · exact Document.kept_eq_of_not_selfNested tag.toList

/-- Tags without attributes, in lower case. -/
def Tags.plain (name : List Char) (hne : name ≠ [])
    (hname : ∀ symbol ∈ name, isNameSymbol symbol = true) : Tags where
  opening := name
  attributes := []
  closing := name
  opening_ne_nil := hne
  isNameSymbol_opening := hname
  head_attributes := by simp
  not_mem_attributes := by simp
  closing_eq := rfl

def pTags : Tags := .plain "p".toList (by decide) (by simp [isNameSymbol])

def svgTags : Tags := .plain "svg".toList (by decide) (by simp [isNameSymbol])

def pathTags : Tags := .plain "path".toList (by decide) (by simp [isNameSymbol])

/-- A paragraph with an icon in its text, and one with an icon alone. -/
def iconDocument : Document :=
  .element pTags
    (.text "See ".toList (by decide)
      (.element svgTags (.element pathTags .empty (.text "icon".toList (by decide) .empty))
        (.text " here".toList (by decide) .empty)))
    (.element pTags (.element svgTags .empty .empty) .empty)

theorem stripElement_removes_icons :
    "svg" ∈ noiseTags ∧
      iconDocument.source =
        "<p>See <svg><path></path>icon</svg> here</p><p><svg></svg></p>".toList ∧
      stripElement iconDocument.source "svg".toList =
        some "<p>See  here</p><p></p>".toList := by
  have hremoved : (iconDocument.remove "svg".toList).source = "<p>See  here</p><p></p>".toList := by
    decide +kernel
  refine ⟨by decide, by decide +kernel, ?_⟩
  rw [← hremoved]
  exact (stripElement_removes_iff (by decide) iconDocument).mpr (by decide +kernel)

/-- Of `<svg><svg></svg></svg>` the last close tag is left. -/
theorem stripElement_leaves_close_tag :
    ¬∀ tag ∈ noiseTags, ∀ document : Document,
      stripElement document.source tag.toList = some (document.remove tag.toList).source := by
  intro hall
  have hstripped := hall "svg" (by decide)
    (.element svgTags (.element svgTags .empty .empty) .empty)
  revert hstripped
  decide +kernel

end Ghostbro.Relay.Normalize
