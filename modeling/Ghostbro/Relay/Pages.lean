import Ghostbro.Relay.Rendering

/-!
# Pages

A page is a tree of text, comments, void elements and properly nested elements.  Its rendering is
defined on the tree: comments and noise elements leave nothing, any other element leaves its marks
around the rendering of its content, and the text between two tags is decoded in one piece.
-/

namespace Ghostbro.Relay.Normalize

open Text

/-! ### Trees -/

/-- Tags as a page has them: no `>` ends the open tag early, and it starts no comment. -/
structure Markup extends Tags where
  gt_not_mem_attributes : '>' ∉ attributes
  isWhitespace_head : ∀ symbol ∈ opening.head?, isWhitespace symbol = false
  not_comment : ¬"!--".toList <+: opening

namespace Markup

/-- The mark of the element; the renderer reads the name up to the first other symbol. -/
def mark (markup : Markup) : Mark := markOf (markup.name.takeWhile Char.isAlphanum)

def href (markup : Markup) : List Char := hrefOf (markup.opening ++ markup.attributes)

/-- The normalizer removes the element with its content. -/
def isNoise (markup : Markup) : Bool := String.ofList markup.name ∈ noiseTags

end Markup

/-- A page, from left to right. -/
inductive Page
  | empty
  | text (content : List Char) (hcontent : '<' ∉ content) (next : Page)
  | comment (body : List Char) (hbody : ¬"-->".toList <:+: "--".toList ++ body) (next : Page)
  | void (markup : Markup) (hanchor : markup.mark ≠ .anchor) (hnoise : markup.isNoise = false)
      (next : Page)
  | element (markup : Markup) (content next : Page)

namespace Page

/-- The page as it is written. -/
def source : Page → List Char
  | empty => []
  | text content _ next => content ++ next.source
  | comment body _ next => "<!--".toList ++ body ++ "-->".toList ++ next.source
  | void markup _ _ next => markup.openTag ++ next.source
  | element markup content next =>
    markup.openTag ++ content.source ++ markup.closeTag ++ next.source

/-- The rendering of a page behind a text that no tag has ended. -/
def rendered : Page → List Char → List Char
  | empty, pending => decodeRest pending
  | text content _ next, pending => next.rendered (pending ++ content)
  | comment _ _ next, pending => next.rendered pending
  | void markup _ _ next, pending =>
    decodeRest pending ++ markup.mark.opening markup.href ++ next.rendered []
  | element markup content next, pending =>
    if markup.isNoise then next.rendered pending
    else
      decodeRest pending ++ markup.mark.opening markup.href ++ content.rendered [] ++
        markup.mark.closing markup.href ++ next.rendered []

/-- Some element of the name stands inside another one. -/
def contains (tag : List Char) : Page → Bool
  | empty => false
  | text _ _ next => next.contains tag
  | comment _ _ next => next.contains tag
  | void _ _ _ next => next.contains tag
  | element markup content next =>
    markup.name = tag || content.contains tag || next.contains tag

/-- An element of the name stands inside another one. -/
def selfNested (tag : List Char) : Page → Bool
  | empty => false
  | text _ _ next => next.selfNested tag
  | comment _ _ next => next.selfNested tag
  | void _ _ _ next => next.selfNested tag
  | element markup content next =>
    (if markup.name = tag then content.contains tag else content.selfNested tag) ||
      next.selfNested tag

/-- An anchor stands on the page, outside of the noise. -/
def anchored : Page → Bool
  | empty => false
  | text _ _ next => next.anchored
  | comment _ _ next => next.anchored
  | void _ _ _ next => next.anchored
  | element markup content next =>
    (!markup.isNoise && (markup.mark = .anchor || content.anchored)) || next.anchored

/-- An anchor stands inside an anchor with a link target. -/
def nestsLinks : Page → Bool
  | empty => false
  | text _ _ next => next.nestsLinks
  | comment _ _ next => next.nestsLinks
  | void _ _ _ next => next.nestsLinks
  | element markup content next =>
    (!markup.isNoise && ((markup.mark = .anchor && markup.href ≠ [] && content.anchored) ||
      content.nestsLinks)) || next.nestsLinks

/-- The page without its comments. -/
def uncommented : Page → Page
  | empty => empty
  | text content hcontent next => text content hcontent next.uncommented
  | comment _ _ next => next.uncommented
  | void markup hanchor hnoise next => void markup hanchor hnoise next.uncommented
  | element markup content next => element markup content.uncommented next.uncommented

/-- The page without its outermost elements of a name. -/
def remove (tag : List Char) : Page → Page
  | empty => empty
  | text content hcontent next => text content hcontent (next.remove tag)
  | comment body hbody next => comment body hbody (next.remove tag)
  | void markup hanchor hnoise next => void markup hanchor hnoise (next.remove tag)
  | element markup content next =>
    if markup.name = tag then next.remove tag
    else element markup (content.remove tag) (next.remove tag)

/-- The page has no comments. -/
def bare : Page → Bool
  | empty => true
  | text _ _ next => next.bare
  | comment _ _ _ => false
  | void _ _ _ next => next.bare
  | element _ content next => content.bare && next.bare

/-- No noise element stands on the page. -/
def clean : Page → Bool
  | empty => true
  | text _ _ next => next.clean
  | comment _ _ next => next.clean
  | void _ _ _ next => next.clean
  | element markup content next => !markup.isNoise && content.clean && next.clean

end Page

/-! ### The renderer on one tag -/

theorem isDigit_toLower (symbol : Char) : symbol.toLower.isDigit = symbol.isDigit := by
  have hcode := toNat_toLower symbol
  have hrange (symbol : Char) : symbol.isDigit = true ↔ 48 ≤ symbol.toNat ∧ symbol.toNat ≤ 57 := by
    rw [Char.isDigit, Bool.and_eq_true, decide_eq_true_eq, decide_eq_true_eq]
    exact Iff.rfl
  rw [Bool.eq_iff_iff, hrange, hrange]
  split_ifs at hcode <;> omega

theorem isAlphanum_toLower (symbol : Char) : symbol.toLower.isAlphanum = symbol.isAlphanum := by
  have hcode := toNat_toLower symbol
  have hletter : symbol.toLower.isAlpha = symbol.isAlpha := by
    rw [Bool.eq_iff_iff, isAlpha_iff, isAlpha_iff]
    split_ifs at hcode <;> omega
  rw [Char.isAlphanum, Char.isAlphanum, hletter, isDigit_toLower]

theorem takeWhile_toAsciiLowercase (text : List Char) :
    (toAsciiLowercase text).takeWhile Char.isAlphanum =
      toAsciiLowercase (text.takeWhile Char.isAlphanum) := by
  have hlower : Char.isAlphanum ∘ Char.toLower = Char.isAlphanum := by
    funext symbol
    exact isAlphanum_toLower symbol
  rw [toAsciiLowercase, toAsciiLowercase, List.takeWhile_map, hlower]

/-- A word ends where a symbol of another kind follows. -/
theorem takeWhile_append_stop {p : Char → Bool} {behind : List Char}
    (h : ∀ symbol ∈ behind.head?, p symbol = false) (text : List Char) :
    (text ++ behind).takeWhile p = text.takeWhile p := by
  induction text with
  | nil =>
    cases behind with
    | nil => rfl
    | cons symbol behind => exact List.takeWhile_cons_of_neg (by simp [h symbol rfl])
  | cons symbol text ih => rw [List.cons_append, List.takeWhile_cons, List.takeWhile_cons, ih]

/-- The blanks at the end of a tag stand behind its name. -/
theorem takeWhile_rdropWhile (text : List Char) :
    (text.rdropWhile isWhitespace).takeWhile Char.isAlphanum = text.takeWhile Char.isAlphanum := by
  induction text using List.reverseRecOn with
  | nil => rfl
  | append_singleton text symbol ih =>
    by_cases hblank : isWhitespace symbol = true
    · rw [List.rdropWhile_concat_pos _ _ _ hblank, ih, takeWhile_append_stop]
      intro symbol hsymbol
      obtain rfl := Option.some.inj hsymbol
      exact isAlphanum_of_isWhitespace hblank
    · rw [List.rdropWhile_concat_neg _ _ _ hblank]

/-- A tag that starts with no blank is trimmed at its end only. -/
theorem trim_cons {symbol : Char} (h : isWhitespace symbol = false) (text : List Char) :
    trim isWhitespace (symbol :: text) = symbol :: text.rdropWhile isWhitespace := by
  rw [trim, List.dropWhile_cons_of_neg (by simp [h])]
  induction text using List.reverseRecOn with
  | nil => rw [List.rdropWhile_singleton, h, List.rdropWhile_nil]; rfl
  | append_singleton text last ih =>
    rw [← List.cons_append, List.rdropWhile_concat, List.rdropWhile_concat, ih]
    split <;> rfl

namespace Markup

variable (markup : Markup)

theorem takeWhile_name : markup.name.takeWhile Char.isAlphanum =
    toAsciiLowercase (markup.opening.takeWhile Char.isAlphanum) :=
  takeWhile_toAsciiLowercase markup.opening

theorem tagName_openTag :
    tagName (markup.opening ++ markup.attributes) =
      (markup.name.takeWhile Char.isAlphanum, false) := by
  obtain ⟨first, rest, hopening⟩ := List.exists_cons_of_ne_nil markup.opening_ne_nil
  have hblank : isWhitespace first = false := markup.isWhitespace_head first (by rw [hopening]; rfl)
  have hslash : first ≠ '/' := by
    rintro rfl
    exact absurd (markup.isNameSymbol_opening '/' (by rw [hopening]; simp)) (by decide)
  have hattributes : ∀ symbol ∈ markup.attributes.head?, symbol.isAlphanum = false := by
    intro symbol hsymbol
    have hmarks : [' ', '/', '\t', '\n', '\r'].all (fun mark ↦ !mark.isAlphanum) = true := by
      decide
    simpa using List.all_eq_true.mp hmarks symbol (markup.head_attributes symbol hsymbol)
  have hname : (first :: (rest ++ markup.attributes).rdropWhile isWhitespace).takeWhile
      Char.isAlphanum = markup.opening.takeWhile Char.isAlphanum := by
    rw [List.takeWhile_cons, takeWhile_rdropWhile, takeWhile_append_stop hattributes, hopening,
      List.takeWhile_cons]
  rw [takeWhile_name, ← hname, tagName, hopening, List.cons_append, trim_cons hblank]
  split
  next hparts =>
    split at hparts
    · next hclosing => exact absurd (List.cons.inj hclosing).1 hslash
    · obtain ⟨rfl, rfl⟩ := Prod.mk.inj hparts
      rfl

theorem tagName_closeTag :
    tagName ('/' :: markup.closing) = (markup.name.takeWhile Char.isAlphanum, true) := by
  have hclosing : toAsciiLowercase (markup.closing.takeWhile Char.isAlphanum) =
      markup.name.takeWhile Char.isAlphanum := by
    rw [← takeWhile_toAsciiLowercase, markup.closing_eq]
    rfl
  rw [← hclosing, ← takeWhile_rdropWhile, tagName, trim_cons (by decide)]
  rfl

theorem linkAfter_openTag (anchorHref : Option (List Char)) :
    linkAfter (markup.opening ++ markup.attributes) anchorHref =
      if markup.mark = .anchor then some markup.href else anchorHref := by
  rw [linkAfter, tagName_openTag]
  rfl

theorem linkAfter_closeTag (anchorHref : Option (List Char)) :
    linkAfter ('/' :: markup.closing) anchorHref =
      if markup.mark = .anchor then none else anchorHref := by
  rw [linkAfter, tagName_closeTag]
  rfl

theorem tagText_openTag (anchorHref : Option (List Char)) :
    tagText (markup.opening ++ markup.attributes) anchorHref =
      markup.mark.opening markup.href := by
  rw [tagText, tagName_openTag]
  rfl

theorem tagText_closeTag (anchorHref : Option (List Char)) :
    tagText ('/' :: markup.closing) anchorHref =
      markup.mark.closing (anchorHref.getD []) := by
  rw [tagText, tagName_closeTag]
  rfl

theorem not_startsWith_comment (rest : List Char) :
    startsWith "<!--".toList (markup.openTag ++ rest) = false := by
  rw [← Bool.not_eq_true]
  intro hstarts
  have hname : "!--".toList <+: markup.name :=
    markup.prefix_of_startsWith_openTag (by simp [isNameSymbol]) hstarts
  apply markup.not_comment
  obtain ⟨behind, hbehind⟩ := hname
  obtain ⟨front, back, hparts, hfront, -⟩ := List.map_eq_append_iff.mp hbehind.symm
  have hlower : ∀ symbol ∈ front, symbol.toLower = symbol := by
    intro symbol hsymbol
    have hmem : symbol.toLower ∈ "!--".toList := by
      rw [← hfront]
      exact List.mem_map_of_mem hsymbol
    have hmarks : ∀ mark ∈ "!--".toList, mark.toNat < 65 := by simp
    exact ((toLower_eq_iff (hmarks _ hmem)).mp rfl).symm
  rw [List.map_congr_left hlower, List.map_id'] at hfront
  rw [hparts, hfront]
  exact List.prefix_append _ _

end Markup

/-! ### Comments -/

/-- The text that `strip_comments` still appends when this rest is left. -/
def uncomment (rest : List Char) : List Char :=
  match _hopen : breakAt (startsWith "<!--".toList) rest with
  | none => rest
  | some (front, tail) =>
    match _hclose : breakAt ("-->".toList.isPrefixOf ·) tail with
    | none => front
    | some (_, behind) => front ++ uncomment (behind.drop 3)
termination_by rest.length
decreasing_by
  obtain ⟨hrest, -⟩ := breakAt_eq_some _hopen
  obtain ⟨htail, hfound⟩ := breakAt_eq_some _hclose
  have hne : behind ≠ [] := by
    rintro rfl
    cases hfound
  have hpos := List.length_pos_iff.mpr hne
  have hlength := congrArg List.length hrest
  have hlength' := congrArg List.length htail
  rw [List.length_append] at hlength hlength'
  rw [List.length_drop]
  omega

section

variable {rest front tail comment behind : List Char}

theorem uncomment_none (h : breakAt (startsWith "<!--".toList) rest = none) :
    uncomment rest = rest := by
  rw [uncomment]
  split
  · rfl
  · next hopen => rw [h] at hopen; cases hopen

theorem uncomment_unclosed (h : breakAt (startsWith "<!--".toList) rest = some (front, tail))
    (hclose : breakAt ("-->".toList.isPrefixOf ·) tail = none) : uncomment rest = front := by
  rw [uncomment]
  split
  · next hopen => rw [h] at hopen; cases hopen
  · next hopen =>
    rw [h] at hopen
    obtain ⟨rfl, rfl⟩ := Prod.mk.inj (Option.some.inj hopen)
    split
    · rfl
    · next hbehind => rw [hclose] at hbehind; cases hbehind

theorem uncomment_closed (h : breakAt (startsWith "<!--".toList) rest = some (front, tail))
    (hclose : breakAt ("-->".toList.isPrefixOf ·) tail = some (comment, behind)) :
    uncomment rest = front ++ uncomment (behind.drop 3) := by
  rw [uncomment]
  split
  · next hopen => rw [h] at hopen; cases hopen
  · next hopen =>
    rw [h] at hopen
    obtain ⟨rfl, rfl⟩ := Prod.mk.inj (Option.some.inj hopen)
    split
    · next hbehind => rw [hclose] at hbehind; cases hbehind
    · next hbehind =>
      rw [hclose] at hbehind
      obtain ⟨-, rfl⟩ := Prod.mk.inj (Option.some.inj hbehind)
      rfl

end

/-- A pattern without letters is found in either case. -/
theorem startsWith_of_marks {pattern : List Char} (h : ∀ mark ∈ pattern, mark.toNat < 65)
    (text : List Char) : startsWith pattern text = pattern.isPrefixOf text := by
  induction pattern generalizing text with
  | nil => rfl
  | cons mark pattern ih =>
    rw [List.forall_mem_cons] at h
    cases text with
    | nil => rfl
    | cons symbol text =>
      have hsymbol : (mark == symbol.toLower) = (mark == symbol) := by
        rw [Bool.eq_iff_iff, beq_iff_eq, beq_iff_eq, eq_comm, toLower_eq_iff h.1, eq_comm]
      rw [List.isPrefixOf, ← ih h.2, ← hsymbol]
      rfl

theorem find_comment (rest : List Char) : find "<!--".toList rest =
    (breakAt (startsWith "<!--".toList) rest).map fun parts ↦ byteLen parts.1 := by
  have hmarks : ∀ mark ∈ "<!--".toList, mark.toNat < 65 := by simp
  have hstarts : startsWith "<!--".toList = ("<!--".toList.isPrefixOf ·) := by
    funext text
    exact startsWith_of_marks hmarks text
  rw [find, hstarts]

theorem stripCommentsLoop_eq {fuel : ℕ} {rest : List Char} (hfuel : rest.length < fuel)
    (output : List Char) :
    stripCommentsLoop fuel output rest = some (output ++ uncomment rest) := by
  induction fuel generalizing rest output with
  | zero => omega
  | succ fuel ih =>
    rw [stripCommentsLoop, find_comment]
    cases hopen : breakAt (startsWith "<!--".toList) rest with
    | none => rw [uncomment_none hopen]; rfl
    | some parts =>
      obtain ⟨front, tail⟩ := parts
      obtain ⟨rfl, -⟩ := breakAt_eq_some hopen
      simp only [Option.map_some, upTo_append, startingAt_append, Option.bind_eq_bind,
        Option.bind_some]
      rw [find]
      cases hclose : breakAt ("-->".toList.isPrefixOf ·) tail with
      | none => rw [uncomment_unclosed hopen hclose]; rfl
      | some parts =>
        obtain ⟨comment, behind⟩ := parts
        obtain ⟨rfl, hfound⟩ := breakAt_eq_some hclose
        obtain ⟨after, rfl⟩ := List.isPrefixOf_iff_prefix.mp hfound
        have hstop : byteLen front + byteLen comment + 3 =
            byteLen (front ++ comment ++ "-->".toList) := by
          rw [byteLen_append, byteLen_append]
          rfl
        have hrest : front ++ (comment ++ ("-->".toList ++ after)) =
            front ++ comment ++ "-->".toList ++ after := by
          simp only [List.append_assoc]
        have hdrop : ("-->".toList ++ after).drop 3 = after := rfl
        have hshorter : after.length < fuel := by
          rw [hrest, List.length_append, List.length_append] at hfuel
          have hmark : "-->".toList.length = 3 := rfl
          omega
        rw [uncomment_closed hopen hclose, hdrop, Option.map_some]
        dsimp only
        rw [hrest, hstop, startingAt_append, Option.bind_some, ih hshorter, List.append_assoc]

theorem stripComments_eq (input : List Char) : stripComments input = some (uncomment input) :=
  stripCommentsLoop_eq (Nat.lt_succ_of_le (length_le_byteLen input)) []

/-- What starts no comment is kept. -/
theorem uncomment_append {piece rest : List Char}
    (h : breakAt (startsWith "<!--".toList) (piece ++ rest) =
      (breakAt (startsWith "<!--".toList) rest).map fun (front, back) ↦ (piece ++ front, back)) :
    uncomment (piece ++ rest) = piece ++ uncomment rest := by
  cases hrest : breakAt (startsWith "<!--".toList) rest with
  | none =>
    rw [hrest, Option.map_none] at h
    rw [uncomment_none h, uncomment_none hrest]
  | some parts =>
    obtain ⟨front, tail⟩ := parts
    rw [hrest, Option.map_some] at h
    cases hclose : breakAt ("-->".toList.isPrefixOf ·) tail with
    | none => rw [uncomment_unclosed h hclose, uncomment_unclosed hrest hclose]
    | some parts => rw [uncomment_closed h hclose, uncomment_closed hrest hclose, List.append_assoc]

/-- No end of the comment starts before the one that is written. -/
theorem not_closed_early {body : List Char} (hbody : ¬"-->".toList <:+: "--".toList ++ body)
    (rest front back : List Char) (hparts : "<!--".toList ++ body = front ++ back)
    (hback : back ≠ []) : "-->".toList.isPrefixOf (back ++ ("-->".toList ++ rest)) = false := by
  rw [← Bool.not_eq_true, List.isPrefixOf_iff_prefix]
  intro hfound
  change ['-', '-', '>'] <+: back ++ '-' :: '-' :: '>' :: rest at hfound
  match back with
  | [first] => simp at hfound
  | [first, second] => simp at hfound
  | first :: second :: third :: behind =>
    simp only [List.cons_append, List.cons_prefix_cons] at hfound
    obtain ⟨rfl, rfl, rfl, -⟩ := hfound
    change '<' :: '!' :: ("--".toList ++ body) = _ at hparts
    match front with
    | [] => simp at hparts
    | [first] => simp at hparts
    | first :: second :: front =>
      apply hbody
      rw [List.cons_append, List.cons_append, List.cons.injEq, List.cons.injEq] at hparts
      exact ⟨front, behind, by rw [hparts.2.2]; simp⟩

/-- A comment is cut out with its marks. -/
theorem uncomment_comment {body : List Char} (hbody : ¬"-->".toList <:+: "--".toList ++ body)
    (rest : List Char) :
    uncomment ("<!--".toList ++ body ++ "-->".toList ++ rest) = uncomment rest := by
  have hopen : breakAt (startsWith "<!--".toList) ("<!--".toList ++ body ++ "-->".toList ++ rest) =
      some ([], "<!--".toList ++ body ++ ("-->".toList ++ rest)) := by
    rw [List.append_assoc]
    apply breakAt_self
    rw [startsWith_of_marks (by simp), List.isPrefixOf_iff_prefix, List.append_assoc]
    exact List.prefix_append _ _
  have hself : "-->".toList.isPrefixOf ("-->".toList ++ rest) = true :=
    List.isPrefixOf_iff_prefix.mpr (List.prefix_append _ _)
  have hclose :
      breakAt ("-->".toList.isPrefixOf ·) ("<!--".toList ++ body ++ ("-->".toList ++ rest)) =
      some ("<!--".toList ++ body, "-->".toList ++ rest) := by
    rw [breakAt_append (not_closed_early hbody rest), breakAt_self hself, Option.map_some]
    exact congrArg (fun front ↦ some (front, "-->".toList ++ rest)) (List.append_nil _)
  rw [uncomment_closed hopen hclose]
  rfl

theorem uncomment_openTag (markup : Markup) (rest : List Char) :
    uncomment (markup.openTag ++ rest) = markup.openTag ++ uncomment rest :=
  uncomment_append (breakAt_startsWith_tag markup.not_mem_openTag_tail
    (markup.not_startsWith_comment rest))

theorem uncomment_closeTag (markup : Markup) (rest : List Char) :
    uncomment (markup.closeTag ++ rest) = markup.closeTag ++ uncomment rest :=
  uncomment_append (breakAt_startsWith_tag markup.not_mem_closeTag_tail
    (@Tags.not_startsWith_closeTag markup.toTags "!--".toList (by simp [IsTagName, isNameSymbol])
      rest))

theorem uncomment_source (page : Page) (rest : List Char) :
    uncomment (page.source ++ rest) = page.uncommented.source ++ uncomment rest := by
  induction page generalizing rest with
  | empty => rfl
  | text content hcontent next ih =>
    rw [Page.source, List.append_assoc,
      uncomment_append (breakAt_startsWith_text hcontent _ _), ih, ← List.append_assoc]
    rfl
  | comment body hbody next ih =>
    rw [Page.source, List.append_assoc, uncomment_comment hbody, ih]
    rfl
  | void markup hanchor hnoise next ih =>
    rw [Page.source, List.append_assoc, uncomment_openTag, ih, ← List.append_assoc]
    rfl
  | element markup content next ihcontent ihnext =>
    rw [Page.source, List.append_assoc, List.append_assoc, List.append_assoc, uncomment_openTag,
      ihcontent, uncomment_closeTag, ihnext]
    simp only [Page.uncommented, Page.source, List.append_assoc]

namespace Page

theorem bare_uncommented (page : Page) : page.uncommented.bare = true := by
  induction page with
  | empty => rfl
  | text content hcontent next ih => exact ih
  | comment body hbody next ih => exact ih
  | void markup hanchor hnoise next ih => exact ih
  | element markup content next ihcontent ihnext => simp [uncommented, bare, ihcontent, ihnext]

@[simp]
theorem rendered_uncommented (page : Page) (pending : List Char) :
    page.uncommented.rendered pending = page.rendered pending := by
  induction page generalizing pending with
  | empty => rfl
  | text content hcontent next ih => exact ih _
  | comment body hbody next ih => exact ih _
  | void markup hanchor hnoise next ih => simp only [uncommented, rendered, ih]
  | element markup content next ihcontent ihnext =>
    simp only [uncommented, rendered, ihcontent, ihnext]

@[simp]
theorem contains_uncommented (tag : List Char) (page : Page) :
    page.uncommented.contains tag = page.contains tag := by
  induction page with
  | empty => rfl
  | text content hcontent next ih => exact ih
  | comment body hbody next ih => exact ih
  | void markup hanchor hnoise next ih => exact ih
  | element markup content next ihcontent ihnext =>
    simp only [uncommented, contains, ihcontent, ihnext]

@[simp]
theorem selfNested_uncommented (tag : List Char) (page : Page) :
    page.uncommented.selfNested tag = page.selfNested tag := by
  induction page with
  | empty => rfl
  | text content hcontent next ih => exact ih
  | comment body hbody next ih => exact ih
  | void markup hanchor hnoise next ih => exact ih
  | element markup content next ihcontent ihnext =>
    simp only [uncommented, selfNested, contains_uncommented, ihcontent, ihnext]

@[simp]
theorem anchored_uncommented (page : Page) : page.uncommented.anchored = page.anchored := by
  induction page with
  | empty => rfl
  | text content hcontent next ih => exact ih
  | comment body hbody next ih => exact ih
  | void markup hanchor hnoise next ih => exact ih
  | element markup content next ihcontent ihnext =>
    simp only [uncommented, anchored, ihcontent, ihnext]

@[simp]
theorem nestsLinks_uncommented (page : Page) : page.uncommented.nestsLinks = page.nestsLinks := by
  induction page with
  | empty => rfl
  | text content hcontent next ih => exact ih
  | comment body hbody next ih => exact ih
  | void markup hanchor hnoise next ih => exact ih
  | element markup content next ihcontent ihnext =>
    simp only [uncommented, nestsLinks, anchored_uncommented, ihcontent, ihnext]

end Page

/-! ### Noise -/

section

variable {tag : String} (htag : tag ∈ noiseTags)

include htag

theorem name_ne_of_not_isNoise {markup : Markup} (h : markup.isNoise = false) :
    markup.name ≠ tag.toList := by
  intro hname
  rw [Markup.isNoise, hname, String.ofList_toList, decide_eq_false_iff_not] at h
  exact h htag

/-- Inside of a noise element a page is skipped on which no other one closes it. -/
theorem scan_inside {page : Page} (hbare : page.bare = true)
    (hcontains : page.contains tag.toList = false) (rest : List Char) :
    scan tag.toList true (page.source ++ rest) = scan tag.toList true rest := by
  have hname := isTagName_of_mem_noiseTags htag
  induction page generalizing rest with
  | empty => rfl
  | text content hcontent next ih =>
    rw [Page.source, List.append_assoc, scan_text hcontent, ih hbare hcontains]
    rfl
  | comment body hbody next ih => cases hbare
  | void markup hanchor hnoise next ih =>
    rw [Page.source, List.append_assoc, scan_openTag hname, Bool.true_or, if_pos rfl,
      ih hbare hcontains]
    rfl
  | element markup content next ihcontent ihnext =>
    simp only [Page.bare, Bool.and_eq_true] at hbare
    simp only [Page.contains, Bool.or_eq_false_iff, decide_eq_false_iff_not] at hcontains
    rw [Page.source, List.append_assoc, List.append_assoc, List.append_assoc, scan_openTag hname,
      Bool.true_or, if_pos rfl, ihcontent hbare.1 hcontains.1.2, scan_closeTag hname, if_pos rfl,
      decide_eq_true hcontains.1.1, Bool.and_self, ihnext hbare.2 hcontains.2]
    rfl

/-- The noise elements of one name are cut out whole if they do not nest. -/
theorem scan_outside {page : Page} (hbare : page.bare = true)
    (hnested : page.selfNested tag.toList = false) (rest : List Char) :
    scan tag.toList false (page.source ++ rest) =
      (page.remove tag.toList).source ++ scan tag.toList false rest := by
  have hname := isTagName_of_mem_noiseTags htag
  induction page generalizing rest with
  | empty => rfl
  | text content hcontent next ih =>
    rw [Page.source, List.append_assoc, scan_text hcontent, ih hbare hnested,
      ← List.append_assoc]
    rfl
  | comment body hbody next ih => cases hbare
  | void markup hanchor hnoise next ih =>
    have hne := name_ne_of_not_isNoise htag hnoise
    rw [Page.source, List.append_assoc, scan_openTag hname, decide_eq_false hne, Bool.or_false,
      if_neg (by decide), ih hbare hnested, ← List.append_assoc]
    rfl
  | element markup content next ihcontent ihnext =>
    simp only [Page.bare, Bool.and_eq_true] at hbare
    simp only [Page.selfNested, Bool.or_eq_false_iff] at hnested
    rw [Page.source, List.append_assoc, List.append_assoc, List.append_assoc, scan_openTag hname,
      Bool.false_or]
    by_cases hsame : markup.name = tag.toList
    · rw [if_pos hsame] at hnested
      have hremove : (Page.element markup content next).remove tag.toList =
          next.remove tag.toList := if_pos hsame
      rw [decide_eq_true hsame, if_pos rfl, scan_inside htag hbare.1 hnested.1,
        scan_closeTag hname, if_pos rfl, decide_eq_false (not_not.mpr hsame), Bool.and_false,
        ihnext hbare.2 hnested.2, hremove]
      rfl
    · rw [if_neg hsame] at hnested
      rw [decide_eq_false hsame, if_neg (by decide), ihcontent hbare.1 hnested.1,
        scan_closeTag hname, if_neg (by decide), Bool.false_and, ihnext hbare.2 hnested.2]
      have hremove : (Page.element markup content next).remove tag.toList =
          .element markup (content.remove tag.toList) (next.remove tag.toList) := if_neg hsame
      simp only [hremove, Page.source, List.append_assoc]

theorem stripElement_page {page : Page} (hbare : page.bare = true)
    (hnested : page.selfNested tag.toList = false) :
    stripElement page.source tag.toList = some (page.remove tag.toList).source := by
  have hscan := scan_outside htag hbare hnested []
  rw [List.append_nil] at hscan
  rw [stripElement_eq]
  simpa [scan, stripRest_nil] using hscan

end

namespace Page

theorem bare_remove (tag : List Char) {page : Page} (h : page.bare = true) :
    (page.remove tag).bare = true := by
  induction page with
  | empty => rfl
  | text content hcontent next ih => exact ih h
  | comment body hbody next ih => cases h
  | void markup hanchor hnoise next ih => exact ih h
  | element markup content next ihcontent ihnext =>
    simp only [bare, Bool.and_eq_true] at h
    unfold remove
    split
    · exact ihnext h.2
    · simp [bare, ihcontent h.1, ihnext h.2]

theorem contains_remove {tag tag' : List Char} {page : Page} (h : page.contains tag' = false) :
    (page.remove tag).contains tag' = false := by
  induction page with
  | empty => rfl
  | text content hcontent next ih => exact ih h
  | comment body hbody next ih => exact ih h
  | void markup hanchor hnoise next ih => exact ih h
  | element markup content next ihcontent ihnext =>
    simp only [contains, Bool.or_eq_false_iff] at h
    unfold remove
    split
    · exact ihnext h.2
    · simp [contains, h.1.1, ihcontent h.1.2, ihnext h.2]

theorem selfNested_remove {tag tag' : List Char} {page : Page}
    (h : page.selfNested tag' = false) : (page.remove tag).selfNested tag' = false := by
  induction page with
  | empty => rfl
  | text content hcontent next ih => exact ih h
  | comment body hbody next ih => exact ih h
  | void markup hanchor hnoise next ih => exact ih h
  | element markup content next ihcontent ihnext =>
    simp only [selfNested, Bool.or_eq_false_iff] at h
    unfold remove
    split
    · exact ihnext h.2
    · rw [selfNested, ihnext h.2, Bool.or_false]
      by_cases hname : markup.name = tag'
      · rw [if_pos hname] at h ⊢
        exact contains_remove h.1
      · rw [if_neg hname] at h ⊢
        exact ihcontent h.1

/-- No element of a removed name is left. -/
theorem contains_remove_self (tag : List Char) (page : Page) :
    (page.remove tag).contains tag = false := by
  induction page with
  | empty => rfl
  | text content hcontent next ih => exact ih
  | comment body hbody next ih => exact ih
  | void markup hanchor hnoise next ih => exact ih
  | element markup content next ihcontent ihnext =>
    unfold remove
    split
    · exact ihnext
    · next hname => simp [contains, hname, ihcontent, ihnext]

section

variable {tag : String} (htag : tag ∈ noiseTags)

include htag

theorem isNoise_of_name {markup : Markup} (h : markup.name = tag.toList) :
    markup.isNoise = true := by
  rw [Markup.isNoise, h, String.ofList_toList]
  exact decide_eq_true htag

/-- Noise elements do not show. -/
theorem rendered_remove (page : Page) (pending : List Char) :
    (page.remove tag.toList).rendered pending = page.rendered pending := by
  induction page generalizing pending with
  | empty => rfl
  | text content hcontent next ih => exact ih _
  | comment body hbody next ih => exact ih _
  | void markup hanchor hnoise next ih => simp only [remove, rendered, ih]
  | element markup content next ihcontent ihnext =>
    unfold remove
    split
    · next hname => rw [ihnext, rendered, isNoise_of_name htag hname, if_pos rfl]
    · simp only [rendered, ihcontent, ihnext]

theorem anchored_remove (page : Page) : (page.remove tag.toList).anchored = page.anchored := by
  induction page with
  | empty => rfl
  | text content hcontent next ih => exact ih
  | comment body hbody next ih => exact ih
  | void markup hanchor hnoise next ih => exact ih
  | element markup content next ihcontent ihnext =>
    unfold remove
    split
    · next hname => simp [anchored, isNoise_of_name htag hname, ihnext]
    · simp only [anchored, ihcontent, ihnext]

theorem nestsLinks_remove (page : Page) :
    (page.remove tag.toList).nestsLinks = page.nestsLinks := by
  induction page with
  | empty => rfl
  | text content hcontent next ih => exact ih
  | comment body hbody next ih => exact ih
  | void markup hanchor hnoise next ih => exact ih
  | element markup content next ihcontent ihnext =>
    unfold remove
    split
    · next hname => simp [nestsLinks, isNoise_of_name htag hname, ihnext]
    · simp only [nestsLinks, anchored_remove htag, ihcontent, ihnext]

end

/-- The page without all its noise elements. -/
def removeAll (tags : List String) (page : Page) : Page :=
  tags.foldl (fun page tag ↦ page.remove tag.toList) page

end Page

theorem foldlM_stripElement {tags : List String} (htags : tags ⊆ noiseTags) {page : Page}
    (hbare : page.bare = true) (hnested : ∀ tag ∈ noiseTags, page.selfNested tag.toList = false) :
    tags.foldlM (fun output tag ↦ stripElement output tag.toList) page.source =
      some (page.removeAll tags).source := by
  induction tags generalizing page with
  | nil => rfl
  | cons tag tags ih =>
    rw [List.cons_subset] at htags
    rw [List.foldlM_cons, stripElement_page htags.1 hbare (hnested tag htags.1),
      Option.bind_eq_bind, Option.bind_some]
    exact ih htags.2 (Page.bare_remove _ hbare) fun tag htag ↦
      Page.selfNested_remove (hnested tag htag)

namespace Page

theorem clean_of_contains {page : Page}
    (h : ∀ tag ∈ noiseTags, page.contains tag.toList = false) : page.clean = true := by
  induction page with
  | empty => rfl
  | text content hcontent next ih => exact ih h
  | comment body hbody next ih => exact ih h
  | void markup hanchor hnoise next ih => exact ih h
  | element markup content next ihcontent ihnext =>
    simp only [contains, Bool.or_eq_false_iff, decide_eq_false_iff_not] at h
    have hnoise : markup.isNoise = false := by
      rw [Markup.isNoise, decide_eq_false_iff_not]
      intro hmem
      exact (h _ hmem).1.1 (String.toList_ofList).symm
    simp [clean, hnoise, ihcontent fun tag htag ↦ (h tag htag).1.2,
      ihnext fun tag htag ↦ (h tag htag).2]

theorem contains_removeAll {tags : List String} {tag : String} {page : Page}
    (h : tag ∈ tags ∨ page.contains tag.toList = false) :
    (page.removeAll tags).contains tag.toList = false := by
  induction tags generalizing page with
  | nil => exact h.resolve_left (by simp)
  | cons first tags ih =>
    apply ih
    rw [List.mem_cons] at h
    rcases h with (rfl | hlater) | hnone
    · exact .inr (contains_remove_self _ _)
    · exact .inl hlater
    · exact .inr (contains_remove hnone)

theorem clean_removeAll (page : Page) : (page.removeAll noiseTags).clean = true :=
  clean_of_contains fun _ htag ↦ contains_removeAll (.inl htag)

theorem bare_removeAll (tags : List String) {page : Page} (h : page.bare = true) :
    (page.removeAll tags).bare = true := by
  induction tags generalizing page with
  | nil => exact h
  | cons tag tags ih => exact ih (bare_remove _ h)

theorem rendered_removeAll {tags : List String} (htags : tags ⊆ noiseTags) (page : Page)
    (pending : List Char) : (page.removeAll tags).rendered pending = page.rendered pending := by
  induction tags generalizing page with
  | nil => rfl
  | cons tag tags ih =>
    rw [List.cons_subset] at htags
    exact (ih htags.2 _).trans (rendered_remove htags.1 page pending)

theorem nestsLinks_removeAll {tags : List String} (htags : tags ⊆ noiseTags) (page : Page) :
    (page.removeAll tags).nestsLinks = page.nestsLinks := by
  induction tags generalizing page with
  | nil => rfl
  | cons tag tags ih =>
    rw [List.cons_subset] at htags
    exact (ih htags.2 _).trans (nestsLinks_remove htags.1 page)

/-! ### Rendering -/

/-- What the renderer makes of a page without noise: an anchor that stands inside of another one
takes its close mark away. -/
def shown : Page → List Char → List Char
  | empty, pending => decodeRest pending
  | text content _ next, pending => next.shown (pending ++ content)
  | comment _ _ next, pending => next.shown pending
  | void markup _ _ next, pending =>
    decodeRest pending ++ markup.mark.opening markup.href ++ next.shown []
  | element markup content next, pending =>
    decodeRest pending ++ markup.mark.opening markup.href ++ content.shown [] ++
      (if markup.mark = .anchor ∧ content.anchored = true then []
        else markup.mark.closing markup.href) ++ next.shown []

/-- The pending link behind a page. -/
def linkBehind (page : Page) (anchorHref : Option (List Char)) : Option (List Char) :=
  if page.anchored then none else anchorHref

end Page

theorem renderRest_text {pending rest : List Char} (hpending : '<' ∉ pending)
    (hrest : ∀ symbol ∈ rest.head?, symbol = '<') (anchorHref : Option (List Char)) :
    renderRest anchorHref (pending ++ rest) = decodeRest pending ++ renderRest anchorHref rest := by
  cases pending with
  | nil => rw [decodeRest_of_not_mem (by simp)]; rfl
  | cons symbol pending =>
    rw [List.mem_cons, not_or] at hpending
    have hstop : ∀ symbol ∈ rest.head?, decide (symbol ≠ '<') = false := by
      intro symbol hsymbol
      simp [hrest symbol hsymbol]
    have hall : ∀ symbol ∈ pending, decide (symbol ≠ '<') = true := by
      intro symbol hsymbol
      exact decide_eq_true fun heq ↦ hpending.2 (heq ▸ hsymbol)
    have htake : (pending ++ rest).takeWhile (· ≠ '<') = pending := by
      rw [takeWhile_append_stop hstop, List.takeWhile_eq_self_iff]
      exact hall
    have hdrop : (pending ++ rest).dropWhile (· ≠ '<') = rest := by
      have hparts := List.takeWhile_append_dropWhile (p := (· ≠ '<')) (l := pending ++ rest)
      rw [htake] at hparts
      exact List.append_cancel_left hparts
    rw [List.cons_append, renderRest, if_pos (Ne.symm hpending.1), htake, hdrop]

theorem renderRest_tag {body : List Char} (hbody : '>' ∉ body) (rest : List Char)
    (anchorHref : Option (List Char)) :
    renderRest anchorHref ('<' :: body ++ '>' :: rest) =
      tagText body anchorHref ++ renderRest (linkAfter body anchorHref) rest := by
  have htake : (body ++ '>' :: rest).takeWhile (· ≠ '>') = body := by
    rw [takeWhile_append_stop (by simp), List.takeWhile_eq_self_iff]
    intro symbol hsymbol
    exact decide_eq_true fun heq ↦ hbody (heq ▸ hsymbol)
  have hdrop : (body ++ '>' :: rest).dropWhile (· ≠ '>') = '>' :: rest := by
    have hparts := List.takeWhile_append_dropWhile (p := (· ≠ '>')) (l := body ++ '>' :: rest)
    rw [htake] at hparts
    exact List.append_cancel_left hparts
  rw [List.cons_append, renderRest, if_neg (by simp), htake, hdrop]
  rfl

namespace Markup

variable (markup : Markup)

theorem renderRest_openTag (rest : List Char) (anchorHref : Option (List Char)) :
    renderRest anchorHref (markup.openTag ++ rest) =
      markup.mark.opening markup.href ++
        renderRest (if markup.mark = .anchor then some markup.href else anchorHref) rest := by
  have hopening : '>' ∉ markup.opening :=
    not_mem_of_isNameSymbol markup.isNameSymbol_opening (by decide)
  have hbody : '>' ∉ markup.opening ++ markup.attributes := by
    rw [List.mem_append, not_or]
    exact ⟨hopening, markup.gt_not_mem_attributes⟩
  have htag := renderRest_tag hbody rest anchorHref
  rw [tagText_openTag, linkAfter_openTag] at htag
  rw [← htag, Tags.openTag]
  simp only [List.cons_append, List.append_assoc, List.nil_append]

theorem renderRest_closeTag (rest : List Char) (anchorHref : Option (List Char)) :
    renderRest anchorHref (markup.closeTag ++ rest) =
      markup.mark.closing (anchorHref.getD []) ++
        renderRest (if markup.mark = .anchor then none else anchorHref) rest := by
  have hclosing : '>' ∉ markup.closing := by
    intro hmem
    have hname : '>' ∈ markup.name := by
      rw [Tags.name, ← markup.closing_eq]
      exact List.mem_map.mpr ⟨'>', hmem, by decide⟩
    exact absurd (isNameSymbol_of_mem_name hname) (by decide)
  have hbody : '>' ∉ '/' :: markup.closing := by
    rw [List.mem_cons, not_or]
    exact ⟨by decide, hclosing⟩
  have htag := renderRest_tag hbody rest anchorHref
  rw [tagText_closeTag, linkAfter_closeTag] at htag
  rw [← htag, Tags.closeTag]
  simp only [List.cons_append, List.append_assoc, List.nil_append]

end Markup

/-- The link target matters to an anchor only. -/
theorem Mark.closing_of_ne {mark : Mark} (h : mark ≠ .anchor) (href href' : List Char) :
    mark.closing href = mark.closing href' := by
  cases mark <;> first | rfl | exact absurd rfl h

/-- The renderer walks over a page as the tree is shown. -/
theorem renderRest_source {page : Page} (hbare : page.bare = true) (hclean : page.clean = true)
    {pending rest : List Char} (hpending : '<' ∉ pending)
    (hrest : ∀ symbol ∈ rest.head?, symbol = '<') (anchorHref : Option (List Char)) :
    renderRest anchorHref (pending ++ (page.source ++ rest)) =
      page.shown pending ++ renderRest (page.linkBehind anchorHref) rest := by
  induction page generalizing pending rest anchorHref with
  | empty => exact renderRest_text hpending hrest anchorHref
  | text content hcontent next ih =>
    have hpending' : '<' ∉ pending ++ content := by simp [hpending, hcontent]
    have hnext := ih hbare hclean hpending' hrest anchorHref
    rw [List.append_assoc] at hnext
    rw [Page.source, List.append_assoc, hnext]
    rfl
  | comment body hbody next ih => cases hbare
  | void markup hanchor hnoise next ih =>
    have hhead : ∀ symbol ∈ (markup.openTag ++ (next.source ++ rest)).head?, symbol = '<' := by
      intro symbol hsymbol
      exact (Option.some.inj hsymbol).symm
    have hnext := ih hbare hclean List.not_mem_nil hrest anchorHref
    rw [List.nil_append] at hnext
    rw [Page.source, List.append_assoc, renderRest_text hpending hhead,
      markup.renderRest_openTag, if_neg hanchor, hnext]
    simp only [Page.shown, Page.linkBehind, Page.anchored, List.append_assoc]
    rfl
  | element markup content next ihcontent ihnext =>
    simp only [Page.bare, Bool.and_eq_true] at hbare
    simp only [Page.clean, Bool.and_eq_true, Bool.not_eq_true'] at hclean
    have hopen : ∀ symbol ∈ (markup.openTag ++ (content.source ++
        (markup.closeTag ++ (next.source ++ rest)))).head?, symbol = '<' := by
      intro symbol hsymbol
      exact (Option.some.inj hsymbol).symm
    have hclose : ∀ symbol ∈ (markup.closeTag ++ (next.source ++ rest)).head?, symbol = '<' := by
      intro symbol hsymbol
      exact (Option.some.inj hsymbol).symm
    have hcontent (link : Option (List Char)) := ihcontent hbare.1 hclean.1.2 List.not_mem_nil
      hclose link
    have hnext (link : Option (List Char)) := ihnext hbare.2 hclean.2 List.not_mem_nil hrest link
    simp only [List.nil_append] at hcontent hnext
    rw [Page.source, List.append_assoc, List.append_assoc, List.append_assoc,
      renderRest_text hpending hopen, markup.renderRest_openTag, hcontent,
      markup.renderRest_closeTag, hnext]
    by_cases hanchor : markup.mark = .anchor
    · by_cases hinner : content.anchored = true
      · simp [Page.shown, Page.linkBehind, Page.anchored, hanchor, hinner, hclean, Mark.closing]
      · simp [Page.shown, Page.linkBehind, Page.anchored, hanchor, hinner, hclean]
    · rw [Mark.closing_of_ne hanchor _ markup.href]
      by_cases hinner : content.anchored = true
      · simp [Page.shown, Page.linkBehind, Page.anchored, hanchor, hinner, hclean]
      · simp [Page.shown, Page.linkBehind, Page.anchored, hanchor, hinner, hclean]

namespace Page

/-- A close tag leaves its mark unless an anchor inside of the link took the target. -/
theorem closing_shown {markup : Markup} {content : Page}
    (h : (markup.mark = .anchor && markup.href ≠ [] && content.anchored) = false) :
    (if markup.mark = .anchor ∧ content.anchored = true then []
      else markup.mark.closing markup.href) = markup.mark.closing markup.href := by
  split
  · next hinner =>
    have hhref : markup.href = [] := by simpa [hinner] using h
    rw [hinner.1, hhref]
    rfl
  · rfl

theorem rendered_element {markup : Markup} (h : markup.isNoise = false) (content next : Page)
    (pending : List Char) : (element markup content next).rendered pending =
      decodeRest pending ++ markup.mark.opening markup.href ++ content.rendered [] ++
        markup.mark.closing markup.href ++ next.rendered [] := by
  rw [rendered, h]
  rfl

theorem shown_eq_rendered {page : Page} (hclean : page.clean = true)
    (hlinks : page.nestsLinks = false) (pending : List Char) :
    page.shown pending = page.rendered pending := by
  induction page generalizing pending with
  | empty => rfl
  | text content hcontent next ih => exact ih hclean hlinks _
  | comment body hbody next ih => exact ih hclean hlinks _
  | void markup hanchor hnoise next ih => rw [shown, rendered, ih hclean hlinks]
  | element markup content next ihcontent ihnext =>
    simp only [clean, Bool.and_eq_true, Bool.not_eq_true'] at hclean
    simp only [nestsLinks, hclean.1.1, Bool.not_false, Bool.true_and, Bool.or_eq_false_iff]
      at hlinks
    rw [shown, rendered_element hclean.1.1, ihcontent hclean.1.2 hlinks.1.2,
      ihnext hclean.2 hlinks.2, closing_shown hlinks.1.1]

/-- At most close marks are missing. -/
theorem length_shown_le {page : Page} (hclean : page.clean = true) (pending : List Char) :
    (page.shown pending).length ≤ (page.rendered pending).length := by
  induction page generalizing pending with
  | empty => exact le_rfl
  | text content hcontent next ih => exact ih hclean _
  | comment body hbody next ih => exact ih hclean _
  | void markup hanchor hnoise next ih =>
    have hnext := ih hclean []
    simp only [shown, rendered, List.length_append]
    omega
  | element markup content next ihcontent ihnext =>
    simp only [clean, Bool.and_eq_true, Bool.not_eq_true'] at hclean
    have hcontent := ihcontent hclean.1.2 []
    have hnext := ihnext hclean.2 []
    have hclosing : (if markup.mark = .anchor ∧ content.anchored = true then []
        else markup.mark.closing markup.href).length ≤
          (markup.mark.closing markup.href).length := by
      split
      · exact Nat.zero_le _
      · exact le_rfl
    rw [shown, rendered_element hclean.1.1]
    simp only [List.length_append]
    omega

theorem length_shown_lt {page : Page} (hclean : page.clean = true)
    (hlinks : page.nestsLinks = true) (pending : List Char) :
    (page.shown pending).length < (page.rendered pending).length := by
  induction page generalizing pending with
  | empty => cases hlinks
  | text content hcontent next ih => exact ih hclean hlinks _
  | comment body hbody next ih => exact ih hclean hlinks _
  | void markup hanchor hnoise next ih =>
    have hnext := ih hclean hlinks []
    simp only [shown, rendered, List.length_append]
    omega
  | element markup content next ihcontent ihnext =>
    simp only [clean, Bool.and_eq_true, Bool.not_eq_true'] at hclean
    have hcontent := length_shown_le hclean.1.2 []
    have hnext := length_shown_le hclean.2 []
    rw [shown, rendered_element hclean.1.1]
    by_cases hinner : (markup.mark = .anchor && markup.href ≠ [] && content.anchored) = true
    · simp only [Bool.and_eq_true, decide_eq_true_eq] at hinner
      rw [if_pos ⟨hinner.1.1, hinner.2⟩, hinner.1.1, Mark.closing, if_pos hinner.1.2]
      simp only [List.length_append, List.length_cons, List.length_nil]
      omega
    · rw [Bool.not_eq_true] at hinner
      rw [closing_shown hinner]
      simp only [nestsLinks, hclean.1.1, hinner, Bool.not_false, Bool.true_and, Bool.false_or,
        Bool.or_eq_true] at hlinks
      simp only [List.length_append]
      rcases hlinks with hlater | hlater
      · have hlt := ihcontent hclean.1.2 hlater []
        omega
      · have hlt := ihnext hclean.2 hlater []
        omega

end Page

theorem renderTokens_source {page : Page} (hbare : page.bare = true) (hclean : page.clean = true) :
    renderTokens page.source = some (page.shown []) := by
  have hsource := renderRest_source hbare hclean List.not_mem_nil
    (fun symbol (hsymbol : symbol ∈ ([] : List Char).head?) ↦ by cases hsymbol) none
  have hnil (link : Option (List Char)) : renderRest link [] = [] := by rw [renderRest]
  rw [hnil, List.append_nil, List.append_nil, List.nil_append] at hsource
  rw [renderTokens_eq, hsource]

/-- The renderer renders the tree of exactly those pages on which no anchor stands inside of a
link. -/
theorem renderTokens_page_iff {page : Page} (hbare : page.bare = true)
    (hclean : page.clean = true) :
    renderTokens page.source = some (page.rendered []) ↔ page.nestsLinks = false := by
  rw [renderTokens_source hbare hclean, Option.some_inj]
  constructor
  · intro heq
    rw [← Bool.not_eq_true]
    intro hlinks
    have hlt := Page.length_shown_lt hclean hlinks []
    rw [heq] at hlt
    exact lt_irrefl _ hlt
  · intro hlinks
    exact Page.shown_eq_rendered hclean hlinks []

/-- Tags without attributes. -/
def Markup.plain (name : List Char) (hne : name ≠ [])
    (hname : ∀ symbol ∈ name, isNameSymbol symbol = true)
    (hhead : ∀ symbol ∈ name.head?, isWhitespace symbol = false)
    (hcomment : ¬"!--".toList <+: name) : Markup where
  toTags := .plain name hne hname
  gt_not_mem_attributes := List.not_mem_nil
  isWhitespace_head := hhead
  not_comment := hcomment

def sampleHeading : Markup :=
  .plain "h1".toList (by decide) (by simp [isNameSymbol]) (by simp [isWhitespace]) (by decide)

def sampleScript : Markup :=
  .plain "script".toList (by decide) (by simp [isNameSymbol]) (by simp [isWhitespace]) (by decide)

def sampleAnchor : Markup where
  opening := "a".toList
  attributes := " href=\"https://example.com/x\"".toList
  closing := "A".toList
  opening_ne_nil := by decide
  isNameSymbol_opening := by simp [isNameSymbol]
  head_attributes := by simp
  not_mem_attributes := by decide
  closing_eq := rfl
  gt_not_mem_attributes := by decide
  isWhitespace_head := by simp [isWhitespace]
  not_comment := by decide

/-- `<h1>Title</h1><a href="https://example.com/x">world</A>`. -/
def samplePage : Page :=
  .element sampleHeading (.text "Title".toList (by decide) .empty)
    (.element sampleAnchor (.text "world".toList (by decide) .empty) .empty)

theorem renderTokens_page_sample :
    samplePage.bare = true ∧ samplePage.clean = true ∧
      (renderTokens samplePage.source = some (samplePage.rendered []) ↔
        samplePage.nestsLinks = false) :=
  ⟨by decide, by decide, renderTokens_page_iff (by decide) (by decide)⟩

theorem stripNoiseBlocks_source {page : Page}
    (hnested : ∀ tag ∈ noiseTags, page.selfNested tag.toList = false) :
    stripNoiseBlocks page.source = some (page.uncommented.removeAll noiseTags).source := by
  have hcomments := uncomment_source page []
  have hnil : uncomment [] = [] := uncomment_none rfl
  rw [hnil, List.append_nil, List.append_nil] at hcomments
  rw [stripNoiseBlocks, stripComments_eq, hcomments, Option.bind_eq_bind, Option.bind_some]
  apply foldlM_stripElement (List.Subset.refl _) page.bare_uncommented
  intro tag htag
  rw [Page.selfNested_uncommented]
  exact hnested tag htag

/-- The normalizer renders the tree of a page: comments and noise elements leave nothing, every
other element its marks around the rendering of its content, and the text is decoded. -/
theorem htmlToMarkdown_page {page : Page}
    (hnested : ∀ tag ∈ noiseTags, page.selfNested tag.toList = false)
    (hlinks : page.nestsLinks = false) :
    htmlToMarkdown page.source = some (collapseWhitespace (page.rendered [])) := by
  have hbare := Page.bare_removeAll noiseTags page.bare_uncommented
  have hclean := page.uncommented.clean_removeAll
  have hkept : (page.uncommented.removeAll noiseTags).nestsLinks = false := by
    rw [Page.nestsLinks_removeAll (List.Subset.refl _), Page.nestsLinks_uncommented, hlinks]
  rw [htmlToMarkdown, stripNoiseBlocks_source hnested, Option.bind_eq_bind, Option.bind_some,
    renderTokens_source hbare hclean, Page.shown_eq_rendered hclean hkept,
    Page.rendered_removeAll (List.Subset.refl _), Page.rendered_uncommented]
  rfl

/-- The page with a comment and a script in front. -/
def sampleDocument : Page :=
  .comment " note ".toList (by decide)
    (.element sampleScript (.text "var x;".toList (by decide) .empty) samplePage)

theorem htmlToMarkdown_page_sample :
    (∀ tag ∈ noiseTags, sampleDocument.selfNested tag.toList = false) ∧
      sampleDocument.nestsLinks = false ∧
        htmlToMarkdown sampleDocument.source =
          some (collapseWhitespace (sampleDocument.rendered [])) := by
  have hnested : ∀ tag ∈ noiseTags, sampleDocument.selfNested tag.toList = false := by decide
  have hlinks : sampleDocument.nestsLinks = false := by
    simp [sampleDocument, samplePage, Page.nestsLinks, Page.anchored]
  exact ⟨hnested, hlinks, htmlToMarkdown_page hnested hlinks⟩

example : (htmlToMarkdown sampleDocument.source).map String.ofList =
    some "# Title\n\n[world](https://example.com/x)" := by
  decide +kernel

end Ghostbro.Relay.Normalize
