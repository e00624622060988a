import Ghostbro.Relay.NormalizerSafety

/-!
# What a page renders to

`render_tokens` walks over the characters of a page with one pending link.  Read without offsets it
takes one run of text or one tag after the other.  On a page of properly nested elements it is the
rendering of the tree: comments and noise elements vanish, headings, items, breaks and links leave
their marks around the rendering of their content, and entities are decoded.
-/

namespace Ghostbro.Relay.Normalize

open Text

/-! ### Marks -/

/-- How the renderer treats the elements of a name. -/
inductive Mark
  | heading (level : ℕ)
  | item
  | lineBreak
  | block
  | anchor
  | plain
deriving DecidableEq

/-- The mark of a name in lower case. -/
def markOf (name : List Char) : Mark :=
  match headingLevel name with
  | some level => .heading level
  | none =>
    let name := String.ofList name
    if name = "li" then .item
    else if name = "br" then .lineBreak
    else if name ∈ blockTags then .block
    else if name = "a" then .anchor
    else .plain

namespace Mark

/-- What an open tag leaves; the link target matters to an anchor only. -/
def opening (href : List Char) : Mark → List Char
  | heading level => ['\n', '\n'] ++ List.replicate level '#' ++ [' ']
  | item => "\n- ".toList
  | lineBreak => ['\n']
  | block => ['\n', '\n']
  | anchor => if href ≠ [] then ['['] else []
  | plain => []

/-- What a close tag leaves. -/
def closing (href : List Char) : Mark → List Char
  | heading _ => ['\n', '\n']
  | item => []
  | lineBreak => ['\n']
  | block => ['\n', '\n']
  | anchor => if href ≠ [] then [']', '('] ++ href ++ [')'] else []
  | plain => []

end Mark

/-- The link target of a tag; the empty one if it has none. -/
def hrefOf (rawTag : List Char) : List Char :=
  ((findValue "href".toList true rawTag).map regionValue).getD []

theorem attrValue_href (rawTag : List Char) : attrValue rawTag "href".toList =
    some ((findValue "href".toList true rawTag).map regionValue) :=
  @attrValue_eq 'h' ['r', 'e', 'f'] (by decide) rawTag

/-- The pending link behind a tag. -/
def linkAfter (rawTag : List Char) (anchorHref : Option (List Char)) : Option (List Char) :=
  if markOf (tagName rawTag).1 = .anchor then
    if (tagName rawTag).2 then none else some (hrefOf rawTag)
  else anchorHref

/-- What a tag leaves in the output. -/
def tagText (rawTag : List Char) (anchorHref : Option (List Char)) : List Char :=
  if (tagName rawTag).2 then (markOf (tagName rawTag).1).closing (anchorHref.getD [])
  else (markOf (tagName rawTag).1).opening (hrefOf rawTag)

theorem renderTag_eq (rawTag : List Char) (anchorHref : Option (List Char))
    (output : List Char) : renderTag rawTag anchorHref output =
      some (linkAfter rawTag anchorHref, output ++ tagText rawTag anchorHref) := by
  unfold renderTag linkAfter tagText markOf
  rw [attrValue_href]
  obtain ⟨name, closing⟩ := tagName rawTag
  dsimp only
  cases headingLevel name with
  | some level => cases closing <;> simp [Mark.opening, Mark.closing]
  | none =>
    dsimp only
    by_cases hitem : String.ofList name = "li"
    · cases closing <;> simp [hitem, Mark.opening, Mark.closing, blockTags]
    · by_cases hbreak : String.ofList name = "br"
      · cases closing <;> simp [hbreak, Mark.opening, Mark.closing]
      · by_cases hblock : String.ofList name ∈ blockTags
        · cases closing <;> simp [hitem, hbreak, hblock, Mark.opening, Mark.closing]
        · by_cases hanchor : String.ofList name = "a"
          · rw [hanchor] at hblock
            cases closing with
            | false =>
              by_cases hhref : hrefOf rawTag = [] <;>
                simp_all [Mark.opening, hrefOf]
            | true =>
              cases anchorHref with
              | none => simp [hanchor, hblock, Mark.closing]
              | some href =>
                by_cases hhref : href = [] <;> simp [hanchor, hblock, hhref, Mark.closing]
          · simp [hitem, hbreak, hblock, hanchor, Mark.opening, Mark.closing]

/-! ### The renderer without offsets -/

/-- What `render_tokens` still appends when this rest is left. -/
def renderRest (anchorHref : Option (List Char)) : List Char → List Char
  | [] => []
  | symbol :: rest =>
    if symbol ≠ '<' then
      decodeRest (symbol :: rest.takeWhile (· ≠ '<')) ++
        renderRest anchorHref (rest.dropWhile (· ≠ '<'))
    else
      tagText (rest.takeWhile (· ≠ '>')) anchorHref ++
        renderRest (linkAfter (rest.takeWhile (· ≠ '>')) anchorHref)
          (rest.dropWhile (· ≠ '>')).tail
termination_by rest => rest.length
decreasing_by
  · have hle := (List.dropWhile_suffix (l := rest) (· ≠ '<')).length_le
    rw [List.length_cons]
    omega
  · have hle := (List.dropWhile_suffix (l := rest) (· ≠ '>')).length_le
    rw [List.length_cons, List.length_tail]
    omega

theorem textRun_eq (done rest : List Char) :
    textRun (byteLen done) (charIndices (byteLen done) rest) =
      (byteLen (done ++ rest.takeWhile (· ≠ '<')),
        charIndices (byteLen (done ++ rest.takeWhile (· ≠ '<'))) (rest.dropWhile (· ≠ '<'))) := by
  induction rest generalizing done with
  | nil => rw [List.takeWhile_nil, List.append_nil]; rfl
  | cons symbol rest ih =>
    rw [charIndices, textRun]
    by_cases hsymbol : symbol = '<'
    · simp [hsymbol, charIndices]
    · have hnext := ih (done ++ [symbol])
      rw [byteLen_append, byteLen_cons, byteLen_nil, Nat.add_zero] at hnext
      rw [if_neg hsymbol, hnext]
      simp [hsymbol]

theorem tagRun_eq (done rest : List Char) :
    tagRun (byteLen done) (charIndices (byteLen done) rest) =
      (byteLen (done ++ rest.takeWhile (· ≠ '>')),
        charIndices (byteLen (done ++ rest.takeWhile (· ≠ '>') ++
          (rest.dropWhile (· ≠ '>')).take 1)) (rest.dropWhile (· ≠ '>')).tail) := by
  induction rest generalizing done with
  | nil => rw [List.takeWhile_nil, List.append_nil]; rfl
  | cons symbol rest ih =>
    rw [charIndices, tagRun]
    by_cases hsymbol : symbol = '>'
    · simp [hsymbol]
    · have hnext := ih (done ++ [symbol])
      rw [byteLen_append, byteLen_cons, byteLen_nil, Nat.add_zero] at hnext
      rw [if_neg hsymbol, hnext]
      simp [hsymbol]

theorem slice_takeWhile (p : Char → Bool) (done rest : List Char) :
    slice (done ++ rest) (byteLen done) (byteLen (done ++ rest.takeWhile p)) =
      some (rest.takeWhile p) := by
  have hmiddle := slice_append done (rest.takeWhile p) (rest.dropWhile p)
  rwa [List.takeWhile_append_dropWhile, ← byteLen_append] at hmiddle

variable {fuel : ℕ} {anchorHref : Option (List Char)} {output : List Char}

theorem renderLoop_text (done : List Char) {symbol : Char} (hsymbol : symbol ≠ '<')
    (rest : List Char) :
    renderLoop (done ++ symbol :: rest) (fuel + 1) (charIndices (byteLen done) (symbol :: rest))
        anchorHref output =
      renderLoop (done ++ (symbol :: rest.takeWhile (· ≠ '<')) ++ rest.dropWhile (· ≠ '<')) fuel
        (charIndices (byteLen (done ++ (symbol :: rest.takeWhile (· ≠ '<'))))
          (rest.dropWhile (· ≠ '<'))) anchorHref
        (output ++ decodeRest (symbol :: rest.takeWhile (· ≠ '<'))) := by
  have hrun := textRun_eq (done ++ [symbol]) rest
  have hslice := slice_takeWhile (· ≠ '<') done (symbol :: rest)
  rw [List.takeWhile_cons_of_pos (by simpa using hsymbol)] at hslice
  rw [List.append_assoc, List.singleton_append, byteLen_append, byteLen_cons, byteLen_nil,
    Nat.add_zero] at hrun
  rw [charIndices, renderLoop, if_pos hsymbol, hrun]
  dsimp only
  rw [hslice, Option.bind_eq_bind, Option.bind_some, decodeEntities_eq, Option.bind_some,
    List.append_assoc, List.cons_append, List.takeWhile_append_dropWhile]

theorem renderLoop_tag (done rest : List Char) :
    renderLoop (done ++ '<' :: rest) (fuel + 1) (charIndices (byteLen done) ('<' :: rest))
        anchorHref output =
      renderLoop (done ++ '<' :: rest) fuel
        (charIndices (byteLen (done ++ ['<'] ++ rest.takeWhile (· ≠ '>') ++
          (rest.dropWhile (· ≠ '>')).take 1)) (rest.dropWhile (· ≠ '>')).tail)
        (linkAfter (rest.takeWhile (· ≠ '>')) anchorHref)
        (output ++ tagText (rest.takeWhile (· ≠ '>')) anchorHref) := by
  have hstart : byteLen (done ++ ['<']) = byteLen done + 1 := byteLen_append done ['<']
  have hindices : byteLen done + '<'.utf8Size = byteLen done + 1 := rfl
  have hrun := tagRun_eq (done ++ ['<']) rest
  have hslice := slice_takeWhile (· ≠ '>') (done ++ ['<']) rest
  rw [hstart] at hrun hslice
  rw [charIndices, renderLoop, if_neg (by simp), hindices]
  dsimp only
  rw [hrun]
  dsimp only
  rw [List.append_assoc done ['<'] rest, List.singleton_append] at hslice
  rw [hslice, Option.bind_eq_bind, Option.bind_some, renderTag_eq, Option.bind_eq_bind,
    Option.bind_some]

/-- The walk with offsets reads the rest as the renderer without them does. -/
theorem renderLoop_eq (done rest : List Char) (hfuel : rest.length < fuel) :
    renderLoop (done ++ rest) fuel (charIndices (byteLen done) rest) anchorHref output =
      some (output ++ renderRest anchorHref rest) := by
  induction fuel generalizing done rest anchorHref output with
  | zero => omega
  | succ fuel ih =>
    cases rest with
    | nil => simp [charIndices, renderLoop, renderRest]
    | cons symbol rest =>
      rw [List.length_cons] at hfuel
      rw [renderRest]
      by_cases hsymbol : symbol = '<'
      · subst hsymbol
        have hle := (List.dropWhile_suffix (l := rest) (· ≠ '>')).length_le
        have hwhole : done ++ '<' :: rest = done ++ ['<'] ++ rest.takeWhile (· ≠ '>') ++
            (rest.dropWhile (· ≠ '>')).take 1 ++ (rest.dropWhile (· ≠ '>')).tail := by
          rw [List.append_assoc, ← List.drop_one, List.take_append_drop, List.append_assoc,
            List.takeWhile_append_dropWhile, List.append_assoc, List.singleton_append]
        rw [renderLoop_tag, if_neg (by simp), ← List.append_assoc, hwhole]
        exact ih _ _ (by rw [List.length_tail]; omega)
      · have hle := (List.dropWhile_suffix (l := rest) (· ≠ '<')).length_le
        rw [renderLoop_text done hsymbol, if_pos hsymbol, ← List.append_assoc]
        exact ih _ _ (by omega)

theorem renderTokens_eq (input : List Char) :
    renderTokens input = some (renderRest none input) :=
  renderLoop_eq [] input (Nat.lt_succ_of_le (length_le_byteLen input))

end Ghostbro.Relay.Normalize
