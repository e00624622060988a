import Ghostbro.Relay.Attributes

/-!
# The normalizer does not panic

Every offset the normalizer cuts at is the length of a part of its text, found by a search or by a
walk over its characters.  Offsets into a lower-case copy serve in the text itself, since every
letter keeps its length.  Each loop shortens what it has left, so all of them end.
-/

namespace Ghostbro.Relay.Normalize

open Text

/-! ### Comments -/

theorem stripCommentsLoop_eq_some {rest : List Char} {fuel : ℕ} (hfuel : rest.length < fuel)
    (output : List Char) : ∃ stripped, stripCommentsLoop fuel output rest = some stripped := by
  induction fuel generalizing rest output with
  | zero => omega
  | succ fuel ih =>
    rw [stripCommentsLoop]
    cases hopen : find "<!--".toList rest with
    | none => exact ⟨_, rfl⟩
    | some start =>
      obtain ⟨front, back, rfl, rfl⟩ := find_eq_some hopen
      simp only [upTo_append, startingAt_append, Option.bind_eq_bind, Option.bind_some]
      cases hclose : find "-->".toList ("<!--".toList ++ back) with
      | none => exact ⟨_, rfl⟩
      | some stop =>
        obtain ⟨comment, after, hparts, rfl⟩ := find_eq_some hclose
        have hstop : byteLen front + byteLen comment + 3 =
            byteLen (front ++ comment ++ "-->".toList) := by
          rw [byteLen_append, byteLen_append]
          rfl
        have hrest : front ++ ("<!--".toList ++ back) =
            front ++ comment ++ "-->".toList ++ after := by
          rw [hparts]
          simp only [List.append_assoc]
        have hshorter : after.length < fuel := by
          rw [hrest, List.length_append, List.length_append] at hfuel
          have hmark : "-->".toList.length = 3 := rfl
          omega
        dsimp only
        rw [hrest, hstop, startingAt_append]
        exact ih hshorter _

/-! ### Rendering -/

/-- A run of text ends where the text does or at the next tag. -/
theorem textRun_charIndices (done rest : List Char) :
    ∃ run after, rest = run ++ after ∧
      textRun (byteLen done) (charIndices (byteLen done) rest) =
        (byteLen (done ++ run), charIndices (byteLen (done ++ run)) after) := by
  induction rest generalizing done with
  | nil => exact ⟨[], [], rfl, by rw [List.append_nil]; rfl⟩
  | cons symbol rest ih =>
    rw [charIndices, textRun]
    by_cases hsymbol : symbol = '<'
    · rw [if_pos hsymbol]
      exact ⟨[], symbol :: rest, rfl, by rw [List.append_nil]; rfl⟩
    · rw [if_neg hsymbol]
      obtain ⟨run, after, rfl, hrun⟩ := ih (done ++ [symbol])
      rw [byteLen_append, byteLen_cons, byteLen_nil, Nat.add_zero] at hrun
      exact ⟨symbol :: run, after, rfl, by rw [hrun]; simp⟩

/-- The body of a tag ends where the text does or before the next `>`. -/
theorem tagRun_charIndices (done rest : List Char) :
    ∃ body close after, rest = body ++ close ++ after ∧
      tagRun (byteLen done) (charIndices (byteLen done) rest) =
        (byteLen (done ++ body), charIndices (byteLen (done ++ body ++ close)) after) := by
  induction rest generalizing done with
  | nil => exact ⟨[], [], [], rfl, by rw [List.append_nil]; rfl⟩
  | cons symbol rest ih =>
    rw [charIndices, tagRun]
    by_cases hsymbol : symbol = '>'
    · rw [if_pos hsymbol]
      exact ⟨[], [symbol], rest, rfl, by simp⟩
    · rw [if_neg hsymbol]
      obtain ⟨body, close, after, rfl, hbody⟩ := ih (done ++ [symbol])
      rw [byteLen_append, byteLen_cons, byteLen_nil, Nat.add_zero] at hbody
      exact ⟨symbol :: body, close, after, rfl, by rw [hbody]; simp⟩

theorem renderTag_eq_some (rawTag : List Char) (anchorHref : Option (List Char))
    (output : List Char) : ∃ rendered, renderTag rawTag anchorHref output = some rendered := by
  obtain ⟨href, hhref⟩ : ∃ href, attrValue rawTag "href".toList = some href :=
    ⟨_, @attrValue_eq 'h' ['r', 'e', 'f'] (by decide) rawTag⟩
  unfold renderTag
  simp only [hhref, Option.bind_eq_bind, Option.bind_some]
  repeat' split
  all_goals exact ⟨_, rfl⟩

theorem renderLoop_eq_some (done rest : List Char) {fuel : ℕ} (hfuel : rest.length < fuel)
    (anchorHref : Option (List Char)) (output : List Char) :
    ∃ rendered, renderLoop (done ++ rest) fuel (charIndices (byteLen done) rest) anchorHref output =
      some rendered := by
  induction fuel generalizing done rest anchorHref output with
  | zero => omega
  | succ fuel ih =>
    cases rest with
    | nil => exact ⟨output, rfl⟩
    | cons symbol rest =>
      rw [charIndices, renderLoop]
      rw [List.length_cons] at hfuel
      split
      · obtain ⟨run, after, rfl, hrun⟩ := textRun_charIndices (done ++ [symbol]) rest
        have hslice : slice (done ++ symbol :: (run ++ after)) (byteLen done)
            (byteLen (done ++ [symbol] ++ run)) = some (symbol :: run) := by
          simpa [Nat.add_assoc] using slice_append done (symbol :: run) after
        rw [byteLen_append, byteLen_cons, byteLen_nil, Nat.add_zero] at hrun
        rw [hrun]
        dsimp only
        rw [hslice]
        simp only [Option.bind_eq_bind, Option.bind_some, decodeEntities_eq]
        rw [List.length_append] at hfuel
        have hnext := ih (done ++ [symbol] ++ run) after (by omega) anchorHref
          (output ++ decodeRest (symbol :: run))
        simpa using hnext
      · next htag =>
        obtain rfl := not_not.mp htag
        obtain ⟨body, close, after, rfl, hbody⟩ := tagRun_charIndices (done ++ ['<']) rest
        have hstart : byteLen (done ++ ['<']) = byteLen done + 1 := byteLen_append done ['<']
        have hslice : slice (done ++ '<' :: (body ++ close ++ after)) (byteLen done + 1)
            (byteLen (done ++ ['<'] ++ body)) = some body := by
          rw [← hstart, byteLen_append (done ++ ['<'])]
          simpa only [List.append_assoc, List.singleton_append] using
            slice_append (done ++ ['<']) body (close ++ after)
        rw [hstart] at hbody
        have hindices : byteLen done + '<'.utf8Size = byteLen done + 1 := rfl
        rw [hindices]
        dsimp only
        rw [hbody]
        dsimp only
        obtain ⟨⟨anchorHref', output'⟩, hrendered⟩ := renderTag_eq_some body anchorHref output
        rw [hslice, Option.bind_eq_bind, Option.bind_some, hrendered, Option.bind_eq_bind,
          Option.bind_some]
        rw [List.length_append, List.length_append] at hfuel
        have hnext := ih (done ++ ['<'] ++ body ++ close) after (by omega)
          anchorHref' output'
        simpa only [List.append_assoc, List.cons_append, List.nil_append] using hnext

theorem renderTokens_eq_some (input : List Char) :
    ∃ rendered, renderTokens input = some rendered :=
  renderLoop_eq_some [] input (Nat.lt_succ_of_le (length_le_byteLen input)) none []

/-! ### The whole document -/

theorem stripNoiseBlocks_eq_some (input : List Char) :
    ∃ stripped, stripNoiseBlocks input = some stripped := by
  obtain ⟨stripped, hstripped⟩ :=
    stripCommentsLoop_eq_some (Nat.lt_succ_of_le (length_le_byteLen input)) []
  unfold stripNoiseBlocks stripComments
  rw [hstripped]
  simp only [stripElement_eq, Option.bind_eq_bind, Option.bind_some]
  exact ⟨_, List.foldlM_pure⟩

/-- The normalizer ends on every text, and every slice and index that it takes is in bounds and
between two characters. -/
theorem htmlToMarkdown_eq_some (html : List Char) :
    ∃ markdown, htmlToMarkdown html = some markdown := by
  obtain ⟨stripped, hstripped⟩ := stripNoiseBlocks_eq_some html
  obtain ⟨rendered, hrendered⟩ := renderTokens_eq_some stripped
  refine ⟨collapseWhitespace rendered, ?_⟩
  rw [htmlToMarkdown, hstripped, Option.bind_eq_bind, Option.bind_some, hrendered]
  rfl

end Ghostbro.Relay.Normalize
