import Ghostbro.Relay.Normalize

/-!
# Entity decoding

`decode_entities` looks from each ampersand for the next semicolon and takes what is between them
for an entity if the semicolon is at most ten bytes away.  `decodeRest` says the same without
offsets.  What it makes of one entity depends on the text before it: a bare ampersand that stands
close enough reaches the same semicolon, and the text from there on is copied as it is.
-/

namespace Ghostbro.Relay.Normalize

open Text

/-! ### Decoding without offsets -/

/-- What becomes of the text between an ampersand and a semicolon in reach. -/
def decoded (entity : List Char) : List Char :=
  match decodeEntity entity with
  | some symbol => [symbol]
  | none => '&' :: entity ++ [';']

/-- The text that `decode_entities` still appends when this rest is left. -/
def decodeRest (rest : List Char) : List Char :=
  match _hamp : splitOnce '&' rest with
  | none => rest
  | some (front, tail) =>
    match _hsemi : splitOnce ';' tail with
    | none => front ++ '&' :: decodeRest tail
    | some (entity, after) =>
      if byteLen entity + 1 ≤ 10 then front ++ decoded entity ++ decodeRest after
      else front ++ '&' :: decodeRest tail
termination_by rest.length
decreasing_by
  all_goals
    have hrest := congrArg List.length (splitOnce_eq_some.mp _hamp).1
    simp only [List.length_append, List.length_cons] at hrest
  · omega
  · have htail := congrArg List.length (splitOnce_eq_some.mp _hsemi).1
    simp only [List.length_append, List.length_cons] at htail
    omega
  · omega

theorem decodeRest_of_not_mem {rest : List Char} (h : '&' ∉ rest) : decodeRest rest = rest := by
  rw [decodeRest]
  split
  · rfl
  · next hamp => rw [splitOnce_eq_none.mpr h] at hamp; cases hamp

/-- An ampersand with a semicolon in reach. -/
theorem decodeRest_reached {front entity : List Char} (hfront : '&' ∉ front)
    (hentity : ';' ∉ entity) (hreach : byteLen entity + 1 ≤ 10) (after : List Char) :
    decodeRest (front ++ '&' :: (entity ++ ';' :: after)) =
      front ++ decoded entity ++ decodeRest after := by
  rw [decodeRest]
  split
  · next hamp => rw [splitOnce_append hfront] at hamp; cases hamp
  · next hamp =>
    rw [splitOnce_append hfront] at hamp
    obtain ⟨rfl, rfl⟩ := Prod.mk.inj (Option.some.inj hamp)
    split
    · next hsemi => rw [splitOnce_append hentity] at hsemi; cases hsemi
    · next hsemi =>
      rw [splitOnce_append hentity] at hsemi
      obtain ⟨rfl, rfl⟩ := Prod.mk.inj (Option.some.inj hsemi)
      rw [if_pos hreach]

/-- A bare ampersand. -/
theorem decodeRest_bare {front tail : List Char} (hfront : '&' ∉ front)
    (htail : ∀ entity after, splitOnce ';' tail = some (entity, after) → 10 < byteLen entity + 1) :
    decodeRest (front ++ '&' :: tail) = front ++ '&' :: decodeRest tail := by
  rw [decodeRest]
  split
  · next hamp => rw [splitOnce_append hfront] at hamp; cases hamp
  · next hamp =>
    rw [splitOnce_append hfront] at hamp
    obtain ⟨rfl, rfl⟩ := Prod.mk.inj (Option.some.inj hamp)
    split
    · rfl
    · next hsemi => rw [if_neg (not_le.mpr (htail _ _ hsemi))]

/-! ### The loop -/

/-- The text is cut behind the semicolon. -/
theorem splitAt_semi (entity after : List Char) :
    splitAt ('&' :: (entity ++ ';' :: after)) (byteLen entity + 1 + 1) =
      some ('&' :: entity ++ [';'], after) := by
  have htext : '&' :: (entity ++ ';' :: after) = ('&' :: entity ++ [';']) ++ after := by simp
  have hoffset : byteLen entity + 1 + 1 = byteLen ('&' :: entity ++ [';']) := by
    rw [byteLen_append, byteLen_cons, Nat.add_comm (byteLen entity)]
    rfl
  rw [htext, hoffset, splitAt_append]

theorem upTo_semi (entity after : List Char) :
    upTo ('&' :: (entity ++ ';' :: after)) (byteLen entity + 1 + 1) =
      some ('&' :: entity ++ [';']) := by
  rw [upTo, splitAt_semi, Option.map_some]

theorem startingAt_semi (entity after : List Char) :
    startingAt ('&' :: (entity ++ ';' :: after)) (byteLen entity + 1 + 1) = some after := by
  rw [startingAt, splitAt_semi, Option.map_some]

theorem slice_entity (entity after : List Char) :
    slice ('&' :: (entity ++ ';' :: after)) 1 (byteLen entity + 1) = some entity := by
  rw [Nat.add_comm]
  exact slice_append ['&'] entity (';' :: after)

theorem startingAt_amp (tail : List Char) : startingAt ('&' :: tail) 1 = some tail :=
  startingAt_append ['&'] tail

section Step

variable {fuel : ℕ} {output rest front tail entity : List Char}

theorem decodeEntitiesLoop_none (h : '&' ∉ rest) :
    decodeEntitiesLoop (fuel + 1) output rest = some (output ++ rest) := by
  rw [decodeEntitiesLoop, findChar_eq_none h]

theorem findChar_semi (hentity : ';' ∉ entity) (after : List Char) :
    findChar ';' ('&' :: (entity ++ ';' :: after)) = some (byteLen entity + 1) := by
  have hamp : ';' ∉ '&' :: entity := by simpa using hentity
  have hoffset : byteLen ('&' :: entity) = byteLen entity + 1 := Nat.add_comm _ _
  rw [← List.cons_append, findChar_append hamp, hoffset]

/-- An ampersand with a semicolon in reach. -/
theorem decodeEntitiesLoop_reached (hfront : '&' ∉ front) (hentity : ';' ∉ entity)
    (hreach : byteLen entity + 1 ≤ 10) (after : List Char) :
    decodeEntitiesLoop (fuel + 1) output (front ++ '&' :: (entity ++ ';' :: after)) =
      decodeEntitiesLoop fuel (output ++ (front ++ decoded entity)) after := by
  rw [decodeEntitiesLoop, findChar_append hfront]
  simp only [upTo_append, startingAt_append, Option.bind_eq_bind, Option.bind_some,
    findChar_semi hentity, if_pos hreach, slice_entity, upTo_semi, startingAt_semi,
    Option.map_some, decoded]
  cases decodeEntity entity with
  | none => simp only [List.append_assoc]
  | some symbol => simp only [List.append_assoc]

/-- A bare ampersand. -/
theorem decodeEntitiesLoop_bare (hfront : '&' ∉ front)
    (htail : ∀ entity after, splitOnce ';' tail = some (entity, after) → 10 < byteLen entity + 1) :
    decodeEntitiesLoop (fuel + 1) output (front ++ '&' :: tail) =
      decodeEntitiesLoop fuel (output ++ (front ++ ['&'])) tail := by
  rw [decodeEntitiesLoop, findChar_append hfront]
  simp only [upTo_append, startingAt_append, Option.bind_eq_bind, Option.bind_some,
    startingAt_amp, List.append_assoc]
  cases hsemi : splitOnce ';' tail with
  | none =>
    have hnone : ';' ∉ '&' :: tail := by simpa using splitOnce_eq_none.mp hsemi
    rw [findChar_eq_none hnone]
  | some parts =>
    obtain ⟨entity, after⟩ := parts
    obtain ⟨rfl, hentity⟩ := splitOnce_eq_some.mp hsemi
    rw [findChar_semi hentity]
    exact if_neg (not_le.mpr (htail entity after hsemi))

end Step

/-- Every slice of the loop exists, and its fuel suffices. -/
theorem decodeEntitiesLoop_eq {fuel : ℕ} {rest : List Char} (hfuel : rest.length < fuel)
    (output : List Char) :
    decodeEntitiesLoop fuel output rest = some (output ++ decodeRest rest) := by
  induction fuel generalizing rest output with
  | zero => omega
  | succ fuel ih =>
    cases hamp : splitOnce '&' rest with
    | none =>
      have hnone := splitOnce_eq_none.mp hamp
      rw [decodeEntitiesLoop_none hnone, decodeRest_of_not_mem hnone]
    | some parts =>
      obtain ⟨front, tail⟩ := parts
      obtain ⟨rfl, hfront⟩ := splitOnce_eq_some.mp hamp
      rw [List.length_append, List.length_cons] at hfuel
      by_cases htail : ∀ entity after, splitOnce ';' tail = some (entity, after) →
          10 < byteLen entity + 1
      · rw [decodeEntitiesLoop_bare hfront htail, decodeRest_bare hfront htail, ih (by omega)]
        simp only [List.append_assoc, List.singleton_append]
      · push Not at htail
        obtain ⟨entity, after, hsemi, hreach⟩ := htail
        obtain ⟨rfl, hentity⟩ := splitOnce_eq_some.mp hsemi
        rw [List.length_append, List.length_cons] at hfuel
        rw [decodeEntitiesLoop_reached hfront hentity hreach,
          decodeRest_reached hfront hentity hreach, ih (by omega)]
        simp only [List.append_assoc]

/-- `decode_entities` panics on no text. -/
theorem decodeEntities_eq (input : List Char) : decodeEntities input = some (decodeRest input) := by
  unfold decodeEntities
  by_cases hamp : '&' ∈ input
  · rw [if_neg (not_not.mpr hamp),
      decodeEntitiesLoop_eq (Nat.lt_succ_of_le (length_le_byteLen input)), List.nil_append]
  · rw [if_pos hamp, decodeRest_of_not_mem hamp]

/-! ### One entity and the text before it -/

/-- Every symbol of a number is a digit. -/
theorem toDigit_of_mapM {radix : ℕ} {digits : List Char} {values : List ℕ}
    (h : digits.mapM (toDigit radix) = some values) {symbol : Char} (hmem : symbol ∈ digits) :
    toDigit radix symbol ≠ none := by
  induction digits generalizing values with
  | nil => cases hmem
  | cons head rest ih =>
    rw [List.mapM_cons] at h
    obtain ⟨digit, hdigit, htail⟩ := Option.bind_eq_some_iff.mp h
    obtain ⟨others, hothers, -⟩ := Option.bind_eq_some_iff.mp htail
    cases hmem with
    | head => simp [hdigit]
    | tail _ hrest => exact ih hothers hrest

theorem not_mem_of_fromStrRadix {text : List Char} {radix number : ℕ} {symbol : Char}
    (h : fromStrRadix text radix = some number) (hdigit : toDigit radix symbol = none)
    (hplus : symbol ≠ '+') : symbol ∉ text := by
  intro hmem
  have hdigits : symbol ∈ if text.head? = some '+' then text.tail else text := by
    split
    · next hhead =>
      obtain ⟨rest, rfl⟩ := List.head?_eq_some_iff.mp hhead
      simpa [hplus] using hmem
    · exact hmem
  unfold fromStrRadix at h
  dsimp only at h
  generalize (if text.head? = some '+' then text.tail else text) = digits at h hdigits
  split at h
  · cases h
  · obtain ⟨values, hvalues, -⟩ := Option.bind_eq_some_iff.mp h
    exact toDigit_of_mapM hvalues hdigits hdigit

theorem mem_of_stripPrefix {pattern text rest : List Char} {symbol : Char}
    (h : stripPrefix pattern text = some rest) (hmem : symbol ∈ text) :
    symbol ∈ pattern ∨ symbol ∈ rest := by
  unfold stripPrefix at h
  split at h
  · next hpattern =>
    obtain rfl := Option.some.inj h
    obtain ⟨after, rfl⟩ := List.isPrefixOf_iff_prefix.mp hpattern
    simpa using hmem
  · cases h

/-- No entity has a name with an ampersand or a semicolon in it. -/
theorem not_mem_of_namedEntities {name : String} {decoded symbol : Char}
    (h : namedEntities.lookup name = some decoded) (hsymbol : symbol = '&' ∨ symbol = ';') :
    symbol ∉ name.toList := by
  have hnames : ∀ named ∈ namedEntities, '&' ∉ named.1.toList ∧ ';' ∉ named.1.toList := by
    decide
  obtain ⟨before, after, hparts, -⟩ := List.lookup_eq_some_iff.mp h
  have hname := hnames (name, decoded) (by rw [hparts]; simp)
  rcases hsymbol with rfl | rfl
  · exact hname.1
  · exact hname.2

/-- An entity that is decoded holds neither ampersand nor semicolon. -/
theorem not_mem_of_decodeEntity {entity : List Char} {decoded : Char}
    (h : decodeEntity entity = some decoded) {symbol : Char}
    (hsymbol : symbol = '&' ∨ symbol = ';') : symbol ∉ entity := by
  have hdigit (radix : ℕ) : toDigit radix symbol = none := by
    rcases hsymbol with rfl | rfl <;> rfl
  have hmarks : symbol ∉ ['#', 'x', 'X', '+'] := by
    rcases hsymbol with rfl | rfl <;> decide
  have hplus : symbol ≠ '+' := fun heq ↦ hmarks (by simp [heq])
  have hnumber {pattern rest : List Char} {radix code : ℕ}
      (hpattern : pattern ⊆ ['#', 'x', 'X', '+'])
      (hstripped : stripPrefix pattern entity = some rest)
      (hcode : fromStrRadix rest radix = some code) : symbol ∉ entity := by
    intro hmem
    rcases mem_of_stripPrefix hstripped hmem with hmark | hrest
    · exact hmarks (hpattern hmark)
    · exact not_mem_of_fromStrRadix hcode (hdigit radix) hplus hrest
  unfold decodeEntity at h
  split at h
  · next hnamed =>
    rw [← String.toList_ofList (l := entity)]
    exact not_mem_of_namedEntities hnamed hsymbol
  · split at h
    · next hex hstripped =>
      obtain ⟨code, hcode, -⟩ := Option.bind_eq_some_iff.mp h
      rcases Option.or_eq_some_iff.mp hstripped with hlower | ⟨-, hupper⟩
      · exact hnumber (by decide) hlower hcode
      · exact hnumber (by decide) hupper hcode
    · obtain ⟨code, hcode, -⟩ := Option.bind_eq_some_iff.mp h
      obtain ⟨digits, hstripped, hdecimal⟩ := Option.bind_eq_some_iff.mp hcode
      exact hnumber (by decide) hstripped hdecimal

/-- No ampersand of the text is so close to its end that the semicolon of an entity behind the text
is in its reach. -/
def OutOfReach (text entity : List Char) : Prop :=
  ∀ front back, text = front ++ '&' :: back → 10 < byteLen back + 1 + byteLen entity + 1

theorem outOfReach_append {front : List Char} (hfront : '&' ∉ front) (back entity : List Char) :
    OutOfReach (front ++ '&' :: back) entity ↔
      10 < byteLen back + 1 + byteLen entity + 1 ∧ OutOfReach back entity := by
  constructor
  · intro h
    refine ⟨h front back rfl, fun front' back' hback ↦ h (front ++ '&' :: front') back' ?_⟩
    simp [hback]
  · rintro ⟨hfirst, hlater⟩ front' back' htext
    rcases List.append_eq_append_iff.mp htext with ⟨middle, rfl, htail⟩ | ⟨middle, rfl, htail⟩
    · cases middle with
      | nil =>
        obtain rfl : back = back' := by simpa using htail
        exact hfirst
      | cons head middle =>
        obtain ⟨-, hback⟩ := List.cons.inj htail
        exact hlater middle back' hback
    · cases middle with
      | nil =>
        obtain rfl : back' = back := by simpa using htail
        exact hfirst
      | cons head middle =>
        obtain ⟨rfl, -⟩ := List.cons.inj htail
        exact absurd (by simp) hfront

section Behind

variable {front back entity : List Char} {symbol : Char}

theorem byteLen_behind (back entity : List Char) :
    byteLen (back ++ '&' :: entity) = byteLen back + 1 + byteLen entity := by
  rw [byteLen_append, byteLen_cons, Nat.add_assoc]
  rfl

theorem semi_not_mem_behind (hback : ';' ∉ back) (hentity : decodeEntity entity = some symbol) :
    ';' ∉ back ++ '&' :: entity := by
  have hsemi : ';' ∉ entity := not_mem_of_decodeEntity hentity (.inr rfl)
  simp [hback, hsemi]

/-- An ampersand of the text takes the semicolon of the entity. -/
theorem decodeRest_taken (hfront : '&' ∉ front) (hback : ';' ∉ back)
    (hentity : decodeEntity entity = some symbol)
    (hreach : byteLen back + 1 + byteLen entity + 1 ≤ 10) (after : List Char) :
    decodeRest (front ++ '&' :: (back ++ '&' :: entity ++ ';' :: after)) =
      front ++ '&' :: (back ++ '&' :: entity ++ ';' :: decodeRest after) := by
  have hundecoded : decodeEntity (back ++ '&' :: entity) = none := by
    rw [Option.eq_none_iff_forall_ne_some]
    exact fun other hother ↦ not_mem_of_decodeEntity hother (.inl rfl) (by simp)
  rw [← byteLen_behind] at hreach
  rw [decodeRest_reached hfront (semi_not_mem_behind hback hentity) hreach, decoded, hundecoded]
  simp

/-- An ampersand of the text is too far from the semicolon of the entity. -/
theorem decodeRest_passed (hfront : '&' ∉ front) (hback : ';' ∉ back)
    (hentity : decodeEntity entity = some symbol)
    (hreach : 10 < byteLen back + 1 + byteLen entity + 1) (after : List Char) :
    decodeRest (front ++ '&' :: (back ++ '&' :: entity ++ ';' :: after)) =
      front ++ '&' :: decodeRest (back ++ '&' :: (entity ++ ';' :: after)) := by
  rw [decodeRest_bare hfront, List.append_assoc, List.cons_append]
  intro reached rest hparts
  rw [splitOnce_append (semi_not_mem_behind hback hentity)] at hparts
  obtain ⟨rfl, -⟩ := Prod.mk.inj (Option.some.inj hparts)
  rwa [byteLen_behind]

end Behind

/-- An entity behind a text is decoded, or the text up to its semicolon is copied. -/
theorem decodeRest_behind {text entity : List Char} {symbol : Char} (htext : ';' ∉ text)
    (hentity : decodeEntity entity = some symbol) (hlength : byteLen entity ≤ 9)
    (after : List Char) :
    OutOfReach text entity ∧
        decodeRest (text ++ '&' :: (entity ++ ';' :: after)) =
          text ++ symbol :: decodeRest after ∨
      ¬OutOfReach text entity ∧
        decodeRest (text ++ '&' :: (entity ++ ';' :: after)) =
          text ++ '&' :: (entity ++ ';' :: decodeRest after) := by
  -- from ampersand to ampersand of the text
  induction hn : text.length using Nat.strongRecOn generalizing text with
  | ind n ih =>
    cases hamp : splitOnce '&' text with
    | none =>
      have hnone := splitOnce_eq_none.mp hamp
      refine .inl ⟨fun front back hparts ↦ absurd (by simp [hparts]) hnone, ?_⟩
      have hsemi : ';' ∉ entity := not_mem_of_decodeEntity hentity (.inr rfl)
      rw [decodeRest_reached hnone hsemi (by omega), decoded, hentity]
      simp
    | some parts =>
      obtain ⟨front, back⟩ := parts
      obtain ⟨rfl, hfront⟩ := splitOnce_eq_some.mp hamp
      have hback : ';' ∉ back := fun hmem ↦ htext (by simp [hmem])
      have hsplit : front ++ '&' :: back ++ '&' :: (entity ++ ';' :: after) =
          front ++ '&' :: (back ++ '&' :: entity ++ ';' :: after) := by simp
      rw [outOfReach_append hfront, hsplit]
      by_cases hreach : byteLen back + 1 + byteLen entity + 1 ≤ 10
      · right
        constructor
        · exact fun h ↦ absurd h.1 (not_lt.mpr hreach)
        · rw [decodeRest_taken hfront hback hentity hreach]
          simp
      · have hshorter : back.length < n := by
          rw [← hn, List.length_append, List.length_cons]
          omega
        rw [decodeRest_passed hfront hback hentity (not_le.mp hreach)]
        rcases ih back.length hshorter hback rfl with ⟨hout, hrest⟩ | ⟨hin, hrest⟩
        · exact .inl ⟨⟨not_le.mp hreach, hout⟩, by rw [hrest]; simp⟩
        · exact .inr ⟨fun h ↦ hin h.2, by rw [hrest]; simp⟩

/-- An entity behind a text without semicolons is decoded exactly when each ampersand of the text
stands too far from its semicolon. -/
theorem decodeEntities_local_iff {text entity : List Char} {symbol : Char} (htext : ';' ∉ text)
    (hentity : decodeEntity entity = some symbol) (hlength : byteLen entity ≤ 9)
    (after : List Char) :
    decodeEntities (text ++ ['&'] ++ entity ++ [';'] ++ after) =
        (decodeEntities after).map (text ++ [symbol] ++ ·) ↔
      OutOfReach text entity := by
  have hparts : text ++ ['&'] ++ entity ++ [';'] ++ after =
      text ++ '&' :: (entity ++ ';' :: after) := by simp
  rw [hparts, decodeEntities_eq, decodeEntities_eq, Option.map_some]
  rcases decodeRest_behind htext hentity hlength after with ⟨hout, hrest⟩ | ⟨hin, hrest⟩
  · rw [hrest]
    exact iff_of_true (by simp) hout
  · rw [hrest]
    refine iff_of_false (fun heq ↦ ?_) hin
    -- the copied entity is longer than its symbol
    have hlengths := congrArg List.length (Option.some.inj heq)
    simp only [List.length_append, List.length_cons, List.length_nil] at hlengths
    omega

theorem decodeEntities_local_research :
    ';' ∉ "R&D and research ".toList ∧
      (decodeEntities ("R&D and research ".toList ++ ['&'] ++ "amp".toList ++ [';'] ++ []) =
          (decodeEntities []).map ("R&D and research ".toList ++ ['&'] ++ ·) ↔
        OutOfReach "R&D and research ".toList "amp".toList) :=
  ⟨by decide, decodeEntities_local_iff (by decide) (by decide) (by decide) []⟩

/-- The ampersand of `Q&A ` takes the semicolon of `&lt;`. -/
theorem decodeEntities_not_local :
    ¬∀ (text entity : List Char) (symbol : Char) (after : List Char), ';' ∉ text →
      decodeEntity entity = some symbol → byteLen entity ≤ 9 →
        decodeEntities (text ++ ['&'] ++ entity ++ [';'] ++ after) =
          (decodeEntities after).map (text ++ [symbol] ++ ·) := by
  intro hall
  have hdecoded := hall "Q&A ".toList "lt".toList '<' [] (by decide) (by decide) (by decide)
  revert hdecoded
  decide +kernel

end Ghostbro.Relay.Normalize
