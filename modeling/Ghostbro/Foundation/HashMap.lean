import Mathlib.Data.List.AList

/-!
# Finite maps with an iteration order

A hash map is an association list without repeated keys.  The operations are those of `AList`;
this file adds lookups as one conditional equation for each update, the selection of the keys
that satisfy a predicate, the map collected from a list of pairs, and sums over all entries.
The iteration order of an `AList` is one of the orders a hash map may have, so statements that
depend on the order of an iteration quantify over permutations of the selected keys.
-/

namespace Ghostbro

/-- A finite map from `Key` to `Value`. -/
abbrev HashMap (Key Value : Type*) := AList fun _ : Key ↦ Value

namespace HashMap

variable {Key Value : Type*} [DecidableEq Key]

/-- Equality of maps by their entries; unlike the instance of `AList` it reduces. -/
instance [DecidableEq Value] : DecidableEq (HashMap Key Value) := fun map map' ↦
  decidable_of_iff (map.entries = map'.entries) AList.ext_iff.symm

theorem lookup_insert_ite (map : HashMap Key Value) (key key' : Key) (value : Value) :
    (map.insert key' value).lookup key = if key = key' then some value else map.lookup key := by
  split_ifs with h
  · subst h
    exact AList.lookup_insert map
  · exact AList.lookup_insert_ne h

theorem lookup_erase_ite (map : HashMap Key Value) (key key' : Key) :
    (map.erase key').lookup key = if key = key' then none else map.lookup key := by
  split_ifs with h
  · subst h
    exact AList.lookup_erase key map
  · exact AList.lookup_erase_ne h

theorem lookup_of_lookup_erase {map : HashMap Key Value} {key key' : Key} {value : Value}
    (h : (map.erase key').lookup key = some value) :
    key ≠ key' ∧ map.lookup key = some value := by
  rw [lookup_erase_ite] at h
  split_ifs at h with hkey
  exact ⟨hkey, h⟩

/-- The entries of a map are exactly its lookups. -/
theorem mem_entries_iff {map : HashMap Key Value} {key : Key} {value : Value} :
    (⟨key, value⟩ : Σ _ : Key, Value) ∈ map.entries ↔ map.lookup key = some value :=
  AList.mem_lookup_iff.symm

theorem mem_of_lookup {map : HashMap Key Value} {key : Key} {value : Value}
    (h : map.lookup key = some value) : key ∈ map := by
  rw [← AList.lookup_isSome, h]
  rfl

/-! ### Selection -/

/-- The keys whose entries satisfy `select`, in iteration order. -/
def keysWhere (map : HashMap Key Value) (select : Key → Value → Bool) : List Key :=
  (map.entries.filter fun entry ↦ select entry.1 entry.2).map Sigma.fst

theorem mem_keysWhere {map : HashMap Key Value} {select : Key → Value → Bool} {key : Key} :
    key ∈ keysWhere map select ↔ ∃ value, map.lookup key = some value ∧ select key value := by
  simp only [keysWhere, List.mem_map, List.mem_filter]
  constructor
  · rintro ⟨⟨key', value⟩, ⟨hmem, hselect⟩, rfl⟩
    exact ⟨value, mem_entries_iff.mp hmem, hselect⟩
  · rintro ⟨value, hlookup, hselect⟩
    exact ⟨⟨key, value⟩, ⟨mem_entries_iff.mpr hlookup, hselect⟩, rfl⟩

omit [DecidableEq Key] in
theorem nodup_keysWhere (map : HashMap Key Value) (select : Key → Value → Bool) :
    (keysWhere map select).Nodup :=
  (List.filter_sublist.map Sigma.fst).nodup map.keys_nodup

/-! ### Collecting pairs -/

/-- Insert pairs from left to right; of two pairs with one key the later one stays. -/
def collect (pairs : List (Key × Value)) : HashMap Key Value :=
  pairs.foldl (fun map pair ↦ map.insert pair.1 pair.2) ∅

theorem mem_foldl_insert (pairs : List (Key × Value)) (map : HashMap Key Value) (key : Key) :
    key ∈ pairs.foldl (fun map pair ↦ map.insert pair.1 pair.2) map ↔
      key ∈ map ∨ ∃ value, (key, value) ∈ pairs := by
  induction pairs generalizing map with
  | nil => simp
  | cons pair rest ih =>
    rw [List.foldl_cons, ih, AList.mem_insert]
    rcases pair with ⟨key', value'⟩
    simp only [List.mem_cons, Prod.mk.injEq]
    grind

/-- A key is collected exactly when some pair carries it. -/
theorem mem_collect {pairs : List (Key × Value)} {key : Key} :
    key ∈ collect pairs ↔ ∃ value, (key, value) ∈ pairs := by
  simp [collect, mem_foldl_insert]

theorem lookup_foldl_insert {pairs : List (Key × Value)} (hnodup : (pairs.map Prod.fst).Nodup)
    (map : HashMap Key Value) (key : Key) (value : Value) :
    (pairs.foldl (fun map pair ↦ map.insert pair.1 pair.2) map).lookup key = some value ↔
      (key, value) ∈ pairs ∨ map.lookup key = some value ∧ key ∉ pairs.map Prod.fst := by
  induction pairs generalizing map with
  | nil => simp
  | cons pair rest ih =>
    rcases pair with ⟨key', value'⟩
    rw [List.map_cons, List.nodup_cons] at hnodup
    rw [List.foldl_cons, ih hnodup.2, lookup_insert_ite]
    simp only [List.mem_cons, Prod.mk.injEq, List.map_cons]
    by_cases hkey : key = key'
    · subst hkey
      have hrest : (key, value) ∉ rest := fun hmem ↦ hnodup.1 (List.mem_map.mpr ⟨_, hmem, rfl⟩)
      simp [hnodup.1, hrest, eq_comm]
    · simp [hkey]

/-- Pairs with distinct keys are collected without loss. -/
theorem lookup_collect {pairs : List (Key × Value)} (hnodup : (pairs.map Prod.fst).Nodup)
    {key : Key} {value : Value} :
    (collect pairs).lookup key = some value ↔ (key, value) ∈ pairs := by
  simp [collect, lookup_foldl_insert hnodup]

theorem mem_of_lookup_foldl_insert {pairs : List (Key × Value)} {map : HashMap Key Value}
    {key : Key} {value : Value}
    (h : (pairs.foldl (fun map pair ↦ map.insert pair.1 pair.2) map).lookup key = some value) :
    (key, value) ∈ pairs ∨ map.lookup key = some value := by
  induction pairs generalizing map with
  | nil => exact .inr h
  | cons pair rest ih =>
    rcases ih h with hrest | hmap
    · exact .inl (List.mem_cons_of_mem _ hrest)
    · rw [lookup_insert_ite] at hmap
      split_ifs at hmap with hkey
      · apply Or.inl
        rw [hkey, ← Option.some.inj hmap]
        exact List.mem_cons_self
      · exact .inr hmap

/-- What is collected is one of the pairs. -/
theorem mem_of_lookup_collect {pairs : List (Key × Value)} {key : Key} {value : Value}
    (h : (collect pairs).lookup key = some value) : (key, value) ∈ pairs :=
  (mem_of_lookup_foldl_insert h).resolve_right (by simp)

theorem lookup_foldl_insert_of_not_mem {pairs : List (Key × Value)} {key : Key}
    (h : key ∉ pairs.map Prod.fst) (map : HashMap Key Value) :
    (pairs.foldl (fun map pair ↦ map.insert pair.1 pair.2) map).lookup key = map.lookup key := by
  induction pairs generalizing map with
  | nil => rfl
  | cons pair rest ih =>
    rw [List.map_cons, List.mem_cons, not_or] at h
    rw [List.foldl_cons, ih h.2, lookup_insert_ite, if_neg h.1]

/-- The last pair with a key is the one that is collected. -/
theorem lookup_collect_append {front back : List (Key × Value)} {key : Key} {value : Value}
    (h : key ∉ back.map Prod.fst) :
    (collect (front ++ (key, value) :: back)).lookup key = some value := by
  rw [collect, List.foldl_append, List.foldl_cons, lookup_foldl_insert_of_not_mem h,
    lookup_insert_ite, if_pos rfl]

/-! ### Sums over the entries -/

/-- The sum of a measure over all entries. -/
def total (map : HashMap Key Value) (measure : Key → Value → ℕ) : ℕ :=
  map.entries.foldr (fun entry sum ↦ measure entry.1 entry.2 + sum) 0

/-- Removing a key removes its share of the sum. -/
theorem total_erase_add (map : HashMap Key Value) (measure : Key → Value → ℕ) (key : Key) :
    total (map.erase key) measure + (map.lookup key).elim 0 (measure key) =
      total map measure := by
  rcases map with ⟨entries, hnodup⟩
  change (entries.kerase key).foldr _ 0 + (entries.dlookup key).elim 0 _ = entries.foldr _ 0
  clear hnodup
  induction entries with
  | nil => rfl
  | cons entry rest ih =>
    rcases entry with ⟨key', value⟩
    by_cases h : key = key'
    · subst h
      simp [List.kerase_cons_eq, Nat.add_comm]
    · rw [List.kerase_cons_ne h, List.dlookup_cons_ne _ _ h]
      simp only [List.foldr_cons]
      omega

/-- Writing a key replaces its share of the sum. -/
theorem total_insert (map : HashMap Key Value) (measure : Key → Value → ℕ) (key : Key)
    (value : Value) :
    total (map.insert key value) measure =
      measure key value + total (map.erase key) measure := rfl

theorem total_insert_add (map : HashMap Key Value) (measure : Key → Value → ℕ) (key : Key)
    (value : Value) :
    total (map.insert key value) measure + (map.lookup key).elim 0 (measure key) =
      total map measure + measure key value := by
  rw [total_insert, ← total_erase_add map measure key]
  omega

omit [DecidableEq Key] in
theorem foldr_measure_le {entries : List (Σ _ : Key, Value)} {measure measure' : Key → Value → ℕ}
    (h : ∀ entry ∈ entries, measure entry.1 entry.2 ≤ measure' entry.1 entry.2) :
    entries.foldr (fun entry sum ↦ measure entry.1 entry.2 + sum) 0 ≤
      entries.foldr (fun entry sum ↦ measure' entry.1 entry.2 + sum) 0 := by
  induction entries with
  | nil => exact Nat.le_refl 0
  | cons entry rest ih =>
    obtain ⟨hentry, hrest⟩ := List.forall_mem_cons.mp h
    exact Nat.add_le_add hentry (ih hrest)

/-- A pointwise smaller measure has a smaller sum. -/
theorem total_le_total {map : HashMap Key Value} {measure measure' : Key → Value → ℕ}
    (h : ∀ key value, map.lookup key = some value → measure key value ≤ measure' key value) :
    total map measure ≤ total map measure' := by
  apply foldr_measure_le
  intro entry hentry
  exact h entry.1 entry.2 (mem_entries_iff.mp hentry)

/-- One share is at most the sum. -/
theorem measure_le_total {map : HashMap Key Value} (measure : Key → Value → ℕ) {key : Key}
    {value : Value} (h : map.lookup key = some value) : measure key value ≤ total map measure := by
  have herase := total_erase_add map measure key
  rw [h, Option.elim_some] at herase
  omega

/-- Writing a key leaves the shares of the others. -/
theorem total_erase_insert (map : HashMap Key Value) (measure : Key → Value → ℕ) (key : Key)
    (value : Value) :
    total ((map.insert key value).erase key) measure = total (map.erase key) measure := by
  have herase := total_erase_add (map.insert key value) measure key
  rw [AList.lookup_insert, Option.elim_some, total_insert] at herase
  omega

/-- A map whose entries are entries of another one, as far as they count, has a smaller sum. -/
theorem total_le_of_lookup {map map' : HashMap Key Value} {measure : Key → Value → ℕ}
    (h : ∀ key value, map.lookup key = some value →
      map'.lookup key = some value ∨ measure key value = 0) :
    total map measure ≤ total map' measure := by
  induction map using AList.insertRec generalizing map' with
  | H0 => exact Nat.zero_le _
  | IH key value rest hfresh ih =>
    have hrest : total (rest.insert key value) measure =
        measure key value + total rest measure := by
      rw [total_insert]
      congr 2
      exact AList.ext_iff.mpr (List.kerase_of_notMem_keys hfresh)
    have hothers : ∀ key' value', rest.lookup key' = some value' →
        (map'.erase key).lookup key' = some value' ∨ measure key' value' = 0 := by
      intro key' value' hlookup
      have hne : key' ≠ key := by
        rintro rfl
        exact hfresh (mem_of_lookup hlookup)
      rw [AList.lookup_erase_ne hne]
      exact h key' value' (by rw [AList.lookup_insert_ne hne, hlookup])
    have hle := ih hothers
    have herase := total_erase_add map' measure key
    rcases h key value (AList.lookup_insert rest) with hkept | hzero
    · rw [hkept, Option.elim_some] at herase
      omega
    · omega

end HashMap

end Ghostbro
