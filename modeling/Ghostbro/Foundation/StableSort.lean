import Mathlib.Data.List.Sort

/-!
# Sorting by a key

A stable sort by a key puts smaller keys first and leaves the items of each key in their order.  An
order that held between all the items, from the front on, holds after sorting between the items of
one key.
-/

namespace Ghostbro

variable {α κ : Type*} [LinearOrder κ]

/-- `slice::sort_by_key`. -/
def sortByKey (key : α → κ) (items : List α) : List α :=
  items.mergeSort fun item item' ↦ key item ≤ key item'

/-- The items in the order of their keys, and those of each key in the order they had. -/
structure SortedByKey (key : α → κ) (items sorted : List α) : Prop where
  perm : sorted.Perm items
  ordered : sorted.Pairwise fun item item' ↦ key item ≤ key item'
  stable : ∀ value, sorted.filter (fun item ↦ key item = value) =
    items.filter fun item ↦ key item = value

theorem sortedByKey_sortByKey (key : α → κ) (items : List α) :
    SortedByKey key items (sortByKey key items) := by
  have hperm : (sortByKey key items).Perm items := List.mergeSort_perm _ _
  have htrans (item item' item'' : α) (h : decide (key item ≤ key item') = true)
      (h' : decide (key item' ≤ key item'') = true) : decide (key item ≤ key item'') = true := by
    rw [decide_eq_true_iff] at h h' ⊢
    exact h.trans h'
  have htotal (item item' : α) :
      (decide (key item ≤ key item') || decide (key item' ≤ key item)) = true := by
    simpa using le_total (key item) (key item')
  constructor
  · exact hperm
  · apply (List.pairwise_mergeSort htrans htotal items).imp
    intro item item' h
    exact of_decide_eq_true h
  · intro value
    -- The items of one key are a sorted part of the list, which a stable sort keeps.
    have hpart : (items.filter fun item ↦ key item = value).Sublist (sortByKey key items) := by
      apply List.sublist_mergeSort htrans htotal
      · rw [List.pairwise_filter]
        apply List.pairwise_of_forall
        intro item item' h h'
        rw [of_decide_eq_true h, of_decide_eq_true h', decide_eq_true_iff]
      · exact List.filter_sublist
    have hfiltered := hpart.filter fun item ↦ key item = value
    rw [List.filter_filter] at hfiltered
    simp only [Bool.and_self] at hfiltered
    exact (hfiltered.eq_of_length (hperm.filter _).length_eq.symm).symm

/-- What held between the items from the front on decides between items of one key. -/
theorem SortedByKey.pairwise {key : α → κ} {items sorted : List α} {before : α → α → Prop}
    (h : SortedByKey key items sorted) (hitems : items.Pairwise before) :
    sorted.Pairwise fun item item' ↦
      key item < key item' ∨ key item = key item' ∧ before item item' := by
  rw [List.pairwise_iff_forall_sublist] at hitems ⊢
  intro item item' hpair
  have hle : key item ≤ key item' := List.pairwise_iff_forall_sublist.mp h.ordered hpair
  rcases hle.lt_or_eq with hlt | heq
  · exact .inl hlt
  · apply Or.inr
    apply And.intro heq
    have hkey : [item, item'].filter (fun other ↦ key other = key item') = [item, item'] := by
      simp [heq]
    have hsame := hpair.filter fun other ↦ key other = key item'
    rw [hkey, h.stable] at hsame
    exact hitems (hsame.trans List.filter_sublist)

end Ghostbro
