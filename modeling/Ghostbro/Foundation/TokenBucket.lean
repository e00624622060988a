import Mathlib.Data.List.Induction
import Mathlib.Order.Nat

/-!
# Token buckets with whole-window refill

A bucket holds tokens and the time of its last refill.  A request refills the bucket if a whole
period has passed, and is granted if a token is left.  A bucket that has not been used yet is
`none`, and its first request counts as a refill.  Such a bucket does not bound the grants of a
period by its limit: what is left of one window can be spent just before the refill, and the whole
budget just after it.  The exact bound is one less than twice the limit.
-/

namespace Ghostbro.TokenBucket

/-- The tokens that are left and the time of the last refill. -/
structure Bucket where
  tokens : ℕ
  last : ℕ
  deriving DecidableEq

/-- A granted request, and whether it refilled the bucket. -/
structure Grant where
  time : ℕ
  refilled : Bool
  deriving DecidableEq

/-- A request at this time refills the bucket. -/
def Refills (period : ℕ) (bucket : Option Bucket) (now : ℕ) : Prop :=
  ∀ used ∈ bucket, period ≤ now - used.last

instance (period : ℕ) (bucket : Option Bucket) (now : ℕ) :
    Decidable (Refills period bucket now) := by
  unfold Refills
  infer_instance

/-- The bucket that a request finds after the refill. -/
def available (limit period : ℕ) (bucket : Option Bucket) (now : ℕ) : Bucket :=
  if Refills period bucket now then ⟨limit, now⟩ else bucket.getD ⟨limit, now⟩

/-- The bucket that a request leaves behind. -/
def serve (limit period : ℕ) (bucket : Option Bucket) (now : ℕ) : Bucket where
  tokens := (available limit period bucket now).tokens - 1
  last := (available limit period bucket now).last

/-- The grant of a request. -/
def grant (limit period : ℕ) (bucket : Option Bucket) (now : ℕ) : Option Grant :=
  if (available limit period bucket now).tokens = 0 then none
  else some ⟨now, decide (Refills period bucket now)⟩

/-- The grants of a bucket that has been used up to a time. -/
inductive Served (limit period : ℕ) : List Grant → Option Bucket → ℕ → Prop
  | start {now : ℕ} : Served limit period [] none now
  | wait {grants : List Grant} {bucket : Option Bucket} {now later : ℕ} :
      Served limit period grants bucket now → now ≤ later →
      Served limit period grants bucket later
  | request {grants : List Grant} {bucket : Option Bucket} {now : ℕ} :
      Served limit period grants bucket now →
      Served limit period (grants ++ (grant limit period bucket now).toList)
        (some (serve limit period bucket now)) now

variable {limit period now : ℕ} {grants : List Grant} {bucket : Option Bucket} {used : Bucket}

/-! ### One request -/

theorem available_of_refills (h : Refills period bucket now) :
    available limit period bucket now = ⟨limit, now⟩ :=
  if_pos h

theorem available_of_not_refills (h : ¬Refills period (some used) now) :
    available limit period (some used) now = used :=
  if_neg h

/-- A refill is always granted. -/
theorem grant_of_refills (hlimit : 0 < limit) (h : Refills period bucket now) :
    grant limit period bucket now = some ⟨now, true⟩ := by
  unfold grant
  rw [available_of_refills h, if_neg (Nat.ne_of_gt hlimit), decide_eq_true h]

theorem grant_of_not_refills (h : ¬Refills period (some used) now) :
    grant limit period (some used) now = if used.tokens = 0 then none else some ⟨now, false⟩ := by
  unfold grant
  rw [available_of_not_refills h, decide_eq_false h]

/-- A granted request takes one token. -/
theorem tokens_serve_add :
    (serve limit period bucket now).tokens + (grant limit period bucket now).isSome.toNat =
      (available limit period bucket now).tokens := by
  unfold serve grant
  split_ifs with hempty
  · rw [hempty]
    rfl
  · rw [Option.isSome_some, Bool.toNat_true]
    dsimp only
    omega

theorem tokens_available_le (h : ∀ used ∈ bucket, used.tokens ≤ limit) :
    (available limit period bucket now).tokens ≤ limit := by
  unfold available
  split_ifs
  · exact le_rfl
  · cases bucket with
    | none => exact le_rfl
    | some used => exact h used rfl

theorem tokens_serve_le (h : ∀ used ∈ bucket, used.tokens ≤ limit) :
    (serve limit period bucket now).tokens ≤ limit :=
  (Nat.sub_le _ _).trans (tokens_available_le h)

theorem time_of_grant {granted : Grant} (h : grant limit period bucket now = some granted) :
    granted.time = now := by
  unfold grant at h
  split_ifs at h
  exact congrArg Grant.time (Option.some.inj h).symm

/-! ### The books of a bucket -/

/-- The grants of a used bucket: those of earlier windows, those of the previous window after its
refill, and those of the current window, which starts with its refill. -/
structure Books (limit period : ℕ) (grants : List Grant) (used : Bucket) : Prop where
  split : ∃ old recent current : List Grant,
    grants = old ++ (recent ++ ⟨used.last, true⟩ :: current) ∧
      (∀ earlier ∈ old, earlier.time + period ≤ used.last) ∧
      (∀ earlier ∈ recent, earlier.time ≤ used.last) ∧
      recent.length + 1 ≤ limit ∧
      (∀ later ∈ current, later.refilled = false) ∧
      current.length + 1 + used.tokens = limit

theorem Books.serve_of_not_refills (h : Books limit period grants used)
    (hrefills : ¬Refills period (some used) now) :
    Books limit period (grants ++ (grant limit period (some used) now).toList)
      (serve limit period (some used) now) := by
  obtain ⟨old, recent, current, rfl, hold, htimes, hrecent, hcurrent, htokens⟩ := h.split
  rw [grant_of_not_refills hrefills]
  unfold serve
  rw [available_of_not_refills hrefills]
  by_cases hempty : used.tokens = 0
  · rw [if_pos hempty, Option.toList_none, List.append_nil]
    exact ⟨old, recent, current, rfl, hold, htimes, hrecent, hcurrent, by dsimp only; omega⟩
  · rw [if_neg hempty, Option.toList_some]
    refine ⟨old, recent, current ++ [⟨now, false⟩], by simp, hold, htimes, hrecent, ?_, ?_⟩
    · intro later hlater
      rcases List.mem_append.mp hlater with hmem | hmem
      · exact hcurrent later hmem
      · rw [List.mem_singleton.mp hmem]
    · rw [List.length_append, List.length_singleton]
      dsimp only
      omega

/-- A refill closes the current window, whose own refill is now a whole period old. -/
theorem Books.serve_of_refills (h : Books limit period grants used) (hlimit : 0 < limit)
    (hlast : used.last ≤ now) (hnow : ∀ granted ∈ grants, granted.time ≤ now)
    (hrefills : Refills period (some used) now) :
    Books limit period (grants ++ (grant limit period (some used) now).toList)
      (serve limit period (some used) now) := by
  obtain ⟨old, recent, current, rfl, hold, htimes, hrecent, hcurrent, htokens⟩ := h.split
  have hperiod : used.last + period ≤ now := by
    have hgap : period ≤ now - used.last := hrefills used rfl
    omega
  rw [grant_of_refills hlimit hrefills]
  unfold serve
  rw [available_of_refills hrefills]
  refine ⟨old ++ recent ++ [⟨used.last, true⟩], current, [], by simp, ?_, ?_, ?_, ?_, ?_⟩
  · intro earlier hearlier
    simp only [List.mem_append, List.mem_singleton] at hearlier
    rcases hearlier with (hmem | hmem) | rfl
    · exact (hold earlier hmem).trans hlast
    · exact (Nat.add_le_add_right (htimes earlier hmem) period).trans hperiod
    · exact hperiod
  · intro later hlater
    apply hnow
    simp [hlater]
  · omega
  · simp
  · rw [List.length_nil]
    dsimp only
    omega

/-- The books after the first request of a bucket. -/
theorem books_serve_none (hlimit : 0 < limit) :
    Books limit period ([] ++ (grant limit period none now).toList)
      (serve limit period none now) := by
  have hrefills : Refills period none now := by
    intro used hused
    cases hused
  rw [grant_of_refills hlimit hrefills]
  unfold serve
  rw [available_of_refills hrefills]
  exact ⟨[], [], [], rfl, by simp, by simp, hlimit, by simp, by
    rw [List.length_nil]
    dsimp only
    omega⟩

/-! ### Every sequence of requests -/

/-- Nothing is granted in the future. -/
theorem Served.time_le (h : Served limit period grants bucket now) :
    ∀ granted ∈ grants, granted.time ≤ now := by
  induction h with
  | start => simp
  | wait _ hlater ih =>
    intro granted hgranted
    exact (ih granted hgranted).trans hlater
  | request _ ih =>
    intro granted hgranted
    rcases List.mem_append.mp hgranted with hmem | hmem
    · exact ih granted hmem
    · exact (time_of_grant (Option.mem_toList.mp hmem)).le

theorem Served.last_le (h : Served limit period grants bucket now) :
    ∀ used ∈ bucket, used.last ≤ now := by
  induction h with
  | start => simp
  | wait _ hlater ih =>
    intro used hused
    exact (ih used hused).trans hlater
  | @request grants bucket now _ ih =>
    intro used hused
    obtain rfl := Option.some.inj hused
    unfold serve available
    split_ifs
    · exact le_rfl
    · cases bucket with
      | none => exact le_rfl
      | some before => exact ih before rfl

/-- A bucket without books has granted nothing. -/
theorem Served.books (h : Served limit period grants bucket now) (hlimit : 0 < limit) :
    (bucket = none ∧ grants = []) ∨
      ∃ used, bucket = some used ∧ Books limit period grants used := by
  induction h with
  | start => exact .inl ⟨rfl, rfl⟩
  | wait _ _ ih => exact ih
  | @request grants bucket now hserved ih =>
    right
    refine ⟨_, rfl, ?_⟩
    rcases ih with ⟨rfl, rfl⟩ | ⟨used, rfl, hbooks⟩
    · exact books_serve_none hlimit
    · by_cases hrefills : Refills period (some used) now
      · exact hbooks.serve_of_refills hlimit (hserved.last_le used rfl) hserved.time_le hrefills
      · exact hbooks.serve_of_not_refills hrefills

/-! ### Grants within a period -/

/-- The times are less than a period apart. -/
def Near (period : ℕ) (times : List ℕ) : Prop :=
  ∀ earlier ∈ times, ∀ later ∈ times, later < earlier + period

/-- Of grants that are near to one at the current time, none belongs to an old window. -/
theorem Books.length_le {picked : List Grant} (h : Books limit period grants used)
    (hlast : used.last ≤ now) (hpicked : picked.Sublist grants)
    (hnear : ∀ earlier ∈ picked, now < earlier.time + period) :
    picked.length ≤ 2 * limit - 1 := by
  obtain ⟨old, recent, current, rfl, hold, -, hrecent, -, htokens⟩ := h.split
  obtain ⟨front, back, rfl, hfront, hback⟩ := List.sublist_append_iff.mp hpicked
  have hempty : front = [] := by
    apply List.eq_nil_iff_forall_not_mem.mpr
    intro earlier hearlier
    have hnew := hnear earlier (List.mem_append_left _ hearlier)
    have hearly := hold earlier (hfront.subset hearlier)
    omega
  calc (front ++ back).length = back.length := by rw [hempty, List.nil_append]
    _ ≤ (recent ++ ⟨used.last, true⟩ :: current).length := hback.length_le
    _ = recent.length + (current.length + 1) := by rw [List.length_append, List.length_cons]
    _ ≤ 2 * limit - 1 := by omega

theorem Served.picked_length_le {picked : List Grant}
    (h : Served limit period grants bucket now) (hlimit : 0 < limit)
    (hpicked : picked.Sublist grants) (hnear : Near period (picked.map Grant.time)) :
    picked.length ≤ 2 * limit - 1 := by
  induction h generalizing picked with
  | start =>
    rw [List.sublist_nil.mp hpicked]
    exact Nat.zero_le _
  | wait _ _ ih => exact ih hpicked hnear
  | @request grants bucket now hserved ih =>
    have hnext : Served limit period _ _ now := hserved.request
    cases hgrant : grant limit period bucket now with
    | none =>
      rw [hgrant, Option.toList_none, List.append_nil] at hpicked
      exact ih hpicked hnear
    | some granted =>
      rw [hgrant, Option.toList_some] at hpicked
      obtain ⟨front, back, rfl, hfront, hback⟩ := List.sublist_append_iff.mp hpicked
      rcases List.sublist_cons_iff.mp hback with hnone | ⟨rest, rfl, hrest⟩
      · rw [List.sublist_nil.mp hnone, List.append_nil] at hnear ⊢
        exact ih hfront hnear
      · obtain rfl := List.sublist_nil.mp hrest
        obtain ⟨used, hused, hbooks⟩ := (hnext.books hlimit).resolve_left (by simp)
        apply hbooks.length_le (hnext.last_le used hused)
        · rw [hgrant, Option.toList_some]
          exact hpicked
        · intro earlier hearlier
          rw [← time_of_grant hgrant]
          apply hnear
          · exact List.mem_map_of_mem hearlier
          · exact List.mem_map_of_mem (by simp)

/-- Fewer than twice the limit are granted within less than a period. -/
theorem Served.near_length_le {times : List ℕ} (h : Served limit period grants bucket now)
    (hlimit : 0 < limit) (htimes : times.Sublist (grants.map Grant.time))
    (hnear : Near period times) : times.length ≤ 2 * limit - 1 := by
  obtain ⟨picked, hpicked, rfl⟩ := List.sublist_map_iff.mp htimes
  rw [List.length_map]
  exact h.picked_length_le hlimit hpicked hnear

/-! ### Grants between two refills -/

/-- The grants since the last refill are the tokens that have been spent. -/
theorem Books.segment_length_le {before segment : List Grant}
    (h : Books limit period grants used) (hgrants : grants = before ++ segment)
    (hsegment : ∀ later ∈ segment.tail, later.refilled = false) : segment.length ≤ limit := by
  obtain ⟨old, recent, current, rfl, -, -, -, -, htokens⟩ := h.split
  rw [← List.append_assoc] at hgrants
  rcases List.append_eq_append_iff.mp hgrants with ⟨middle, -, hsplit⟩ | ⟨middle, -, hsplit⟩
  · have hlength := congrArg List.length hsplit
    rw [List.length_append, List.length_cons] at hlength
    omega
  · cases middle with
    | nil =>
      rw [List.nil_append] at hsplit
      rw [hsplit, List.length_cons]
      omega
    | cons first rest =>
      have hrefill := hsegment ⟨used.last, true⟩ (by simp [hsplit])
      cases hrefill

/-- Between a refill and the next one no more than the limit is granted. -/
theorem Served.segment_length_le {before segment after : List Grant}
    (h : Served limit period grants bucket now) (hlimit : 0 < limit)
    (hgrants : grants = before ++ segment ++ after)
    (hsegment : ∀ later ∈ segment.tail, later.refilled = false) : segment.length ≤ limit := by
  induction h generalizing before segment after with
  | start =>
    have hfront := (List.append_eq_nil_iff.mp hgrants.symm).1
    rw [(List.append_eq_nil_iff.mp hfront).2]
    exact Nat.zero_le _
  | wait _ _ ih => exact ih hgrants hsegment
  | @request grants bucket now hserved ih =>
    have hnext : Served limit period _ _ now := hserved.request
    cases hgrant : grant limit period bucket now with
    | none =>
      rw [hgrant, Option.toList_none, List.append_nil] at hgrants
      exact ih hgrants hsegment
    | some granted =>
      rw [hgrant, Option.toList_some] at hgrants
      rcases List.eq_nil_or_concat after with rfl | ⟨after', last, rfl⟩
      · obtain ⟨used, -, hbooks⟩ := (hnext.books hlimit).resolve_left (by simp)
        apply hbooks.segment_length_le _ hsegment
        · exact before
        · rw [hgrant, Option.toList_some, hgrants, List.append_nil]
      · rw [List.concat_eq_append, ← List.append_assoc] at hgrants
        exact ih (List.append_inj' hgrants rfl).1 hsegment

end Ghostbro.TokenBucket
