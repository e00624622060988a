import Ghostbro.Relay.Jobs
import Ghostbro.Relay.Quota
import Ghostbro.Relay.NormalizerSafety

/-!
# The quota and the normalized copies

The usage of a client counts the normalized copies that its records state.  The check under the
lock of the client adds the body of the new result, and not its normalized copy, which is rendered
only afterwards.  With one worker the records stay within the quota as long as, whenever a result
passes the check, its normalized copy would have fitted, too.
-/

namespace Ghostbro.Relay

open Machine

/-- What a record counts for: its body and its normalized copy, until it expires. -/
def account (now : UInt64) (metadata : RelayJobMetadata) : ℕ :=
  if metadata.expiresAtMs ≤ now then 0
  else metadata.bodyLen.toNat + (metadata.normalizedLen.getD 0).toNat

/-- The sum of `body_len` and `normalized_len` over all jobs that have not expired. -/
def accountedBytes (now : UInt64) (spool : Spool) : ℕ :=
  HashMap.total spool.jobs fun _ metadata ↦ account now metadata

/-- The worker is about to render a normalized copy of the outcome. -/
def rendersCopy (metadata : RelayJobMetadata) (outcome : JobOutcome) : Bool :=
  metadata.normalize && isHtml outcome.contentType outcome.body

/-- A result that passes the quota check leaves room for its normalized copy. -/
def LeavesRoom (externals : Externals) (config : RelayConfig) (state : State) : Event → Prop
  | .work worker (.commit (.ok ()) .written) => ∀ job metadata outcome,
      state.workers.lookup worker = some ⟨job, .fetched metadata outcome⟩ →
      quotaAllows config state.now (state.spool job.keyIdHex) outcome.body →
      rendersCopy metadata outcome = true →
      accountedBytes state.now (state.spool job.keyIdHex) + outcome.body.length +
          (externals.htmlToMarkdown outcome.body).length ≤ config.maxBytesPerClient.toNat
  | _ => True

/-! ### Sums over one directory -/

variable {now later : UInt64} {spool next : Spool} {metadata : RelayJobMetadata}

theorem account_le (now : UInt64) (metadata : RelayJobMetadata) :
    account now metadata ≤
      metadata.bodyLen.toNat + (metadata.normalizedLen.getD 0).toNat := by
  unfold account
  split
  · exact Nat.zero_le _
  · exact Nat.le_refl _

theorem account_le_of_le (hle : now ≤ later) (metadata : RelayJobMetadata) :
    account later metadata ≤ account now metadata := by
  unfold account
  split
  · exact Nat.zero_le _
  · next hlive => rw [if_neg fun h ↦ hlive (UInt64.le_trans h hle)]

theorem accountedBytes_le_of_le (hle : now ≤ later) (spool : Spool) :
    accountedBytes later spool ≤ accountedBytes now spool :=
  HashMap.total_le_total fun _ metadata _ ↦ account_le_of_le hle metadata

/-- Within the quota the usage count is the exact sum. -/
theorem toNat_clientUsage_eq (hwithin : accountedBytes now spool < 2 ^ 64) :
    (clientUsage now spool).2.toNat = accountedBytes now spool := by
  have hrecorded : recordedBytes now spool = accountedBytes now spool := by
    have hshare : ∀ jobId metadata, spool.jobs.lookup jobId = some metadata →
        (if metadata.expiresAtMs ≤ now then 0 else metadata.recorded.toNat) =
          account now metadata := by
      intro jobId metadata hlookup
      have hle : account now metadata ≤ accountedBytes now spool :=
        HashMap.measure_le_total (fun _ metadata ↦ account now metadata) hlookup
      unfold account at hle ⊢
      split
      · rfl
      · next hlive =>
        rw [if_neg hlive] at hle
        rw [RelayJobMetadata.recorded, UInt64.toNat_add]
        exact Nat.mod_eq_of_lt (hle.trans_lt hwithin)
    apply Nat.le_antisymm
    · exact HashMap.total_le_total fun jobId metadata h ↦ (hshare jobId metadata h).le
    · exact HashMap.total_le_total fun jobId metadata h ↦ (hshare jobId metadata h).ge
  rw [toNat_clientUsage, hrecorded, Nat.mod_eq_of_lt hwithin]

/-- The record can be written: with it in the place of its old version the quota holds. -/
def Fits (config : RelayConfig) (now : UInt64) (spool : Spool) (metadata : RelayJobMetadata) :
    Prop :=
  HashMap.total (spool.jobs.erase metadata.jobId) (fun _ other ↦ account now other) +
    account now metadata ≤ config.maxBytesPerClient.toNat

/-- A record that counts for nothing. -/
def RelayJobMetadata.Bare (metadata : RelayJobMetadata) : Prop :=
  metadata.bodyLen = 0 ∧ metadata.normalizedLen = none

/-- Every record of the second directory is one of the first, or bare. -/
def Shrinks (spool next : Spool) : Prop :=
  ∀ jobId metadata, next.jobs.lookup jobId = some metadata →
    spool.jobs.lookup jobId = some metadata ∨ metadata.Bare

variable {config : RelayConfig}

theorem account_of_bare (hbare : metadata.Bare) (now : UInt64) : account now metadata = 0 := by
  unfold account
  rw [hbare.1, hbare.2]
  split <;> rfl

theorem Shrinks.refl (spool : Spool) : Shrinks spool spool := fun _ _ h ↦ .inl h

theorem Shrinks.accountedBytes_le (h : Shrinks spool next) (now : UInt64) :
    accountedBytes now next ≤ accountedBytes now spool := by
  apply HashMap.total_le_of_lookup
  intro jobId metadata hlookup
  exact (h jobId metadata hlookup).imp_right fun hbare ↦ account_of_bare hbare now

theorem Fits.shrinks (hfits : Fits config now spool metadata) (h : Shrinks spool next)
    (hle : now ≤ later) : Fits config later next metadata := by
  have hothers : HashMap.total (next.jobs.erase metadata.jobId) (fun _ other ↦ account later other)
      ≤ HashMap.total (spool.jobs.erase metadata.jobId) (fun _ other ↦ account now other) := by
    calc
      _ ≤ HashMap.total (next.jobs.erase metadata.jobId) (fun _ other ↦ account now other) :=
        HashMap.total_le_total fun _ other _ ↦ account_le_of_le hle other
      _ ≤ _ := by
        apply HashMap.total_le_of_lookup
        intro jobId other hlookup
        obtain ⟨hne, hother⟩ := HashMap.lookup_of_lookup_erase hlookup
        rw [AList.lookup_erase_ne hne]
        exact (h jobId other hother).imp_right fun hbare ↦ account_of_bare hbare now
  exact (Nat.add_le_add hothers (account_le_of_le hle metadata)).trans hfits

/-- The record on disk fits. -/
theorem fits_of_lookup (hwithin : accountedBytes now spool ≤ config.maxBytesPerClient.toNat)
    (hlookup : spool.jobs.lookup metadata.jobId = some metadata) :
    Fits config now spool metadata := by
  have herase := HashMap.total_erase_add spool.jobs (fun _ other ↦ account now other)
    metadata.jobId
  rw [hlookup, Option.elim_some] at herase
  rw [Fits, herase]
  exact hwithin

theorem Fits.revise {revised : RelayJobMetadata} (hfits : Fits config now spool metadata)
    (hname : revised.jobId = metadata.jobId) (hle : account now revised ≤ account now metadata) :
    Fits config now spool revised := by
  rw [Fits, hname]
  exact (Nat.add_le_add_left hle _).trans hfits

/-- After it is written, a record that fits still does, and so does the sum. -/
theorem Fits.record (hfits : Fits config now spool metadata) :
    accountedBytes now (spool.record metadata) ≤ config.maxBytesPerClient.toNat := by
  rw [accountedBytes, Spool.record, HashMap.total_insert, Nat.add_comm]
  exact hfits

theorem Fits.recorded (hfits : Fits config now spool metadata) :
    Fits config now (spool.record metadata) metadata := by
  rw [Fits, Spool.record, HashMap.total_erase_insert]
  exact hfits

/-! ### One worker -/

/-- The copy of a stored result with the length of its normalized copy. -/
def renderedCopy (externals : Externals) (metadata : RelayJobMetadata) (outcome : JobOutcome) :
    RelayJobMetadata :=
  if rendersCopy metadata outcome then
    { metadata with
      normalizedLen := some (UInt64.ofNat (externals.htmlToMarkdown outcome.body).length) }
  else metadata

/-- The largest record that a worker is going to write. -/
def Phase.pledge (externals : Externals) : Phase → Option RelayJobMetadata
  | stored metadata outcome => some (renderedCopy externals metadata outcome)
  | phase => phase.copy

/-- A directory within its quota, in which only complete jobs have normalized copies. -/
structure Directory (config : RelayConfig) (now : UInt64) (spool : Spool) : Prop where
  within : accountedBytes now spool ≤ config.maxBytesPerClient.toNat
  plain : ∀ jobId metadata, spool.jobs.lookup jobId = some metadata →
    metadata.status ≠ .complete → metadata.normalizedLen = none

/-- The job of a worker has no normalized copy on disk, nor in the worker's own copy before it is
rendered, and the record that the worker is going to write fits. -/
structure Phase.Solvent (externals : Externals) (config : RelayConfig) (now : UInt64)
    (spool : Spool) (jobId : String) (phase : Phase) : Prop where
  plain : phase ≠ .taken → ∀ metadata, spool.jobs.lookup jobId = some metadata →
    metadata.normalizedLen = none
  copies : ∀ metadata, phase.copy = some metadata → phase ≠ .completing metadata →
    metadata.normalizedLen = none
  fits : ∀ metadata, phase.pledge externals = some metadata → Fits config now spool metadata

variable {externals : Externals} {jobId : String} {phase : Phase} {event : WorkerEvent}
  {after : Option Phase}

theorem Directory.shrinks (h : Directory config now spool) (hshrinks : Shrinks spool next)
    (hle : now ≤ later) : Directory config later next where
  within :=
    ((accountedBytes_le_of_le hle next).trans (hshrinks.accountedBytes_le now)).trans h.within
  plain jobId metadata hlookup hstatus := by
    rcases hshrinks jobId metadata hlookup with hkept | hbare
    · exact h.plain jobId metadata hkept hstatus
    · exact hbare.2

theorem Phase.Solvent.shrinks (h : phase.Solvent externals config now spool jobId)
    (hshrinks : Shrinks spool next) (hle : now ≤ later) :
    phase.Solvent externals config later next jobId where
  plain hphase metadata hlookup := by
    rcases hshrinks jobId metadata hlookup with hkept | hbare
    · exact h.plain hphase metadata hkept
    · exact hbare.2
  copies := h.copies
  fits metadata hpledge := (h.fits metadata hpledge).shrinks hshrinks hle

theorem solvent_taken : Phase.Solvent externals config now spool jobId .taken where
  plain h := absurd rfl h
  copies _ h := nomatch h
  fits _ h := nomatch h

/-- What a normalization leaves. -/
theorem phase_of_normalize {outcome : JobOutcome} {result : WriteResult}
    (h : workerStep externals config now spool jobId (.stored metadata outcome)
      (.normalize result) = some (next, after)) :
    next.jobs = spool.jobs ∧
      (after = some (.completing (renderedCopy externals metadata outcome)) ∨
        ∃ error, after = some (.failing error)) := by
  have hresult : some ((Relay.normalize externals spool metadata outcome result).1,
      some (Relay.normalize externals spool metadata outcome result).2) = some (next, after) := h
  obtain ⟨rfl, rfl⟩ := Prod.mk.inj (Option.some.inj hresult)
  unfold Relay.normalize renderedCopy rendersCopy
  split
  · cases result with
    | written => exact ⟨rfl, .inl rfl⟩
    | failed error left => exact ⟨rfl, .inr ⟨error, rfl⟩⟩
  · exact ⟨rfl, .inl rfl⟩

/-- What a commit that stores its result has checked. -/
theorem checked_of_commit {outcome : JobOutcome} {usage : Except String Unit}
    {result : WriteResult} {stored : RelayJobMetadata}
    (h : workerStep externals config now spool jobId (.fetched metadata outcome)
      (.commit usage result) = some (next, some (.stored stored outcome))) :
    usage = .ok () ∧ quotaAllows config now spool outcome.body ∧
      outcome.body.length ≤ config.maxObjectLen.toNat := by
  have hphase : (commit externals config now spool metadata outcome usage result).2 =
      .stored stored outcome :=
    Option.some.inj (Prod.mk.inj (Option.some.inj h)).2
  unfold commit at hphase
  split at hphase
  · cases hphase
  · split at hphase
    · cases hphase
    · next hquota =>
      split at hphase
      · cases hphase
      · next hlimit => exact ⟨rfl, not_not.mp hquota, not_lt.mp hlimit⟩

theorem shrinks_of_jobs (h : next.jobs = spool.jobs) : Shrinks spool next := by
  intro jobId metadata hlookup
  rw [h] at hlookup
  exact .inl hlookup

theorem solvent_failing {error : String}
    (hplain : ∀ metadata, spool.jobs.lookup jobId = some metadata →
      metadata.normalizedLen = none) :
    Phase.Solvent externals config now spool jobId (.failing error) where
  plain _ := hplain
  copies _ h := nomatch h
  fits _ h := nomatch h

/-- A worker with a copy that it has not revised. -/
theorem solvent_of_copy (hcopy : phase.copy = some metadata)
    (hpledge : phase.pledge externals = phase.copy)
    (hplain : ∀ metadata, spool.jobs.lookup jobId = some metadata →
      metadata.normalizedLen = none)
    (hnone : metadata.normalizedLen = none) (hfits : Fits config now spool metadata) :
    phase.Solvent externals config now spool jobId where
  plain _ := hplain
  copies copied hcopied _ := by
    obtain rfl := Option.some.inj (hcopy.symm.trans hcopied)
    exact hnone
  fits copied hcopied := by
    obtain rfl := Option.some.inj (hcopy.symm.trans (hpledge.symm.trans hcopied))
    exact hfits

/-- The quota check and the room for the normalized copy make the stored result fit. -/
theorem fits_of_checked {outcome : JobOutcome}
    (hwithin : accountedBytes now spool ≤ config.maxBytesPerClient.toNat)
    (hnone : metadata.normalizedLen = none)
    (hquota : quotaAllows config now spool outcome.body)
    (hlimit : outcome.body.length ≤ config.maxObjectLen.toNat)
    (hroom : rendersCopy metadata outcome = true → accountedBytes now spool +
      outcome.body.length + (externals.htmlToMarkdown outcome.body).length ≤
        config.maxBytesPerClient.toNat) :
    Fits config now spool
      (renderedCopy externals (storedMetadata externals metadata outcome) outcome) := by
  have hmax : config.maxBytesPerClient.toNat ≤ 2 ^ 63 - 1 :=
    UInt64.le_iff_toNat_le.mp config.maxBytesPerClient_le
  have hbody : (UInt64.ofNat outcome.body.length).toNat = outcome.body.length := by
    have hlt := config.maxObjectLen.toNat_lt
    rw [UInt64.toNat_ofNat']
    omega
  have hsum := UInt64.le_iff_toNat_le.mp hquota
  rw [toNat_saturatingAdd, toNat_clientUsage_eq (by omega), hbody] at hsum
  have hothers : HashMap.total (spool.jobs.erase metadata.jobId)
      (fun _ other ↦ account now other) ≤ accountedBytes now spool := by
    have herase := HashMap.total_erase_add spool.jobs (fun _ other ↦ account now other)
      metadata.jobId
    rw [accountedBytes]
    omega
  have hname : (renderedCopy externals (storedMetadata externals metadata outcome) outcome).jobId =
      metadata.jobId := by
    unfold renderedCopy
    split <;> rfl
  have hshare : account now (renderedCopy externals (storedMetadata externals metadata outcome)
      outcome) ≤ outcome.body.length + if rendersCopy metadata outcome then
        (externals.htmlToMarkdown outcome.body).length else 0 := by
    have hrenders : rendersCopy (storedMetadata externals metadata outcome) outcome =
        rendersCopy metadata outcome := rfl
    unfold renderedCopy
    rw [hrenders]
    split
    · apply (account_le _ _).trans
      change (UInt64.ofNat outcome.body.length).toNat +
        (UInt64.ofNat (externals.htmlToMarkdown outcome.body).length).toNat ≤ _
      rw [hbody, UInt64.toNat_ofNat']
      exact Nat.add_le_add_left (Nat.mod_le _ _) _
    · apply (account_le _ _).trans
      change (UInt64.ofNat outcome.body.length).toNat + (metadata.normalizedLen.getD 0).toNat ≤ _
      rw [hbody, hnone]
      exact Nat.le_refl _
  rw [Fits, hname]
  split at hshare
  · next hrenders =>
    have hfull := hroom hrenders
    omega
  · omega

theorem Directory.record (h : Directory config now spool) (hfits : Fits config now spool metadata)
    (hplain : metadata.status ≠ .complete → metadata.normalizedLen = none) :
    Directory config now (spool.record metadata) where
  within := hfits.record
  plain jobId other hlookup hstatus := by
    rw [Spool.record, HashMap.lookup_insert_ite] at hlookup
    split at hlookup
    · obtain rfl := Option.some.inj hlookup
      exact hplain hstatus
    · exact h.plain jobId other hlookup hstatus

theorem pledge_of_fetchCopy (externals : Externals) (h : phase.fetchCopy = some metadata) :
    phase.pledge externals = phase.copy ∧ phase ≠ .taken ∧ phase ≠ .completing metadata := by
  cases phase with
  | fetching _ | cloning _ | bundling _ | collecting _ => exact ⟨rfl, nofun, nofun⟩
  | taken | marking _ | fetched _ _ | stored _ _ | completing _ | failing _ | failWriting _ =>
    cases h

theorem Phase.Solvent.fetch {later : Phase} (h : phase.Solvent externals config now spool jobId)
    (hphase : phase.fetchCopy = some metadata)
    (hlater : later.fetchCopy = some metadata ∨ (∃ outcome, later = .fetched metadata outcome) ∨
      ∃ error, later = .failing error) (hjobs : next.jobs = spool.jobs) :
    later.Solvent externals config now next jobId := by
  have hcopy := Phase.copy_of_fetchCopy hphase
  obtain ⟨hpledge, htaken, hcompleting⟩ := pledge_of_fetchCopy externals hphase
  have hplain : ∀ metadata, next.jobs.lookup jobId = some metadata →
      metadata.normalizedLen = none := by
    rw [hjobs]
    exact h.plain htaken
  have hnone := h.copies metadata hcopy hcompleting
  have hfits := (h.fits metadata (hpledge.trans hcopy)).shrinks (shrinks_of_jobs hjobs)
    (UInt64.le_refl now)
  rcases hlater with hfetch | ⟨outcome, rfl⟩ | ⟨error, rfl⟩
  · exact solvent_of_copy (Phase.copy_of_fetchCopy hfetch)
      (pledge_of_fetchCopy externals hfetch).1 hplain hnone hfits
  · exact solvent_of_copy rfl rfl hplain hnone hfits
  · exact solvent_failing hplain

theorem Phase.Solvent.normalize {outcome : JobOutcome} {result : WriteResult}
    (h : Phase.Solvent externals config now spool jobId (.stored metadata outcome))
    (hwork : workerStep externals config now spool jobId (.stored metadata outcome)
      (.normalize result) = some (next, after)) :
    next.jobs = spool.jobs ∧
      ∀ later, after = some later → later.Solvent externals config now next jobId := by
  obtain ⟨hjobs, hafter⟩ := phase_of_normalize hwork
  have hplain : ∀ metadata, next.jobs.lookup jobId = some metadata →
      metadata.normalizedLen = none := by
    rw [hjobs]
    exact h.plain nofun
  refine ⟨hjobs, ?_⟩
  rintro later rfl
  rcases hafter with hcompleting | ⟨error, hfailing⟩
  · obtain rfl := Option.some.inj hcompleting
    refine ⟨fun _ ↦ hplain, ?_, ?_⟩
    · intro copied hcopied hne
      obtain rfl := Option.some.inj hcopied
      exact absurd rfl hne
    · intro copied hcopied
      obtain rfl := Option.some.inj hcopied
      exact (h.fits _ rfl).shrinks (shrinks_of_jobs hjobs) (UInt64.le_refl now)
  · obtain rfl := Option.some.inj hfailing
    exact solvent_failing hplain

theorem Directory.load (h : Directory config now spool)
    (hrecord : spool.jobs.lookup jobId = some metadata) (hfits : Fits config now spool metadata)
    (hstatus : metadata.status ≠ .complete) :
    Phase.Solvent externals config now spool jobId (.marking metadata) := by
  have hnone := h.plain jobId metadata hrecord hstatus
  apply solvent_of_copy rfl rfl _ hnone hfits
  intro other hother
  obtain rfl := Option.some.inj (hrecord.symm.trans hother)
  exact hnone

theorem Phase.Solvent.mark
    (h : Phase.Solvent externals config now spool jobId (.marking metadata))
    (hdirectory : Directory config now spool) (hname : metadata.jobId = jobId) :
    Directory config now (spool.record (runningCopy now metadata)) ∧
      Phase.Solvent externals config now (spool.record (runningCopy now metadata)) jobId
        (.fetching (runningCopy now metadata)) := by
  have hnone : (runningCopy now metadata).normalizedLen = none := h.copies metadata rfl nofun
  have hfits : Fits config now spool (runningCopy now metadata) :=
    (h.fits metadata rfl).revise rfl (Nat.le_refl _)
  constructor
  · exact hdirectory.record hfits fun _ ↦ hnone
  · apply solvent_of_copy rfl rfl _ hnone hfits.recorded
    intro other hother
    have hname' : jobId = (runningCopy now metadata).jobId := hname.symm
    rw [Spool.record, hname', AList.lookup_insert] at hother
    rw [← Option.some.inj hother]
    exact hnone

theorem Phase.Solvent.store {outcome : JobOutcome}
    (h : Phase.Solvent externals config now spool jobId (.fetched metadata outcome))
    (hfits : Fits config now spool
      (renderedCopy externals (storedMetadata externals metadata outcome) outcome))
    (hjobs : next.jobs = spool.jobs) :
    Phase.Solvent externals config now next jobId
      (.stored (storedMetadata externals metadata outcome) outcome) where
  plain _ := by
    rw [hjobs]
    exact h.plain nofun
  copies copied hcopied _ := by
    rw [← Option.some.inj hcopied]
    exact h.copies metadata rfl nofun
  fits copied hcopied := by
    rw [← Option.some.inj hcopied]
    exact hfits.shrinks (shrinks_of_jobs hjobs) (UInt64.le_refl now)

/-- A worker keeps its directory within the quota, and its own record fitting. -/
theorem Phase.Solvent.work (hdirectory : Directory config now spool)
    (hfiled : ∀ metadata, spool.jobs.lookup jobId = some metadata → metadata.jobId = jobId)
    (h : phase.Solvent externals config now spool jobId)
    (hnamed : ∀ copied, phase.copy = some copied → copied.jobId = jobId)
    (hroom : ∀ metadata outcome, phase = .fetched metadata outcome →
      event = .commit (.ok ()) .written → quotaAllows config now spool outcome.body →
      rendersCopy metadata outcome = true → accountedBytes now spool + outcome.body.length +
        (externals.htmlToMarkdown outcome.body).length ≤ config.maxBytesPerClient.toNat)
    (hwork : workerStep externals config now spool jobId phase event = some (next, after)) :
    Directory config now next ∧
      ∀ later, after = some later → later.Solvent externals config now next jobId := by
  have hsame (hjobs : next.jobs = spool.jobs) : Directory config now next :=
    hdirectory.shrinks (shrinks_of_jobs hjobs) (UInt64.le_refl now)
  have hplain (hjobs : next.jobs = spool.jobs) (hphase : phase ≠ .taken) :
      ∀ metadata, next.jobs.lookup jobId = some metadata → metadata.normalizedLen = none := by
    rw [hjobs]
    exact h.plain hphase
  have hlookup {metadata : RelayJobMetadata} (h : spool.jobs.lookup jobId = some metadata) :
      Fits config now spool metadata := by
    apply fits_of_lookup hdirectory.within
    rw [hfiled metadata h]
    exact h
  cases action_of_workerStep hwork with
  | leave _ => exact ⟨hsame rfl, by rintro later ⟨⟩⟩
  | vanished _ => exact ⟨hsame rfl, by rintro later ⟨⟩⟩
  | unfailed _ => exact ⟨hsame rfl, by rintro later ⟨⟩⟩
  | @load readable metadata hrecord hstatus =>
    refine ⟨hsame rfl, ?_⟩
    rintro later ⟨⟩
    exact hdirectory.load hrecord (hlookup hrecord) hstatus
  | @mark metadata _ =>
    obtain ⟨hmarked, hsolvent⟩ := h.mark hdirectory (hnamed metadata rfl)
    refine ⟨hmarked, ?_⟩
    rintro later ⟨⟩
    exact hsolvent
  | @fetch _ later _ metadata _ hphase hjobs _ _ hafter _ _ =>
    refine ⟨hsame hjobs, ?_⟩
    rintro later ⟨⟩
    exact h.fetch hphase hafter hjobs
  | @store metadata outcome usage =>
    obtain ⟨rfl, hquota, hlimit⟩ := checked_of_commit hwork
    have hnone : metadata.normalizedLen = none := h.copies metadata rfl nofun
    have hfits : Fits config now spool
        (renderedCopy externals (storedMetadata externals metadata outcome) outcome) :=
      fits_of_checked hdirectory.within hnone hquota hlimit
        (hroom metadata outcome rfl rfl hquota)
    refine ⟨hsame rfl, ?_⟩
    rintro later ⟨⟩
    exact h.store hfits rfl
  | refuse hnext =>
    have hjobs : next.jobs = spool.jobs := by
      rcases hnext with rfl | ⟨left, _, rfl⟩
      · rfl
      · rfl
    refine ⟨hsame hjobs, ?_⟩
    rintro later ⟨⟩
    exact solvent_failing (hplain hjobs nofun)
  | plain | normalize | normalizeFailed _ _ _ _ =>
    obtain ⟨hjobs, hlater⟩ := h.normalize hwork
    exact ⟨hsame hjobs, hlater⟩
  | @complete metadata _ =>
    have hfits : Fits config now spool (completeCopy now metadata) :=
      (h.fits metadata rfl).revise rfl (Nat.le_refl _)
    exact ⟨hdirectory.record hfits fun hstatus ↦ absurd rfl hstatus, by rintro later ⟨⟩⟩
  | @unwritten _ _ metadata error fault hphase =>
    have htaken : phase ≠ .taken := by
      rcases hphase with ⟨rfl, -⟩ | ⟨rfl, -⟩
      · exact nofun
      · exact nofun
    refine ⟨hsame rfl, ?_⟩
    rintro later ⟨⟩
    exact solvent_failing (hplain rfl htaken)
  | @reload error readable metadata hrecord =>
    have hnone := h.plain nofun metadata hrecord
    refine ⟨hsame rfl, ?_⟩
    rintro later ⟨⟩
    exact solvent_of_copy rfl rfl (hplain rfl nofun) hnone
      ((hlookup hrecord).revise rfl (Nat.le_refl _))
  | @fail metadata _ =>
    have hfits : Fits config now spool { metadata with updatedAtMs := now } :=
      (h.fits metadata rfl).revise rfl (Nat.le_refl _)
    exact ⟨hdirectory.record hfits fun _ ↦ h.copies metadata rfl nofun, by rintro later ⟨⟩⟩

/-! ### Runs -/

/-- Every directory is within its quota, and the only worker keeps it so. -/
structure Covered (externals : Externals) (config : RelayConfig) (state : State) : Prop where
  directory : ∀ client, Directory config state.now (state.spool client)
  single : ∀ worker held, state.workers.lookup worker = some held → worker = 0
  solvent : ∀ worker job phase, state.workers.lookup worker = some ⟨job, phase⟩ →
    phase.Solvent externals config state.now (state.spool job.keyIdHex) job.jobId

theorem covered_start (externals : Externals) (config : RelayConfig) (now : UInt64) :
    Covered externals config (State.start now) where
  directory _ := ⟨Nat.zero_le _, fun _ _ h ↦ by cases h⟩
  single _ _ h := by cases h
  solvent _ _ _ h := by cases h

section Steps

variable {state afterState : State} {engineEvent : Event} {emitted : Option Output}

theorem shrinks_remove (spool : Spool) (fileName jobId : String) (stage : Stage) :
    Shrinks spool (spool.remove fileName jobId stage) := by
  intro other metadata hlookup
  cases stage with
  | primary | normalized => exact .inl hlookup
  | metadata => exact .inl (HashMap.lookup_of_lookup_erase hlookup).2

theorem shrinks_setSpool {client : String} (h : Shrinks (state.spool client) spool)
    (other : String) : Shrinks (state.spool other) ((state.setSpool client spool).spool other) := by
  rw [State.spool_setSpool]
  split
  · next hclient => rwa [hclient]
  · exact .refl _

/-- Outside of the workers no record gets larger. -/
theorem shrinks_of_effect (heffect : Effect externals config state engineEvent afterState emitted)
    (hevent : ∀ worker workerEvent, engineEvent ≠ .work worker workerEvent) (client : String) :
    Shrinks (state.spool client) (afterState.spool client) := by
  cases heffect with
  | tick _ => exact .refl _
  | quiet hsame _ =>
    rw [spool_of_spools hsame.spools]
    exact .refl _
  | @accepted keyId submission _ _ _ _ hspools =>
    rw [hspools]
    apply shrinks_setSpool
    intro jobId metadata hlookup
    rw [HashMap.lookup_insert_ite] at hlookup
    split at hlookup
    · right
      rw [← Option.some.inj hlookup]
      exact ⟨rfl, rfl⟩
    · exact .inl hlookup
  | deleted _ _ _ _ hspools =>
    rw [hspools]
    exact shrinks_setSpool (shrinks_remove _ _ _ _) client
  | removed _ _ _ hspools _ =>
    rw [hspools]
    exact shrinks_setSpool (shrinks_remove _ _ _ _) client
  | taken _ _ hspools _ =>
    rw [spool_of_spools hspools]
    exact .refl _
  | worked _ _ => exact absurd rfl (hevent _ _)
  | crashed _ hspools _ =>
    rw [spool_of_spools hspools]
    exact .refl _

/-- Outside of the workers none moves on; the one that takes a job is the first of a pool of one. -/
theorem workers_of_step (hsingle : config.workerCount ≤ 1)
    (hstep : step externals config state engineEvent = some (afterState, emitted))
    (hevent : ∀ worker workerEvent, engineEvent ≠ .work worker workerEvent) {worker : ℕ}
    {held : Worker} (hheld : afterState.workers.lookup worker = some held) :
    state.workers.lookup worker = some held ∨ worker = 0 ∧ held.phase = .taken := by
  cases effect_of_step hstep with
  | tick _ => exact .inl hheld
  | quiet hsame _ => exact .inl (hsame.workers ▸ hheld)
  | accepted _ hworkers _ => exact .inl (hworkers ▸ hheld)
  | deleted _ _ _ hworkers _ => exact .inl (hworkers ▸ hheld)
  | removed _ _ hworkers _ _ => exact .inl (hworkers ▸ hheld)
  | @taken taker job _ _ _ _ hworkers =>
    have htaker : taker = 0 := by
      cases stepped_of_step hstep with
      | take hlt _ _ => omega
    rw [hworkers, HashMap.lookup_insert_ite] at hheld
    split at hheld
    · next hsame =>
      right
      rw [← Option.some.inj hheld]
      exact ⟨hsame.trans htaker, rfl⟩
    · exact .inl hheld
  | worked _ _ => exact absurd rfl (hevent _ _)
  | crashed _ _ hworkers =>
    rw [hworkers] at hheld
    cases hheld

theorem Covered.outside (h : Covered externals config state) (hsingle : config.workerCount ≤ 1)
    (hevent : ∀ worker workerEvent, engineEvent ≠ .work worker workerEvent)
    (hstep : step externals config state engineEvent = some (afterState, emitted)) :
    Covered externals config afterState := by
  have hnow := (effect_of_step hstep).now_le
  have hshrinks := shrinks_of_effect (effect_of_step hstep) hevent
  refine ⟨fun client ↦ (h.directory client).shrinks (hshrinks client) hnow, ?_, ?_⟩
  · intro worker held hheld
    rcases workers_of_step hsingle hstep hevent hheld with hkept | ⟨hzero, -⟩
    · exact h.single worker held hkept
    · exact hzero
  · intro worker job phase hheld
    rcases workers_of_step hsingle hstep hevent hheld with hkept | ⟨-, htaken⟩
    · exact (h.solvent worker job phase hkept).shrinks (hshrinks job.keyIdHex) hnow
    · obtain rfl : phase = .taken := htaken
      exact solvent_taken

theorem Covered.work {worker : ℕ} {workerEvent : WorkerEvent}
    (h : Covered externals config state) (hnamed : Named state)
    (hroom : LeavesRoom externals config state (.work worker workerEvent))
    (hstep : step externals config state (.work worker workerEvent) =
      some (afterState, emitted)) :
    Covered externals config afterState := by
  obtain ⟨⟨job, phase⟩, hworker, hmoved⟩ := Option.bind_eq_some_iff.mp hstep
  obtain ⟨⟨spool, after⟩, hwork, heq⟩ := Option.map_eq_some_iff.mp hmoved
  obtain ⟨rfl, rfl⟩ := Prod.mk.inj heq
  obtain ⟨hdirectory, hsolvent⟩ := (h.solvent worker job phase hworker).work
    (h.directory job.keyIdHex) (hnamed.records job.keyIdHex job.jobId)
    (fun copied hcopied ↦ hnamed.copies worker job phase copied hworker hcopied)
    (by
      rintro metadata outcome rfl rfl
      exact hroom job metadata outcome hworker) hwork
  refine ⟨?_, ?_, ?_⟩
  · intro client
    rw [State.now_setWorker, State.spool_setWorker, State.spool_setSpool]
    split
    · exact hdirectory
    · exact h.directory client
  · intro other held hheld
    rw [State.lookup_setWorker] at hheld
    split at hheld
    · next hsame => exact hsame.trans (h.single worker _ hworker)
    · exact h.single other held hheld
  · intro other job' phase' hheld
    rw [State.lookup_setWorker] at hheld
    split at hheld
    · obtain ⟨later, rfl, hmk⟩ := Option.map_eq_some_iff.mp hheld
      obtain ⟨rfl, rfl⟩ : job = job' ∧ later = phase' := by simpa using hmk
      rw [State.now_setWorker, State.spool_setWorker, State.spool_setSpool, if_pos rfl]
      exact hsolvent later rfl
    · next hne =>
      -- there is no other worker
      have hsame := (h.single other _ hheld).trans (h.single worker _ hworker).symm
      exact absurd hsame hne

theorem Covered.step (h : Covered externals config state) (hsingle : config.workerCount ≤ 1)
    (hnamed : Named state) (hroom : LeavesRoom externals config state engineEvent)
    (hstep : step externals config state engineEvent = some (afterState, emitted)) :
    Covered externals config afterState := by
  by_cases hevent : ∀ worker workerEvent, engineEvent ≠ .work worker workerEvent
  · exact h.outside hsingle hevent hstep
  · push Not at hevent
    obtain ⟨worker, workerEvent, rfl⟩ := hevent
    exact h.work hnamed hroom hstep

/-- With a single worker the bodies and the normalized copies of all live jobs of a client fit the
quota in every state of a run in which each result that passes the quota check leaves room for its
normalized copy. -/
theorem quota_covers_normalized {start : UInt64} {events : List Event} {outputs : List Output}
    {last : State} (hsingle : config.workerCount ≤ 1)
    (hrun : Run (step externals config) (LeavesRoom externals config) (State.start start) events
      outputs last) (client : String) :
    accountedBytes last.now (last.spool client) ≤ config.maxBytesPerClient.toNat := by
  have hinv : Named last ∧ Covered externals config last := by
    refine hrun.invariant (fun _ state ↦ Named state ∧ Covered externals config state)
      ⟨named_start start, covered_start externals config start⟩ ?_
    rintro _ state event next emitted ⟨hnamed, hcovered⟩ hroom hstep
    exact ⟨hnamed.effect (effect_of_step hstep), hcovered.step hsingle hnamed hroom hstep⟩
  exact (hinv.2.directory client).within

end Steps

/-! ### One job -/

section SampleRuns

open Sample

/-- The normalizer on a body of ASCII text. -/
def renderAscii (body : Bytes) : Bytes :=
  ((Normalize.htmlToMarkdown (body.map fun byte ↦ Char.ofNat byte.toNat)).getD []).flatMap
    String.utf8EncodeChar

def rendering : Externals := { Sample.externals with htmlToMarkdown := renderAscii }

/-- A single worker, and a quota of four bytes or of three. -/
def narrow (wide : Bool) : RelayConfig :=
  { RelayConfig.default with
    maxBytesPerClient := if wide then 4 else 3
    workerCount := 1
    maxBytesPerClient_le := by cases wide <;> decide }

def submitHtml : Event := .submit keyId (.web sourceA true) true none

def acceptedHtml : Output := .answered keyId (.submit (.web sourceA true)) (.accepted jobA.jobId)

def htmlResponse : HttpResponse := ⟨200, some "text/html", some 2, body⟩

def htmlOutcome : JobOutcome := ⟨body, some 200, some "text/html"⟩

def pendingHtml (status : JobStatus) : RelayJobMetadata :=
  { pending jobA sourceA status with normalize := true }

def finishedHtml (status : JobStatus) (normalizedLen : Option UInt64) : RelayJobMetadata :=
  { finished jobA sourceA status with
    normalize := true
    contentType := some "text/html"
    normalizedLen := normalizedLen }

/-- The job as the only one, with its files and its worker. -/
def htmlAlone (metadata : RelayJobMetadata) (primary normalized : HashMap String Bytes)
    (queue : List JobRef) (workers : HashMap ℕ Worker) : State :=
  { State.start 1000 with
    spools := AList.insert client ⟨AList.insert jobA.jobId metadata ∅, primary, normalized, ∅⟩ ∅
    queue := queue
    workers := workers }

def htmlFetched : State :=
  htmlAlone (pendingHtml .running) ∅ ∅ [] (workerA (.fetched (pendingHtml .running) htmlOutcome))

def htmlObject : HashMap String Bytes := AList.insert jobA.jobId body ∅

def htmlComplete : State :=
  htmlAlone (finishedHtml .complete (some 2)) htmlObject htmlObject [] ∅

def htmlEvents : List Event :=
  [submitHtml, .take 0, .work 0 (.read true), .work 0 (.writeRunning none),
    .work 0 (.webFetched (.ok htmlResponse)), .work 0 (.commit (.ok ()) .written),
    .work 0 (.normalize .written), .work 0 (.writeComplete none)]

/-- The job from its submission to its end. -/
theorem run_html (wide : Bool) (guard : State → Event → Prop)
    (hroutine : ∀ state event, Routine event → guard state event)
    (hsubmit : guard (State.start 1000) submitHtml)
    (hcommit : guard htmlFetched (.work 0 (.commit (.ok ()) .written))) :
    Run (step rendering (narrow wide)) guard (State.start 1000) htmlEvents [acceptedHtml]
      htmlComplete := by
  have hnil : Run (step rendering (narrow wide)) guard (State.start 1000) [] []
      (State.start 1000) := .nil
  have hstep₁ : step rendering (narrow wide) (State.start 1000) submitHtml =
      some (htmlAlone (pendingHtml .queued) ∅ ∅ [jobA] ∅, some acceptedHtml) := by
    cases wide <;> decide +kernel
  have hstep₂ : step rendering (narrow wide) (htmlAlone (pendingHtml .queued) ∅ ∅ [jobA] ∅)
      (.take 0) = some (htmlAlone (pendingHtml .queued) ∅ ∅ [] (workerA .taken), none) := by
    cases wide <;> decide +kernel
  have hstep₃ : step rendering (narrow wide)
      (htmlAlone (pendingHtml .queued) ∅ ∅ [] (workerA .taken)) (.work 0 (.read true)) =
      some (htmlAlone (pendingHtml .queued) ∅ ∅ [] (workerA (.marking (pendingHtml .queued))),
        none) := by
    cases wide <;> decide +kernel
  have hstep₄ : step rendering (narrow wide)
      (htmlAlone (pendingHtml .queued) ∅ ∅ [] (workerA (.marking (pendingHtml .queued))))
      (.work 0 (.writeRunning none)) =
      some (htmlAlone (pendingHtml .running) ∅ ∅ [] (workerA (.fetching (pendingHtml .running))),
        none) := by
    cases wide <;> decide +kernel
  have hstep₅ : step rendering (narrow wide)
      (htmlAlone (pendingHtml .running) ∅ ∅ [] (workerA (.fetching (pendingHtml .running))))
      (.work 0 (.webFetched (.ok htmlResponse))) = some (htmlFetched, none) := by
    cases wide <;> decide +kernel
  have hstep₆ : step rendering (narrow wide) htmlFetched
      (.work 0 (.commit (.ok ()) .written)) =
      some (htmlAlone (pendingHtml .running) htmlObject ∅ []
        (workerA (.stored (finishedHtml .running none) htmlOutcome)), none) := by
    cases wide <;> decide +kernel
  have hstep₇ : step rendering (narrow wide)
      (htmlAlone (pendingHtml .running) htmlObject ∅ []
        (workerA (.stored (finishedHtml .running none) htmlOutcome)))
      (.work 0 (.normalize .written)) =
      some (htmlAlone (pendingHtml .running) htmlObject htmlObject []
        (workerA (.completing (finishedHtml .running (some 2)))), none) := by
    cases wide <;> decide +kernel
  have hstep₈ : step rendering (narrow wide)
      (htmlAlone (pendingHtml .running) htmlObject htmlObject []
        (workerA (.completing (finishedHtml .running (some 2)))))
      (.work 0 (.writeComplete none)) = some (htmlComplete, none) := by
    cases wide <;> decide +kernel
  have hrunning := (((hnil.snoc hsubmit hstep₁).snoc (hroutine _ _ (by trivial)) hstep₂).snoc
    (hroutine _ _ (by trivial)) hstep₃).snoc (hroutine _ _ (by trivial)) hstep₄
  have hstored := (hrunning.snoc (hroutine _ _ (by trivial)) hstep₅).snoc hcommit hstep₆
  exact (hstored.snoc (hroutine _ _ (by trivial)) hstep₇).snoc (hroutine _ _ (by trivial)) hstep₈

/-- A quota of four bytes has room for the body and for the normalized copy. -/
theorem quota_covers_normalized_wide :
    ∃ events outputs last,
      Run (step rendering (narrow true)) (LeavesRoom rendering (narrow true)) (State.start 1000)
        events outputs last ∧
      (last.spool client).jobs.lookup jobA.jobId = some (finishedHtml .complete (some 2)) ∧
      accountedBytes last.now (last.spool client) ≤ (narrow true).maxBytesPerClient.toNat := by
  have hroutine (state : State) (event : Event) (h : Routine event) :
      LeavesRoom rendering (narrow true) state event := by
    unfold LeavesRoom
    split
    · exact h.elim
    · trivial
  have hcommit : LeavesRoom rendering (narrow true) htmlFetched
      (.work 0 (.commit (.ok ()) .written)) := by
    intro job metadata outcome hheld _ _
    have hworker : htmlFetched.workers.lookup 0 =
        some ⟨jobA, .fetched (pendingHtml .running) htmlOutcome⟩ := by decide +kernel
    obtain ⟨rfl, rfl, rfl⟩ : jobA = job ∧ pendingHtml .running = metadata ∧
        htmlOutcome = outcome := by
      simpa using hworker.symm.trans hheld
    decide +kernel
  have hrun := run_html true (LeavesRoom rendering (narrow true)) hroutine trivial hcommit
  exact ⟨_, _, _, hrun, by decide +kernel, quota_covers_normalized (by decide) hrun client⟩

/-- Web fetches with normalization, and a worker. -/
def FetchesHtml : Event → Prop
  | .submit _ (.web _ normalize) _ _ => normalize = true
  | .tick _ | .take _ | .work _ _ => True
  | _ => False

/-- A body of two bytes passes the check under a quota of three, and its normalized copy is stored
and recorded besides. -/
theorem quota_exceeded_by_normalized :
    ∃ events outputs last,
      (narrow false).workerCount ≤ 1 ∧
      Run (step rendering (narrow false)) (fun _ event ↦ FetchesHtml event) (State.start 1000)
        events outputs last ∧
      (last.spool client).jobs.lookup jobA.jobId = some (finishedHtml .complete (some 2)) ∧
      ¬accountedBytes last.now (last.spool client) ≤ (narrow false).maxBytesPerClient.toNat := by
  have hroutine (state : State) (event : Event) (h : Routine event) : FetchesHtml event := by
    cases event <;> first | exact h.elim | trivial
  have hrun := run_html false (fun _ event ↦ FetchesHtml event) hroutine rfl trivial
  exact ⟨_, _, _, by decide, hrun, by decide +kernel, by decide +kernel⟩

end SampleRuns

end Ghostbro.Relay
