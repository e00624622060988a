import Ghostbro.Relay.Engine

/-!
# What a worker does with its job

`Action` is the inversion of `workerStep` with everything the records, the objects and the later
phases of the same worker depend on: which record was read, which copy was written and that it
could be serialized, which object was stored.  The steps of a fetch are one constructor, since
they leave records and objects alone.
-/

namespace Ghostbro.Relay

/-- The copy a worker holds while it fetches. -/
def Phase.fetchCopy : Phase → Option RelayJobMetadata
  | fetching metadata | cloning metadata | bundling metadata | collecting metadata => some metadata
  | _ => none

theorem Phase.copy_of_fetchCopy {phase : Phase} {metadata : RelayJobMetadata}
    (h : phase.fetchCopy = some metadata) : phase.copy = some metadata := by
  cases phase with
  | fetching _ | cloning _ | bundling _ | collecting _ => exact h
  | taken | marking _ | fetched _ _ | stored _ _ | completing _ | failing _ | failWriting _ =>
    cases h

/-- The copy that is written before a fetch. -/
def runningCopy (now : UInt64) (metadata : RelayJobMetadata) : RelayJobMetadata :=
  { metadata with status := .running, updatedAtMs := now }

/-- The copy that is written when the job is done. -/
def completeCopy (now : UInt64) (metadata : RelayJobMetadata) : RelayJobMetadata :=
  { metadata with status := .complete, error := none, updatedAtMs := now }

/-- The copy of a record that a failed job is going to write. -/
def failedCopy (error : String) (metadata : RelayJobMetadata) : RelayJobMetadata :=
  { metadata with status := .failed, error := some error }

/-- The spool with a record written. -/
def Spool.record (spool : Spool) (metadata : RelayJobMetadata) : Spool :=
  { spool with jobs := spool.jobs.insert metadata.jobId metadata }

/-- How a step of a fetch changes the scratch directory of its job. -/
inductive Scratch (dir : Option WorkDir) :
    Phase → WorkerEvent → Option WorkDir → Phase → Prop
  | prepared {metadata : RelayJobMetadata} {event : WorkerEvent} {next : Option WorkDir}
      {after : Phase} (hafter : ∀ copied, after ≠ .collecting copied)
      (hnext : next = dir ∨ next = none ∨ next = some ⟨none, none⟩) :
      Scratch dir (.fetching metadata) event next after
  | cloned {metadata : RelayJobMetadata} {mirror : Option Bytes} {result : Except String Unit}
      {after : Phase} (hafter : after = .bundling metadata ∨
        ∃ error, after = .failing error ∧ result = .error error) :
      Scratch dir (.cloning metadata) (.gitCloned mirror result) (some ⟨mirror, none⟩) after
  | bundled {metadata : RelayJobMetadata} {bundle : Option Bytes} {result : Except String Unit}
      {after : Phase} (hafter : after = .collecting metadata ∧ result = .ok () ∨
        ∃ error, after = .failing error ∧ result = .error error) :
      Scratch dir (.bundling metadata) (.gitBundled bundle result)
        (some ⟨dir.bind WorkDir.mirror, bundle⟩) after
  | collected {metadata : RelayJobMetadata} {readable removed : Bool} {next : Option WorkDir}
      {after : Phase} (hafter : ∀ copied, after ≠ .collecting copied)
      (hnext : (dir.bind WorkDir.bundle).isSome → readable = true → removed = true →
        next = none) :
      Scratch dir (.collecting metadata) (.gitCollected readable removed) next after

/-- One step of a worker. -/
inductive Action (externals : Externals) (config : RelayConfig) (now : UInt64) (spool : Spool)
    (jobId : String) : Phase → WorkerEvent → Spool → Option Phase → Prop
  /-- The record is gone, unreadable or complete already. -/
  | leave {readable : Bool}
      (hrecord : readable = true → ∀ metadata, spool.jobs.lookup jobId = some metadata →
        metadata.status = .complete) :
      Action externals config now spool jobId .taken (.read readable) spool none
  | load {readable : Bool} {metadata : RelayJobMetadata}
      (hlookup : spool.jobs.lookup jobId = some metadata) (hstatus : metadata.status ≠ .complete) :
      Action externals config now spool jobId .taken (.read readable) spool
        (some (.marking metadata))
  | mark {metadata : RelayJobMetadata} (hstorable : (runningCopy now metadata).storable) :
      Action externals config now spool jobId (.marking metadata) (.writeRunning none)
        (spool.record (runningCopy now metadata)) (some (.fetching (runningCopy now metadata)))
  /-- A fetch goes on, succeeds or fails. -/
  | fetch {phase after : Phase} {event : WorkerEvent} {metadata : RelayJobMetadata} {next : Spool}
      (hphase : phase.fetchCopy = some metadata) (hjobs : next.jobs = spool.jobs)
      (hprimary : next.primary = spool.primary) (hnormalized : next.normalized = spool.normalized)
      (hafter : after.fetchCopy = some metadata ∨
        (∃ outcome, after = .fetched metadata outcome) ∨ ∃ error, after = .failing error)
      (hwork : Scratch (spool.work.lookup metadata.jobId) phase event
        (next.work.lookup metadata.jobId) after)
      (hothers : ∀ other, other ≠ metadata.jobId →
        next.work.lookup other = spool.work.lookup other) :
      Action externals config now spool jobId phase event next (some after)
  | store {metadata : RelayJobMetadata} {outcome : JobOutcome} {usage : Except String Unit} :
      Action externals config now spool jobId (.fetched metadata outcome) (.commit usage .written)
        { spool with primary := spool.primary.insert metadata.jobId outcome.body }
        (some (.stored (storedMetadata externals metadata outcome) outcome))
  /-- The object is refused, or its write fails and may leave a part of it. -/
  | refuse {metadata : RelayJobMetadata} {outcome : JobOutcome} {usage : Except String Unit}
      {result : WriteResult} {next : Spool} {error : String}
      (hnext : next = spool ∨ ∃ left, result = .failed error (some left) ∧
        next = { spool with
          primary := spool.primary.insert metadata.jobId (outcome.body.take left) }) :
      Action externals config now spool jobId (.fetched metadata outcome) (.commit usage result)
        next (some (.failing error))
  | plain {metadata : RelayJobMetadata} {outcome : JobOutcome} {result : WriteResult} :
      Action externals config now spool jobId (.stored metadata outcome) (.normalize result) spool
        (some (.completing metadata))
  | normalize {metadata : RelayJobMetadata} {outcome : JobOutcome} :
      Action externals config now spool jobId (.stored metadata outcome) (.normalize .written)
        { spool with normalized :=
            spool.normalized.insert metadata.jobId (externals.htmlToMarkdown outcome.body) }
        (some (.completing { metadata with
          normalizedLen := some (UInt64.ofNat (externals.htmlToMarkdown outcome.body).length) }))
  | normalizeFailed {metadata : RelayJobMetadata} {outcome : JobOutcome} {error : String}
      {left : Option ℕ} {next : Spool} (hjobs : next.jobs = spool.jobs)
      (hprimary : next.primary = spool.primary) (hwork : next.work = spool.work)
      (hnormalized : ∀ other, other ≠ metadata.jobId →
        next.normalized.lookup other = spool.normalized.lookup other) :
      Action externals config now spool jobId (.stored metadata outcome)
        (.normalize (.failed error left)) next (some (.failing error))
  | complete {metadata : RelayJobMetadata} (hstorable : (completeCopy now metadata).storable) :
      Action externals config now spool jobId (.completing metadata) (.writeComplete none)
        (spool.record (completeCopy now metadata)) none
  /-- A record cannot be written. -/
  | unwritten {phase : Phase} {event : WorkerEvent} {metadata : RelayJobMetadata} {error : String}
      {fault : Option String}
      (hphase : phase = .marking metadata ∧ event = .writeRunning fault ∧
          (fault = none → ¬(runningCopy now metadata).storable) ∨
        phase = .completing metadata ∧ event = .writeComplete fault ∧
          (fault = none → ¬(completeCopy now metadata).storable)) :
      Action externals config now spool jobId phase event spool (some (.failing error))
  /-- The record of a failed job is gone or unreadable. -/
  | vanished {error : String} {readable : Bool}
      (hrecord : readable = true → spool.jobs.lookup jobId = none) :
      Action externals config now spool jobId (.failing error) (.readFailed readable) spool none
  | reload {error : String} {readable : Bool} {metadata : RelayJobMetadata}
      (hlookup : spool.jobs.lookup jobId = some metadata) :
      Action externals config now spool jobId (.failing error) (.readFailed readable) spool
        (some (.failWriting (failedCopy error metadata)))
  | fail {metadata : RelayJobMetadata}
      (hstorable : RelayJobMetadata.storable { metadata with updatedAtMs := now }) :
      Action externals config now spool jobId (.failWriting metadata) (.writeFailed none)
        (spool.record { metadata with updatedAtMs := now }) none
  | unfailed {metadata : RelayJobMetadata} {fault : Option String}
      (hfault : fault = none → ¬RelayJobMetadata.storable { metadata with updatedAtMs := now }) :
      Action externals config now spool jobId (.failWriting metadata) (.writeFailed fault) spool
        none

variable {externals : Externals} {config : RelayConfig} {now : UInt64} {spool next : Spool}
  {jobId : String} {phase : Phase} {event : WorkerEvent} {after : Option Phase}

theorem writeMetadata_ok_iff {fault : Option String} {metadata : RelayJobMetadata} :
    writeMetadata externals fault metadata spool = .ok next ↔
      metadata.storable ∧ fault = none ∧ next = spool.record metadata := by
  unfold writeMetadata Spool.record
  split
  · rename_i hstorable
    cases fault with
    | none => simp [hstorable, eq_comm]
    | some error => simp
  · rename_i hstorable
    simp [hstorable]

theorem not_storable_of_writeMetadata {fault : Option String} {metadata : RelayJobMetadata}
    {error : String} (h : writeMetadata externals fault metadata spool = .error error)
    (hfault : fault = none) : ¬metadata.storable := by
  intro hstorable
  subst hfault
  simp [writeMetadata, hstorable] at h

/-- What a worker reads is the record on disk. -/
theorem lookup_of_read {readable : Bool} {metadata : RelayJobMetadata}
    (h : (if readable then spool.jobs.lookup jobId else none) = some metadata) :
    spool.jobs.lookup jobId = some metadata := by
  split at h
  · exact h
  · cases h

theorem action_of_commit {metadata : RelayJobMetadata} {outcome : JobOutcome}
    {usage : Except String Unit} {result : WriteResult} :
    Action externals config now spool jobId (.fetched metadata outcome) (.commit usage result)
      (commit externals config now spool metadata outcome usage result).1
      (some (commit externals config now spool metadata outcome usage result).2) := by
  unfold commit
  split
  · exact .refuse (.inl rfl)
  · split
    · exact .refuse (.inl rfl)
    · split
      · exact .refuse (.inl rfl)
      · cases result with
        | written => exact .store
        | failed error left =>
          cases left with
          | none => exact .refuse (.inl rfl)
          | some left => exact .refuse (.inr ⟨left, rfl, rfl⟩)

theorem action_of_normalize {metadata : RelayJobMetadata} {outcome : JobOutcome}
    {result : WriteResult} :
    Action externals config now spool jobId (.stored metadata outcome) (.normalize result)
      (Relay.normalize externals spool metadata outcome result).1
      (some (Relay.normalize externals spool metadata outcome result).2) := by
  unfold Relay.normalize
  split
  · cases result with
    | written => exact .normalize
    | failed error left =>
      refine .normalizeFailed rfl rfl rfl ?_
      intro other hother
      cases left with
      | none => rfl
      | some left => exact AList.lookup_insert_ne hother
  · exact .plain

/-- The steps of `run_web_fetch` and `run_package`. -/
theorem action_of_afterFetch {metadata : RelayJobMetadata} (outcome : Except String JobOutcome) :
    Action externals config now spool jobId (.fetching metadata) event spool
      (some (.afterFetch metadata outcome)) := by
  cases outcome with
  | error error =>
    exact .fetch rfl rfl rfl rfl (.inr (.inr ⟨error, rfl⟩))
      (.prepared (fun _ h ↦ nomatch h) (.inl rfl)) fun _ _ ↦ rfl
  | ok outcome =>
    exact .fetch rfl rfl rfl rfl (.inr (.inl ⟨outcome, rfl⟩))
      (.prepared (fun _ h ↦ nomatch h) (.inl rfl)) fun _ _ ↦ rfl

theorem action_of_collectBundle {metadata : RelayJobMetadata} {readable removed : Bool} :
    Action externals config now spool jobId (.collecting metadata)
      (.gitCollected readable removed)
      (collectBundle config spool metadata readable removed).1
      (some (collectBundle config spool metadata readable removed).2) := by
  have hcleaned (after : Phase) (hphase : ∀ copied, after ≠ .collecting copied)
      (hafter : (∃ outcome, after = .fetched metadata outcome) ∨ ∃ error, after = .failing error) :
      Action externals config now spool jobId (.collecting metadata)
        (.gitCollected readable removed)
        (if removed then { spool with work := spool.work.erase metadata.jobId } else spool)
        (some after) := by
    cases removed with
    | false =>
      exact .fetch rfl rfl rfl rfl (.inr hafter)
        (.collected hphase fun _ _ hremoved ↦ nomatch hremoved) fun _ _ ↦ rfl
    | true =>
      exact .fetch rfl rfl rfl rfl (.inr hafter)
        (.collected hphase fun _ _ _ ↦ AList.lookup_erase _ _)
        fun _ hother ↦ AList.lookup_erase_ne hother
  have hleft (error : String)
      (hmissing : ((spool.work.lookup metadata.jobId).bind WorkDir.bundle).isSome →
        readable = true → False) :
      Action externals config now spool jobId (.collecting metadata)
        (.gitCollected readable removed) spool (some (.failing error)) :=
    .fetch rfl rfl rfl rfl (.inr (.inr ⟨_, rfl⟩))
      (.collected (fun _ h ↦ nomatch h)
        fun hbundle hreadable _ ↦ (hmissing hbundle hreadable).elim) fun _ _ ↦ rfl
  unfold collectBundle
  dsimp only
  split
  · rename_i hbundle
    exact hleft _ fun hsome ↦ by simp [hbundle] at hsome
  · split
    · exact hcleaned _ (fun _ h ↦ nomatch h) (.inr ⟨_, rfl⟩)
    · split
      · exact hcleaned _ (fun _ h ↦ nomatch h) (.inl ⟨_, rfl⟩)
      · rename_i hreadable
        exact hleft _ fun _ hread ↦ hreadable hread

theorem action_of_gitCloned {metadata : RelayJobMetadata} {mirror : Option Bytes}
    {result : Except String Unit} {afterPhase : Phase}
    (hafter : afterPhase = .bundling metadata ∨
      ∃ error, afterPhase = .failing error ∧ result = .error error) :
    Action externals config now spool jobId (.cloning metadata) (.gitCloned mirror result)
      { spool with work := spool.work.insert metadata.jobId ⟨mirror, none⟩ } (some afterPhase) := by
  refine .fetch rfl rfl rfl rfl ?_ ?_ fun _ hother ↦ AList.lookup_insert_ne hother
  · rcases hafter with rfl | ⟨error, rfl, _⟩
    · exact .inl rfl
    · exact .inr (.inr ⟨error, rfl⟩)
  · change Scratch _ _ _ ((spool.work.insert _ _).lookup _) _
    rw [AList.lookup_insert]
    exact .cloned hafter

theorem action_of_gitBundled {metadata : RelayJobMetadata} {bundle : Option Bytes}
    {result : Except String Unit} {afterPhase : Phase}
    (hafter : afterPhase = .collecting metadata ∧ result = .ok () ∨
      ∃ error, afterPhase = .failing error ∧ result = .error error) :
    Action externals config now spool jobId (.bundling metadata) (.gitBundled bundle result)
      { spool with
        work := spool.work.insert metadata.jobId
          ⟨(spool.work.lookup metadata.jobId).bind WorkDir.mirror, bundle⟩ }
      (some afterPhase) := by
  refine .fetch rfl rfl rfl rfl ?_ ?_ fun _ hother ↦ AList.lookup_insert_ne hother
  · rcases hafter with ⟨rfl, _⟩ | ⟨error, rfl, _⟩
    · exact .inl rfl
    · exact .inr (.inr ⟨error, rfl⟩)
  · change Scratch _ _ _ ((spool.work.insert _ _).lookup _) _
    rw [AList.lookup_insert]
    exact .bundled hafter

/-- The inversion of `workerStep`. -/
theorem action_of_workerStep
    (h : workerStep externals config now spool jobId phase event = some (next, after)) :
    Action externals config now spool jobId phase event next after := by
  unfold workerStep at h
  split at h
  case h_1 readable =>
    split at h
    case h_1 hread =>
      cases h
      refine .leave fun hreadable metadata hlookup ↦ ?_
      simp [hreadable, hlookup] at hread
    case h_2 metadata hread =>
      have hlookup := lookup_of_read hread
      split at h
      · rename_i hcomplete
        cases h
        refine .leave fun _ other hother ↦ ?_
        obtain rfl : metadata = other := Option.some.inj (hlookup.symm.trans hother)
        exact hcomplete
      · rename_i hstatus
        cases h
        exact .load hlookup hstatus
  case h_2 metadata fault =>
    dsimp only at h
    split at h
    case h_1 written hwrite =>
      cases h
      obtain ⟨hstorable, rfl, rfl⟩ := writeMetadata_ok_iff.mp hwrite
      exact .mark hstorable
    case h_2 error hwrite =>
      cases h
      exact .unwritten (.inl ⟨rfl, rfl, not_storable_of_writeMetadata hwrite⟩)
  case h_3 metadata result =>
    split at h
    · cases h
      exact action_of_afterFetch _
    · cases h
  case h_4 metadata resolved result =>
    split at h
    · cases h
      exact action_of_afterFetch _
    · cases h
  case h_5 metadata valid created =>
    split at h
    · split at h
      · cases h
        exact .fetch rfl rfl rfl rfl (.inr (.inr ⟨_, rfl⟩))
          (.prepared (fun _ h ↦ nomatch h) (.inl rfl)) fun _ _ ↦ rfl
      · cases h
        exact .fetch rfl rfl rfl rfl (.inr (.inr ⟨_, rfl⟩))
          (.prepared (fun _ h ↦ nomatch h) (.inr (.inl (AList.lookup_erase _ _))))
          fun _ hother ↦ AList.lookup_erase_ne hother
      · cases h
        exact .fetch rfl rfl rfl rfl (.inl rfl)
          (.prepared (fun _ h ↦ nomatch h) (.inr (.inr (AList.lookup_insert _))))
          fun _ hother ↦ AList.lookup_insert_ne hother
    · cases h
  case h_6 metadata mirror result =>
    dsimp only at h
    split at h
    · cases h
      exact action_of_gitCloned (.inl rfl)
    · cases h
      exact action_of_gitCloned (.inr ⟨_, rfl, rfl⟩)
  case h_7 metadata bundle result =>
    dsimp only at h
    split at h
    · cases h
      exact action_of_gitBundled (.inl ⟨rfl, rfl⟩)
    · cases h
      exact action_of_gitBundled (.inr ⟨_, rfl, rfl⟩)
  case h_8 metadata readable removed =>
    cases h
    exact action_of_collectBundle
  case h_9 metadata outcome usage result =>
    cases h
    exact action_of_commit
  case h_10 metadata outcome result =>
    cases h
    exact action_of_normalize
  case h_11 metadata fault =>
    dsimp only at h
    split at h
    case h_1 written hwrite =>
      cases h
      obtain ⟨hstorable, rfl, rfl⟩ := writeMetadata_ok_iff.mp hwrite
      exact .complete hstorable
    case h_2 error hwrite =>
      cases h
      exact .unwritten (.inr ⟨rfl, rfl, not_storable_of_writeMetadata hwrite⟩)
  case h_12 error readable =>
    split at h
    case h_1 hread =>
      cases h
      refine .vanished fun hreadable ↦ ?_
      simpa [hreadable] using hread
    case h_2 metadata hread =>
      cases h
      exact .reload (lookup_of_read hread)
  case h_13 metadata fault =>
    split at h
    case h_1 written hwrite =>
      cases h
      obtain ⟨hstorable, rfl, rfl⟩ := writeMetadata_ok_iff.mp hwrite
      exact .fail hstorable
    case h_2 hwrite =>
      cases h
      exact .unfailed (not_storable_of_writeMetadata hwrite)
  case h_14 => cases h

/-- A worker writes at most its own record, and only one that can be serialized. -/
theorem records_of_action (haction : Action externals config now spool jobId phase event next after)
    (hcopy : ∀ copied, phase.copy = some copied → copied.jobId = jobId) :
    next.jobs = spool.jobs ∨ ∃ written : RelayJobMetadata, written.storable ∧
      written.jobId = jobId ∧ next.jobs = spool.jobs.insert jobId written := by
  have hrecord (written : RelayJobMetadata) (hname : written.jobId = jobId) :
      (spool.record written).jobs = spool.jobs.insert jobId written := by
    rw [← hname]
    rfl
  cases haction with
  | @mark copied hstorable =>
    have hname : (runningCopy now copied).jobId = jobId := hcopy copied rfl
    exact .inr ⟨_, hstorable, hname, hrecord _ hname⟩
  | @complete copied hstorable =>
    have hname : (completeCopy now copied).jobId = jobId := hcopy copied rfl
    exact .inr ⟨_, hstorable, hname, hrecord _ hname⟩
  | @fail copied hstorable =>
    exact .inr ⟨_, hstorable, hcopy copied rfl, hrecord _ (hcopy copied rfl)⟩
  | fetch _ hjobs _ _ _ _ _ => exact .inl hjobs
  | normalizeFailed hjobs _ _ _ => exact .inl hjobs
  | refuse hnext =>
    rcases hnext with rfl | ⟨left, _, rfl⟩
    · exact .inl rfl
    · exact .inl rfl
  | leave _ | load _ _ | store | plain | normalize | unwritten _ | vanished _ | reload _
  | unfailed _ => exact .inl rfl

end Ghostbro.Relay
