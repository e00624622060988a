import Ghostbro.Relay.Actions

/-!
# What a step of the relay engine can do

Safety of the spool depends on the records and primary objects on disk, on the copies of records
that workers hold, and on the clock.  This file says once how each step changes these: `Move` for
one step of a worker on the directory of its client, `Effect` for one step of the engine.  Both are
read off an inversion of the step function, `Action` and `Stepped`.  Later proofs analyse these
relations and never unfold the step functions again.
-/

namespace Ghostbro.Relay

open Machine

/-- A later version of a record: status and results may differ, identity and lifetime may not. -/
structure Revises (metadata revised : RelayJobMetadata) : Prop where
  jobId : revised.jobId = metadata.jobId
  expiresAtMs : revised.expiresAtMs = metadata.expiresAtMs
  normalize : revised.normalize = metadata.normalize
  normalizedLen : metadata.normalize = false → revised.normalizedLen = metadata.normalizedLen

theorem Revises.refl (metadata : RelayJobMetadata) : Revises metadata metadata :=
  ⟨rfl, rfl, rfl, fun _ ↦ rfl⟩

/-- The copy held after a step; a worker that is done holds none. -/
def copyOf (phase : Option Phase) : Option RelayJobMetadata := phase.bind Phase.copy

@[simp]
theorem copyOf_none : copyOf none = none := rfl

@[simp]
theorem copyOf_some (phase : Phase) : copyOf (some phase) = phase.copy := rfl

/-- One step of a worker on the directory of its client. -/
inductive Move (config : RelayConfig) (now : UInt64) (spool : Spool) (jobId : String)
    (phase : Phase) (event : WorkerEvent) : Spool → Option Phase → Prop
  /-- Records and primary objects stay, the copy is kept or dropped. -/
  | keep {next : Spool} {after : Option Phase} (hjobs : next.jobs = spool.jobs)
      (hprimary : next.primary = spool.primary)
      (hcopy : ∀ revised ∈ copyOf after, ∃ metadata ∈ phase.copy, Revises metadata revised) :
      Move config now spool jobId phase event next after
  /-- The record is read into a copy. -/
  | load {after : Phase} {metadata revised : RelayJobMetadata}
      (hlookup : spool.jobs.lookup jobId = some metadata) (hcopy : after.copy = some revised)
      (hrevises : Revises metadata revised) :
      Move config now spool jobId phase event spool (some after)
  /-- The copy is written. -/
  | record {after : Option Phase} {metadata revised : RelayJobMetadata}
      (hcopy : phase.copy = some metadata) (hrevises : Revises metadata revised)
      (hafter : ∀ kept ∈ copyOf after, kept = revised) :
      Move config now spool jobId phase event
        { spool with jobs := spool.jobs.insert revised.jobId revised } after
  /-- A primary object, or a part of it, is stored within the quota. -/
  | store {after : Option Phase} {metadata : RelayJobMetadata} {outcome : JobOutcome}
      {usage : Except String Unit} {result : WriteResult} {body : Bytes}
      (hevent : event = .commit usage result) (hphase : phase = .fetched metadata outcome)
      (hquota : quotaAllows config now spool outcome.body)
      (hlimit : outcome.body.length ≤ config.maxObjectLen.toNat)
      (hbody : body.length ≤ outcome.body.length)
      (hafter : ∀ revised ∈ copyOf after, Revises metadata revised) :
      Move config now spool jobId phase event
        { spool with primary := spool.primary.insert metadata.jobId body } after

variable {externals : Externals} {config : RelayConfig} {now : UInt64} {spool next : Spool}
  {jobId : String} {phase : Phase} {event : WorkerEvent} {after : Option Phase}

/-- The copy of a worker that only moves on. -/
theorem move_of_same (hcopy : ∀ revised ∈ copyOf after, revised ∈ phase.copy)
    (hjobs : next.jobs = spool.jobs) (hprimary : next.primary = spool.primary) :
    Move config now spool jobId phase event next after :=
  .keep hjobs hprimary fun revised h ↦ ⟨revised, hcopy revised h, .refl revised⟩

theorem move_of_commit {metadata : RelayJobMetadata} {outcome : JobOutcome}
    {usage : Except String Unit} {result : WriteResult} {failed : Phase}
    (h : commit externals config now spool metadata outcome usage result = (next, failed)) :
    Move config now spool jobId (.fetched metadata outcome) (.commit usage result) next
      (some failed) := by
  unfold commit at h
  split at h
  case h_1 error =>
    obtain ⟨rfl, rfl⟩ : spool = next ∧ Phase.failing error = failed := by simpa using h
    exact move_of_same (by simp [Phase.copy]) rfl rfl
  case h_2 =>
    split at h
    · obtain ⟨rfl, rfl⟩ : spool = next ∧ _ = failed := by simpa using h
      exact move_of_same (by simp [Phase.copy]) rfl rfl
    · rename_i hquota
      split at h
      · obtain ⟨rfl, rfl⟩ : spool = next ∧ _ = failed := by simpa using h
        exact move_of_same (by simp [Phase.copy]) rfl rfl
      · rename_i hlimit
        dsimp only at h
        split at h
        · obtain ⟨rfl, rfl⟩ : _ = next ∧ _ = failed := by simpa using h
          refine .store rfl rfl (not_not.mp hquota) (not_lt.mp hlimit) le_rfl ?_
          simp only [copyOf_some, Phase.copy, Option.mem_def, Option.some.injEq]
          rintro revised rfl
          exact ⟨rfl, rfl, rfl, fun _ ↦ rfl⟩
        · rename_i error left
          obtain ⟨rfl, rfl⟩ : _ = next ∧ _ = failed := by simpa using h
          cases left with
          | none => exact move_of_same (by simp [Phase.copy]) rfl rfl
          | some left =>
            refine .store rfl rfl (not_not.mp hquota) (not_lt.mp hlimit) ?_ (by simp [Phase.copy])
            exact List.length_take_le' _ _

theorem move_of_normalize {metadata : RelayJobMetadata} {outcome : JobOutcome}
    {result : WriteResult} {failed : Phase}
    (h : normalize externals spool metadata outcome result = (next, failed)) :
    Move config now spool jobId (.stored metadata outcome) event next (some failed) := by
  unfold normalize at h
  split at h
  · rename_i hnormalize
    have hflag : metadata.normalize = true := by
      rw [Bool.and_eq_true] at hnormalize
      exact hnormalize.1
    dsimp only at h
    split at h
    · obtain ⟨rfl, rfl⟩ : _ = next ∧ _ = failed := by simpa using h
      refine .keep rfl rfl ?_
      simp only [copyOf_some, Phase.copy, Option.mem_def, Option.some.injEq]
      rintro revised rfl
      exact ⟨metadata, rfl, rfl, rfl, rfl, fun hfalse ↦ by simp [hflag] at hfalse⟩
    · obtain ⟨rfl, rfl⟩ : _ = next ∧ _ = failed := by simpa using h
      exact move_of_same (by simp [Phase.copy]) rfl rfl
  · obtain ⟨rfl, rfl⟩ : spool = next ∧ _ = failed := by simpa using h
    exact move_of_same (by simp [Phase.copy]) rfl rfl

/-- The steps that only move on keep the copy, the others write it or store its object. -/
theorem move_of_workerStep
    (h : workerStep externals config now spool jobId phase event = some (next, after)) :
    Move config now spool jobId phase event next after := by
  cases action_of_workerStep h with
  | leave _ | vanished _ | unfailed _ => exact move_of_same (by simp) rfl rfl
  | load hlookup _ => exact .load hlookup rfl (.refl _)
  | reload hlookup => exact .load hlookup rfl ⟨rfl, rfl, rfl, fun _ ↦ rfl⟩
  | mark _ => exact .record rfl ⟨rfl, rfl, rfl, fun _ ↦ rfl⟩ (by simp [Phase.copy])
  | complete _ | fail _ => exact .record rfl ⟨rfl, rfl, rfl, fun _ ↦ rfl⟩ (by simp)
  | unwritten _ => exact move_of_same (by simp [Phase.copy]) rfl rfl
  | fetch hphase hjobs hprimary _ hafter _ _ =>
    apply move_of_same _ hjobs hprimary
    rw [Phase.copy_of_fetchCopy hphase]
    rcases hafter with hfetch | ⟨outcome, rfl⟩ | ⟨error, rfl⟩
    · simp [Phase.copy_of_fetchCopy hfetch]
    · simp [Phase.copy]
    · simp [Phase.copy]
  | store | refuse _ => exact move_of_commit (by simpa [workerStep, Prod.ext_iff] using h)
  | plain | normalize | normalizeFailed _ _ _ _ =>
    exact move_of_normalize (by simpa [workerStep, Prod.ext_iff] using h)

/-! ### The engine -/

/-- The steps of the engine, each with the condition under which it is taken. -/
inductive Stepped (externals : Externals) (config : RelayConfig) (state : State) :
    Event → State → Option Output → Prop
  | tick {now : UInt64} (hle : state.now ≤ now) :
      Stepped externals config state (.tick now) { state with now := now } none
  | submit {keyId : KeyId} {submission : Submission} {valid : Bool} {fault : Option String} :
      Stepped externals config state (.submit keyId submission valid fault)
        (submitStep externals config state keyId submission valid fault).1
        (some (.answered keyId (.submit submission)
          (submitStep externals config state keyId submission valid fault).2))
  | list {keyId : KeyId} :
      Stepped externals config state (.list keyId) state
        (some (.answered keyId .list
          (.rows (list state.now (state.spool (Keys.keyIdHex keyId))))))
  | download {keyId : KeyId} {jobId : String} {offset : UInt32} {maxLen : UInt16}
      {artifact : UInt8} :
      Stepped externals config state (.download keyId jobId offset maxLen artifact) state
        (some (.answered keyId (.download jobId offset maxLen artifact)
          (download state.now (state.spool (Keys.keyIdHex keyId)) jobId offset maxLen artifact)))
  | delete {handler : ℕ} {keyId : KeyId} {jobId : String} (hidle : handler ∉ state.deletions) :
      Stepped externals config state (.delete handler keyId jobId)
        (deleteStep state handler keyId jobId).1
        ((deleteStep state handler keyId jobId).2.map (.answered keyId (.delete jobId)))
  | deleteNext {handler : ℕ} {removed : Bool} {deletion : Deletion}
      (hdeletion : state.deletions.lookup handler = some deletion) :
      Stepped externals config state (.deleteNext handler removed)
        (deleteNextStep state handler deletion removed).1
        ((deleteNextStep state handler deletion removed).2.map
          (.answered deletion.keyId (.delete deletion.jobId)))
  | take {worker : ℕ} {job : JobRef} {queue : List JobRef}
      (hworker : worker < max config.workerCount 1) (hidle : worker ∉ state.workers)
      (hqueue : state.queue = job :: queue) :
      Stepped externals config state (.take worker)
        { state.setWorker worker job (some .taken) with queue := queue } none
  | work {worker : ℕ} {job : JobRef} {phase : Phase} {event : WorkerEvent} {spool : Spool}
      {after : Option Phase} (hworker : state.workers.lookup worker = some ⟨job, phase⟩)
      (hstep : workerStep externals config state.now (state.spool job.keyIdHex) job.jobId phase
        event = some (spool, after)) :
      Stepped externals config state (.work worker event)
        ((state.setSpool job.keyIdHex spool).setWorker worker job after) none
  | reapStart (hidle : state.reaper = .idle) :
      Stepped externals config state .reapStart { state with reaper := .scanning state.now } none
  | reapVisit {keyIdHex fileName : String} {next : Reaper} :
      Stepped externals config state (.reapVisit keyIdHex fileName)
        { state with reaper := next } none
  | reapNext {now : UInt64} {keyIdHex fileName jobId : String} {stage : Stage} {removed : Bool}
      (hreaper : state.reaper = .removing now keyIdHex fileName jobId stage) :
      Stepped externals config state (.reapNext removed)
        (reapNextStep state now keyIdHex fileName jobId stage removed) none
  | reapFinish :
      Stepped externals config state .reapFinish { state with reaper := .idle } none
  | recoverVisit {job : JobRef} {readable : Bool} {recovery : Recovery}
      (hscan : state.recovery = some recovery) :
      Stepped externals config state (.recoverVisit job readable)
        (recoverStep state recovery job readable) none
  | recoverFinish {recovery : Recovery} (hscan : state.recovery = some recovery)
      (hempty : recovery.pending = []) :
      Stepped externals config state .recoverFinish { state with recovery := none } none
  | crash :
      Stepped externals config state .crash { state with
        queue := []
        workers := ∅
        deletions := ∅
        reaper := .idle
        recovery := some ⟨state.jobFiles, []⟩ } none

/-- The inversion of `step`. -/
theorem stepped_of_step {state after : State} {event : Event} {emitted : Option Output}
    (h : step externals config state event = some (after, emitted)) :
    Stepped externals config state event after emitted := by
  cases event with
  | tick now =>
    obtain ⟨hle, heq⟩ := Option.ite_none_right_eq_some.mp h
    cases heq
    exact .tick hle
  | submit keyId submission valid fault =>
    cases h
    exact .submit
  | list keyId =>
    cases h
    exact .list
  | download keyId jobId offset maxLen artifact =>
    cases h
    exact .download
  | delete handler keyId jobId =>
    obtain ⟨hidle, heq⟩ := Option.ite_none_left_eq_some.mp h
    cases heq
    exact .delete hidle
  | deleteNext handler removed =>
    obtain ⟨deletion, hdeletion, heq⟩ := Option.map_eq_some_iff.mp h
    cases heq
    exact .deleteNext hdeletion
  | take worker =>
    obtain ⟨⟨hworker, hidle⟩, htaken⟩ := Option.ite_none_right_eq_some.mp h
    split at htaken
    · cases htaken
    · next hqueue =>
      cases htaken
      exact .take hworker hidle hqueue
  | work worker event =>
    obtain ⟨⟨job, phase⟩, hworker, hwork⟩ := Option.bind_eq_some_iff.mp h
    obtain ⟨⟨spool, next⟩, hstep, heq⟩ := Option.map_eq_some_iff.mp hwork
    cases heq
    exact .work hworker hstep
  | reapStart =>
    obtain ⟨hidle, heq⟩ := Option.ite_none_right_eq_some.mp h
    cases heq
    exact .reapStart hidle
  | reapVisit keyIdHex fileName =>
    simp only [step] at h
    split at h
    · split at h
      all_goals
        cases h
        exact .reapVisit
    · cases h
  | reapNext removed =>
    simp only [step] at h
    split at h
    · next hreaper =>
      cases h
      exact .reapNext hreaper
    · cases h
  | reapFinish =>
    simp only [step] at h
    split at h
    · cases h
      exact .reapFinish
    · cases h
  | recoverVisit job readable =>
    obtain ⟨recovery, hscan, hvisit⟩ := Option.bind_eq_some_iff.mp h
    obtain ⟨-, heq⟩ := Option.ite_none_right_eq_some.mp hvisit
    cases heq
    exact .recoverVisit hscan
  | recoverFinish =>
    obtain ⟨recovery, hscan, hfinish⟩ := Option.bind_eq_some_iff.mp h
    obtain ⟨hempty, heq⟩ := Option.ite_none_right_eq_some.mp hfinish
    cases heq
    exact .recoverFinish hscan hempty
  | crash =>
    cases h
    exact .crash

/-- The clock, the files and the workers are as before. -/
structure SameFiles (state next : State) : Prop where
  now : next.now = state.now
  spools : next.spools = state.spools
  workers : next.workers = state.workers

theorem SameFiles.refl (state : State) : SameFiles state state := ⟨rfl, rfl, rfl⟩

/-- An answer that promises no change: reads answer from the files, writes were refused. -/
def Truthful (state : State) : Output → Prop
  | .answered keyId .list reply =>
    reply = .rows (list state.now (state.spool (Keys.keyIdHex keyId)))
  | .answered keyId (.download jobId offset maxLen artifact) reply =>
    reply = download state.now (state.spool (Keys.keyIdHex keyId)) jobId offset maxLen artifact
  | .answered _ (.submit _) reply => reply.status ≠ .ok
  | .answered _ (.delete _) reply => reply.status ≠ .ok

/-- The steps that remove files. -/
def Event.IsRemoval : Event → Prop
  | .deleteNext _ _ | .reapNext _ => True
  | _ => False

/-- One step of the engine, as far as clock, files, workers and answers are concerned. -/
inductive Effect (externals : Externals) (config : RelayConfig) (state : State) :
    Event → State → Option Output → Prop
  | tick {now : UInt64} (hle : state.now ≤ now) :
      Effect externals config state (.tick now) { state with now := now } none
  | quiet {event : Event} {next : State} {emitted : Option Output} (hsame : SameFiles state next)
      (htruthful : ∀ output ∈ emitted, Truthful state output) :
      Effect externals config state event next emitted
  | accepted {keyId : KeyId} {submission : Submission} {fault : Option String} {next : State}
      (hnow : next.now = state.now) (hworkers : next.workers = state.workers)
      (hspools : ∀ client, next.spool client = (state.setSpool (Keys.keyIdHex keyId)
        { state.spool (Keys.keyIdHex keyId) with
          jobs := (state.spool (Keys.keyIdHex keyId)).jobs.insert
            (queuedMetadata externals config keyId submission state.now).jobId
            (queuedMetadata externals config keyId submission state.now) }).spool client) :
      Effect externals config state (.submit keyId submission true fault) next
        (some (.answered keyId (.submit submission)
          (.accepted (queuedMetadata externals config keyId submission state.now).jobId)))
  | deleted {handler : ℕ} {keyId : KeyId} {jobId : String} {next : State}
      (hdeletion : state.deletions.lookup handler = some ⟨keyId, jobId, .metadata⟩)
      (hmem : jobId ∈ (state.spool (Keys.keyIdHex keyId)).jobs)
      (hnow : next.now = state.now) (hworkers : next.workers = state.workers)
      (hspools : ∀ client, next.spool client = (state.setSpool (Keys.keyIdHex keyId)
        ((state.spool (Keys.keyIdHex keyId)).remove jobId jobId .metadata)).spool client) :
      Effect externals config state (.deleteNext handler true) next
        (some (.answered keyId (.delete jobId) (.message .ok "deleted")))
  | removed {event : Event} {next : State} {emitted : Option Output}
      {client fileName jobId : String} {stage : Stage}
      (hevent : event.IsRemoval)
      (hnow : next.now = state.now) (hworkers : next.workers = state.workers)
      (hspools : ∀ other, next.spool other =
        (state.setSpool client ((state.spool client).remove fileName jobId stage)).spool other)
      (htruthful : ∀ output ∈ emitted, Truthful state output) :
      Effect externals config state event next emitted
  | taken {worker : ℕ} {job : JobRef} {next : State} (hidle : worker ∉ state.workers)
      (hnow : next.now = state.now) (hspools : next.spools = state.spools)
      (hworkers : next.workers = state.workers.insert worker ⟨job, .taken⟩) :
      Effect externals config state (.take worker) next none
  | worked {worker : ℕ} {job : JobRef} {phase : Phase} {event : WorkerEvent} {spool : Spool}
      {after : Option Phase} (hworker : state.workers.lookup worker = some ⟨job, phase⟩)
      (hmove : Move config state.now (state.spool job.keyIdHex) job.jobId phase event spool after) :
      Effect externals config state (.work worker event)
        ((state.setSpool job.keyIdHex spool).setWorker worker job after) none
  | crashed {next : State} (hnow : next.now = state.now) (hspools : next.spools = state.spools)
      (hworkers : next.workers = ∅) : Effect externals config state .crash next none

section Effects

variable {state after : State} {emitted : Option Output}

theorem effect_of_submit {keyId : KeyId} {submission : Submission} {valid : Bool}
    {fault : Option String} {reply : Reply}
    (h : submitStep externals config state keyId submission valid fault = (after, reply)) :
    Effect externals config state (.submit keyId submission valid fault) after
      (some (.answered keyId (.submit submission) reply)) := by
  unfold submitStep at h
  dsimp only at h
  split at h
  · rename_i hvalid
    subst hvalid
    split at h
    · rename_i refused hrefused
      obtain ⟨rfl, rfl⟩ : state = after ∧ refused = reply := by simpa using h
      refine .quiet (.refl state) ?_
      rintro output ⟨⟩
      exact enqueue_eq_none hrefused
    · rename_i accepted spool jobId haccepted
      obtain ⟨rfl, rfl⟩ : _ = after ∧ accepted = reply := by simpa using h
      obtain ⟨rfl, rfl, rfl⟩ := enqueue_eq_some haccepted
      exact .accepted rfl rfl fun client ↦ rfl
  · obtain ⟨rfl, rfl⟩ : state = after ∧ internalError = reply := by simpa using h
    refine .quiet (.refl state) ?_
    rintro output ⟨⟩
    exact internalError_status_ne

theorem effect_of_delete {handler : ℕ} {keyId : KeyId} {jobId : String} {reply : Option Reply}
    (h : deleteStep state handler keyId jobId = (after, reply)) :
    Effect externals config state (.delete handler keyId jobId) after
      (reply.map (.answered keyId (.delete jobId))) := by
  unfold deleteStep at h
  split at h
  · obtain ⟨rfl, rfl⟩ : state = after ∧ some internalError = reply := by simpa using h
    refine .quiet (.refl state) ?_
    rintro output ⟨⟩
    exact internalError_status_ne
  · split at h
    · obtain ⟨rfl, rfl⟩ : state = after ∧ some _ = reply := by simpa using h
      refine .quiet (.refl state) ?_
      rintro output ⟨⟩
      simp [Truthful, Reply.status]
    · obtain ⟨rfl, rfl⟩ : _ = after ∧ none = reply := by simpa using h
      exact .quiet ⟨rfl, rfl, rfl⟩ (by simp)

theorem effect_of_deleteNext {handler : ℕ} {deletion : Deletion} {removed : Bool}
    {reply : Option Reply} (hdeletion : state.deletions.lookup handler = some deletion)
    (h : deleteNextStep state handler deletion removed = (after, reply)) :
    Effect externals config state (.deleteNext handler removed) after
      (reply.map (.answered deletion.keyId (.delete deletion.jobId))) := by
  rcases deletion with ⟨keyId, jobId, stage⟩
  unfold deleteNextStep at h
  dsimp only at h
  cases removed with
  | false =>
    split at h
    · obtain ⟨rfl, rfl⟩ : _ = after ∧ none = reply := by simpa using h
      exact .quiet ⟨rfl, rfl, rfl⟩ (by simp)
    · obtain ⟨rfl, rfl⟩ : _ = after ∧ some internalError = reply := by simpa using h
      refine .quiet ⟨rfl, rfl, rfl⟩ ?_
      rintro output ⟨⟩
      exact internalError_status_ne
  | true =>
    split at h
    · obtain ⟨rfl, rfl⟩ : _ = after ∧ none = reply := by simpa using h
      exact .removed trivial rfl rfl (fun other ↦ rfl) (by simp)
    · rename_i hlast
      obtain rfl : stage = .metadata := by
        cases stage <;> simp_all [Stage.next]
      by_cases hmem : jobId ∈ (state.spool (Keys.keyIdHex keyId)).jobs
      · obtain ⟨rfl, rfl⟩ : _ = after ∧ some (.message .ok "deleted") = reply := by
          simpa [hmem] using h
        exact .deleted hdeletion hmem rfl rfl fun client ↦ rfl
      · obtain ⟨rfl, rfl⟩ : _ = after ∧ some internalError = reply := by
          simpa [hmem] using h
        refine .removed trivial rfl rfl (fun other ↦ rfl) ?_
        rintro output ⟨⟩
        exact internalError_status_ne

theorem effect_of_reapNext {now : UInt64} {keyIdHex fileName jobId : String} {stage : Stage}
    {removed : Bool} :
    Effect externals config state (.reapNext removed)
      (reapNextStep state now keyIdHex fileName jobId stage removed) none := by
  unfold reapNextStep
  cases removed with
  | false =>
    dsimp only
    split
    all_goals exact .quiet ⟨rfl, rfl, rfl⟩ (by simp)
  | true =>
    dsimp only
    split
    all_goals exact .removed trivial rfl rfl (fun other ↦ rfl) (by simp)

theorem sameFiles_recoverStep {recovery : Recovery} {job : JobRef} {readable : Bool} :
    SameFiles state (recoverStep state recovery job readable) := by
  unfold recoverStep
  dsimp only
  split
  · exact ⟨rfl, rfl, rfl⟩
  · split
    all_goals exact ⟨rfl, rfl, rfl⟩

/-- Each step has one of the effects. -/
theorem effect_of_step {event : Event}
    (h : step externals config state event = some (after, emitted)) :
    Effect externals config state event after emitted := by
  cases stepped_of_step h with
  | tick hle => exact .tick hle
  | submit => exact effect_of_submit rfl
  | list | download =>
    refine .quiet (.refl state) ?_
    rintro output ⟨⟩
    rfl
  | delete _ => exact effect_of_delete rfl
  | deleteNext hdeletion => exact effect_of_deleteNext hdeletion rfl
  | take _ hidle _ => exact .taken hidle rfl rfl rfl
  | work hworker hstep => exact .worked hworker (move_of_workerStep hstep)
  | reapNext _ => exact effect_of_reapNext
  | recoverVisit _ => exact .quiet sameFiles_recoverStep (by simp)
  | reapStart _ | reapVisit | reapFinish | recoverFinish _ _ =>
    exact .quiet ⟨rfl, rfl, rfl⟩ (by simp)
  | crash => exact .crashed rfl rfl rfl

/-- The clock does not run backwards. -/
theorem Effect.now_le {event : Event} (h : Effect externals config state event after emitted) :
    state.now ≤ after.now := by
  cases h with
  | tick hle => exact hle
  | quiet hsame _ => exact UInt64.le_of_eq hsame.now.symm
  | accepted hnow _ _ => exact UInt64.le_of_eq hnow.symm
  | deleted _ _ hnow _ _ => exact UInt64.le_of_eq hnow.symm
  | removed _ hnow _ _ _ => exact UInt64.le_of_eq hnow.symm
  | taken _ hnow _ _ => exact UInt64.le_of_eq hnow.symm
  | worked _ _ => exact UInt64.le_of_eq (by rw [State.now_setWorker]; rfl)
  | crashed hnow _ _ => exact UInt64.le_of_eq hnow.symm

/-! ### Records and copies -/

/-- How a step changes the records of one client. -/
inductive RecordsChange (externals : Externals) (config : RelayConfig) (state : State)
    (client : String) (event : Event) (emitted : Option Output) :
    HashMap String RelayJobMetadata → Prop
  | same : RecordsChange externals config state client event emitted (state.spool client).jobs
  | erased (fileName : String) (hevent : event.IsRemoval) :
      RecordsChange externals config state client event emitted
        ((state.spool client).jobs.erase fileName)
  | queued (keyId : KeyId) (submission : Submission) (fault : Option String)
      (hclient : Keys.keyIdHex keyId = client)
      (hevent : event = .submit keyId submission true fault)
      (hemitted : emitted = some (.answered keyId (.submit submission)
        (.accepted (queuedMetadata externals config keyId submission state.now).jobId))) :
      RecordsChange externals config state client event emitted
        ((state.spool client).jobs.insert
          (queuedMetadata externals config keyId submission state.now).jobId
          (queuedMetadata externals config keyId submission state.now))
  | written (worker : ℕ) (job : JobRef) (phase : Phase) (metadata revised : RelayJobMetadata)
      (hworker : state.workers.lookup worker = some ⟨job, phase⟩)
      (hclient : job.keyIdHex = client) (hcopy : phase.copy = some metadata)
      (hrevises : Revises metadata revised) :
      RecordsChange externals config state client event emitted
        ((state.spool client).jobs.insert revised.jobId revised)

theorem spool_of_spools (h : after.spools = state.spools) (client : String) :
    after.spool client = state.spool client := by
  unfold State.spool
  rw [h]

theorem recordsChange_of_remove {event : Event} {client other fileName jobId : String}
    {stage : Stage} (hevent : event.IsRemoval)
    (hspool : after.spool client =
      (state.setSpool other ((state.spool other).remove fileName jobId stage)).spool client) :
    RecordsChange externals config state client event emitted (after.spool client).jobs := by
  rw [hspool, State.spool_setSpool]
  split
  · rename_i hclient
    subst hclient
    cases stage with
    | primary => exact .same
    | normalized => exact .same
    | metadata => exact .erased fileName hevent
  · exact .same

theorem Effect.records {event : Event}
    (h : Effect externals config state event after emitted) (client : String) :
    RecordsChange externals config state client event emitted (after.spool client).jobs := by
  cases h with
  | tick _ => exact .same
  | quiet hsame _ =>
    rw [spool_of_spools hsame.spools]
    exact .same
  | @accepted keyId submission fault _ _ _ hspools =>
    rw [hspools, State.spool_setSpool]
    split
    · rename_i hclient
      subst hclient
      exact .queued keyId submission fault rfl rfl rfl
    · exact .same
  | deleted _ _ _ _ hspools =>
    exact recordsChange_of_remove trivial (hspools client)
  | removed hevent _ _ hspools _ => exact recordsChange_of_remove hevent (hspools client)
  | taken _ _ hspools _ =>
    rw [spool_of_spools hspools]
    exact .same
  | @worked worker job phase event spool after' hworker hmove =>
    rw [State.spool_setWorker, State.spool_setSpool]
    split
    · rename_i hclient
      subst hclient
      cases hmove with
      | keep hjobs _ _ =>
        rw [hjobs]
        exact .same
      | load _ _ _ => exact .same
      | record hcopy hrevises _ =>
        exact .written worker job phase _ _ hworker rfl hcopy hrevises
      | store _ _ _ _ _ _ => exact .same
    · exact .same
  | crashed _ hspools _ =>
    rw [spool_of_spools hspools]
    exact .same

/-- A copy after a step comes from a copy of the same worker, or from the record on disk. -/
theorem Effect.copies {event : Event} (h : Effect externals config state event after emitted)
    {worker : ℕ} {job : JobRef} {phase : Phase} {revised : RelayJobMetadata}
    (hworker : after.workers.lookup worker = some ⟨job, phase⟩)
    (hcopy : phase.copy = some revised) :
    (∃ before metadata, state.workers.lookup worker = some ⟨job, before⟩ ∧
      before.copy = some metadata ∧ Revises metadata revised) ∨
    ∃ metadata, (state.spool job.keyIdHex).jobs.lookup job.jobId = some metadata ∧
      Revises metadata revised := by
  have hkept (hworkers : after.workers = state.workers) :
      ∃ before metadata, state.workers.lookup worker = some ⟨job, before⟩ ∧
        before.copy = some metadata ∧ Revises metadata revised :=
    ⟨phase, revised, hworkers ▸ hworker, hcopy, .refl revised⟩
  cases h with
  | tick _ => exact .inl (hkept rfl)
  | quiet hsame _ => exact .inl (hkept hsame.workers)
  | accepted _ hworkers _ => exact .inl (hkept hworkers)
  | deleted _ _ _ hworkers _ => exact .inl (hkept hworkers)
  | removed _ _ hworkers _ _ => exact .inl (hkept hworkers)
  | taken _ _ _ hworkers =>
    rw [hworkers, HashMap.lookup_insert_ite] at hworker
    split at hworker
    · obtain ⟨rfl, rfl⟩ : _ = job ∧ Phase.taken = phase := by simpa using hworker
      cases hcopy
    · exact .inl ⟨phase, revised, hworker, hcopy, .refl revised⟩
  | @worked worker' job' before event spool after' hbefore hmove =>
    rw [State.lookup_setWorker] at hworker
    split at hworker
    · rename_i heq
      subst heq
      obtain ⟨_, rfl, heq⟩ := Option.map_eq_some_iff.mp hworker
      obtain ⟨rfl, rfl⟩ : job' = job ∧ _ = phase := by simpa using heq
      cases hmove with
      | keep _ _ hkeeps =>
        obtain ⟨metadata, hmetadata, hrevises⟩ := hkeeps revised hcopy
        exact .inl ⟨before, metadata, hbefore, hmetadata, hrevises⟩
      | load hlookup hloaded hrevises =>
        obtain rfl : _ = revised := Option.some.inj (hloaded.symm.trans hcopy)
        exact .inr ⟨_, hlookup, hrevises⟩
      | record hmetadata hrevises hafter =>
        obtain rfl := hafter revised hcopy
        exact .inl ⟨before, _, hbefore, hmetadata, hrevises⟩
      | store _ hphase _ _ _ hafter =>
        exact .inl ⟨before, _, hbefore, by rw [hphase]; rfl, hafter revised hcopy⟩
    · exact .inl ⟨phase, revised, hworker, hcopy, .refl revised⟩
  | crashed _ _ hworkers =>
    rw [hworkers] at hworker
    cases hworker

/-- Records and copies carry the id under which they are filed. -/
structure Named (state : State) : Prop where
  records : ∀ client fileName metadata,
    (state.spool client).jobs.lookup fileName = some metadata → metadata.jobId = fileName
  copies : ∀ worker job phase metadata, state.workers.lookup worker = some ⟨job, phase⟩ →
    phase.copy = some metadata → metadata.jobId = job.jobId

theorem named_start (now : UInt64) : Named (State.start now) where
  records _ _ _ h := by cases h
  copies _ _ _ _ h := by cases h

theorem Named.effect {event : Event} (hnamed : Named state)
    (heffect : Effect externals config state event after emitted) : Named after where
  records client fileName metadata hlookup := by
    generalize hjobs : (after.spool client).jobs = jobs at hlookup
    have hchange := heffect.records client
    rw [hjobs] at hchange
    cases hchange with
    | same => exact hnamed.records client fileName metadata hlookup
    | erased other _ =>
      exact hnamed.records client fileName metadata (HashMap.lookup_of_lookup_erase hlookup).2
    | queued keyId submission fault _ _ _ =>
      rw [HashMap.lookup_insert_ite] at hlookup
      split at hlookup
      · rename_i hname
        rw [hname, ← Option.some.inj hlookup]
      · exact hnamed.records client fileName metadata hlookup
    | written worker job phase copied revised _ _ _ _ =>
      rw [HashMap.lookup_insert_ite] at hlookup
      split at hlookup
      · rename_i hname
        rw [hname, ← Option.some.inj hlookup]
      · exact hnamed.records client fileName metadata hlookup
  copies worker job phase revised hworker hcopy := by
    rcases heffect.copies hworker hcopy with ⟨before, metadata, hbefore, hheld, hrevises⟩ |
      ⟨metadata, hlookup, hrevises⟩
    · exact hrevises.jobId.trans (hnamed.copies worker job before metadata hbefore hheld)
    · exact hrevises.jobId.trans (hnamed.records _ _ metadata hlookup)

end Effects

end Ghostbro.Relay
