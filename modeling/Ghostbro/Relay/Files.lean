import Ghostbro.Relay.Schedule

/-!
# What a step does to the files

Submissions, removals and workers change the files of a client, and nothing else does.  `Files`
keeps what the change depends on: that the submitted record can be serialized, which deletion or
reaper removes a file, which action of a worker it was.
-/

namespace Ghostbro.Relay

variable {externals : Externals} {config : RelayConfig}

/-- The step removes the file of the given stage of a job: a deletion or the reaper has got there.
The record is named by its file and the objects by the id in it. -/
inductive Removes (state : State) (client fileName jobId : String) (stage : Stage) : Event → Prop
  | delete {handler : ℕ} {keyId : KeyId}
      (hdeletion : state.deletions.lookup handler = some ⟨keyId, jobId, stage⟩)
      (hclient : Keys.keyIdHex keyId = client) (hfile : fileName = jobId) :
      Removes state client fileName jobId stage (.deleteNext handler true)
  | reap {now : UInt64} (hreaper : state.reaper = .removing now client fileName jobId stage) :
      Removes state client fileName jobId stage (.reapNext true)

/-- One step, as far as files are concerned. -/
inductive Files (externals : Externals) (config : RelayConfig) (state : State) :
    Event → State → Prop
  | same {event : Event} {next : State} (hspools : next.spools = state.spools) :
      Files externals config state event next
  | submitted {keyId : KeyId} {submission : Submission} {valid : Bool} {fault : Option String}
      {next : State}
      (hstorable : (queuedMetadata externals config keyId submission state.now).storable)
      (hqueue : next.queue = state.queue ++ [⟨Keys.keyIdHex keyId,
        (queuedMetadata externals config keyId submission state.now).jobId⟩])
      (hspools : ∀ client, next.spool client = (state.setSpool (Keys.keyIdHex keyId)
        ((state.spool (Keys.keyIdHex keyId)).record
          (queuedMetadata externals config keyId submission state.now))).spool client) :
      Files externals config state (.submit keyId submission valid fault) next
  | removed {event : Event} {next : State} {client fileName jobId : String} {stage : Stage}
      (hremoves : Removes state client fileName jobId stage event)
      (hspools : ∀ other, next.spool other =
        (state.setSpool client ((state.spool client).remove fileName jobId stage)).spool other) :
      Files externals config state event next
  | worked {worker : ℕ} {job : JobRef} {phase : Phase} {event : WorkerEvent} {spool : Spool}
      {after : Option Phase} (hworker : state.workers.lookup worker = some ⟨job, phase⟩)
      (haction : Action externals config state.now (state.spool job.keyIdHex) job.jobId phase
        event spool after) :
      Files externals config state (.work worker event)
        ((state.setSpool job.keyIdHex spool).setWorker worker job after)

section Files

variable {state afterState : State}

theorem files_of_submit {keyId : KeyId} {submission : Submission} {valid : Bool}
    {fault : Option String} :
    Files externals config state (.submit keyId submission valid fault)
      (submitStep externals config state keyId submission valid fault).1 := by
  unfold submitStep
  dsimp only
  split
  · split
    · exact .same rfl
    · rename_i spool jobId haccepted
      have hstorable : (queuedMetadata externals config keyId submission state.now).storable := by
        unfold enqueue at haccepted
        dsimp only at haccepted
        split_ifs at haccepted
        · simp at haccepted
        · simp at haccepted
        · split at haccepted
          · rename_i hwrite
            exact (writeMetadata_ok_iff.mp hwrite).1
          · simp at haccepted
      obtain ⟨-, rfl, rfl⟩ := enqueue_eq_some haccepted
      exact .submitted hstorable rfl fun client ↦ rfl
  · exact .same rfl

theorem files_of_deleteNext {handler : ℕ} {deletion : Deletion} {removed : Bool}
    (hdeletion : state.deletions.lookup handler = some deletion) :
    Files externals config state (.deleteNext handler removed)
      (deleteNextStep state handler deletion removed).1 := by
  rcases deletion with ⟨keyId, jobId, stage⟩
  unfold deleteNextStep
  cases removed with
  | false =>
    dsimp only
    split
    all_goals exact .same rfl
  | true =>
    dsimp only
    split
    all_goals exact .removed (.delete hdeletion rfl rfl) fun other ↦ rfl

theorem files_of_reapNext {now : UInt64} {keyIdHex fileName jobId : String} {stage : Stage}
    {removed : Bool} (hreaper : state.reaper = .removing now keyIdHex fileName jobId stage) :
    Files externals config state (.reapNext removed)
      (reapNextStep state now keyIdHex fileName jobId stage removed) := by
  unfold reapNextStep
  cases removed with
  | false =>
    dsimp only
    split
    all_goals exact .same rfl
  | true =>
    dsimp only
    split
    all_goals exact .removed (.reap hreaper) fun other ↦ rfl

theorem files_of_step {event : Event} {emitted : Option Output}
    (h : step externals config state event = some (afterState, emitted)) :
    Files externals config state event afterState := by
  cases stepped_of_step h with
  | submit => exact files_of_submit
  | @delete handler keyId jobId _ =>
    unfold deleteStep
    split
    · exact .same rfl
    · split
      all_goals exact .same rfl
  | deleteNext hdeletion => exact files_of_deleteNext hdeletion
  | work hworker hstep => exact .worked hworker (action_of_workerStep hstep)
  | reapNext hreaper => exact files_of_reapNext hreaper
  | recoverVisit _ => exact .same sameFiles_recoverStep.spools
  | tick _ | list | download | take _ _ _ | reapStart _ | reapVisit | reapFinish
  | recoverFinish _ _ | crash => exact .same rfl

end Files

end Ghostbro.Relay
