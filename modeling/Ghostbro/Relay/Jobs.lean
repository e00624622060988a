import Ghostbro.Relay.Files

/-!
# The life of one job

The files of one job are its record, its two objects and its scratch directory, and while no job
is scheduled twice at most one worker holds it.  `Turn` is the projection of a step of the engine
onto one job: most steps leave it alone, and the others are a submission, a removal, a step of its
worker, or the end of the process.  An invariant of single jobs that every turn keeps holds for
all jobs in all runs, by `job_invariant`.
-/

namespace Ghostbro.Relay

open Machine

/-- The files of one job. -/
structure JobFiles where
  record : Option RelayJobMetadata
  primary : Option Bytes
  normalized : Option Bytes
  work : Option WorkDir

/-- A job without files. -/
def JobFiles.empty : JobFiles := ⟨none, none, none, none⟩

def JobFiles.remove (files : JobFiles) : Stage → JobFiles
  | .primary => { files with primary := none }
  | .normalized => { files with normalized := none }
  | .metadata => { files with record := none }

def Spool.job (spool : Spool) (jobId : String) : JobFiles where
  record := spool.jobs.lookup jobId
  primary := spool.primary.lookup jobId
  normalized := spool.normalized.lookup jobId
  work := spool.work.lookup jobId

def State.files (state : State) (job : JobRef) : JobFiles :=
  (state.spool job.keyIdHex).job job.jobId

/-- Where the worker of a job stands, if it has one. -/
def State.At (state : State) (job : JobRef) : Option Phase → Prop
  | some phase => ∃ worker, state.workers.lookup worker = some ⟨job, phase⟩
  | none => ¬state.Held job

/-- The name of the file that a removal takes at a stage. -/
def Stage.name (fileName jobId : String) : Stage → String
  | primary | normalized => jobId
  | metadata => fileName

/-- What one step of the engine does to one job: its files and its phase afterwards. -/
inductive Turn (externals : Externals) (config : RelayConfig) (state : State) (job : JobRef) :
    Event → Option Phase → JobFiles → Option Phase → Prop
  | same {event : Event} {phase : Option Phase} :
      Turn externals config state job event phase (state.files job) phase
  | taken {event : Event} :
      Turn externals config state job event none (state.files job) (some .taken)
  | crashed {phase : Option Phase} :
      Turn externals config state job .crash phase (state.files job) none
  | submitted {keyId : KeyId} {submission : Submission} {valid : Bool} {fault : Option String}
      (hjob : job = submittedJob externals state keyId submission) :
      Turn externals config state job (.submit keyId submission valid fault) none
        { state.files job with
          record := some (queuedMetadata externals config keyId submission state.now) } none
  | removed {event : Event} {phase : Option Phase} {fileName jobId : String} {stage : Stage}
      (hremoves : Removes state job.keyIdHex fileName jobId stage event)
      (hname : stage.name fileName jobId = job.jobId) :
      Turn externals config state job event phase ((state.files job).remove stage) phase
  | worked {worker : ℕ} {phase : Phase} {event : WorkerEvent} {next : Spool}
      {after : Option Phase} (hworker : state.workers.lookup worker = some ⟨job, phase⟩)
      (hcopy : ∀ copied, phase.copy = some copied → copied.jobId = job.jobId)
      (haction : Action externals config state.now (state.spool job.keyIdHex) job.jobId phase
        event next after) :
      Turn externals config state job (.work worker event) (some phase) (next.job job.jobId) after

namespace Spool

theorem job_record (spool : Spool) (metadata : RelayJobMetadata) (jobId : String) :
    (spool.record metadata).job jobId =
      if jobId = metadata.jobId then { spool.job jobId with record := some metadata }
      else spool.job jobId := by
  unfold job record
  rw [HashMap.lookup_insert_ite]
  split <;> rfl

theorem job_remove (spool : Spool) (fileName removed jobId : String) (stage : Stage) :
    (spool.remove fileName removed stage).job jobId =
      if jobId = stage.name fileName removed then (spool.job jobId).remove stage
      else spool.job jobId := by
  by_cases hname : jobId = stage.name fileName removed
  · rw [if_pos hname, hname]
    cases stage with
    | primary | normalized | metadata =>
      simp only [Spool.remove, job, JobFiles.remove, Stage.name, AList.lookup_erase]
  · rw [if_neg hname]
    cases stage with
    | primary | normalized | metadata =>
      simp only [Stage.name] at hname
      simp only [Spool.remove, job, AList.lookup_erase_ne hname]

end Spool

section Turns

variable {externals : Externals} {config : RelayConfig} {state after : State} {job : JobRef}
  {event : Event} {phase : Option Phase}

theorem exists_at (state : State) (job : JobRef) : ∃ phase, state.At job phase := by
  by_cases hheld : state.Held job
  · obtain ⟨worker, phase, hworker⟩ := hheld
    exact ⟨some phase, worker, hworker⟩
  · exact ⟨none, hheld⟩

theorem at_congr (hworkers : after.workers = state.workers) :
    after.At job phase ↔ state.At job phase := by
  unfold State.At State.Held
  rw [hworkers]

theorem files_setSpool {client : String} {spool : Spool} :
    (state.setSpool client spool).files job =
      if job.keyIdHex = client then spool.job job.jobId else state.files job := by
  unfold State.files
  rw [State.spool_setSpool]
  split <;> rfl

/-- A step of a worker leaves the files of all other jobs alone. -/
theorem job_of_action {now : UInt64} {spool next : Spool} {jobId other : String} {held : Phase}
    {workerEvent : WorkerEvent} {afterPhase : Option Phase}
    (haction : Action externals config now spool jobId held workerEvent next afterPhase)
    (hcopy : ∀ copied, held.copy = some copied → copied.jobId = jobId) (hother : other ≠ jobId) :
    next.job other = spool.job other := by
  have hrecord (written : RelayJobMetadata) (hname : written.jobId = jobId) :
      (spool.record written).job other = spool.job other := by
    rw [Spool.job_record, if_neg (hname ▸ hother)]
  have hprimary (copied : RelayJobMetadata) (hname : copied.jobId = jobId) (body : Bytes) :
      Spool.job { spool with primary := spool.primary.insert copied.jobId body } other =
        spool.job other := by
    unfold Spool.job
    rw [AList.lookup_insert_ne (hname ▸ hother)]
  cases haction with
  | @mark copied _ => exact hrecord _ (hcopy copied rfl)
  | @complete copied _ => exact hrecord _ (hcopy copied rfl)
  | @fail copied _ => exact hrecord _ (hcopy copied rfl)
  | fetch hphase hjobs hobject hnormalized _ _ hothers =>
    have hname := hcopy _ (Phase.copy_of_fetchCopy hphase)
    unfold Spool.job
    rw [hjobs, hobject, hnormalized, hothers other (hname ▸ hother)]
  | @store copied outcome _ => exact hprimary copied (hcopy copied rfl) _
  | @refuse copied outcome _ _ _ _ hnext =>
    rcases hnext with rfl | ⟨left, _, rfl⟩
    · rfl
    · exact hprimary copied (hcopy copied rfl) _
  | @normalize copied outcome =>
    unfold Spool.job
    rw [AList.lookup_insert_ne (hcopy copied rfl ▸ hother)]
  | @normalizeFailed copied _ _ _ _ hjobs hobject hwork hnormalized =>
    unfold Spool.job
    rw [hjobs, hobject, hwork, hnormalized other (hcopy copied rfl ▸ hother)]
  | leave _ | load _ _ | plain | unwritten _ | vanished _ | reload _ | unfailed _ => rfl

theorem turn_of_worked {worker : ℕ} {held : JobRef} {heldPhase : Phase}
    {workerEvent : WorkerEvent} {spool : Spool} {afterPhase : Option Phase}
    (hnamed : Named state) (hexclusive : Exclusive state)
    (hworker : state.workers.lookup worker = some ⟨held, heldPhase⟩)
    (haction : Action externals config state.now (state.spool held.keyIdHex) held.jobId heldPhase
      workerEvent spool afterPhase)
    (hat : ((state.setSpool held.keyIdHex spool).setWorker worker held afterPhase).At job phase) :
    ∃ before, state.At job before ∧
      Turn externals config state job (.work worker workerEvent) before
        (((state.setSpool held.keyIdHex spool).setWorker worker held afterPhase).files job)
        phase := by
  have hcopy := (hnamed.copies worker held heldPhase · hworker)
  have hfiles : ((state.setSpool held.keyIdHex spool).setWorker worker held afterPhase).files job =
      (state.setSpool held.keyIdHex spool).files job := by
    unfold State.files
    rw [State.spool_setWorker]
  rw [hfiles, files_setSpool]
  by_cases hjob : job = held
  · subst hjob
    rw [if_pos rfl]
    -- the phase of the job is the one the worker moved to, since no other worker holds it
    have hphase : phase = afterPhase := by
      cases phase with
      | none =>
        cases afterPhase with
        | none => rfl
        | some next =>
          refine absurd ⟨worker, next, ?_⟩ hat
          rw [State.lookup_setWorker, if_pos rfl]
          rfl
      | some next =>
        obtain ⟨other, hother⟩ := hat
        rw [State.lookup_setWorker] at hother
        split at hother
        · obtain ⟨_, rfl, hmk⟩ := Option.map_eq_some_iff.mp hother
          cases hmk
          rfl
        · rename_i hne
          exact absurd (hexclusive.workers other worker job next heldPhase hother hworker) hne
    subst hphase
    exact ⟨some heldPhase, ⟨worker, hworker⟩, .worked hworker hcopy haction⟩
  · have hlookup (other : ℕ) (otherPhase : Phase) :
        ((state.setSpool held.keyIdHex spool).setWorker worker held afterPhase).workers.lookup
          other = some ⟨job, otherPhase⟩ ↔ state.workers.lookup other = some ⟨job, otherPhase⟩ := by
      rw [State.lookup_setWorker]
      split
      · rename_i hsame
        subst hsame
        rw [hworker]
        constructor
        · intro h
          obtain ⟨_, _, hmk⟩ := Option.map_eq_some_iff.mp h
          cases hmk
          exact absurd rfl hjob
        · intro h
          cases h
          exact absurd rfl hjob
      · exact Iff.rfl
    have hbefore : state.At job phase := by
      cases phase with
      | none =>
        rintro ⟨other, otherPhase, hother⟩
        exact hat ⟨other, otherPhase, (hlookup other otherPhase).mpr hother⟩
      | some otherPhase =>
        obtain ⟨other, hother⟩ := hat
        exact ⟨other, (hlookup other otherPhase).mp hother⟩
    refine ⟨phase, hbefore, ?_⟩
    split
    · rename_i hclient
      have hne : job.jobId ≠ held.jobId := by
        intro hid
        exact hjob (by cases job; cases held; simp_all)
      rw [job_of_action haction hcopy hne, ← hclient]
      exact .same
    · exact .same

/-- A step that keeps the workers. -/
theorem turn_of_files (hnamed : Named state) (hexclusive : Exclusive state)
    (hguard : ScheduledOnce externals state event)
    (hfiles : Files externals config state event after) (hworkers : after.workers = state.workers)
    (hat : after.At job phase) :
    ∃ before, state.At job before ∧
      Turn externals config state job event before (after.files job) phase := by
  have hbefore := (at_congr hworkers).mp hat
  cases hfiles with
  | same hspools =>
    refine ⟨phase, hbefore, ?_⟩
    unfold State.files
    rw [spool_of_spools hspools]
    exact .same
  | @submitted keyId submission valid fault next _ _ hspools =>
    refine ⟨phase, hbefore, ?_⟩
    have hnext : after.files job = (state.setSpool (Keys.keyIdHex keyId)
        ((state.spool (Keys.keyIdHex keyId)).record
          (queuedMetadata externals config keyId submission state.now))).files job := by
      unfold State.files
      rw [hspools]
    rw [hnext, files_setSpool, Spool.job_record]
    by_cases hjob : job = submittedJob externals state keyId submission
    · have hnone : phase = none := by
        cases phase with
        | none => rfl
        | some held =>
          obtain ⟨worker, hworker⟩ := hbefore
          exact absurd (.inr ⟨worker, held, hjob ▸ hworker⟩) hguard
      subst hnone
      have hclient : job.keyIdHex = Keys.keyIdHex keyId := congrArg JobRef.keyIdHex hjob
      have hid : job.jobId = (queuedMetadata externals config keyId submission state.now).jobId :=
        congrArg JobRef.jobId hjob
      rw [if_pos hclient, if_pos hid, ← hclient]
      exact .submitted hjob
    · split
      · rename_i hclient
        have hid : job.jobId ≠
            (queuedMetadata externals config keyId submission state.now).jobId := by
          intro hid
          exact hjob (by cases job; exact congrArg₂ JobRef.mk hclient hid)
        rw [if_neg hid, ← hclient]
        exact .same
      · exact .same
  | @removed _ _ client fileName jobId stage hremoves hspools =>
    refine ⟨phase, hbefore, ?_⟩
    have hnext : after.files job =
        (state.setSpool client ((state.spool client).remove fileName jobId stage)).files job := by
      unfold State.files
      rw [hspools]
    rw [hnext, files_setSpool, Spool.job_remove]
    split
    · rename_i hclient
      subst hclient
      split
      · rename_i hname
        exact .removed hremoves hname.symm
      · exact .same
    · exact .same
  | worked hworker haction => exact turn_of_worked hnamed hexclusive hworker haction hat

theorem turn_of_step {emitted : Option Output} (hnamed : Named state)
    (hexclusive : Exclusive state) (hguard : ScheduledOnce externals state event)
    (hstep : step externals config state event = some (after, emitted))
    (hat : after.At job phase) :
    ∃ before, state.At job before ∧
      Turn externals config state job event before (after.files job) phase := by
  have hfiles := files_of_step hstep
  cases dispatch_of_step hstep with
  | same _ hworkers _ => exact turn_of_files hnamed hexclusive hguard hfiles hworkers hat
  | submitted _ hworkers _ => exact turn_of_files hnamed hexclusive hguard hfiles hworkers hat
  | passed _ _ _ hworkers _ => exact turn_of_files hnamed hexclusive hguard hfiles hworkers hat
  | recovered _ _ _ _ hworkers _ =>
    exact turn_of_files hnamed hexclusive hguard hfiles hworkers hat
  | scanned _ _ hworkers => exact turn_of_files hnamed hexclusive hguard hfiles hworkers hat
  | @taken worker held next hidle hqueue hworkers _ =>
    have hsame : after.files job = state.files job := by
      cases hfiles with
      | same hspools =>
        unfold State.files
        rw [spool_of_spools hspools]
      | removed hremoves _ => cases hremoves
    have hfree : ¬state.Held held := hexclusive.apart held (by simp [hqueue])
    rw [hsame]
    by_cases hjob : job = held
    · subst hjob
      have hphase : phase = some .taken := by
        cases phase with
        | none =>
          exact absurd ⟨worker, .taken, by rw [hworkers, AList.lookup_insert]⟩ hat
        | some other =>
          obtain ⟨otherWorker, hother⟩ := hat
          rw [hworkers, HashMap.lookup_insert_ite] at hother
          split at hother
          · cases hother
            rfl
          · exact absurd ⟨otherWorker, other, hother⟩ hfree
      subst hphase
      exact ⟨none, hfree, .taken⟩
    · refine ⟨phase, ?_, .same⟩
      cases phase with
      | none =>
        rintro ⟨other, otherPhase, hother⟩
        have hne : other ≠ worker := by
          rintro rfl
          exact hidle (HashMap.mem_of_lookup hother)
        exact hat ⟨other, otherPhase, by rw [hworkers, AList.lookup_insert_ne hne, hother]⟩
      | some otherPhase =>
        obtain ⟨other, hother⟩ := hat
        rw [hworkers, HashMap.lookup_insert_ite] at hother
        split at hother
        · cases hother
          exact absurd rfl hjob
        · exact ⟨other, hother⟩
  | worked hworker hwork =>
    exact turn_of_worked hnamed hexclusive hworker (action_of_workerStep hwork) hat
  | crashed _ hworkers _ =>
    have hsame : after.files job = state.files job := by
      cases hfiles with
      | same hspools =>
        unfold State.files
        rw [spool_of_spools hspools]
      | removed hremoves _ => cases hremoves
    have hnone : phase = none := by
      cases phase with
      | none => rfl
      | some held =>
        obtain ⟨worker, hworker⟩ := hat
        rw [hworkers] at hworker
        cases hworker
    subst hnone
    obtain ⟨before, hbefore⟩ := exists_at state job
    rw [hsame]
    exact ⟨before, hbefore, .crashed⟩

/-- An invariant of single jobs that every guarded turn keeps, and that does not end with time,
holds for every job in every state reached from an empty spool. -/
theorem job_invariant {guard : State → Event → Prop}
    (inv : UInt64 → JobFiles → Option Phase → Prop)
    (hguard : ∀ state event, guard state event → ScheduledOnce externals state event)
    (hstart : ∀ now, inv now .empty none)
    (hlater : ∀ now later files phase, now ≤ later → inv now files phase → inv later files phase)
    (hturn : ∀ state event job before files phase, guard state event → state.At job before →
      inv state.now (state.files job) before →
      Turn externals config state job event before files phase → inv state.now files phase)
    {now : UInt64} {events : List Event} {outputs : List Output} {last : State}
    (hrun : Run (step externals config) guard (State.start now) events outputs last)
    (job : JobRef) (phase : Option Phase) (hat : last.At job phase) :
    inv last.now (last.files job) phase := by
  have hall : Named last ∧ Exclusive last ∧
      ∀ job phase, last.At job phase → inv last.now (last.files job) phase := by
    refine hrun.invariant (fun _ state ↦ Named state ∧ Exclusive state ∧
      ∀ job phase, state.At job phase → inv state.now (state.files job) phase) ?_ ?_
    · refine ⟨named_start now, exclusive_booted now ∅, ?_⟩
      intro job phase hat
      cases phase with
      | none => exact hstart now
      | some phase =>
        obtain ⟨worker, hworker⟩ := hat
        cases hworker
    · intro _ state event next emitted hbefore hmeets hstep
      obtain ⟨hnamed, hexclusive, hinv⟩ := hbefore
      have honce := hguard state event hmeets
      refine ⟨hnamed.effect (effect_of_step hstep),
        hexclusive.dispatch hnamed honce (dispatch_of_step hstep), ?_⟩
      intro job phase hat
      obtain ⟨before, hbefore, hturned⟩ := turn_of_step hnamed hexclusive honce hstep hat
      apply hlater state.now next.now _ _ (effect_of_step hstep).now_le
      exact hturn state event job before _ phase hmeets hbefore (hinv job before hbefore) hturned
  exact hall.2.2 job phase hat

end Turns

end Ghostbro.Relay
