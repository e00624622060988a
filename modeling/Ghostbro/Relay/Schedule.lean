import Ghostbro.Relay.Moves

/-!
# Who works on which job

A job reaches a worker through the channel, and two producers feed the channel: a submission sends
the job it has recorded, and the recovery scan sends every record it finds queued or running.
`Dispatch` says how each step changes the channel, the jobs of the workers and the scan.

As long as neither producer sends a job that is already scheduled, the channel holds no job twice
and no two workers hold the same job.  The scan does not look whether a record is older than the
process, so a submission that it overtakes is sent twice.
-/

namespace Ghostbro.Relay

open Machine

namespace State

/-- Some worker holds the job. -/
def Held (state : State) (job : JobRef) : Prop :=
  ∃ worker phase, state.workers.lookup worker = some ⟨job, phase⟩

/-- The job waits in the channel or a worker holds it. -/
def Scheduled (state : State) (job : JobRef) : Prop := job ∈ state.queue ∨ state.Held job

/-- The scan that the process runs at its start has still to visit the record of the job. -/
def ToBeVisited (state : State) (job : JobRef) : Prop :=
  ∃ recovery, state.recovery = some recovery ∧ job ∈ recovery.pending

/-- A process that has just started on the files an earlier one left. -/
def booted (now : UInt64) (spools : HashMap String Spool) : State :=
  let state := { start now with spools := spools }
  { state with recovery := some ⟨state.jobFiles, []⟩ }

end State

/-- The job a submission is recorded as. -/
def submittedJob (externals : Externals) (state : State) (keyId : KeyId)
    (submission : Submission) : JobRef :=
  ⟨Keys.keyIdHex keyId, relayJobId externals keyId submission.source state.now⟩

/-- The record is one that the recovery scan sends to the workers. -/
def RelayJobMetadata.Unfinished (metadata : RelayJobMetadata) : Prop :=
  metadata.status = .queued ∨ metadata.status = .running

/-- One step, as far as channel, workers and recovery scan are concerned. -/
inductive Dispatch (externals : Externals) (config : RelayConfig) (state : State) :
    Event → State → Prop
  | same {event : Event} {next : State} (hqueue : next.queue = state.queue)
      (hworkers : next.workers = state.workers) (hrecovery : next.recovery = state.recovery) :
      Dispatch externals config state event next
  | submitted {keyId : KeyId} {submission : Submission} {valid : Bool} {fault : Option String}
      {next : State}
      (hqueue : next.queue = state.queue ++ [submittedJob externals state keyId submission])
      (hworkers : next.workers = state.workers) (hrecovery : next.recovery = state.recovery) :
      Dispatch externals config state (.submit keyId submission valid fault) next
  /-- The scan passes over a record. -/
  | passed {job : JobRef} {readable : Bool} {recovery : Recovery} {next : State}
      (hscan : state.recovery = some recovery)
      (hfinished : readable = true → ∀ metadata,
        (state.spool job.keyIdHex).jobs.lookup job.jobId = some metadata → ¬metadata.Unfinished)
      (hqueue : next.queue = state.queue) (hworkers : next.workers = state.workers)
      (hrecovery : next.recovery =
        some ⟨recovery.pending.erase job, job :: recovery.visited⟩) :
      Dispatch externals config state (.recoverVisit job readable) next
  /-- The scan sends an unfinished job. -/
  | recovered {job : JobRef} {readable : Bool} {recovery : Recovery} {next : State}
      {metadata : RelayJobMetadata} (hscan : state.recovery = some recovery)
      (hlookup : (state.spool job.keyIdHex).jobs.lookup job.jobId = some metadata)
      (hunfinished : metadata.Unfinished)
      (hqueue : next.queue = state.queue ++ [⟨job.keyIdHex, metadata.jobId⟩])
      (hworkers : next.workers = state.workers)
      (hrecovery : next.recovery =
        some ⟨recovery.pending.erase job, job :: recovery.visited⟩) :
      Dispatch externals config state (.recoverVisit job readable) next
  | scanned {next : State} (hdone : ∀ job, ¬state.ToBeVisited job)
      (hqueue : next.queue = state.queue) (hworkers : next.workers = state.workers) :
      Dispatch externals config state .recoverFinish next
  | taken {worker : ℕ} {job : JobRef} {next : State} (hidle : worker ∉ state.workers)
      (hqueue : state.queue = job :: next.queue)
      (hworkers : next.workers = state.workers.insert worker ⟨job, .taken⟩)
      (hrecovery : next.recovery = state.recovery) :
      Dispatch externals config state (.take worker) next
  | worked {worker : ℕ} {job : JobRef} {phase : Phase} {event : WorkerEvent} {spool : Spool}
      {after : Option Phase} (hworker : state.workers.lookup worker = some ⟨job, phase⟩)
      (hstep : workerStep externals config state.now (state.spool job.keyIdHex) job.jobId phase
        event = some (spool, after)) :
      Dispatch externals config state (.work worker event)
        ((state.setSpool job.keyIdHex spool).setWorker worker job after)
  | crashed {next : State} (hqueue : next.queue = []) (hworkers : next.workers = ∅)
      (hrecovery : next.recovery = some ⟨state.jobFiles, []⟩) :
      Dispatch externals config state .crash next

section Dispatches

variable {externals : Externals} {config : RelayConfig} {state after : State}

theorem dispatch_of_submit {keyId : KeyId} {submission : Submission} {valid : Bool}
    {fault : Option String} :
    Dispatch externals config state (.submit keyId submission valid fault)
      (submitStep externals config state keyId submission valid fault).1 := by
  unfold submitStep
  dsimp only
  split
  · split
    · exact .same rfl rfl rfl
    · rename_i haccepted
      obtain ⟨-, rfl, -⟩ := enqueue_eq_some haccepted
      exact .submitted rfl rfl rfl
  · exact .same rfl rfl rfl

theorem dispatch_of_recoverStep {recovery : Recovery} {job : JobRef} {readable : Bool}
    (hscan : state.recovery = some recovery) :
    Dispatch externals config state (.recoverVisit job readable)
      (recoverStep state recovery job readable) := by
  unfold recoverStep
  dsimp only
  split
  · rename_i hread
    refine .passed hscan ?_ rfl rfl rfl
    intro hreadable metadata hlookup
    simp [hreadable, hlookup] at hread
  · rename_i metadata hread
    have hlookup := lookup_of_read hread
    split
    · rename_i hunfinished
      exact .recovered hscan hlookup hunfinished rfl rfl rfl
    · rename_i hfinished
      refine .passed hscan ?_ rfl rfl rfl
      intro _ other hother
      obtain rfl : metadata = other := Option.some.inj (hlookup.symm.trans hother)
      exact hfinished

/-- A step that touches neither channel nor workers nor scan. -/
theorem dispatch_of_deleteNextStep {handler : ℕ} {deletion : Deletion} {removed : Bool}
    {event : Event} :
    Dispatch externals config state event
      (deleteNextStep state handler deletion removed).1 := by
  unfold deleteNextStep
  dsimp only
  split
  all_goals
    cases removed
    all_goals exact .same rfl rfl rfl

theorem dispatch_of_reapNextStep {now : UInt64} {keyIdHex fileName jobId : String}
    {stage : Stage} {removed : Bool} {event : Event} :
    Dispatch externals config state event
      (reapNextStep state now keyIdHex fileName jobId stage removed) := by
  unfold reapNextStep
  dsimp only
  split
  all_goals
    cases removed
    all_goals exact .same rfl rfl rfl

theorem dispatch_of_step {event : Event} {emitted : Option Output}
    (h : step externals config state event = some (after, emitted)) :
    Dispatch externals config state event after := by
  cases stepped_of_step h with
  | submit => exact dispatch_of_submit
  | @delete handler keyId jobId _ =>
    unfold deleteStep
    split
    · exact .same rfl rfl rfl
    · split
      all_goals exact .same rfl rfl rfl
  | deleteNext _ => exact dispatch_of_deleteNextStep
  | take _ hidle hqueue => exact .taken hidle hqueue rfl rfl
  | work hworker hstep => exact .worked hworker hstep
  | reapNext _ => exact dispatch_of_reapNextStep
  | recoverVisit hscan => exact dispatch_of_recoverStep hscan
  | @recoverFinish recovery hscan hempty =>
    refine .scanned ?_ rfl rfl
    rintro job ⟨other, hother, hpending⟩
    obtain rfl : recovery = other := Option.some.inj (hscan.symm.trans hother)
    simp [hempty] at hpending
  | crash => exact .crashed rfl rfl rfl
  | tick _ | list | download | reapStart _ | reapVisit | reapFinish => exact .same rfl rfl rfl

/-! ### One worker for each job -/

/-- Neither producer sends a job that is scheduled already. -/
def ScheduledOnce (externals : Externals) (state : State) : Event → Prop
  | .submit keyId submission _ _ => ¬state.Scheduled (submittedJob externals state keyId submission)
  | .recoverVisit job _ => ¬state.Scheduled job
  | _ => True

instance (state : State) (job : JobRef) : Decidable (state.Held job) :=
  decidable_of_iff (∃ entry ∈ state.workers.entries, entry.2.job = job) <| by
    constructor
    · rintro ⟨⟨worker, held, phase⟩, hentry, rfl⟩
      exact ⟨worker, phase, HashMap.mem_entries_iff.mp hentry⟩
    · rintro ⟨worker, phase, hworker⟩
      exact ⟨_, HashMap.mem_entries_iff.mpr hworker, rfl⟩

instance (state : State) (job : JobRef) : Decidable (state.Scheduled job) :=
  inferInstanceAs (Decidable (job ∈ state.queue ∨ state.Held job))

instance (state : State) (event : Event) : Decidable (ScheduledOnce externals state event) :=
  match event with
  | .submit keyId submission _ _ =>
    inferInstanceAs (Decidable ¬state.Scheduled (submittedJob externals state keyId submission))
  | .recoverVisit job _ => inferInstanceAs (Decidable ¬state.Scheduled job)
  | .tick _ | .list _ | .download _ _ _ _ _ | .delete _ _ _ | .deleteNext _ _ | .take _
  | .work _ _ | .reapStart | .reapVisit _ _ | .reapNext _ | .reapFinish | .recoverFinish
  | .crash => .isTrue trivial

/-- No job is scheduled twice. -/
structure Exclusive (state : State) : Prop where
  queue : state.queue.Nodup
  workers : ∀ worker worker' job phase phase', state.workers.lookup worker = some ⟨job, phase⟩ →
    state.workers.lookup worker' = some ⟨job, phase'⟩ → worker = worker'
  apart : ∀ job ∈ state.queue, ¬state.Held job

theorem held_congr (hworkers : after.workers = state.workers) (job : JobRef) :
    after.Held job ↔ state.Held job := by
  unfold State.Held
  rw [hworkers]

/-- After a step of a worker each worker that is still there holds its old job. -/
theorem worker_of_setWorker {keyIdHex : String} {spool : Spool} {worker other : ℕ}
    {job held : JobRef} {phase heldPhase : Phase} {next : Option Phase}
    (hworker : state.workers.lookup worker = some ⟨job, phase⟩)
    (h : ((state.setSpool keyIdHex spool).setWorker worker job next).workers.lookup other =
      some ⟨held, heldPhase⟩) :
    ∃ before, state.workers.lookup other = some ⟨held, before⟩ := by
  rw [State.lookup_setWorker] at h
  split at h
  · rename_i heq
    obtain ⟨_, _, hmk⟩ := Option.map_eq_some_iff.mp h
    cases hmk
    exact ⟨phase, heq ▸ hworker⟩
  · exact ⟨heldPhase, h⟩

theorem Exclusive.same (h : Exclusive state) (hqueue : after.queue = state.queue)
    (hworkers : after.workers = state.workers) : Exclusive after where
  queue := hqueue ▸ h.queue
  workers := hworkers ▸ h.workers
  apart job hjob hheld := h.apart job (hqueue ▸ hjob) ((held_congr hworkers job).mp hheld)

theorem Exclusive.send {job : JobRef} (h : Exclusive state) (hjob : ¬state.Scheduled job)
    (hqueue : after.queue = state.queue ++ [job]) (hworkers : after.workers = state.workers) :
    Exclusive after where
  queue := by
    rw [hqueue, List.nodup_append]
    refine ⟨h.queue, List.nodup_singleton job, ?_⟩
    intro waiting hwaiting sent hsent heq
    rw [List.mem_singleton] at hsent
    exact hjob (.inl (hsent ▸ heq ▸ hwaiting))
  workers := hworkers ▸ h.workers
  apart waiting hwaiting hheld := by
    rw [held_congr hworkers] at hheld
    rw [hqueue, List.mem_append, List.mem_singleton] at hwaiting
    rcases hwaiting with hold | rfl
    · exact h.apart waiting hold hheld
    · exact hjob (.inr hheld)

theorem Exclusive.dispatch {event : Event} (h : Exclusive state) (hnamed : Named state)
    (hguard : ScheduledOnce externals state event)
    (hdispatch : Dispatch externals config state event after) : Exclusive after := by
  cases hdispatch with
  | same hqueue hworkers _ => exact h.same hqueue hworkers
  | submitted hqueue hworkers _ => exact h.send hguard hqueue hworkers
  | passed _ _ hqueue hworkers _ => exact h.same hqueue hworkers
  | @recovered job readable recovery next metadata _ hlookup _ hqueue hworkers _ =>
    rw [hnamed.records _ _ _ hlookup] at hqueue
    exact h.send hguard hqueue hworkers
  | scanned _ hqueue hworkers => exact h.same hqueue hworkers
  | @taken worker job next hidle hqueue hworkers _ =>
    have hnodup := h.queue
    rw [hqueue, List.nodup_cons] at hnodup
    have hmem : job ∈ state.queue := by simp [hqueue]
    refine ⟨hnodup.2, ?_, ?_⟩
    · intro first second held phase phase' hfirst hsecond
      rw [hworkers, HashMap.lookup_insert_ite] at hfirst hsecond
      split at hfirst
      · rename_i hfirstWorker
        cases hfirst
        split at hsecond
        · rename_i hsecondWorker
          rw [hfirstWorker, hsecondWorker]
        · exact absurd ⟨second, phase', hsecond⟩ (h.apart job hmem)
      · split at hsecond
        · cases hsecond
          exact absurd ⟨first, phase, hfirst⟩ (h.apart job hmem)
        · exact h.workers first second held phase phase' hfirst hsecond
    · rintro waiting hwaiting ⟨other, phase, hother⟩
      rw [hworkers, HashMap.lookup_insert_ite] at hother
      split at hother
      · cases hother
        exact hnodup.1 hwaiting
      · exact h.apart waiting (by simp [hqueue, hwaiting]) ⟨other, phase, hother⟩
  | @worked worker job phase event spool next hworker _ =>
    have hqueue : ((state.setSpool job.keyIdHex spool).setWorker worker job next).queue =
        state.queue := by cases next <;> rfl
    refine ⟨hqueue ▸ h.queue, ?_, ?_⟩
    · intro first second held phase phase' hfirst hsecond
      obtain ⟨before, hbefore⟩ := worker_of_setWorker hworker hfirst
      obtain ⟨before', hbefore'⟩ := worker_of_setWorker hworker hsecond
      exact h.workers first second held before before' hbefore hbefore'
    · rintro waiting hwaiting ⟨other, phase, hother⟩
      obtain ⟨before, hbefore⟩ := worker_of_setWorker hworker hother
      exact h.apart waiting (hqueue ▸ hwaiting) ⟨other, before, hbefore⟩
  | crashed hqueue hworkers _ =>
    refine ⟨by simp [hqueue], ?_, by simp [hqueue]⟩
    intro first second held phase phase' hfirst
    rw [hworkers] at hfirst
    cases hfirst

/-- The worker is inside `process_job_inner` and has written the status `running`. -/
def Phase.isRunning : Phase → Bool
  | fetching _ | cloning _ | bundling _ | collecting _ | fetched _ _ | stored _ _
  | completing _ => true
  | taken | marking _ | failing _ | failWriting _ => false

/-- The files of an earlier process: each record is filed under the id it carries. -/
def FiledById (spools : HashMap String Spool) : Prop :=
  ∀ client spool fileName metadata, spools.lookup client = some spool →
    spool.jobs.lookup fileName = some metadata → metadata.jobId = fileName

theorem named_booted {spools : HashMap String Spool} (h : FiledById spools) (now : UInt64) :
    Named (State.booted now spools) where
  records client fileName metadata hlookup := by
    change ((spools.lookup client).getD Spool.empty).jobs.lookup fileName = _ at hlookup
    cases hspool : spools.lookup client with
    | none =>
      rw [hspool] at hlookup
      cases hlookup
    | some spool =>
      rw [hspool] at hlookup
      exact h client spool fileName metadata hspool hlookup
  copies _ _ _ _ hworker := by cases hworker

theorem exclusive_booted (now : UInt64) (spools : HashMap String Spool) :
    Exclusive (State.booted now spools) where
  queue := List.nodup_nil
  workers _ _ _ _ _ hworker := by cases hworker
  apart _ hjob := by cases hjob

/-- No two workers are running the same job. -/
def RunsEachJobOnce (state : State) : Prop :=
  ∀ worker worker' job phase phase', state.workers.lookup worker = some ⟨job, phase⟩ →
    state.workers.lookup worker' = some ⟨job, phase'⟩ → phase.isRunning → phase'.isRunning →
    worker = worker'

/-- Invariants of the runs in which no job is sent while it is scheduled. -/
theorem exclusive_of_run {spools : HashMap String Spool} {now : UInt64} {events : List Event}
    {outputs : List Output} {last : State} (hfiled : FiledById spools)
    (hrun : Run (step externals config) (ScheduledOnce externals) (State.booted now spools) events
      outputs last) : Named last ∧ Exclusive last := by
  refine hrun.invariant (fun _ state ↦ Named state ∧ Exclusive state)
    ⟨named_booted hfiled now, exclusive_booted now spools⟩ ?_
  intro _ state event next emitted hbefore hguard hstep
  exact ⟨hbefore.1.effect (effect_of_step hstep),
    hbefore.2.dispatch hbefore.1 hguard (dispatch_of_step hstep)⟩

/-- No job runs on two workers, if no job is sent while it is scheduled. -/
theorem runs_each_job_once {spools : HashMap String Spool} {now : UInt64} {events : List Event}
    {outputs : List Output} {last : State} (hfiled : FiledById spools)
    (hrun : Run (step externals config) (ScheduledOnce externals) (State.booted now spools) events
      outputs last) : RunsEachJobOnce last := by
  intro worker worker' job phase phase' hworker hworker' _ _
  exact (exclusive_of_run hfiled hrun).2.workers worker worker' job phase phase' hworker hworker'

end Dispatches

/-! ### A submission that the recovery scan overtakes -/

namespace Sample

/-- The files of a process that died while the second job was running. -/
def leftover : HashMap String Spool :=
  AList.insert client ⟨AList.insert jobB.jobId (pending jobB sourceB .running) ∅, ∅, ∅, ∅⟩ ∅

theorem filedById_leftover : FiledById leftover := by
  intro other spool fileName metadata hspool hrecord
  rw [leftover, HashMap.lookup_insert_ite] at hspool
  split at hspool
  · cases hspool
    rw [HashMap.lookup_insert_ite] at hrecord
    split at hrecord
    · rename_i hfile
      cases hrecord
      exact hfile.symm
    · cases hrecord
  · cases hspool

/-- The scan finds the job of the earlier process while a new one is on its way to a worker; each
of the two workers runs one of them. -/
def sharedEvents : List Event :=
  [submitA, .take 1, .recoverVisit jobB true, .work 1 (.read true), .take 0, .work 0 (.read true),
    .work 1 (.writeRunning none), .work 0 (.writeRunning none), .recoverFinish]

theorem runs_each_job_once_sample :
    ∃ outputs last, Run sampleStep (ScheduledOnce externals) (State.booted 1000 leftover)
        sharedEvents outputs last ∧
      last.workers.lookup 0 = some ⟨jobB, .fetching (pending jobB sourceB .running)⟩ ∧
      last.workers.lookup 1 = some ⟨jobA, .fetching (pending jobA sourceA .running)⟩ ∧
      RunsEachJobOnce last := by
  have hexec : (exec sampleStep (ScheduledOnce externals) (State.booted 1000 leftover)
      sharedEvents).any fun result ↦ decide (
        result.1.workers.lookup 0 = some ⟨jobB, .fetching (pending jobB sourceB .running)⟩ ∧
        result.1.workers.lookup 1 = some ⟨jobA, .fetching (pending jobA sourceA .running)⟩) := by
    decide +kernel
  obtain ⟨outputs, last, hrun, hlast⟩ := exists_run_of_exec hexec
  obtain ⟨hfirst, hsecond⟩ := of_decide_eq_true hlast
  exact ⟨outputs, last, hrun, hfirst, hsecond, runs_each_job_once filedById_leftover hrun⟩

/-- The first job with the scan having visited it. -/
def overtaken (status : JobStatus) (queue : List JobRef) (workers : HashMap ℕ Worker) : State :=
  { alone status queue workers with recovery := some ⟨[], [jobA]⟩ }

/-- The first worker runs the job, and a second one holds it too. -/
def workersA (second : Phase) : HashMap ℕ Worker :=
  (workerA (.fetching (pending jobA sourceA .running))).insert 1 ⟨jobA, second⟩

/-- The scan finds the record of a submission that came after the start of the process and sends
the job a second time; two workers run it. -/
theorem job_run_by_two_workers :
    ∃ events outputs last, Run sampleStep unrestricted (State.booted 1000 ∅) events outputs last ∧
      ¬RunsEachJobOnce last := by
  let marking : Phase := .marking (pending jobA sourceA .queued)
  let fetching : Phase := .fetching (pending jobA sourceA .running)
  have hstep₁ : sampleStep (State.booted 1000 ∅) submitA =
      some (alone .queued [jobA] ∅, some acceptedA) := by decide +kernel
  have hstep₂ : sampleStep (alone .queued [jobA] ∅) (.recoverVisit jobA true) =
      some (overtaken .queued [jobA, jobA] ∅, none) := by decide +kernel
  have hstep₃ : sampleStep (overtaken .queued [jobA, jobA] ∅) (.take 0) =
      some (overtaken .queued [jobA] (workerA .taken), none) := by decide +kernel
  have hstep₄ : sampleStep (overtaken .queued [jobA] (workerA .taken)) (.work 0 (.read true)) =
      some (overtaken .queued [jobA] (workerA marking), none) := by decide +kernel
  have hstep₅ : sampleStep (overtaken .queued [jobA] (workerA marking))
      (.work 0 (.writeRunning none)) =
        some (overtaken .running [jobA] (workerA fetching), none) := by decide +kernel
  have hstep₆ : sampleStep (overtaken .running [jobA] (workerA fetching)) (.take 1) =
      some (overtaken .running [] (workersA .taken), none) := by decide +kernel
  have hstep₇ : sampleStep (overtaken .running [] (workersA .taken)) (.work 1 (.read true)) =
      some (overtaken .running [] (workersA (.marking (pending jobA sourceA .running))), none) := by
    decide +kernel
  have hstep₈ : sampleStep
      (overtaken .running [] (workersA (.marking (pending jobA sourceA .running))))
      (.work 1 (.writeRunning none)) =
        some (overtaken .running [] (workersA fetching), none) := by decide +kernel
  have hnil : Run sampleStep unrestricted (State.booted 1000 ∅) [] [] (State.booted 1000 ∅) := .nil
  have hrun := (((((((hnil.snoc trivial hstep₁).snoc trivial hstep₂).snoc trivial hstep₃).snoc
    trivial hstep₄).snoc trivial hstep₅).snoc trivial hstep₆).snoc trivial hstep₇).snoc trivial
    hstep₈
  refine ⟨_, _, _, hrun, fun honce ↦ ?_⟩
  have hsame := honce 0 1 jobA fetching fetching (by decide +kernel) (by decide +kernel) rfl rfl
  cases hsame

end Sample

end Ghostbro.Relay
