import Ghostbro.Relay.RecordWrites

/-!
# Records that are written whole

As long as no call of `write_metadata` opens the temporary file of a job while another call has it
open, the temporary file of a job holds what its only writer has written so far.  Every rename then
publishes a whole record, and the record of a worker is published as by one step of the engine at
the time it was serialized.  So every live record can be read, and every unfinished one belongs to
a job that is scheduled, will be visited by the scan, or is about to be sent.
-/

namespace Ghostbro.Relay

open Machine

/-! ### Steps of the engine that write no record -/

section Engine

variable {externals : Externals} {config : RelayConfig} {state after : State} {event : Event}
  {emitted : Option Output} {job : JobRef}

theorem record_setSpool {client : String} {spool : Spool} :
    (state.setSpool client spool).record job =
      if job.keyIdHex = client then spool.jobs.lookup job.jobId else state.record job := by
  unfold State.record
  rw [State.spool_setSpool]
  split <;> rfl

theorem record_of_spools (hspools : after.spools = state.spools) :
    after.record job = state.record job := by
  unfold State.record
  rw [spool_of_spools hspools]

theorem record_setWorker {worker : ℕ} {held : JobRef} {phase : Option Phase} :
    (state.setWorker worker held phase).record job = state.record job := by
  unfold State.record
  rw [State.spool_setWorker]

/-- Only the last stage of a removal takes a record. -/
theorem record_remove {client fileName jobId : String} {stage : Stage} :
    (state.setSpool client ((state.spool client).remove fileName jobId stage)).record job =
      if stage = .metadata ∧ job = ⟨client, fileName⟩ then none else state.record job := by
  rcases job with ⟨keyIdHex, name⟩
  rw [record_setSpool]
  by_cases hclient : keyIdHex = client
  · subst hclient
    rw [if_pos rfl]
    cases stage with
    | primary => rfl
    | normalized => rfl
    | metadata =>
      change ((state.spool keyIdHex).jobs.erase fileName).lookup name = _
      simp [HashMap.lookup_erase_ite, State.record]
  · simp [hclient]

theorem record_deleteNextStep {handler : ℕ} {deletion : Deletion} {removed : Bool} :
    (deleteNextStep state handler deletion removed).1.record job =
      if removed = true ∧ deletion.stage = .metadata ∧
          job = ⟨Keys.keyIdHex deletion.keyId, deletion.jobId⟩ then none
      else state.record job := by
  have hnext : (deleteNextStep state handler deletion removed).1.record job =
      (if removed then state.setSpool (Keys.keyIdHex deletion.keyId)
        ((state.spool (Keys.keyIdHex deletion.keyId)).remove deletion.jobId deletion.jobId
          deletion.stage) else state).record job := by
    unfold deleteNextStep
    dsimp only
    split
    all_goals exact record_of_spools rfl
  rw [hnext]
  cases removed with
  | false => simp
  | true => simpa using record_remove

theorem record_reapNextStep {now : UInt64} {keyIdHex fileName jobId : String} {stage : Stage}
    {removed : Bool} :
    (reapNextStep state now keyIdHex fileName jobId stage removed).record job =
      if removed = true ∧ stage = .metadata ∧ job = ⟨keyIdHex, fileName⟩ then none
      else state.record job := by
  have hnext : (reapNextStep state now keyIdHex fileName jobId stage removed).record job =
      (if removed then state.setSpool keyIdHex
        ((state.spool keyIdHex).remove fileName jobId stage) else state).record job := by
    unfold reapNextStep
    dsimp only
    split
    all_goals exact record_of_spools rfl
  rw [hnext]
  cases removed with
  | false => simp
  | true => simpa using record_remove

/-- A worker that does not write a record leaves all of them. -/
theorem jobs_of_action {now : UInt64} {spool next : Spool} {jobId : String} {phase : Phase}
    {worker : ℕ} {workerEvent : WorkerEvent} {afterPhase : Option Phase}
    (hwrites : (Event.work worker workerEvent).WritesRecord = false)
    (haction : Action externals config now spool jobId phase workerEvent next afterPhase) :
    next.jobs = spool.jobs := by
  cases haction with
  | mark _ | complete _ | fail _ => cases hwrites
  | fetch _ hjobs _ _ _ _ _ => exact hjobs
  | normalizeFailed hjobs _ _ _ => exact hjobs
  | refuse hnext =>
    rcases hnext with rfl | ⟨left, _, rfl⟩
    · rfl
    · rfl
  | leave _ | load _ _ | store | plain | normalize | unwritten _ | vanished _ | reload _
  | unfailed _ => rfl

theorem record_of_step (hwrites : event.WritesRecord = false)
    (hstep : step externals config state event = some (after, emitted)) :
    after.record job =
      if state.removedRecord event = some job then none else state.record job := by
  cases stepped_of_step hstep with
  | submit => cases hwrites
  | @delete handler keyId jobId _ =>
    have hspools : (deleteStep state handler keyId jobId).1.spools = state.spools := by
      unfold deleteStep
      split
      · rfl
      · split <;> rfl
    exact record_of_spools hspools
  | @deleteNext handler removed deletion hdeletion =>
    rcases deletion with ⟨keyId, jobId, stage⟩
    rw [record_deleteNextStep]
    cases removed with
    | false => simp [State.removedRecord]
    | true => cases stage <;> simp [State.removedRecord, hdeletion, eq_comm]
  | @work worker held phase workerEvent spool afterPhase hworker hwork =>
    have hjobs := jobs_of_action hwrites (action_of_workerStep hwork)
    rw [record_setWorker, record_setSpool, hjobs]
    by_cases hclient : job.keyIdHex = held.keyIdHex
    · simp [hclient, State.removedRecord, State.record]
    · simp [hclient, State.removedRecord]
  | @reapNext now keyIdHex fileName jobId stage removed hreaper =>
    rw [record_reapNextStep]
    cases removed with
    | false => simp [State.removedRecord]
    | true => cases stage <;> simp [State.removedRecord, hreaper, eq_comm]
  | recoverVisit _ => exact record_of_spools sameFiles_recoverStep.spools
  | tick _ | list | download | take _ _ _ | reapStart _ | reapVisit | reapFinish
  | recoverFinish _ _ | crash => exact record_of_spools rfl

/-- The three places where a worker writes its record. -/
theorem Phase.record_cases {phase : Phase} {now : UInt64} {metadata : RelayJobMetadata}
    (h : phase.record now = some metadata) :
    ∃ copied, phase = .marking copied ∧ metadata = runningCopy now copied ∨
      phase = .completing copied ∧ metadata = completeCopy now copied ∨
      phase = .failWriting copied ∧ metadata = { copied with updatedAtMs := now } := by
  cases phase with
  | marking copied =>
    cases h
    exact ⟨copied, .inl ⟨rfl, rfl⟩⟩
  | completing copied =>
    cases h
    exact ⟨copied, .inr (.inl ⟨rfl, rfl⟩)⟩
  | failWriting copied =>
    cases h
    exact ⟨copied, .inr (.inr ⟨rfl, rfl⟩)⟩
  | taken | fetching _ | cloning _ | bundling _ | collecting _ | fetched _ _ | stored _ _
  | failing _ => cases h

/-- A worker about to write a record waits until it has written it. -/
theorem worker_of_step {worker : ℕ} {phase : Phase} {now : UInt64} {metadata : RelayJobMetadata}
    (hwrites : event.WritesRecord = false) (hcrash : event ≠ .crash)
    (hworker : state.workers.lookup worker = some ⟨job, phase⟩)
    (hrecord : phase.record now = some metadata)
    (hstep : step externals config state event = some (after, emitted)) :
    after.workers.lookup worker = some ⟨job, phase⟩ := by
  cases dispatch_of_step hstep with
  | same _ hworkers _ => rw [hworkers, hworker]
  | submitted _ _ _ => cases hwrites
  | passed _ _ _ hworkers _ => rw [hworkers, hworker]
  | recovered _ _ _ _ hworkers _ => rw [hworkers, hworker]
  | scanned _ _ hworkers => rw [hworkers, hworker]
  | @taken other taken next hidle _ hworkers _ =>
    have hne : worker ≠ other := by
      rintro rfl
      exact hidle (HashMap.mem_of_lookup hworker)
    rw [hworkers, AList.lookup_insert_ne hne, hworker]
  | @worked other held heldPhase workerEvent spool afterPhase hother hwork =>
    rw [State.lookup_setWorker]
    split
    · rename_i hsame
      subst hsame
      cases hworker.symm.trans hother
      -- the phases before a record write have no other event
      obtain ⟨copied, ⟨rfl, -⟩ | ⟨rfl, -⟩ | ⟨rfl, -⟩⟩ := Phase.record_cases hrecord
      all_goals cases workerEvent <;> simp [workerStep, Event.WritesRecord] at hwork hwrites
    · exact hworker
  | crashed _ _ _ => exact absurd rfl hcrash

/-- The write of a record as one step of the engine. -/
theorem workerStep_recordEvent {spool : Spool} {jobId : String} {phase : Phase} {now : UInt64}
    {metadata : RelayJobMetadata} (hrecord : phase.record now = some metadata)
    (hstorable : metadata.storable) :
    workerStep externals config now spool jobId phase (phase.recordEvent none) =
      some (spool.record metadata, phase.recorded metadata) := by
  have hwrite : writeMetadata externals none metadata spool = .ok (spool.record metadata) :=
    writeMetadata_ok_iff.mpr ⟨hstorable, rfl, rfl⟩
  obtain ⟨copied, ⟨rfl, rfl⟩ | ⟨rfl, rfl⟩ | ⟨rfl, rfl⟩⟩ := Phase.record_cases hrecord
  · rw [runningCopy] at hwrite
    simp [workerStep, Phase.recordEvent, Phase.recorded, runningCopy, hwrite]
  · rw [completeCopy] at hwrite
    simp [workerStep, Phase.recordEvent, Phase.recorded, completeCopy, hwrite]
  · simp [workerStep, Phase.recordEvent, Phase.recorded, hwrite]

/-- A record that cannot be serialized is not written. -/
theorem spool_of_unserialized {spool next : Spool} {jobId : String} {phase : Phase} {now : UInt64}
    {metadata : RelayJobMetadata} {afterPhase : Option Phase}
    (hrecord : phase.record now = some metadata) (hstorable : ¬metadata.storable)
    (hstep : workerStep externals config now spool jobId phase (phase.recordEvent none) =
      some (next, afterPhase)) : next = spool := by
  obtain ⟨copied, ⟨rfl, rfl⟩ | ⟨rfl, rfl⟩ | ⟨rfl, rfl⟩⟩ := Phase.record_cases hrecord
  · cases action_of_workerStep hstep with
    | mark h => exact absurd h hstorable
    | fetch hphase _ _ _ _ _ _ => cases hphase
    | unwritten _ => rfl
  · cases action_of_workerStep hstep with
    | complete h => exact absurd h hstorable
    | fetch hphase _ _ _ _ _ _ => cases hphase
    | unwritten _ => rfl
  · cases action_of_workerStep hstep with
    | fail h => exact absurd h hstorable
    | fetch hphase _ _ _ _ _ _ => cases hphase
    | unwritten _ => rfl
    | unfailed _ => rfl

theorem record_of_unserialized {worker : ℕ} {held : JobRef} {phase : Phase}
    {metadata : RelayJobMetadata} (hworker : state.workers.lookup worker = some ⟨held, phase⟩)
    (hrecord : phase.record state.now = some metadata) (hstorable : ¬metadata.storable)
    (hstep : step externals config state (.work worker (phase.recordEvent none)) =
      some (after, emitted)) (job : JobRef) : after.record job = state.record job := by
  cases stepped_of_step hstep with
  | @work _ held' phase' _ spool afterPhase hheld hwork =>
    cases hworker.symm.trans hheld
    rw [record_setWorker, record_setSpool, spool_of_unserialized hrecord hstorable hwork]
    split
    · rename_i hclient
      rw [← hclient]
      rfl
    · rfl

/-- What is written names the job it is written for. -/
theorem jobId_of_record {phase : Phase} {now : UInt64} {metadata : RelayJobMetadata}
    (hcopy : ∀ copied, phase.copy = some copied → copied.jobId = job.jobId)
    (hrecord : phase.record now = some metadata) : metadata.jobId = job.jobId := by
  obtain ⟨copied, ⟨rfl, rfl⟩ | ⟨rfl, rfl⟩ | ⟨rfl, rfl⟩⟩ := Phase.record_cases hrecord
  all_goals exact hcopy copied rfl

/-- What is written carries the time of its serialization, which therefore fits `i64`. -/
theorem now_le_of_record {phase : Phase} {now : UInt64} {metadata : RelayJobMetadata}
    (hrecord : phase.record now = some metadata) (hstorable : metadata.storable) :
    now ≤ i64Max := by
  have htime : metadata.updatedAtMs ≤ i64Max := by
    simp only [RelayJobMetadata.storable, decide_eq_true_eq] at hstorable
    exact hstorable.2.2.2.1
  obtain ⟨copied, ⟨rfl, rfl⟩ | ⟨rfl, rfl⟩ | ⟨rfl, rfl⟩⟩ := Phase.record_cases hrecord
  all_goals exact htime

end Engine

/-! ### Whole records -/

/-- File operations of the engine do not fail. -/
def FilesWork (state : FileState) : FileEvent → Prop
  | .engine event => NoFileErrors state.engine event
  | _ => True

/-- No call of `write_metadata` opens the temporary file of a job while another has it open. -/
def WritesApart (state : FileState) : FileEvent → Prop
  | .openTemp writer => ∀ entry ∈ state.writes.entries,
      (state.writes.lookup writer).map RecordWrite.job = some entry.2.job →
        entry.2.progress = .serialized
  | _ => True

instance (state : FileState) (event : FileEvent) : Decidable (FilesWork state event) :=
  match event with
  | .engine event => inferInstanceAs (Decidable (NoFileErrors state.engine event))
  | .submit _ _ _ _ | .serialize _ | .openTemp _ | .writeTemp _ _ | .rename _ | .send _ =>
    .isTrue trivial

instance (state : FileState) (event : FileEvent) : Decidable (WritesApart state event) :=
  match event with
  | .openTemp writer => inferInstanceAs (Decidable (∀ entry ∈ state.writes.entries,
      (state.writes.lookup writer).map RecordWrite.job = some entry.2.job →
        entry.2.progress = .serialized))
  | .engine _ | .submit _ _ _ _ | .serialize _ | .writeTemp _ _ | .rename _ | .send _ =>
    .isTrue trivial

/-- The runs in which every record is written by one call at a time. -/
def OneWriteAtATime (state : FileState) (event : FileEvent) : Prop :=
  FilesWork state event ∧ WritesApart state event

instance (state : FileState) (event : FileEvent) : Decidable (OneWriteAtATime state event) :=
  inferInstanceAs (Decidable (FilesWork state event ∧ WritesApart state event))

namespace FileState

/-- The live files are the records that the engine knows. -/
def Readable (toml : RecordToml) (state : FileState) : Prop :=
  ∀ job, (state.disk.read (.live job)).map toml.fromStr = (state.engine.record job).map some

/-- The task behind a call is where it makes the call. -/
def Owned (state : FileState) (write : RecordWrite) : Writer → Prop
  | .worker worker => ∃ phase now, state.engine.workers.lookup worker = some ⟨write.job, phase⟩ ∧
      phase.record now = some write.metadata
  | .handler handler => ∃ enqueue, state.submissions.lookup handler = some enqueue ∧
      enqueue.job = write.job

/-- A call of `write_metadata` that nothing disturbs. -/
structure Call (toml : RecordToml) (state : FileState) (writer : Writer) (write : RecordWrite) :
    Prop where
  storable : write.metadata.storable
  name : write.metadata.jobId = write.job.jobId
  owned : state.Owned write writer
  opened : ∀ file position, write.progress = .opened file position →
    state.disk.names.lookup (.temp write.job) = some file ∧
      state.disk.text file = (toml.toStringPretty write.metadata).take position ∧
      position ≤ (toml.toStringPretty write.metadata).length

/-- What keeps every live record whole and every unfinished one scheduled. -/
structure Sound (toml : RecordToml) (state : FileState) : Prop where
  durable : Durable state.Enqueuing state.engine
  readable : state.Readable toml
  calls : ∀ writer write, state.writes.lookup writer = some write → state.Call toml writer write
  alone : ∀ writer writer' write write', state.writes.lookup writer = some write →
    state.writes.lookup writer' = some write' → write.job = write'.job →
    write.progress ≠ .serialized → write'.progress ≠ .serialized → writer = writer'

section

variable {externals : Externals} {config : RelayConfig} {toml : RecordToml}
  {state after : FileState} {emitted : Option Output}

/-- An accepted submission has a record that can be serialized. -/
theorem storable_of_accepted {keyId : KeyId} {submission : Submission} {now : UInt64}
    {spool : Spool} {jobId : String}
    (h : (Relay.enqueue externals config keyId submission now none spool).1 = .accepted jobId) :
    (queuedMetadata externals config keyId submission now).storable ∧
      (queuedMetadata externals config keyId submission now).jobId = jobId := by
  unfold Relay.enqueue at h
  dsimp only at h
  split_ifs at h
  split at h
  · rename_i hwrite
    cases h
    exact ⟨(writeMetadata_ok_iff.mp hwrite).1, rfl⟩
  · cases h

theorem sound_start (now : UInt64) : Sound toml (FileState.start now) where
  durable := durable_start now
  readable _ := rfl
  calls _ _ h := by cases h
  alone _ _ _ _ h := by cases h

theorem Readable.not_torn (h : state.Readable toml) (job : JobRef) : state.torn job = false := by
  unfold torn
  rw [decide_eq_false_iff_not]
  rintro ⟨hlive, hnone⟩
  have hjob := h job
  obtain ⟨file, hfile⟩ := Option.isSome_iff_exists.mp (AList.lookup_isSome.mpr hlive)
  rw [OpenFiles.read, hfile, hnone] at hjob
  cases hjob

theorem Readable.anyTorn (h : state.Readable toml) (client : String) :
    state.anyTorn client = false := by
  rw [FileState.anyTorn, List.any_eq_false]
  rintro ⟨name, file⟩ _
  cases name with
  | temp _ => simp
  | live job => simp [h.not_torn job]

/-- Without torn records the engine takes its own steps. -/
theorem Readable.engineStep (h : state.Readable toml) (event : Event) :
    state.engineStep externals config event = step externals config state.engine event := by
  unfold FileState.engineStep
  split
  · simp [h.anyTorn]
  · simp [h.not_torn]
  · simp [h.not_torn]
  · split
    · simp [h.not_torn]
    · rfl
  · rfl

/-! ### One step -/

theorem Sound.engine {event : Event} {next : State} (h : state.Sound toml)
    (herrors : NoFileErrors state.engine event) (hclock : state.engine.now ≤ i64Max)
    (hwrites : event.WritesRecord = false) (hcrash : event ≠ .crash)
    (hstep : state.engineStep externals config event = some (next, emitted)) :
    Sound toml { state with engine := next, disk := state.unlinked event } := by
  rw [h.readable.engineStep] at hstep
  have hlive (job : JobRef) : (state.unlinked event).read (.live job) =
      if state.engine.removedRecord event = some job then none
      else state.disk.read (.live job) := by
    unfold unlinked
    split
    · rename_i removed hremoved
      rw [OpenFiles.read_unlink, hremoved]
      simp [eq_comm]
    · rename_i hremoved
      rw [hremoved]
      rfl
  refine ⟨h.durable.step herrors hclock (fun _ hpending ↦ .inl hpending) hstep, ?_, ?_, h.alone⟩
  · intro job
    change ((state.unlinked event).read (.live job)).map toml.fromStr = (next.record job).map some
    rw [hlive, record_of_step hwrites hstep]
    split
    · rfl
    · exact h.readable job
  · intro writer write hwrite
    have hcall := h.calls writer write hwrite
    refine ⟨hcall.storable, hcall.name, ?_, ?_⟩
    · cases writer with
      | worker worker =>
        obtain ⟨phase, now, hworker, hrecord⟩ := hcall.owned
        exact ⟨phase, now, worker_of_step hwrites hcrash hworker hrecord hstep, hrecord⟩
      | handler handler => exact hcall.owned
    · intro file position hprogress
      obtain ⟨hname, htext, hposition⟩ := hcall.opened file position hprogress
      refine ⟨?_, ?_, hposition⟩
      · unfold unlinked
        split
        · exact (OpenFiles.lookup_unlink _).trans ((if_neg nofun).trans hname)
        · exact hname
      · unfold unlinked
        split
        · exact htext
        · exact htext

theorem Sound.crash {next : State} (h : state.Sound toml) (hclock : state.engine.now ≤ i64Max)
    (hstep : step externals config state.engine .crash = some (next, emitted)) :
    Sound toml { state with engine := next, writes := ∅, submissions := ∅ } where
  durable := by
    have herrors : NoFileErrors state.engine .crash := trivial
    have hrecovery : next.recovery = some ⟨state.engine.jobFiles, []⟩ := by
      cases hstep
      rfl
    exact h.durable.step herrors hclock (fun _ _ ↦ .inr hrecovery) hstep
  readable job := by
    have hrecord : next.record job = state.engine.record job := by
      cases hstep
      rfl
    change (state.disk.read (.live job)).map toml.fromStr = (next.record job).map some
    rw [hrecord]
    exact h.readable job
  calls _ _ hwrite := by cases hwrite
  alone _ _ _ _ hwrite := by cases hwrite

/-- A call that has just been made and has opened nothing. -/
theorem Sound.insert {writer : Writer} {write : RecordWrite} {submissions : HashMap ℕ Enqueue}
    (h : state.Sound toml) (hprogress : write.progress = .serialized)
    (hsubmissions : ∀ handler enqueue, state.submissions.lookup handler = some enqueue →
      submissions.lookup handler = some enqueue ∧ .handler handler ≠ writer)
    (hcall : Call toml { state with
      writes := state.writes.insert writer write, submissions := submissions } writer write) :
    Sound toml { state with
      writes := state.writes.insert writer write, submissions := submissions } where
  durable := by
    refine h.durable.mono ?_
    rintro job ⟨handler, enqueue, henqueue, hjob, hrecorded⟩
    obtain ⟨hkept, hne⟩ := hsubmissions handler enqueue henqueue
    refine ⟨handler, enqueue, hkept, hjob, fun hmem ↦ ?_⟩
    rcases (AList.mem_insert _).mp hmem with hsame | hmem
    · exact hne hsame
    · exact hrecorded hmem
  readable := h.readable
  calls other before hbefore := by
    rw [HashMap.lookup_insert_ite] at hbefore
    split at hbefore
    · rename_i hother
      cases hbefore
      rw [hother]
      exact hcall
    · have hold := h.calls other before hbefore
      refine ⟨hold.storable, hold.name, ?_, hold.opened⟩
      cases other with
      | worker worker => exact hold.owned
      | handler handler =>
        obtain ⟨enqueue, henqueue, hjob⟩ := hold.owned
        exact ⟨enqueue, (hsubmissions handler enqueue henqueue).1, hjob⟩
  alone first second before before' hfirst hsecond hjob hopened hopened' := by
    rw [HashMap.lookup_insert_ite] at hfirst hsecond
    split at hfirst
    · cases hfirst
      exact absurd hprogress hopened
    · split at hsecond
      · cases hsecond
        exact absurd hprogress hopened'
      · exact h.alone first second before before' hfirst hsecond hjob hopened hopened'

theorem Sound.begin {handler : ℕ} {keyId : KeyId} {submission : Submission} {jobId : String}
    (h : state.Sound toml) (hfree : handler ∉ state.submissions)
    (haccepted : (Relay.enqueue externals config keyId submission state.engine.now none
      (state.engine.spool (Keys.keyIdHex keyId))).1 = .accepted jobId) :
    Sound toml { state with
      writes := state.writes.insert (.handler handler)
        ⟨⟨Keys.keyIdHex keyId, jobId⟩,
          queuedMetadata externals config keyId submission state.engine.now, .serialized⟩
      submissions := state.submissions.insert handler ⟨keyId, submission, jobId⟩ } := by
  obtain ⟨hstorable, hname⟩ := storable_of_accepted haccepted
  refine h.insert rfl ?_ ⟨hstorable, hname, ⟨_, AList.lookup_insert _, rfl⟩, nofun⟩
  intro other enqueue henqueue
  have hne : other ≠ handler := by
    rintro rfl
    exact hfree (HashMap.mem_of_lookup henqueue)
  refine ⟨(AList.lookup_insert_ne hne).trans henqueue, ?_⟩
  rintro ⟨⟩
  exact hne rfl

theorem Sound.serialize {worker : ℕ} {job : JobRef} {phase : Phase} {metadata : RelayJobMetadata}
    (h : state.Sound toml) (hworker : state.engine.workers.lookup worker = some ⟨job, phase⟩)
    (hrecord : phase.record state.engine.now = some metadata) (hstorable : metadata.storable) :
    Sound toml { state with
      writes := state.writes.insert (.worker worker)
        ⟨⟨job.keyIdHex, metadata.jobId⟩, metadata, .serialized⟩ } := by
  have hname : metadata.jobId = job.jobId :=
    jobId_of_record (h.durable.named.copies worker job phase · hworker) hrecord
  rw [hname]
  exact h.insert rfl (fun _ _ henqueue ↦ ⟨henqueue, nofun⟩)
    ⟨hstorable, hname, ⟨phase, _, hworker, hrecord⟩, nofun⟩

/-- A worker whose record cannot be serialized goes on without a call. -/
theorem Sound.unserialized {worker : ℕ} {job : JobRef} {phase : Phase}
    {metadata : RelayJobMetadata} {next : State} (h : state.Sound toml)
    (hclock : state.engine.now ≤ i64Max)
    (hworker : state.engine.workers.lookup worker = some ⟨job, phase⟩)
    (hrecord : phase.record state.engine.now = some metadata)
    (hidle : .worker worker ∉ state.writes) (hstorable : ¬metadata.storable)
    (hstep : step externals config state.engine (.work worker (phase.recordEvent none)) =
      some (next, emitted)) : Sound toml { state with engine := next } := by
  have herrors : NoFileErrors state.engine (.work worker (phase.recordEvent none)) := by
    cases phase <;> exact rfl
  have hdurable := h.durable.step herrors hclock (fun _ hpending ↦ .inl hpending) hstep
  have hrecords := record_of_unserialized hworker hrecord hstorable hstep
  cases stepped_of_step hstep with
  | @work _ held heldPhase _ spool afterPhase hheld hwork =>
    cases hworker.symm.trans hheld
    refine ⟨hdurable, ?_, ?_, h.alone⟩
    · intro other
      exact (h.readable other).trans (congrArg _ (hrecords other).symm)
    · intro writer write hwrite
      have hold := h.calls writer write hwrite
      refine ⟨hold.storable, hold.name, ?_, hold.opened⟩
      cases writer with
      | handler handler => exact hold.owned
      | worker other =>
        have hne : other ≠ worker := by
          rintro rfl
          exact hidle (HashMap.mem_of_lookup hwrite)
        obtain ⟨otherPhase, now, hother, hwritten⟩ := hold.owned
        refine ⟨otherPhase, now, ?_, hwritten⟩
        exact (State.lookup_setWorker _ _ _ _ _).trans ((if_neg hne).trans hother)

/-- A call that goes on with its file, while no other call for its job has opened one. -/
theorem Sound.advance {writer : Writer} {write : RecordWrite} {disk : OpenFiles RecordName}
    {file position : ℕ} (h : state.Sound toml) (hwrite : state.writes.lookup writer = some write)
    (halone : ∀ other write', state.writes.lookup other = some write' → other ≠ writer →
      write'.job = write.job → write'.progress = .serialized)
    (hlive : ∀ job, disk.read (.live job) = state.disk.read (.live job))
    (hself : disk.names.lookup (.temp write.job) = some file ∧
      disk.text file = (toml.toStringPretty write.metadata).take position ∧
      position ≤ (toml.toStringPretty write.metadata).length)
    (hothers : ∀ job other, job ≠ write.job → state.disk.names.lookup (.temp job) = some other →
      disk.names.lookup (.temp job) = some other ∧ disk.text other = state.disk.text other) :
    Sound toml { state with
      disk := disk
      writes := state.writes.insert writer
        { write with progress := .opened file position } } where
  durable := by
    refine h.durable.mono ?_
    rintro job ⟨handler, enqueue, henqueue, hjob, hrecorded⟩
    refine ⟨handler, enqueue, henqueue, hjob, fun hmem ↦ ?_⟩
    rcases (AList.mem_insert _).mp hmem with rfl | hmem
    · exact hrecorded (HashMap.mem_of_lookup hwrite)
    · exact hrecorded hmem
  readable job := (congrArg _ (hlive job)).trans (h.readable job)
  calls other before hbefore := by
    rw [HashMap.lookup_insert_ite] at hbefore
    split at hbefore
    · rename_i hother
      cases hbefore
      rw [hother]
      have hold := h.calls writer write hwrite
      refine ⟨hold.storable, hold.name, hold.owned, ?_⟩
      rintro _ _ ⟨⟩
      exact hself
    · rename_i hother
      have hold := h.calls other before hbefore
      refine ⟨hold.storable, hold.name, hold.owned, ?_⟩
      intro opened length hprogress
      have hjob : before.job ≠ write.job := by
        intro hjob
        rw [halone other before hbefore hother hjob] at hprogress
        cases hprogress
      obtain ⟨hname, htext, hlength⟩ := hold.opened opened length hprogress
      obtain ⟨hname', htext'⟩ := hothers before.job opened hjob hname
      exact ⟨hname', htext'.trans htext, hlength⟩
  alone first second before before' hfirst hsecond hjob hopened hopened' := by
    rw [HashMap.lookup_insert_ite] at hfirst hsecond
    split at hfirst
    · rename_i hsame
      cases hfirst
      split at hsecond
      · rename_i hsame'
        rw [hsame, hsame']
      · rename_i hne
        exact absurd (halone second before' hsecond hne hjob.symm) hopened'
    · rename_i hne
      split at hsecond
      · cases hsecond
        exact absurd (halone first before hfirst hne hjob) hopened
      · exact h.alone first second before before' hfirst hsecond hjob hopened hopened'

theorem Sound.openTemp {writer : Writer} {write : RecordWrite} (h : state.Sound toml)
    (hwrite : state.writes.lookup writer = some write)
    (hapart : WritesApart state (.openTemp writer)) :
    Sound toml { state with
      disk := (state.disk.truncate (.temp write.job)).1
      writes := state.writes.insert writer
        { write with progress := .opened (state.disk.truncate (.temp write.job)).2 0 } } := by
  refine h.advance hwrite ?_ ?_ ⟨?_, ?_, Nat.zero_le _⟩ ?_
  · intro other write' hwrite' _ hjob
    have hwriter : (state.writes.lookup writer).map RecordWrite.job = some write'.job := by
      rw [hwrite, hjob, Option.map_some]
    exact hapart _ (HashMap.mem_entries_iff.mpr hwrite') hwriter
  · intro job
    exact OpenFiles.read_truncate_of_ne nofun
  · rw [OpenFiles.lookup_truncate, if_pos rfl]
  · rw [OpenFiles.text_truncate, if_pos rfl, List.take_zero]
  · intro job other hjob hother
    have hne : RecordName.temp job ≠ .temp write.job := by
      rintro ⟨⟩
      exact hjob rfl
    rw [OpenFiles.lookup_truncate, if_neg hne, OpenFiles.text_truncate,
      if_neg (OpenFiles.ne_truncate hother hne)]
    exact ⟨hother, rfl⟩

/-- Calls that have opened the file of a job are one call. -/
theorem Sound.serialized_of_ne {writer other : Writer} {write write' : RecordWrite}
    {file position : ℕ} (h : state.Sound toml) (hwrite : state.writes.lookup writer = some write)
    (hprogress : write.progress = .opened file position)
    (hwrite' : state.writes.lookup other = some write') (hne : other ≠ writer)
    (hjob : write'.job = write.job) : write'.progress = .serialized := by
  by_contra hopened
  refine hne (h.alone other writer write' write hwrite' hwrite hjob hopened ?_)
  rw [hprogress]
  exact nofun

/-- The file that a call has open is not a record. -/
theorem Sound.not_live {writer : Writer} {write : RecordWrite} {file position : ℕ}
    (h : state.Sound toml) (hwrite : state.writes.lookup writer = some write)
    (hprogress : write.progress = .opened file position) :
    state.disk.names.lookup (.live write.job) ≠ some file := by
  intro hlive
  obtain ⟨hname, -⟩ := (h.calls writer write hwrite).opened file position hprogress
  cases state.disk.apart _ _ _ hlive hname

theorem Sound.writeTemp {writer : Writer} {write : RecordWrite} {count file position : ℕ}
    {bytes : Bytes} {next : State} (h : state.Sound toml)
    (hwrite : state.writes.lookup writer = some write)
    (hprogress : write.progress = .opened file position)
    (hbytes : bytes = ((toml.toStringPretty write.metadata).drop position).take count)
    (hnext : next = state.engine ∨ state.disk.names.lookup (.live write.job) = some file ∧
      ∃ spool, next = state.engine.setSpool write.job.keyIdHex spool) :
    Sound toml { state with
      engine := next
      disk := state.disk.write file position bytes
      writes := state.writes.insert writer
        { write with progress := .opened file (position + bytes.length) } } := by
  obtain ⟨hname, htext, hposition⟩ := (h.calls writer write hwrite).opened file position hprogress
  obtain rfl := hnext.resolve_right fun hlive ↦ h.not_live hwrite hprogress hlive.1
  have hlength : (state.disk.text file).length = position := by
    rw [htext, List.length_take, Nat.min_eq_left hposition]
  refine h.advance hwrite (fun _ _ ↦ h.serialized_of_ne hwrite hprogress) ?_ ⟨hname, ?_, ?_⟩ ?_
  · intro job
    have hne : RecordName.live job ≠ .temp write.job := nofun
    exact OpenFiles.read_write_of_ne hname hne bytes
  · have hend : OpenFiles.overwrite (state.disk.text file) position bytes =
        state.disk.text file ++ bytes := by
      rw [← hlength, OpenFiles.overwrite_at_end]
    have hchunk : bytes = ((toml.toStringPretty write.metadata).drop position).take
        bytes.length := by
      rw [hbytes, List.length_take, ← List.take_eq_take_min]
    rw [OpenFiles.text_write, if_pos rfl, hend, htext, List.take_add, ← hchunk]
  · rw [hbytes, List.length_take, List.length_drop]
    omega
  · intro job other hjob hother
    have hne : other ≠ file := by
      rintro rfl
      cases state.disk.apart _ _ _ hother hname
      exact hjob rfl
    rw [OpenFiles.text_write, if_neg hne]
    exact ⟨hother, rfl⟩

/-- The temporary file of a call is its own, so it is there to be renamed. -/
theorem Sound.rename_ne_none {writer : Writer} {write : RecordWrite} {file position : ℕ}
    (h : state.Sound toml) (hwrite : state.writes.lookup writer = some write)
    (hprogress : write.progress = .opened file position) :
    state.disk.rename (.temp write.job) (.live write.job) ≠ none := by
  obtain ⟨hname, -⟩ := (h.calls writer write hwrite).opened file position hprogress
  obtain ⟨moved, hmoved⟩ := OpenFiles.rename_isSome hname
  rw [hmoved]
  exact nofun

/-- The engine after the rename of a whole record. -/
theorem Sound.refresh {writer : Writer} {write : RecordWrite} {file : ℕ}
    {disk : OpenFiles RecordName} (h : state.Sound toml)
    (hwrite : state.writes.lookup writer = some write)
    (hprogress : write.progress = .opened file (toml.toStringPretty write.metadata).length)
    (hdisk : state.disk.rename (.temp write.job) (.live write.job) = some disk) :
    disk.read (.live write.job) = some (toml.toStringPretty write.metadata) ∧
      FileState.refresh toml { state with disk := disk } write.job =
        state.engine.setSpool write.job.keyIdHex
          ((state.engine.spool write.job.keyIdHex).record write.metadata) := by
  have hcall := h.calls writer write hwrite
  obtain ⟨hname, htext, -⟩ := hcall.opened _ _ hprogress
  obtain ⟨moved, hmoved, hcontents, hnames⟩ := OpenFiles.rename_eq_some hdisk
  obtain rfl : file = moved := Option.some.inj (hname.symm.trans hmoved)
  have hsame : disk.text file = state.disk.text file := by
    unfold OpenFiles.text
    rw [hcontents]
  have hread : disk.read (.live write.job) = some (toml.toStringPretty write.metadata) := by
    rw [OpenFiles.read, hnames, if_pos rfl, Option.map_some, hsame, htext, List.take_length]
  refine ⟨hread, ?_⟩
  unfold FileState.refresh Spool.record
  dsimp only
  rw [hread, Option.bind_some, toml.fromStr_toStringPretty _ hcall.storable, hcall.name]

theorem record_renamed (state : FileState) (writer : Writer) (write : RecordWrite)
    (job : JobRef) : (state.renamed writer write).engine.record job = state.engine.record job := by
  unfold renamed
  split
  · rfl
  · split
    · exact record_setWorker
    · rfl

theorem record_published {job : JobRef} {engine : State} {metadata : RelayJobMetadata}
    (hname : metadata.jobId = job.jobId) (other : JobRef) :
    (engine.setSpool job.keyIdHex ((engine.spool job.keyIdHex).record metadata)).record other =
      if other = job then some metadata else engine.record other := by
  rcases other with ⟨client, jobId⟩
  rcases job with ⟨client', jobId'⟩
  rw [record_setSpool, Spool.record, HashMap.lookup_insert_ite]
  by_cases hclient : client = client'
  · subst hclient
    by_cases hid : jobId = jobId'
    · simp_all
    · simp_all [State.record]
  · simp [hclient]

theorem Sound.record_rename {writer : Writer} {write : RecordWrite} {file : ℕ}
    {disk : OpenFiles RecordName} (h : state.Sound toml)
    (hwrite : state.writes.lookup writer = some write)
    (hprogress : write.progress = .opened file (toml.toStringPretty write.metadata).length)
    (hdisk : state.disk.rename (.temp write.job) (.live write.job) = some disk) (job : JobRef) :
    (FileState.renamed { state with
      engine := FileState.refresh toml { state with disk := disk } write.job
      disk := disk } writer write).engine.record job =
        if job = write.job then some write.metadata else state.engine.record job := by
  obtain ⟨-, hrefresh⟩ := h.refresh hwrite hprogress hdisk
  rw [hrefresh, record_renamed]
  exact record_published (h.calls writer write hwrite).name job

/-- A call that has published its record. -/
theorem Sound.publish {writer : Writer} {write : RecordWrite} {file : ℕ}
    {disk : OpenFiles RecordName} {next : State} (h : state.Sound toml)
    (hwrite : state.writes.lookup writer = some write)
    (hprogress : write.progress = .opened file (toml.toStringPretty write.metadata).length)
    (hdisk : state.disk.rename (.temp write.job) (.live write.job) = some disk)
    (hdurable : Durable (FileState.Enqueuing { state with writes := state.writes.erase writer })
      next)
    (hrecord : ∀ job, next.record job =
      if job = write.job then some write.metadata else state.engine.record job)
    (hworkers : ∀ worker, .worker worker ≠ writer →
      next.workers.lookup worker = state.engine.workers.lookup worker) :
    Sound toml { state with
      engine := next, disk := disk, writes := state.writes.erase writer } where
  durable := hdurable
  readable job := by
    obtain ⟨hread, -⟩ := h.refresh hwrite hprogress hdisk
    have hcall := h.calls writer write hwrite
    change (disk.read (.live job)).map toml.fromStr = (next.record job).map some
    rw [hrecord]
    split
    · rename_i hjob
      rw [hjob, hread, Option.map_some, toml.fromStr_toStringPretty _ hcall.storable]
      rfl
    · rename_i hjob
      obtain ⟨moved, -, hcontents, hnames⟩ := OpenFiles.rename_eq_some hdisk
      have hother : disk.read (.live job) = state.disk.read (.live job) := by
        have hne : RecordName.live job ≠ .live write.job := fun heq ↦ hjob (by cases heq; rfl)
        have hne' : RecordName.live job ≠ .temp write.job := nofun
        unfold OpenFiles.read
        rw [hnames, if_neg hne, if_neg hne']
        congr 1
        unfold OpenFiles.text
        rw [hcontents]
      rw [hother]
      exact h.readable job
  calls other before hbefore := by
    obtain ⟨hother, hbefore⟩ := HashMap.lookup_of_lookup_erase hbefore
    have hold := h.calls other before hbefore
    refine ⟨hold.storable, hold.name, ?_, ?_⟩
    · cases other with
      | handler handler => exact hold.owned
      | worker worker =>
        obtain ⟨phase, now, hworker, hwritten⟩ := hold.owned
        exact ⟨phase, now, (hworkers worker hother).trans hworker, hwritten⟩
    · intro opened length hopened
      obtain ⟨hname, htext, hlength⟩ := hold.opened opened length hopened
      obtain ⟨moved, -, hcontents, hnames⟩ := OpenFiles.rename_eq_some hdisk
      have hne : RecordName.temp before.job ≠ .temp write.job := by
        intro heq
        have hserialized := h.serialized_of_ne hwrite hprogress hbefore hother
          (RecordName.temp.inj heq)
        rw [hopened] at hserialized
        cases hserialized
      refine ⟨?_, ?_, hlength⟩
      · rw [hnames, if_neg nofun, if_neg hne]
        exact hname
      · unfold OpenFiles.text at htext ⊢
        rw [hcontents]
        exact htext
  alone first second before before' hfirst hsecond :=
    h.alone first second before before' (HashMap.lookup_of_lookup_erase hfirst).2
      (HashMap.lookup_of_lookup_erase hsecond).2

/-- The record of a worker is published as by one step of the engine at the time at which it was
serialized. -/
theorem Sound.rename_worker (externals : Externals) (config : RelayConfig) {worker : ℕ}
    {write : RecordWrite} {file : ℕ} {disk : OpenFiles RecordName} (h : state.Sound toml)
    (hwrite : state.writes.lookup (.worker worker) = some write)
    (hprogress : write.progress = .opened file (toml.toStringPretty write.metadata).length)
    (hdisk : state.disk.rename (.temp write.job) (.live write.job) = some disk) :
    ∃ phase now next, state.engine.workers.lookup worker = some ⟨write.job, phase⟩ ∧
      now ≤ i64Max ∧
      step externals config { state.engine with now := now }
        (.work worker (phase.recordEvent none)) = some ({ next with now := now }, none) ∧
      FileState.renamed { state with
        engine := FileState.refresh toml { state with disk := disk } write.job
        disk := disk } (.worker worker) write =
          { state with
            engine := next, disk := disk, writes := state.writes.erase (.worker worker) } ∧
      next = (state.engine.setSpool write.job.keyIdHex
        ((state.engine.spool write.job.keyIdHex).record write.metadata)).setWorker worker write.job
          (phase.recorded write.metadata) := by
  have hcall := h.calls _ write hwrite
  obtain ⟨-, hrefresh⟩ := h.refresh hwrite hprogress hdisk
  obtain ⟨phase, now, hworker, hrecord⟩ := hcall.owned
  refine ⟨phase, now, _, hworker, now_le_of_record hrecord hcall.storable, ?_, ?_, rfl⟩
  · change ((state.engine.workers.lookup worker).bind _) = _
    rw [hworker, Option.bind_some]
    dsimp only
    rw [workerStep_recordEvent hrecord hcall.storable]
    cases phase.recorded write.metadata with
    | none => rfl
    | some next => rfl
  · rw [hrefresh]
    exact renamed_worker hworker

theorem Sound.rename (externals : Externals) (config : RelayConfig) {writer : Writer}
    {write : RecordWrite} {file : ℕ} {disk : OpenFiles RecordName} (h : state.Sound toml)
    (hwrite : state.writes.lookup writer = some write)
    (hprogress : write.progress = .opened file (toml.toStringPretty write.metadata).length)
    (hdisk : state.disk.rename (.temp write.job) (.live write.job) = some disk) :
    Sound toml (FileState.renamed { state with
      engine := FileState.refresh toml { state with disk := disk } write.job
      disk := disk } writer write) := by
  have hcall := h.calls writer write hwrite
  have hpending (job : JobRef) (hjob : state.Enqueuing job) :
      FileState.Enqueuing { state with writes := state.writes.erase writer } job := by
    obtain ⟨handler, enqueue, henqueue, henqueued, hrecorded⟩ := hjob
    exact ⟨handler, enqueue, henqueue, henqueued, fun hmem ↦ hrecorded (AList.mem_erase.mp hmem).2⟩
  cases writer with
  | handler handler =>
    obtain ⟨-, hrefresh⟩ := h.refresh hwrite hprogress hdisk
    obtain ⟨enqueue, henqueue, hjob⟩ := hcall.owned
    rw [FileState.renamed, hrefresh]
    refine h.publish hwrite hprogress hdisk (h.durable.record hcall.storable hpending ?_) ?_
      fun _ _ ↦ rfl
    · refine ⟨handler, enqueue, henqueue, ?_, fun hmem ↦ (AList.mem_erase.mp hmem).1 rfl⟩
      rw [hjob, hcall.name]
    · exact record_published hcall.name
  | worker worker =>
    obtain ⟨phase, now, next, -, hnow, hstep, hrenamed, hnext⟩ :=
      h.rename_worker externals config hwrite hprogress hdisk
    have herrors : NoFileErrors { state.engine with now := now }
        (.work worker (phase.recordEvent none)) := by
      cases phase <;> exact rfl
    have hbefore : Durable state.Enqueuing { state.engine with now := now } :=
      h.durable.congr rfl rfl rfl rfl
    have hafter := hbefore.step herrors hnow (fun job hjob ↦ .inl (hpending job hjob)) hstep
    rw [hrenamed]
    refine h.publish hwrite hprogress hdisk (hafter.congr rfl rfl rfl rfl) ?_ ?_
    · intro job
      rw [hnext, record_setWorker]
      exact record_published hcall.name job
    · intro other hother
      have hne : other ≠ worker := fun heq ↦ hother (congrArg _ heq)
      rw [hnext, State.lookup_setWorker, if_neg hne]
      rfl

theorem Sound.send {handler : ℕ} {enqueue : Enqueue} (h : state.Sound toml)
    (henqueue : state.submissions.lookup handler = some enqueue)
    (hrecorded : .handler handler ∉ state.writes) :
    Sound toml { state with
      engine := { state.engine with queue := state.engine.queue ++ [enqueue.job] }
      submissions := state.submissions.erase handler } where
  durable := by
    refine h.durable.send ?_
    rintro job ⟨other, waiting, hwaiting, rfl, hsent⟩
    by_cases hother : other = handler
    · subst hother
      obtain rfl : waiting = enqueue := Option.some.inj (hwaiting.symm.trans henqueue)
      exact .inl rfl
    · exact .inr ⟨other, waiting, (AList.lookup_erase_ne hother).trans hwaiting, rfl, hsent⟩
  readable := h.readable
  calls writer write hwrite := by
    have hold := h.calls writer write hwrite
    refine ⟨hold.storable, hold.name, ?_, hold.opened⟩
    cases writer with
    | worker worker => exact hold.owned
    | handler other =>
      have hother : other ≠ handler := by
        rintro rfl
        exact hrecorded (HashMap.mem_of_lookup hwrite)
      obtain ⟨waiting, hwaiting, hjob⟩ := hold.owned
      exact ⟨waiting, (AList.lookup_erase_ne hother).trans hwaiting, hjob⟩
  alone := h.alone

theorem Sound.step {event : FileEvent} (h : state.Sound toml) (hguard : OneWriteAtATime state event)
    (hclock : state.engine.now ≤ i64Max)
    (hstep : fileStep externals config toml state event = some (after, emitted)) :
    after.Sound toml := by
  cases fileStepped_of_fileStep hstep with
  | engine hwrites hcrash hengine => exact h.engine hguard.1 hclock hwrites hcrash hengine
  | crash hengine => exact h.crash hclock hengine
  | refused _ => exact h
  | begun hfree _ haccepted => exact h.begin hfree haccepted
  | serialized hworker hrecord hstorable => exact h.serialize hworker hrecord hstorable
  | unserialized hworker hrecord hidle hstorable hengine =>
    exact h.unserialized hclock hworker hrecord hidle hstorable hengine
  | opened hwrite _ => exact h.openTemp hwrite hguard.2
  | written hwrite hprogress hbytes hnext => exact h.writeTemp hwrite hprogress hbytes hnext
  | renamed hwrite hprogress hdisk =>
    exact h.rename externals config hwrite hprogress hdisk
  | unrenamed hwrite hprogress hdisk _ =>
    exact absurd hdisk (h.rename_ne_none hwrite hprogress)
  | sent henqueue hrecorded => exact h.send henqueue hrecorded

end

end FileState

end Ghostbro.Relay
