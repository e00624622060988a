import Ghostbro.Foundation.OpenFiles
import Ghostbro.Relay.Durability

/-!
# Record writes, file operation by file operation

`write_metadata` serializes a record, writes it to a temporary file and renames that file.  The
name of the temporary file is that of the record, so two calls for one job use the same file: the
second one truncates what the first one wrote, and the first one may then rename an unfinished
text.  In the same way `enqueue` holds the lock of its client from the usage count to the send, and
the process may die between the record and the send.

The engine with these steps taken apart: `Relay.step` does everything else, and what it knows as
the records of a client are the live files that can be read.  File operations do not fail here.
-/

namespace Ghostbro.Relay

open Machine

/-- The files of `write_metadata`: `<job_id>.toml.tmp` and `<job_id>.toml` in a client's `jobs`. -/
inductive RecordName
  | temp (job : JobRef)
  | live (job : JobRef)
  deriving DecidableEq

/-- The `toml` crate on records whose integers fit `i64`. -/
structure RecordToml where
  toStringPretty : RelayJobMetadata → Bytes
  fromStr : Bytes → Option RelayJobMetadata
  fromStr_toStringPretty : ∀ metadata : RelayJobMetadata, metadata.storable →
    fromStr (toStringPretty metadata) = some metadata

/-- The task that calls `write_metadata`. -/
inductive Writer
  | worker (worker : ℕ)
  | handler (handler : ℕ)
  deriving DecidableEq

/-- How far a call of `write_metadata` is. -/
inductive WriteProgress
  | serialized
  | opened (file position : ℕ)
  deriving DecidableEq

structure RecordWrite where
  job : JobRef
  metadata : RelayJobMetadata
  progress : WriteProgress
  deriving DecidableEq

/-- An `enqueue` that has passed the quota check and holds the lock of its client. -/
structure Enqueue where
  keyId : KeyId
  submission : Submission
  jobId : String
  deriving DecidableEq

def Enqueue.job (enqueue : Enqueue) : JobRef := ⟨Keys.keyIdHex enqueue.keyId, enqueue.jobId⟩

structure FileState where
  engine : State
  disk : OpenFiles RecordName
  writes : HashMap Writer RecordWrite
  submissions : HashMap ℕ Enqueue

inductive FileEvent
  | engine (event : Event)
  | submit (handler : ℕ) (keyId : KeyId) (submission : Submission) (valid : Bool)
  | serialize (worker : ℕ)
  | openTemp (writer : Writer)
  | writeTemp (writer : Writer) (count : ℕ)
  | rename (writer : Writer)
  | send (handler : ℕ)

/-- The steps of the engine that write a record; here they are taken apart. -/
def Event.WritesRecord : Event → Bool
  | .submit _ _ _ _ => true
  | .work _ (.writeRunning _) | .work _ (.writeComplete _) | .work _ (.writeFailed _) => true
  | _ => false

/-- The record a worker is about to write. -/
def Phase.record (now : UInt64) : Phase → Option RelayJobMetadata
  | marking metadata => some (runningCopy now metadata)
  | completing metadata => some (completeCopy now metadata)
  | failWriting metadata => some { metadata with updatedAtMs := now }
  | _ => none

/-- The write of that record in the engine. -/
def Phase.recordEvent (fault : Option String) : Phase → WorkerEvent
  | marking _ => .writeRunning fault
  | completing _ => .writeComplete fault
  | _ => .writeFailed fault

/-- Where a worker goes once the record is written. -/
def Phase.recorded (written : RelayJobMetadata) : Phase → Option Phase
  | marking _ => some (.fetching written)
  | _ => none

/-- The record that a step of the engine removes. -/
def State.removedRecord (state : State) : Event → Option JobRef
  | .deleteNext handler true =>
    match state.deletions.lookup handler with
    | some ⟨keyId, jobId, .metadata⟩ => some ⟨Keys.keyIdHex keyId, jobId⟩
    | _ => none
  | .reapNext true =>
    match state.reaper with
    | .removing _ keyIdHex fileName _ .metadata => some ⟨keyIdHex, fileName⟩
    | _ => none
  | _ => none

/-- What `read_metadata` finds for a job. -/
def State.record (state : State) (job : JobRef) : Option RelayJobMetadata :=
  (state.spool job.keyIdHex).jobs.lookup job.jobId

/-- The text of `ENOENT`. -/
def noSuchFile : String := "No such file or directory (os error 2)"

namespace FileState

def start (now : UInt64) : FileState := ⟨State.start now, .empty, ∅, ∅⟩

/-- The submission has recorded its job and goes on to send it. -/
def Enqueuing (state : FileState) (job : JobRef) : Prop :=
  ∃ handler enqueue, state.submissions.lookup handler = some enqueue ∧ enqueue.job = job ∧
    .handler handler ∉ state.writes

/-- Some `enqueue` holds the lock of the client. -/
def locked (state : FileState) (client : String) : Bool :=
  state.submissions.entries.any fun entry ↦ entry.2.job.keyIdHex = client

/-- The record is on disk, and its text is not that of a record. -/
def torn (state : FileState) (job : JobRef) : Bool :=
  .live job ∈ state.disk.names ∧ state.engine.record job = none

/-- Some record of the client is torn. -/
def anyTorn (state : FileState) (client : String) : Bool :=
  state.disk.names.entries.any fun entry ↦
    match entry.1 with
    | .live job => decide (job.keyIdHex = client) && state.torn job
    | .temp _ => false

/-- The engine after the live file of a job has changed. -/
def refresh (toml : RecordToml) (state : FileState) (job : JobRef) : State :=
  let spool := state.engine.spool job.keyIdHex
  state.engine.setSpool job.keyIdHex { spool with
    jobs := match (state.disk.read (.live job)).bind toml.fromStr with
      | some metadata => spool.jobs.insert job.jobId metadata
      | none => spool.jobs.erase job.jobId }

/-- A step of the engine; requests that meet a torn record see a file that they cannot parse. -/
def engineStep (externals : Externals) (config : RelayConfig) (state : FileState)
    (event : Event) : Option (State × Option Output) :=
  match event with
  | .list keyId =>
    if state.anyTorn (Keys.keyIdHex keyId) then
      some (state.engine, some (.answered keyId .list internalError))
    else step externals config state.engine event
  | .download keyId jobId offset maxLen artifact =>
    if state.torn ⟨Keys.keyIdHex keyId, jobId⟩ then
      some (state.engine,
        some (.answered keyId (.download jobId offset maxLen artifact) internalError))
    else step externals config state.engine event
  | .delete handler keyId jobId =>
    if state.torn ⟨Keys.keyIdHex keyId, jobId⟩ ∧ validateJobId jobId ∧
        handler ∉ state.engine.deletions then
      some ({ state.engine with
        deletions := state.engine.deletions.insert handler ⟨keyId, jobId, .primary⟩ }, none)
    else step externals config state.engine event
  | .deleteNext handler true =>
    match state.engine.deletions.lookup handler with
    | some ⟨keyId, jobId, .metadata⟩ =>
      if state.torn ⟨Keys.keyIdHex keyId, jobId⟩ then
        some ({ state.engine with deletions := state.engine.deletions.erase handler },
          some (.answered keyId (.delete jobId) (.message .ok "deleted")))
      else step externals config state.engine event
    | _ => step externals config state.engine event
  | _ => step externals config state.engine event

/-- The files after a step of the engine. -/
def unlinked (state : FileState) (event : Event) : OpenFiles RecordName :=
  match state.engine.removedRecord event with
  | some job => state.disk.unlink (.live job)
  | none => state.disk

/-- The critical section of a worker waits for an `enqueue` of its client. -/
def waits (state : FileState) : Event → Bool
  | .work worker (.commit _ _) =>
    match state.engine.workers.lookup worker with
    | some held => state.locked held.job.keyIdHex
    | none => false
  | _ => false

/-- The end of a call: the worker goes on, or the handler does. -/
def renamed (state : FileState) (writer : Writer) (write : RecordWrite) : FileState :=
  let writes := state.writes.erase writer
  match writer with
  | .handler _ => { state with writes := writes }
  | .worker worker =>
    match state.engine.workers.lookup worker with
    | some ⟨job, phase⟩ =>
      { state with
        engine := state.engine.setWorker worker job (phase.recorded write.metadata)
        writes := writes }
    | none => { state with writes := writes }

@[simp]
theorem writes_renamed (state : FileState) (writer : Writer) (write : RecordWrite) :
    (state.renamed writer write).writes = state.writes.erase writer := by
  unfold renamed
  split
  · rfl
  · split <;> rfl

@[simp]
theorem submissions_renamed (state : FileState) (writer : Writer) (write : RecordWrite) :
    (state.renamed writer write).submissions = state.submissions := by
  unfold renamed
  split
  · rfl
  · split <;> rfl

@[simp]
theorem now_renamed (state : FileState) (writer : Writer) (write : RecordWrite) :
    (state.renamed writer write).engine.now = state.engine.now := by
  unfold renamed
  split
  · rfl
  · split
    · exact State.now_setWorker _ _ _ _
    · rfl

theorem renamed_worker {state : FileState} {worker : ℕ} {write : RecordWrite} {job : JobRef}
    {phase : Phase} (hworker : state.engine.workers.lookup worker = some ⟨job, phase⟩) :
    state.renamed (.worker worker) write =
      { state with
        engine := state.engine.setWorker worker job (phase.recorded write.metadata)
        writes := state.writes.erase (.worker worker) } := by
  unfold renamed
  dsimp only
  rw [hworker]

/-- The end of a call whose temporary file another call has renamed. -/
def unrenamed (externals : Externals) (config : RelayConfig) (state : FileState)
    (writer : Writer) : Option (FileState × Option Output) :=
  let writes := state.writes.erase writer
  match writer with
  | .handler handler =>
    (state.submissions.lookup handler).map fun enqueue ↦
      ({ state with writes := writes, submissions := state.submissions.erase handler },
        some (.answered enqueue.keyId (.submit enqueue.submission) internalError))
  | .worker worker =>
    (state.engine.workers.lookup worker).bind fun held ↦
      (step externals config state.engine
        (.work worker (held.phase.recordEvent (some noSuchFile)))).map fun (next, emitted) ↦
          ({ state with engine := next, writes := writes }, emitted)

end FileState

open FileState in
/-- One step of the engine or of a record write. -/
def fileStep (externals : Externals) (config : RelayConfig) (toml : RecordToml) :
    Step FileState FileEvent Output
  | state, .engine event =>
    if event.WritesRecord ∨ state.waits event then none
    else (state.engineStep externals config event).map fun (next, emitted) ↦
      match event with
      | .crash => ({ state with engine := next, writes := ∅, submissions := ∅ }, emitted)
      | _ => ({ state with engine := next, disk := state.unlinked event }, emitted)
  | state, .submit handler keyId submission valid =>
    let client := Keys.keyIdHex keyId
    let now := state.engine.now
    if handler ∈ state.submissions then none
    else if !valid then
      some (state, some (.answered keyId (.submit submission) internalError))
    else if state.locked client then none
    else
      match (enqueue externals config keyId submission now none (state.engine.spool client)).1 with
      | .accepted jobId =>
        some ({ state with
          writes := state.writes.insert (.handler handler)
            ⟨⟨client, jobId⟩, queuedMetadata externals config keyId submission now, .serialized⟩
          submissions := state.submissions.insert handler ⟨keyId, submission, jobId⟩ }, none)
      | reply => some (state, some (.answered keyId (.submit submission) reply))
  | state, .serialize worker =>
    (state.engine.workers.lookup worker).bind fun ⟨job, phase⟩ ↦
      (phase.record state.engine.now).bind fun metadata ↦
        if .worker worker ∈ state.writes then none
        else if metadata.storable then
          some ({ state with
            writes := state.writes.insert (.worker worker)
              ⟨⟨job.keyIdHex, metadata.jobId⟩, metadata, .serialized⟩ }, none)
        else (step externals config state.engine (.work worker (phase.recordEvent none))).map
          fun (next, emitted) ↦ ({ state with engine := next }, emitted)
  | state, .openTemp writer =>
    (state.writes.lookup writer).bind fun write ↦
      if write.progress = .serialized then
        let opened := state.disk.truncate (.temp write.job)
        some ({ state with
          disk := opened.1
          writes := state.writes.insert writer
            { write with progress := .opened opened.2 0 } }, none)
      else none
  | state, .writeTemp writer count =>
    (state.writes.lookup writer).bind fun write ↦
      match write.progress with
      | .serialized => none
      | .opened file position =>
        let bytes := ((toml.toStringPretty write.metadata).drop position).take count
        let next := { state with
          disk := state.disk.write file position bytes
          writes := state.writes.insert writer
            { write with progress := .opened file (position + bytes.length) } }
        some (if state.disk.names.lookup (.live write.job) = some file then
          { next with engine := next.refresh toml write.job } else next, none)
  | state, .rename writer =>
    (state.writes.lookup writer).bind fun write ↦
      match write.progress with
      | .serialized => none
      | .opened _ position =>
        if position = (toml.toStringPretty write.metadata).length then
          match state.disk.rename (.temp write.job) (.live write.job) with
          | some disk =>
            let moved := { state with disk := disk }
            some (renamed { moved with engine := moved.refresh toml write.job } writer write, none)
          | none => state.unrenamed externals config writer
        else none
  | state, .send handler =>
    (state.submissions.lookup handler).bind fun enqueue ↦
      if .handler handler ∈ state.writes then none
      else some ({ state with
        engine := { state.engine with queue := state.engine.queue ++ [enqueue.job] }
        submissions := state.submissions.erase handler },
          some (.answered enqueue.keyId (.submit enqueue.submission) (.accepted enqueue.jobId)))

/-! ### The steps -/

/-- One step with the condition under which it is taken. -/
inductive FileStepped (externals : Externals) (config : RelayConfig) (toml : RecordToml)
    (state : FileState) : FileEvent → FileState → Option Output → Prop
  | engine {event : Event} {next : State} {emitted : Option Output}
      (hwrites : event.WritesRecord = false) (hcrash : event ≠ .crash)
      (hstep : state.engineStep externals config event = some (next, emitted)) :
      FileStepped externals config toml state (.engine event)
        { state with engine := next, disk := state.unlinked event } emitted
  | crash {next : State} {emitted : Option Output}
      (hstep : step externals config state.engine .crash = some (next, emitted)) :
      FileStepped externals config toml state (.engine .crash)
        { state with engine := next, writes := ∅, submissions := ∅ } emitted
  | refused {handler : ℕ} {keyId : KeyId} {submission : Submission} {valid : Bool} {reply : Reply}
      (hreply : ∀ jobId, reply ≠ .accepted jobId) :
      FileStepped externals config toml state (.submit handler keyId submission valid) state
        (some (.answered keyId (.submit submission) reply))
  | begun {handler : ℕ} {keyId : KeyId} {submission : Submission} {valid : Bool} {jobId : String}
      (hfree : handler ∉ state.submissions) (hlock : state.locked (Keys.keyIdHex keyId) = false)
      (haccepted : (enqueue externals config keyId submission state.engine.now none
        (state.engine.spool (Keys.keyIdHex keyId))).1 = .accepted jobId) :
      FileStepped externals config toml state (.submit handler keyId submission valid)
        { state with
          writes := state.writes.insert (.handler handler)
            ⟨⟨Keys.keyIdHex keyId, jobId⟩,
              queuedMetadata externals config keyId submission state.engine.now, .serialized⟩
          submissions := state.submissions.insert handler ⟨keyId, submission, jobId⟩ } none
  | serialized {worker : ℕ} {job : JobRef} {phase : Phase} {metadata : RelayJobMetadata}
      (hworker : state.engine.workers.lookup worker = some ⟨job, phase⟩)
      (hrecord : phase.record state.engine.now = some metadata)
      (hstorable : metadata.storable) :
      FileStepped externals config toml state (.serialize worker)
        { state with
          writes := state.writes.insert (.worker worker)
            ⟨⟨job.keyIdHex, metadata.jobId⟩, metadata, .serialized⟩ } none
  | unserialized {worker : ℕ} {job : JobRef} {phase : Phase} {metadata : RelayJobMetadata}
      {next : State} {emitted : Option Output}
      (hworker : state.engine.workers.lookup worker = some ⟨job, phase⟩)
      (hrecord : phase.record state.engine.now = some metadata)
      (hidle : .worker worker ∉ state.writes) (hstorable : ¬metadata.storable)
      (hstep : step externals config state.engine (.work worker (phase.recordEvent none)) =
        some (next, emitted)) :
      FileStepped externals config toml state (.serialize worker) { state with engine := next }
        emitted
  | opened {writer : Writer} {write : RecordWrite}
      (hwrite : state.writes.lookup writer = some write)
      (hprogress : write.progress = .serialized) :
      FileStepped externals config toml state (.openTemp writer)
        { state with
          disk := (state.disk.truncate (.temp write.job)).1
          writes := state.writes.insert writer
            { write with
              progress := .opened (state.disk.truncate (.temp write.job)).2 0 } } none
  | written {writer : Writer} {write : RecordWrite} {count file position : ℕ} {bytes : Bytes}
      {next : State} (hwrite : state.writes.lookup writer = some write)
      (hprogress : write.progress = .opened file position)
      (hbytes : bytes = ((toml.toStringPretty write.metadata).drop position).take count)
      (hnext : next = state.engine ∨ state.disk.names.lookup (.live write.job) = some file ∧
        ∃ spool, next = state.engine.setSpool write.job.keyIdHex spool) :
      FileStepped externals config toml state (.writeTemp writer count)
        { state with
          engine := next
          disk := state.disk.write file position bytes
          writes := state.writes.insert writer
            { write with progress := .opened file (position + bytes.length) } } none
  | renamed {writer : Writer} {write : RecordWrite} {file : ℕ} {disk : OpenFiles RecordName}
      (hwrite : state.writes.lookup writer = some write)
      (hprogress : write.progress =
        .opened file (toml.toStringPretty write.metadata).length)
      (hdisk : state.disk.rename (.temp write.job) (.live write.job) = some disk) :
      FileStepped externals config toml state (.rename writer)
        (FileState.renamed { state with
          engine := FileState.refresh toml { state with disk := disk } write.job
          disk := disk } writer write) none
  | unrenamed {writer : Writer} {write : RecordWrite} {file position : ℕ} {next : FileState}
      {emitted : Option Output} (hwrite : state.writes.lookup writer = some write)
      (hprogress : write.progress = .opened file position)
      (hdisk : state.disk.rename (.temp write.job) (.live write.job) = none)
      (hstep : state.unrenamed externals config writer = some (next, emitted)) :
      FileStepped externals config toml state (.rename writer) next emitted
  | sent {handler : ℕ} {enqueue : Enqueue}
      (henqueue : state.submissions.lookup handler = some enqueue)
      (hrecorded : .handler handler ∉ state.writes) :
      FileStepped externals config toml state (.send handler)
        { state with
          engine := { state.engine with queue := state.engine.queue ++ [enqueue.job] }
          submissions := state.submissions.erase handler }
        (some (.answered enqueue.keyId (.submit enqueue.submission) (.accepted enqueue.jobId)))

section

variable {externals : Externals} {config : RelayConfig} {toml : RecordToml}
  {state after : FileState} {event : FileEvent} {emitted : Option Output}

/-- The inversion of `fileStep`. -/
theorem fileStepped_of_fileStep
    (h : fileStep externals config toml state event = some (after, emitted)) :
    FileStepped externals config toml state event after emitted := by
  cases event with
  | engine event =>
    obtain ⟨hguard, hstep⟩ := Option.ite_none_left_eq_some.mp h
    obtain ⟨⟨next, output⟩, hnext, heq⟩ := Option.map_eq_some_iff.mp hstep
    have hwrites : event.WritesRecord = false := by
      simpa using (not_or.mp hguard).1
    by_cases hcrash : event = .crash
    · subst hcrash
      cases heq
      exact .crash hnext
    · obtain ⟨rfl, rfl⟩ : { state with engine := next, disk := state.unlinked event } = after ∧
          output = emitted := by
        cases event
        case crash => exact absurd rfl hcrash
        all_goals exact Prod.mk.inj heq
      exact .engine hwrites hcrash hnext
  | submit handler keyId submission valid =>
    obtain ⟨hfree, hsubmit⟩ := Option.ite_none_left_eq_some.mp h
    split at hsubmit
    · cases hsubmit
      exact .refused fun _ ↦ nofun
    · obtain ⟨hlock, hsubmit⟩ := Option.ite_none_left_eq_some.mp hsubmit
      split at hsubmit
      · rename_i jobId haccepted
        cases hsubmit
        exact .begun hfree (by simpa using hlock) haccepted
      · rename_i hreply
        cases hsubmit
        exact .refused hreply
  | serialize worker =>
    obtain ⟨⟨job, phase⟩, hworker, hrest⟩ := Option.bind_eq_some_iff.mp h
    obtain ⟨metadata, hrecord, hrest⟩ := Option.bind_eq_some_iff.mp hrest
    obtain ⟨hidle, hrest⟩ := Option.ite_none_left_eq_some.mp hrest
    split at hrest
    · rename_i hstorable
      cases hrest
      exact .serialized hworker hrecord hstorable
    · rename_i hstorable
      obtain ⟨⟨next, output⟩, hstep, heq⟩ := Option.map_eq_some_iff.mp hrest
      cases heq
      exact .unserialized hworker hrecord hidle hstorable hstep
  | openTemp writer =>
    obtain ⟨write, hwrite, hrest⟩ := Option.bind_eq_some_iff.mp h
    obtain ⟨hprogress, heq⟩ := Option.ite_none_right_eq_some.mp hrest
    cases heq
    exact .opened hwrite hprogress
  | writeTemp writer count =>
    obtain ⟨write, hwrite, hrest⟩ := Option.bind_eq_some_iff.mp h
    split at hrest
    · cases hrest
    · rename_i file position hprogress
      dsimp only at hrest
      split at hrest
      · rename_i hlive
        cases hrest
        exact .written hwrite hprogress rfl (.inr ⟨hlive, _, rfl⟩)
      · cases hrest
        exact .written hwrite hprogress rfl (.inl rfl)
  | rename writer =>
    obtain ⟨write, hwrite, hrest⟩ := Option.bind_eq_some_iff.mp h
    split at hrest
    · cases hrest
    · rename_i file position hprogress
      obtain ⟨hposition, hrest⟩ := Option.ite_none_right_eq_some.mp hrest
      split at hrest
      · rename_i disk hdisk
        cases hrest
        exact .renamed hwrite (hposition ▸ hprogress) hdisk
      · rename_i hdisk
        exact .unrenamed hwrite hprogress hdisk hrest
  | send handler =>
    obtain ⟨enqueue, henqueue, hrest⟩ := Option.bind_eq_some_iff.mp h
    obtain ⟨hrecorded, heq⟩ := Option.ite_none_left_eq_some.mp hrest
    cases heq
    exact .sent henqueue hrecorded

end

end Ghostbro.Relay
