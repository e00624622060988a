import Ghostbro.Relay.Survival

/-!
# The engine among the file operations

`Relay.step` writes a record in one step, and sends a new job in the same step.  Such a step is a
run of file operations in which a task goes through its call without an interruption.  So every run
of the engine without file errors is one of `fileStep` with the same outputs: what the engine can
come to, the files can come to as well.
-/

namespace Ghostbro.Relay

open Machine

namespace FileState

/-- No task is inside of a call. -/
structure Quiet (state : FileState) : Prop where
  writes : ∀ writer, writer ∉ state.writes
  submissions : ∀ handler, handler ∉ state.submissions

section

variable {externals : Externals} {config : RelayConfig} {toml : RecordToml}
  {state : FileState} {emitted : Option Output}

theorem quiet_start (now : UInt64) : (FileState.start now).Quiet :=
  ⟨fun _ ↦ AList.notMem_empty _, fun _ ↦ AList.notMem_empty _⟩

theorem Quiet.not_locked (h : state.Quiet) (client : String) : state.locked client = false := by
  rw [locked, List.any_eq_false]
  intro entry hentry
  have hlookup := HashMap.mem_entries_iff.mp hentry
  exact absurd (HashMap.mem_of_lookup hlookup) (h.submissions entry.1)

theorem Quiet.not_waits (h : state.Quiet) (event : Event) : state.waits event = false := by
  unfold waits
  split
  · split
    · exact h.not_locked _
    · rfl
  · rfl

theorem fileStep_openTemp (externals : Externals) (config : RelayConfig) (toml : RecordToml)
    {writer : Writer} {write : RecordWrite} (hwrite : state.writes.lookup writer = some write)
    (hprogress : write.progress = .serialized) :
    fileStep externals config toml state (.openTemp writer) =
      some ({ state with
        disk := (state.disk.truncate (.temp write.job)).1
        writes := state.writes.insert writer
          { write with progress := .opened (state.disk.truncate (.temp write.job)).2 0 } },
        none) := by
  rw [fileStep, hwrite, Option.bind_some, if_pos hprogress]

/-- A call may write its whole text at once. -/
theorem Sound.fileStep_writeTemp (externals : Externals) (config : RelayConfig) {writer : Writer}
    {write : RecordWrite} {file : ℕ} (h : state.Sound toml)
    (hwrite : state.writes.lookup writer = some write)
    (hprogress : write.progress = .opened file 0) :
    fileStep externals config toml state
        (.writeTemp writer (toml.toStringPretty write.metadata).length) =
      some ({ state with
        disk := state.disk.write file 0 (toml.toStringPretty write.metadata)
        writes := state.writes.insert writer
          { write with
            progress := .opened file (toml.toStringPretty write.metadata).length } }, none) := by
  rw [fileStep, hwrite, Option.bind_some, hprogress]
  simp only [List.drop_zero, List.take_length, Nat.zero_add, if_neg (h.not_live hwrite hprogress)]

/-- A whole text becomes the record. -/
theorem Sound.fileStep_rename (externals : Externals) (config : RelayConfig) {writer : Writer}
    {write : RecordWrite} {file : ℕ} (h : state.Sound toml)
    (hwrite : state.writes.lookup writer = some write)
    (hprogress : write.progress = .opened file (toml.toStringPretty write.metadata).length) :
    ∃ disk, fileStep externals config toml state (.rename writer) =
      some (FileState.renamed { state with
        engine := state.engine.setSpool write.job.keyIdHex
          ((state.engine.spool write.job.keyIdHex).record write.metadata)
        disk := disk } writer write, none) := by
  obtain ⟨disk, hdisk⟩ := Option.ne_none_iff_exists'.mp (h.rename_ne_none hwrite hprogress)
  obtain ⟨-, hrefresh⟩ := h.refresh hwrite hprogress hdisk
  refine ⟨disk, ?_⟩
  rw [fileStep, hwrite, Option.bind_some, hprogress]
  simp only [if_true, hdisk, hrefresh]

/-- The only call that there is goes through: the record is on disk, and its task goes on. -/
theorem Sound.run_write (externals : Externals) (config : RelayConfig) {writer : Writer}
    {write : RecordWrite} (h : state.Sound toml) (hclock : state.engine.now ≤ i64Max)
    (hwrite : state.writes.lookup writer = some write) (hprogress : write.progress = .serialized)
    (halone : ∀ other ∈ state.writes, other = writer) :
    ∃ disk writes, Run (fileStep externals config toml) OneWriteAtATime state
        [.openTemp writer, .writeTemp writer (toml.toStringPretty write.metadata).length,
          .rename writer] []
        (FileState.renamed { state with
          engine := state.engine.setSpool write.job.keyIdHex
            ((state.engine.spool write.job.keyIdHex).record write.metadata)
          disk := disk
          writes := writes } writer write) ∧
      ∀ other ∈ writes, other = writer := by
  have hopen := fileStep_openTemp externals config toml hwrite hprogress
  set opened : FileState := { state with
    disk := (state.disk.truncate (.temp write.job)).1
    writes := state.writes.insert writer
      { write with progress := .opened (state.disk.truncate (.temp write.job)).2 0 } }
  have hopens : OneWriteAtATime state (.openTemp writer) := by
    refine ⟨trivial, fun entry hentry _ ↦ ?_⟩
    have hlookup := HashMap.mem_entries_iff.mp hentry
    have hsame := halone entry.1 (HashMap.mem_of_lookup hlookup)
    rw [hsame, hwrite] at hlookup
    rw [← Option.some.inj hlookup]
    exact hprogress
  have hopened : opened.Sound toml := h.step hopens hclock hopen
  have hfill := hopened.fileStep_writeTemp externals config (AList.lookup_insert _) rfl
  set written : FileState := { opened with
    disk := opened.disk.write _ 0 _
    writes := opened.writes.insert writer _ }
  have hfills : OneWriteAtATime opened
      (.writeTemp writer (toml.toStringPretty write.metadata).length) := ⟨trivial, trivial⟩
  have hwritten : written.Sound toml := hopened.step hfills hclock hfill
  obtain ⟨disk, hrename⟩ :=
    hwritten.fileStep_rename externals config (AList.lookup_insert _) rfl
  have hrenames : OneWriteAtATime written (.rename writer) := ⟨trivial, trivial⟩
  refine ⟨disk, written.writes, ?_, fun other hother ↦ ?_⟩
  · exact ((Run.nil.snoc hopens hopen).snoc hfills hfill).snoc hrenames hrename
  · rcases (AList.mem_insert _).mp hother with hsame | hmem
    · exact hsame
    · rcases (AList.mem_insert _).mp hmem with hsame | hmem
      · exact hsame
      · exact halone other hmem

end

end FileState

section Steps

variable {externals : Externals} {config : RelayConfig} {toml : RecordToml} {state : FileState}
  {next : State} {emitted : Option Output}

/-- A record write of a worker is what its phase is about to write. -/
theorem record_of_workerStep {now : UInt64} {spool after : Spool} {jobId : String} {phase : Phase}
    {worker : ℕ} {event : WorkerEvent} {afterPhase : Option Phase}
    (hwrites : (Event.work worker event).WritesRecord = true) (herrors : event.NoFileErrors)
    (hwork : workerStep externals config now spool jobId phase event = some (after, afterPhase)) :
    ∃ metadata, phase.record now = some metadata ∧ event = phase.recordEvent none := by
  cases event
  case writeRunning fault =>
    obtain rfl : fault = none := herrors
    cases phase
    case marking metadata => exact ⟨_, rfl, rfl⟩
    all_goals cases hwork
  case writeComplete fault =>
    obtain rfl : fault = none := herrors
    cases phase
    case completing metadata => exact ⟨_, rfl, rfl⟩
    all_goals cases hwork
  case writeFailed fault =>
    obtain rfl : fault = none := herrors
    cases phase
    case failWriting metadata => exact ⟨_, rfl, rfl⟩
    all_goals cases hwork
  all_goals cases hwrites

theorem FileState.quiet_renamed {writer : Writer} (write : RecordWrite)
    (hleft : ∀ other ∈ state.writes, other = writer)
    (hsubmissions : ∀ handler, handler ∉ state.submissions) :
    (state.renamed writer write).Quiet := by
  refine ⟨fun other hother ↦ ?_, fun handler ↦ ?_⟩
  · rw [writes_renamed] at hother
    obtain ⟨hne, hmem⟩ := AList.mem_erase.mp hother
    exact hne (hleft other hmem)
  · rw [submissions_renamed]
    exact hsubmissions handler

/-- Between two calls, a step of the engine without file errors is a run of file operations. -/
def Matched (externals : Externals) (config : RelayConfig) (toml : RecordToml) (state : FileState)
    (next : State) (emitted : Option Output) : Prop :=
  ∃ events after, Run (fileStep externals config toml) OneWriteAtATime state events emitted.toList
    after ∧ after.engine = next ∧ after.Quiet

theorem matched_of_fileStep {event : FileEvent} {after : FileState}
    (hguard : OneWriteAtATime state event)
    (hstep : fileStep externals config toml state event = some (after, emitted))
    (hquiet : after.Quiet) : Matched externals config toml state after.engine emitted :=
  ⟨[event], after, Run.nil.snoc hguard hstep, rfl, hquiet⟩

theorem FileState.Quiet.matched_engine {event : Event} (h : state.Quiet) (hsound : state.Sound toml)
    (hwrites : event.WritesRecord = false) (herrors : NoFileErrors state.engine event)
    (hstep : step externals config state.engine event = some (next, emitted)) :
    Matched externals config toml state next emitted := by
  have hengine : state.engineStep externals config event = some (next, emitted) := by
    rw [hsound.readable.engineStep, hstep]
  have hguard : ¬(event.WritesRecord = true ∨ state.waits event = true) := by
    rw [hwrites, h.not_waits]
    simp
  have hmeets : OneWriteAtATime state (.engine event) := ⟨herrors, trivial⟩
  by_cases hcrash : event = .crash
  · subst hcrash
    have hfile : fileStep externals config toml state (.engine .crash) =
        some ({ state with engine := next, writes := ∅, submissions := ∅ }, emitted) := by
      rw [fileStep, if_neg hguard, hengine]
      rfl
    refine matched_of_fileStep hmeets hfile ⟨?_, ?_⟩
    · exact fun _ ↦ AList.notMem_empty _
    · exact fun _ ↦ AList.notMem_empty _
  · have hfile : fileStep externals config toml state (.engine event) =
        some ({ state with engine := next, disk := state.unlinked event }, emitted) := by
      rw [fileStep, if_neg hguard, hengine]
      cases event
      case crash => exact absurd rfl hcrash
      all_goals rfl
    exact matched_of_fileStep hmeets hfile ⟨h.writes, h.submissions⟩

theorem FileState.Quiet.matched_work {worker : ℕ} {event : WorkerEvent} (h : state.Quiet)
    (hsound : state.Sound toml) (hclock : state.engine.now ≤ i64Max)
    (hwrites : (Event.work worker event).WritesRecord = true) (herrors : event.NoFileErrors)
    (hstep : step externals config state.engine (.work worker event) = some (next, emitted)) :
    Matched externals config toml state next emitted := by
  obtain ⟨⟨job, phase⟩, hworker, hrest⟩ := Option.bind_eq_some_iff.mp hstep
  obtain ⟨⟨spool, afterPhase⟩, hwork, heq⟩ := Option.map_eq_some_iff.mp hrest
  obtain ⟨metadata, hrecord, rfl⟩ := record_of_workerStep hwrites herrors hwork
  have hidle : .worker worker ∉ state.writes := h.writes _
  have hguard : OneWriteAtATime state (.serialize worker) := ⟨trivial, trivial⟩
  by_cases hstorable : metadata.storable
  · cases heq
    have hname : metadata.jobId = job.jobId :=
      jobId_of_record (hsound.durable.named.copies worker job phase · hworker) hrecord
    let write : RecordWrite := ⟨job, metadata, .serialized⟩
    let serialized : FileState :=
      { state with writes := state.writes.insert (.worker worker) write }
    have hserialize : fileStep externals config toml state (.serialize worker) =
        some (serialized, none) := by
      rw [fileStep, hworker, Option.bind_some]
      dsimp only
      rw [hrecord, Option.bind_some, if_neg hidle, if_pos hstorable, hname]
    have halone : ∀ other ∈ serialized.writes, other = .worker worker := by
      intro other hother
      exact ((AList.mem_insert _).mp hother).resolve_right (h.writes other)
    obtain ⟨disk, writes, hrun, hleft⟩ := (hsound.step hguard hclock hserialize).run_write externals
      config hclock (AList.lookup_insert _) rfl halone
    refine ⟨_, _, (Run.nil.snoc hguard hserialize).append hrun, ?_, ?_⟩
    · rw [workerStep_recordEvent hrecord hstorable] at hwork
      cases hwork
      let published : FileState := { serialized with
        engine := state.engine.setSpool job.keyIdHex
          ((state.engine.spool job.keyIdHex).record metadata)
        disk := disk
        writes := writes }
      have hheld : published.engine.workers.lookup worker = some ⟨job, phase⟩ := hworker
      change (published.renamed (.worker worker) write).engine = _
      rw [FileState.renamed_worker hheld]
    · exact FileState.quiet_renamed write hleft h.submissions
  · have hserialize : fileStep externals config toml state (.serialize worker) =
        some ({ state with engine := next }, emitted) := by
      rw [fileStep, hworker, Option.bind_some]
      dsimp only
      rw [hrecord, Option.bind_some, if_neg hidle, if_neg hstorable, hstep]
      rfl
    exact matched_of_fileStep hguard hserialize ⟨h.writes, h.submissions⟩

theorem FileState.Quiet.matched_accept {keyId : KeyId} {submission : Submission} {spool : Spool}
    {jobId : String} {reply : Reply} (h : state.Quiet) (hsound : state.Sound toml)
    (hclock : state.engine.now ≤ i64Max)
    (henqueue : enqueue externals config keyId submission state.engine.now none
      (state.engine.spool (Keys.keyIdHex keyId)) = (reply, some (spool, jobId))) :
    Matched externals config toml state
      { state.engine.setSpool (Keys.keyIdHex keyId) spool with
        queue := state.engine.queue ++ [⟨Keys.keyIdHex keyId, jobId⟩] }
      (some (.answered keyId (.submit submission) reply)) := by
  obtain ⟨rfl, hjobId, hspool⟩ := enqueue_eq_some henqueue
  have hguard : OneWriteAtATime state (.submit 0 keyId submission true) := ⟨trivial, trivial⟩
  let write : RecordWrite := ⟨⟨Keys.keyIdHex keyId, jobId⟩,
    queuedMetadata externals config keyId submission state.engine.now, .serialized⟩
  let begun : FileState := { state with
    writes := state.writes.insert (.handler 0) write
    submissions := state.submissions.insert 0 ⟨keyId, submission, jobId⟩ }
  have hbegin : fileStep externals config toml state (.submit 0 keyId submission true) =
      some (begun, none) := by
    simp only [fileStep, if_neg (h.submissions 0), h.not_locked, henqueue]
    rfl
  have halone : ∀ other ∈ begun.writes, other = .handler 0 := by
    intro other hother
    exact ((AList.mem_insert _).mp hother).resolve_right (h.writes other)
  obtain ⟨disk, writes, hrun, hleft⟩ := (hsound.step hguard hclock hbegin).run_write externals
    config hclock (AList.lookup_insert _) rfl halone
  let published : FileState := { begun with
    engine := state.engine.setSpool (Keys.keyIdHex keyId)
      ((state.engine.spool (Keys.keyIdHex keyId)).record write.metadata)
    disk := disk
    writes := writes.erase (.handler 0) }
  have hsubmission : published.submissions.lookup 0 = some ⟨keyId, submission, jobId⟩ :=
    AList.lookup_insert _
  have hrecorded : .handler 0 ∉ published.writes := fun hmem ↦ (AList.mem_erase.mp hmem).1 rfl
  have hsend : fileStep externals config toml published (.send 0) =
      some ({ published with
        engine := { published.engine with
          queue := state.engine.queue ++ [⟨Keys.keyIdHex keyId, jobId⟩] }
        submissions := begun.submissions.erase 0 },
          some (.answered keyId (.submit submission) (.accepted jobId))) := by
    rw [fileStep, hsubmission, Option.bind_some, if_neg hrecorded]
    rfl
  have hsends : OneWriteAtATime published (.send 0) := ⟨trivial, trivial⟩
  refine ⟨_, _, ((Run.nil.snoc hguard hbegin).append hrun).snoc hsends hsend, ?_, ?_, ?_⟩
  · rw [hspool, hjobId]
    rfl
  · intro writer hmem
    obtain ⟨hne, hwriter⟩ := AList.mem_erase.mp hmem
    exact hne (hleft writer hwriter)
  · intro handler hmem
    obtain ⟨hne, hinsert⟩ := AList.mem_erase.mp hmem
    exact h.submissions handler (((AList.mem_insert _).mp hinsert).resolve_left hne)

theorem FileState.Quiet.matched_submit {keyId : KeyId} {submission : Submission} {valid : Bool}
    (h : state.Quiet) (hsound : state.Sound toml) (hclock : state.engine.now ≤ i64Max)
    (hstep : step externals config state.engine (.submit keyId submission valid none) =
      some (next, emitted)) : Matched externals config toml state next emitted := by
  have hguard : OneWriteAtATime state (.submit 0 keyId submission valid) := ⟨trivial, trivial⟩
  unfold step submitStep at hstep
  cases valid with
  | false =>
    cases hstep
    have hrefuse : fileStep externals config toml state (.submit 0 keyId submission false) =
        some (state, some (.answered keyId (.submit submission) internalError)) := by
      rw [fileStep, if_neg (h.submissions 0)]
      rfl
    exact matched_of_fileStep hguard hrefuse h
  | true =>
    simp only [if_true] at hstep
    split at hstep
    · rename_i reply henqueue
      cases hstep
      have hrefuse : fileStep externals config toml state (.submit 0 keyId submission true) =
          some (state, some (.answered keyId (.submit submission) reply)) := by
        have hstatus := enqueue_eq_none henqueue
        simp only [fileStep, if_neg (h.submissions 0), h.not_locked, henqueue]
        cases reply with
        | accepted _ => exact absurd rfl hstatus
        | _ => rfl
      exact matched_of_fileStep hguard hrefuse h
    · rename_i reply spool jobId henqueue
      cases hstep
      exact h.matched_accept hsound hclock henqueue

theorem FileState.Quiet.matched (h : state.Quiet) (hsound : state.Sound toml)
    (hclock : state.engine.now ≤ i64Max) {event : Event} (herrors : NoFileErrors state.engine event)
    (hstep : step externals config state.engine event = some (next, emitted)) :
    Matched externals config toml state next emitted := by
  cases hwrites : event.WritesRecord with
  | false => exact h.matched_engine hsound hwrites herrors hstep
  | true =>
    cases event with
    | submit keyId submission valid fault =>
      obtain rfl : fault = none := herrors
      exact h.matched_submit hsound hclock hstep
    | work worker event => exact h.matched_work hsound hclock hwrites herrors hstep
    | _ => cases hwrites

end Steps

/-- Every run of the engine without file errors is a run of its file operations. -/
theorem exists_fileRun {externals : Externals} {config : RelayConfig} (toml : RecordToml)
    {now : UInt64} {events : List Event} {outputs : List Output} {last : State}
    (hrun : Run (step externals config) NoFileErrors (State.start now) events outputs last)
    (hclock : last.now ≤ i64Max) :
    ∃ fileEvents final, Run (fileStep externals config toml) OneWriteAtATime (FileState.start now)
      fileEvents outputs final ∧ final.engine = last ∧ final.Quiet := by
  induction hrun with
  | nil => exact ⟨[], _, .nil, rfl, FileState.quiet_start now⟩
  | @snoc events outputs state next event emitted _ herrors hstep ih =>
    have hle : state.now ≤ i64Max := UInt64.le_trans (effect_of_step hstep).now_le hclock
    obtain ⟨fileEvents, files, hfiles, rfl, hquiet⟩ := ih hle
    have hsound : files.Sound toml :=
      sound_of_run (FileState.sound_start now) (fun _ _ h ↦ h) hfiles hle
    obtain ⟨later, final, hlater, hfinal, hstill⟩ := hquiet.matched hsound hle herrors hstep
    exact ⟨_, final, hfiles.append hlater, hfinal, hstill⟩

end Ghostbro.Relay
