import Mathlib.Logic.Equiv.List
import Ghostbro.Relay.WholeRecords
import Ghostbro.Relay.Wire

/-!
# No accepted job is lost

In the runs in which every record is written by one call at a time, every live record can be read,
and an accepted job is complete, failed, scheduled, still to be visited by the scan, or about to be
sent.

Two workers on one job can break this: the second one truncates the text that the first one is
about to rename, and a record that cannot be parsed is skipped by the scan for ever.
-/

namespace Ghostbro.Relay

open Machine

/-! ### Whole runs -/

section

variable {externals : Externals} {config : RelayConfig} {toml : RecordToml}
  {state after : FileState} {event : FileEvent} {emitted : Option Output} {job : JobRef}

open FileState

theorem FileState.now_le_engineStep {event : Event} {next : State}
    (h : state.engineStep externals config event = some (next, emitted)) :
    state.engine.now ≤ next.now := by
  have hstep (h : step externals config state.engine event = some (next, emitted)) :
      state.engine.now ≤ next.now := (effect_of_step h).now_le
  unfold engineStep at h
  split at h
  · split at h
    · cases h
      exact UInt64.le_refl _
    · exact hstep h
  · split at h
    · cases h
      exact UInt64.le_refl _
    · exact hstep h
  · split at h
    · cases h
      exact UInt64.le_refl _
    · exact hstep h
  · split at h
    · split at h
      · cases h
        exact UInt64.le_refl _
      · exact hstep h
    · exact hstep h
  · exact hstep h

/-- The clock does not run backwards. -/
theorem now_le_fileStep (h : fileStep externals config toml state event = some (after, emitted)) :
    state.engine.now ≤ after.engine.now := by
  cases fileStepped_of_fileStep h with
  | engine _ _ hstep => exact FileState.now_le_engineStep hstep
  | crash hstep => exact (effect_of_step hstep).now_le
  | unserialized _ _ _ _ hstep => exact (effect_of_step hstep).now_le
  | refused _ | begun _ _ _ | serialized _ _ _ | opened _ _ | sent _ _ => exact UInt64.le_refl _
  | written _ _ _ hnext =>
    rcases hnext with rfl | ⟨-, spool, rfl⟩
    · exact UInt64.le_refl _
    · exact UInt64.le_refl _
  | renamed _ _ _ =>
    rw [now_renamed]
    exact UInt64.le_refl _
  | unrenamed _ _ _ hstep =>
    unfold unrenamed at hstep
    dsimp only at hstep
    split at hstep
    · obtain ⟨enqueue, _, heq⟩ := Option.map_eq_some_iff.mp hstep
      cases heq
      exact UInt64.le_refl _
    · obtain ⟨held, _, hrest⟩ := Option.bind_eq_some_iff.mp hstep
      obtain ⟨⟨next, output⟩, hnext, heq⟩ := Option.map_eq_some_iff.mp hrest
      cases heq
      exact (effect_of_step hnext).now_le

theorem sound_of_run {guard : FileState → FileEvent → Prop} {start last : FileState}
    {events : List FileEvent} {outputs : List Output} (hstart : start.Sound toml)
    (hguard : ∀ state event, guard state event → OneWriteAtATime state event)
    (hrun : Run (fileStep externals config toml) guard start events outputs last)
    (hclock : last.engine.now ≤ i64Max) : last.Sound toml := by
  refine hrun.invariant (fun _ state ↦ state.engine.now ≤ i64Max → state.Sound toml)
    (fun _ ↦ hstart) ?_ hclock
  intro _ state event next emitted hbefore hmeets hstep hnow
  have hle : state.engine.now ≤ i64Max := UInt64.le_trans (now_le_fileStep hstep) hnow
  exact (hbefore hle).step (hguard state event hmeets) hle hstep

/-! ### Accepted submissions -/

/-- The step does not remove the record of the job. -/
def KeepsRecord (job : JobRef) (state : FileState) : FileEvent → Prop
  | .engine event => state.engine.removedRecord event ≠ some job
  | _ => True

instance (job : JobRef) (state : FileState) (event : FileEvent) :
    Decidable (KeepsRecord job state event) :=
  match event with
  | .engine event => inferInstanceAs (Decidable (state.engine.removedRecord event ≠ some job))
  | .submit _ _ _ _ | .serialize _ | .openTemp _ | .writeTemp _ _ | .rename _ | .send _ =>
    .isTrue trivial

/-- A record on disk stays there until it is removed. -/
theorem FileState.Sound.record_kept (h : state.Sound toml) (hkeeps : KeepsRecord job state event)
    (hstep : fileStep externals config toml state event = some (after, emitted))
    (hrecord : (state.engine.record job).isSome) : (after.engine.record job).isSome := by
  cases fileStepped_of_fileStep hstep with
  | engine hwrites _ hengine =>
    rw [h.readable.engineStep] at hengine
    rw [record_of_step hwrites hengine, if_neg hkeeps]
    exact hrecord
  | crash hengine =>
    cases hengine
    exact hrecord
  | refused _ | begun _ _ _ | serialized _ _ _ | opened _ _ | sent _ _ => exact hrecord
  | unserialized hworker hphase _ hstorable hengine =>
    rw [record_of_unserialized hworker hphase hstorable hengine]
    exact hrecord
  | written hwrite hprogress _ hnext =>
    obtain rfl := hnext.resolve_right fun hlive ↦ h.not_live hwrite hprogress hlive.1
    exact hrecord
  | renamed hwrite hprogress hdisk =>
    rw [h.record_rename hwrite hprogress hdisk]
    split
    · rfl
    · exact hrecord
  | unrenamed hwrite hprogress hdisk _ => exact absurd hdisk (h.rename_ne_none hwrite hprogress)

/-- A submission has recorded its job once its record is on disk. -/
theorem FileState.Sound.recorded_step (h : state.Sound toml)
    (hstep : fileStep externals config toml state event = some (after, emitted))
    (hjob : after.Enqueuing job) : state.Enqueuing job ∨ (after.engine.record job).isSome := by
  obtain ⟨handler, enqueue, henqueue, rfl, hrecorded⟩ := hjob
  have hkept (hsubmission : state.submissions.lookup handler = some enqueue)
      (hwrite : .handler handler ∉ state.writes) : state.Enqueuing enqueue.job :=
    ⟨handler, enqueue, hsubmission, rfl, hwrite⟩
  have hinsert {writer : Writer} {write : RecordWrite}
      (hmem : .handler handler ∉ state.writes.insert writer write) :
      .handler handler ∉ state.writes := fun hold ↦ hmem ((AList.mem_insert _).mpr (.inr hold))
  cases fileStepped_of_fileStep hstep with
  | engine _ _ _ => exact .inl (hkept henqueue hrecorded)
  | crash _ => cases henqueue
  | refused _ => exact .inl (hkept henqueue hrecorded)
  | begun _ _ _ =>
    rw [HashMap.lookup_insert_ite] at henqueue
    split at henqueue
    · rename_i hsame
      exact absurd ((AList.mem_insert _).mpr (.inl (congrArg _ hsame))) hrecorded
    · exact .inl (hkept henqueue (hinsert hrecorded))
  | serialized _ _ _ => exact .inl (hkept henqueue (hinsert hrecorded))
  | unserialized _ _ _ _ _ => exact .inl (hkept henqueue hrecorded)
  | opened _ _ => exact .inl (hkept henqueue (hinsert hrecorded))
  | written _ _ _ _ => exact .inl (hkept henqueue (hinsert hrecorded))
  | @renamed writer write _ _ hwrite hprogress hdisk =>
    rw [submissions_renamed] at henqueue
    rw [writes_renamed] at hrecorded
    by_cases hsame : Writer.handler handler = writer
    · subst hsame
      obtain ⟨other, hother, hjob⟩ := (h.calls _ write hwrite).owned
      obtain rfl : enqueue = other := Option.some.inj (henqueue.symm.trans hother)
      rw [h.record_rename hwrite hprogress hdisk, if_pos hjob]
      exact .inr rfl
    · exact .inl (hkept henqueue fun hmem ↦ hrecorded (AList.mem_erase.mpr ⟨hsame, hmem⟩))
  | unrenamed hwrite hprogress hdisk _ => exact absurd hdisk (h.rename_ne_none hwrite hprogress)
  | sent _ _ =>
    obtain ⟨-, hold⟩ := HashMap.lookup_of_lookup_erase henqueue
    exact .inl (hkept hold hrecorded)

/-- Only the steps of `submit` answer a submission. -/
theorem not_answered_of_step {event : Event} {next : State} {keyId : KeyId}
    {submission : Submission} {reply : Reply} (hwrites : event.WritesRecord = false)
    (hstep : step externals config state.engine event =
      some (next, some (.answered keyId (.submit submission) reply))) : False := by
  generalize hemitted : some (Output.answered keyId (.submit submission) reply) = emitted at hstep
  cases stepped_of_step hstep with
  | submit => cases hwrites
  | list | download => cases hemitted
  | delete _ =>
    obtain ⟨_, _, heq⟩ := Option.map_eq_some_iff.mp hemitted.symm
    cases heq
  | deleteNext _ =>
    obtain ⟨_, _, heq⟩ := Option.map_eq_some_iff.mp hemitted.symm
    cases heq
  | tick _ | take _ _ _ | work _ _ | reapStart _ | reapVisit | reapNext _ | reapFinish
  | recoverVisit _ | recoverFinish _ _ | crash => cases hemitted

/-- A submission is accepted when its recorded job is sent. -/
theorem FileState.Sound.enqueuing_of_accepted {keyId : KeyId} {submission : Submission}
    {jobId : String} (h : state.Sound toml)
    (hstep : fileStep externals config toml state event =
      some (after, some (.answered keyId (.submit submission) (.accepted jobId)))) :
    state.Enqueuing ⟨Keys.keyIdHex keyId, jobId⟩ := by
  generalize hemitted : some (Output.answered keyId (.submit submission) (.accepted jobId)) =
    emitted at hstep
  cases fileStepped_of_fileStep hstep with
  | engine hwrites _ hengine =>
    rw [h.readable.engineStep, ← hemitted] at hengine
    exact (not_answered_of_step hwrites hengine).elim
  | crash hengine =>
    rw [← hemitted] at hengine
    exact (not_answered_of_step rfl hengine).elim
  | refused hreply =>
    cases hemitted
    exact absurd rfl (hreply jobId)
  | unserialized _ _ _ _ hengine =>
    rw [← hemitted] at hengine
    cases stepped_of_step hengine
  | begun _ _ _ | serialized _ _ _ | opened _ _ | written _ _ _ _ | renamed _ _ _ => cases hemitted
  | unrenamed hwrite hprogress hdisk _ => exact absurd hdisk (h.rename_ne_none hwrite hprogress)
  | sent henqueue hrecorded =>
    cases hemitted
    exact ⟨_, _, henqueue, rfl, hrecorded⟩

/-- While a submission is starting, no other one of its client is under way. -/
theorem not_enqueuing_of_begun {handler : ℕ} {keyId : KeyId} {submission : Submission}
    {valid : Bool} {jobId : String}
    (hstep : fileStep externals config toml state (.submit handler keyId submission valid) =
      some (after, none)) : ¬after.Enqueuing ⟨Keys.keyIdHex keyId, jobId⟩ := by
  rintro ⟨other, enqueue, henqueue, hjob, hrecorded⟩
  cases fileStepped_of_fileStep hstep with
  | begun hfree hlock _ =>
    rw [HashMap.lookup_insert_ite] at henqueue
    split at henqueue
    · rename_i hsame
      exact hrecorded ((AList.mem_insert _).mpr (.inl (congrArg _ hsame)))
    · have hclient : enqueue.job.keyIdHex = Keys.keyIdHex keyId := congrArg JobRef.keyIdHex hjob
      rw [locked, List.any_eq_false] at hlock
      exact hlock _ (HashMap.mem_entries_iff.mpr henqueue) (by simpa using hclient)

/-- Once the submission of a job has been answered with OK, its record is on disk. -/
theorem recorded_of_run {guard : FileState → FileEvent → Prop} {start last : FileState}
    {events : List FileEvent} {outputs : List Output} (hstart : start.Sound toml)
    (hidle : ¬start.Enqueuing job)
    (hguard : ∀ state event, guard state event →
      OneWriteAtATime state event ∧ KeepsRecord job state event)
    (hrun : Run (fileStep externals config toml) guard start events outputs last)
    (hclock : last.engine.now ≤ i64Max) {keyId : KeyId} {submission : Submission}
    (hclient : Keys.keyIdHex keyId = job.keyIdHex)
    (haccepted : .answered keyId (.submit submission) (.accepted job.jobId) ∈ outputs) :
    (last.engine.record job).isSome := by
  have hinv : last.engine.now ≤ i64Max → last.Sound toml ∧
      (last.Enqueuing job ∨ .answered keyId (.submit submission) (.accepted job.jobId) ∈ outputs →
        (last.engine.record job).isSome) := by
    refine hrun.invariant (fun outputs state ↦ state.engine.now ≤ i64Max → state.Sound toml ∧
      (state.Enqueuing job ∨ .answered keyId (.submit submission) (.accepted job.jobId) ∈ outputs →
        (state.engine.record job).isSome)) ?_ ?_
    · intro _
      refine ⟨hstart, ?_⟩
      rintro (hjob | hmem)
      · exact absurd hjob hidle
      · cases hmem
    · intro before state event next emitted hbefore hmeets hstep hnow
      have hle : state.engine.now ≤ i64Max := UInt64.le_trans (now_le_fileStep hstep) hnow
      obtain ⟨hsound, hrecorded⟩ := hbefore hle
      obtain ⟨hone, hkeeps⟩ := hguard state event hmeets
      refine ⟨hsound.step hone hle hstep, ?_⟩
      rintro (hjob | hmem)
      · rcases hsound.recorded_step hstep hjob with hold | hnew
        · exact hsound.record_kept hkeeps hstep (hrecorded (.inl hold))
        · exact hnew
      · rcases List.mem_append.mp hmem with hold | hnew
        · exact hsound.record_kept hkeeps hstep (hrecorded (.inr hold))
        · rw [Option.mem_toList] at hnew
          obtain rfl : emitted = _ := hnew
          have hjob := hsound.enqueuing_of_accepted hstep
          rw [hclient] at hjob
          exact hsound.record_kept hkeeps hstep (hrecorded (.inl hjob))
  exact (hinv hclock).2 (.inr haccepted)

/-- The parsed record that the live file of a job holds. -/
def FileState.onDisk (toml : RecordToml) (state : FileState) (job : JobRef) :
    Option RelayJobMetadata :=
  (state.disk.read (.live job)).bind toml.fromStr

theorem FileState.Readable.onDisk (h : state.Readable toml) (job : JobRef) :
    state.onDisk toml job = state.engine.record job := by
  have hjob := h job
  unfold FileState.onDisk
  cases hread : state.disk.read (.live job) with
  | none =>
    rw [hread, Option.map_none] at hjob
    cases hrecord : state.engine.record job with
    | none => rfl
    | some metadata =>
      rw [hrecord] at hjob
      cases hjob
  | some text =>
    rw [hread, Option.map_some] at hjob
    obtain ⟨metadata, hmetadata, hparsed⟩ := Option.map_eq_some_iff.mp hjob.symm
    rw [hmetadata, Option.bind_some, hparsed]

/-- Every job that is unfinished on disk waits, is held, will be found or is about to be sent; and
a job whose submission was answered with OK is complete, failed or unfinished in this sense as long
as its record is not removed. -/
theorem no_accepted_job_lost {now : UInt64} {events : List FileEvent} {outputs : List Output}
    {last : FileState}
    (hrun : Run (fileStep externals config toml) OneWriteAtATime (FileState.start now) events
      outputs last)
    (hclock : last.engine.now ≤ i64Max) :
    (∀ job metadata, last.onDisk toml job = some metadata → metadata.Unfinished →
      last.engine.Covered job ∨ last.Enqueuing job) ∧
    ∀ handler keyId submission valid begun jobId events' outputs' final,
      fileStep externals config toml last (.submit handler keyId submission valid) =
        some (begun, none) →
      Run (fileStep externals config toml) (fun state event ↦ OneWriteAtATime state event ∧
        KeepsRecord ⟨Keys.keyIdHex keyId, jobId⟩ state event) begun events' outputs' final →
      .answered keyId (.submit submission) (.accepted jobId) ∈ outputs' →
      final.engine.now ≤ i64Max →
      ∃ metadata, final.onDisk toml ⟨Keys.keyIdHex keyId, jobId⟩ = some metadata ∧
        (metadata.status = .complete ∨ metadata.status = .failed ∨
          final.engine.Covered ⟨Keys.keyIdHex keyId, jobId⟩ ∨
          final.Enqueuing ⟨Keys.keyIdHex keyId, jobId⟩) := by
  have hlast : last.Sound toml := sound_of_run (FileState.sound_start now) (fun _ _ h ↦ h) hrun
    hclock
  refine ⟨?_, ?_⟩
  · intro job metadata hrecord
    rw [hlast.readable.onDisk] at hrecord
    exact hlast.durable.covered job.keyIdHex job.jobId metadata hrecord
  · intro handler keyId submission valid begun jobId events' outputs' final hbegin hrest haccepted
      hnow
    have hguard : OneWriteAtATime last (.submit handler keyId submission valid) :=
      ⟨trivial, trivial⟩
    have hbegun : begun.Sound toml := hlast.step hguard hclock hbegin
    have hfinal : final.Sound toml := sound_of_run hbegun (fun _ _ h ↦ h.1) hrest hnow
    have hrecord := recorded_of_run hbegun (not_enqueuing_of_begun hbegin) (fun _ _ h ↦ h) hrest
      hnow rfl haccepted
    obtain ⟨metadata, hmetadata⟩ := Option.isSome_iff_exists.mp hrecord
    have hscheduled := hfinal.durable.covered _ _ metadata hmetadata
    refine ⟨metadata, (hfinal.readable.onDisk _).trans hmetadata, ?_⟩
    cases hstatus : metadata.status with
    | queued => exact .inr (.inr (hscheduled (.inl hstatus)))
    | running => exact .inr (.inr (hscheduled (.inr hstatus)))
    | complete => exact .inl rfl
    | failed => exact .inr (.inl rfl)

end

/-! ### Two workers on one job -/

namespace Sample

/-- One line of a record. -/
def tomlLine (key value : String) : String := key ++ " = " ++ value ++ "\n"

def quoted (text : String) : String := "\"" ++ text ++ "\""

/-- What the crate writes for a record whose texts need no escapes. -/
def tomlText (metadata : RelayJobMetadata) : String :=
  String.join [tomlLine "job_id" (quoted metadata.jobId),
    tomlLine "kind" (quoted metadata.kind.text),
    tomlLine "status" (quoted metadata.status.text),
    tomlLine "source" (quoted metadata.source),
    tomlLine "normalize" (if metadata.normalize then "true" else "false"),
    (metadata.httpStatus.map fun status ↦ tomlLine "http_status" (toString status)).getD "",
    (metadata.contentType.map fun text ↦ tomlLine "content_type" (quoted text)).getD "",
    tomlLine "body_len" (toString metadata.bodyLen),
    (metadata.normalizedLen.map fun length ↦ tomlLine "normalized_len" (toString length)).getD "",
    (metadata.sha256.map fun digest ↦ tomlLine "sha256" (quoted digest)).getD "",
    (metadata.error.map fun error ↦ tomlLine "error" (quoted error)).getD "",
    tomlLine "created_at_ms" (toString metadata.createdAtMs),
    tomlLine "updated_at_ms" (toString metadata.updatedAtMs),
    tomlLine "expires_at_ms" (toString metadata.expiresAtMs)]

/-- The records that the sample writes. -/
def known : List RelayJobMetadata :=
  [pending jobA sourceA .queued, pending jobA sourceA .running, finished jobA sourceA .complete,
    pending jobB sourceB .queued, pending jobB sourceB .running]

def codes (text : String) : List ℕ := text.toList.map Char.toNat

def ofCodes (codes : List ℕ) : String := String.ofList (codes.map Char.ofNat)

theorem ofCodes_codes (text : String) : ofCodes (codes text) = text := by
  simp [ofCodes, codes, Function.comp_def, Char.ofNat_toNat]

/-- A record as numbers. -/
abbrev Fields : Type :=
  List ℕ × ℕ × ℕ × List ℕ × Bool × Option ℕ × Option (List ℕ) × ℕ × Option ℕ ×
    Option (List ℕ) × Option (List ℕ) × ℕ × ℕ × ℕ

def fields (metadata : RelayJobMetadata) : Fields :=
  (codes metadata.jobId, metadata.kind.ctorIdx, metadata.status.ctorIdx, codes metadata.source,
    metadata.normalize, metadata.httpStatus.map UInt16.toNat, metadata.contentType.map codes,
    metadata.bodyLen.toNat, metadata.normalizedLen.map UInt64.toNat, metadata.sha256.map codes,
    metadata.error.map codes, metadata.createdAtMs.toNat, metadata.updatedAtMs.toNat,
    metadata.expiresAtMs.toNat)

def ofFields : Fields → RelayJobMetadata
  | (jobId, kind, status, source, normalize, httpStatus, contentType, bodyLen, normalizedLen,
      sha256, error, createdAtMs, updatedAtMs, expiresAtMs) =>
    { jobId := ofCodes jobId
      kind := if kind = 0 then .webFetch else if kind = 1 then .gitMirror else .package
      status := if status = 0 then .queued else if status = 1 then .running
        else if status = 2 then .complete else .failed
      source := ofCodes source
      normalize := normalize
      httpStatus := httpStatus.map UInt16.ofNat
      contentType := contentType.map ofCodes
      bodyLen := UInt64.ofNat bodyLen
      normalizedLen := normalizedLen.map UInt64.ofNat
      sha256 := sha256.map ofCodes
      error := error.map ofCodes
      createdAtMs := UInt64.ofNat createdAtMs
      updatedAtMs := UInt64.ofNat updatedAtMs
      expiresAtMs := UInt64.ofNat expiresAtMs }

theorem ofFields_fields (metadata : RelayJobMetadata) : ofFields (fields metadata) = metadata := by
  rcases metadata with ⟨jobId, kind, status, _⟩
  cases kind <;> cases status
  all_goals
    simp only [ofFields, fields, ofCodes_codes, Option.map_map, Function.comp_def,
      UInt64.ofNat_toNat, UInt16.ofNat_toNat, Option.map_id_fun']
    rfl

/-- A number for each record. -/
@[reducible]
def recordCode : Encodable RelayJobMetadata :=
  Encodable.ofLeftInverse fields ofFields ofFields_fields

/-- The crate on the records of the sample; the texts of all others are made up. -/
def toml : RecordToml where
  toStringPretty metadata :=
    if metadata ∈ known then utf8 (tomlText metadata)
    else List.replicate (recordCode.encode metadata + 1) 0
  fromStr text := (known.find? fun metadata ↦ utf8 (tomlText metadata) = text).or
    (if 0 ∈ text then recordCode.decode (text.length - 1) else none)
  fromStr_toStringPretty metadata _ := by
    by_cases hknown : metadata ∈ known
    · have hfind : ∀ metadata ∈ known, (known.find? fun other ↦
          utf8 (tomlText other) = utf8 (tomlText metadata)) = some metadata := by decide +kernel
      simp only [if_pos hknown, hfind metadata hknown, Option.some_or]
    · have hzero : ∀ metadata ∈ known, 0 ∉ utf8 (tomlText metadata) := by decide +kernel
      have hnone : (known.find? fun other ↦ utf8 (tomlText other) =
          List.replicate (recordCode.encode metadata + 1) 0) = none := by
        rw [List.find?_eq_none]
        intro other hother heq
        apply hzero other hother
        rw [of_decide_eq_true heq]
        simp
      simp only [if_neg hknown, hnone]
      simp [recordCode.encodek]

abbrev sampleFileStep : Step FileState FileEvent Output := fileStep externals config toml

/-- The first job is submitted while the scan is still running, and goes to two workers; the second
one truncates the record that the first one is about to rename, and the process dies. -/
def tornEvents : List FileEvent :=
  [.submit 0 keyId (.web sourceA false) true, .openTemp (.handler 0), .writeTemp (.handler 0) 4096,
    .rename (.handler 0), .send 0, .engine (.recoverVisit jobA true), .engine (.take 0),
    .engine (.take 1), .engine (.work 0 (.read true)), .engine (.work 1 (.read true)),
    .serialize 0, .openTemp (.worker 0), .writeTemp (.worker 0) 4096, .serialize 1,
    .openTemp (.worker 1), .rename (.worker 0), .engine .crash, .engine .recoverFinish]

/-- The second job is marked as running when the process dies; the first one is submitted while the
next process visits the spool, and completes. -/
def crashedEvents : List FileEvent :=
  [.submit 0 keyId (.web sourceB false) true, .openTemp (.handler 0), .writeTemp (.handler 0) 100,
    .writeTemp (.handler 0) 4096, .rename (.handler 0), .send 0, .engine (.take 0),
    .engine (.work 0 (.read true)), .serialize 0, .openTemp (.worker 0),
    .writeTemp (.worker 0) 4096, .rename (.worker 0), .engine .crash]

def beginA : FileEvent := .submit 0 keyId (.web sourceA false) true

def completedEvents : List FileEvent :=
  [.openTemp (.handler 0), .engine (.recoverVisit jobB true), .writeTemp (.handler 0) 4096,
    .engine (.take 1), .rename (.handler 0), .engine (.work 1 (.read true)), .send 0,
    .serialize 1, .engine (.take 0), .openTemp (.worker 1), .engine (.work 0 (.read true)),
    .serialize 0, .writeTemp (.worker 1) 4096, .openTemp (.worker 0), .rename (.worker 1),
    .writeTemp (.worker 0) 4096, .rename (.worker 0),
    .engine (.work 0 (.webFetched (.ok response))), .engine (.work 0 (.commit (.ok ()) .written)),
    .engine (.work 0 (.normalize .written)), .serialize 0, .openTemp (.worker 0),
    .writeTemp (.worker 0) 4096, .rename (.worker 0)]

theorem no_accepted_job_lost_sample :
    ∃ outputs last, Run sampleFileStep OneWriteAtATime (FileState.start 1000) crashedEvents outputs
        last ∧
      last.onDisk toml jobB = some (pending jobB sourceB .running) ∧
      (last.engine.Covered jobB ∨ last.Enqueuing jobB) ∧
      ∃ begun outputs' final, sampleFileStep last beginA = some (begun, none) ∧
        Run sampleFileStep (fun state event ↦ OneWriteAtATime state event ∧
          KeepsRecord jobA state event) begun completedEvents outputs' final ∧
        acceptedA ∈ outputs' ∧
        ∃ metadata, final.onDisk toml jobA = some metadata ∧
          (metadata.status = .complete ∨ metadata.status = .failed ∨
            final.engine.Covered jobA ∨ final.Enqueuing jobA) := by
  have hexec : (exec sampleFileStep OneWriteAtATime (FileState.start 1000) crashedEvents).any
      fun crashed ↦ decide (crashed.1.engine.now ≤ i64Max ∧
          crashed.1.onDisk toml jobB = some (pending jobB sourceB .running)) &&
        (sampleFileStep crashed.1 beginA).any fun begun ↦ begun.2.isNone &&
          (exec sampleFileStep (fun state event ↦ OneWriteAtATime state event ∧
            KeepsRecord jobA state event) begun.1 completedEvents).any fun final ↦
              decide (acceptedA ∈ final.2 ∧ final.1.engine.now ≤ i64Max) := by
    decide +kernel
  obtain ⟨outputs, last, hrun, hlast⟩ := exists_run_of_exec hexec
  obtain ⟨hcrashed, hbegin⟩ := Bool.and_eq_true_iff.mp hlast
  obtain ⟨hclock, hrunning⟩ := of_decide_eq_true hcrashed
  obtain ⟨⟨begun, emitted⟩, hstep, hbegun⟩ := (Option.any_eq_true _ _).mp hbegin
  obtain ⟨hnone, hcompleted⟩ := Bool.and_eq_true_iff.mp hbegun
  obtain rfl : emitted = none := Option.isNone_iff_eq_none.mp hnone
  obtain ⟨outputs', final, hrest, hfinal⟩ := exists_run_of_exec hcompleted
  obtain ⟨haccepted, hnow⟩ := of_decide_eq_true hfinal
  obtain ⟨hcovered, hkept⟩ := no_accepted_job_lost hrun hclock
  have hended := hkept 0 keyId _ true begun _ _ outputs' final hstep hrest haccepted hnow
  exact ⟨outputs, last, hrun, hrunning, hcovered jobB _ hrunning (.inr rfl), begun, outputs', final,
    hstep, hrest, haccepted, hended⟩

/-- The first job is accepted and never removed; in the end its record is there and cannot be
read, and nobody will ever run it. -/
theorem accepted_job_lost :
    ∃ outputs last, Run sampleFileStep (fun state event ↦ FilesWork state event ∧
        KeepsRecord jobA state event) (FileState.start 1000) tornEvents outputs last ∧
      acceptedA ∈ outputs ∧ last.onDisk toml jobA = none ∧
      ¬last.engine.Covered jobA ∧ ¬last.Enqueuing jobA := by
  have hexec : (exec sampleFileStep (fun state event ↦ FilesWork state event ∧
      KeepsRecord jobA state event) (FileState.start 1000) tornEvents).any fun result ↦
        decide (acceptedA ∈ result.2 ∧ result.1.onDisk toml jobA = none ∧
          result.1.engine.queue = [] ∧ result.1.engine.workers = ∅ ∧
          result.1.engine.recovery = none ∧ result.1.submissions = ∅) := by decide +kernel
  obtain ⟨outputs, last, hrun, hlast⟩ := exists_run_of_exec hexec
  obtain ⟨haccepted, htorn, hqueue, hworkers, hrecovery, hsubmissions⟩ := of_decide_eq_true hlast
  refine ⟨outputs, last, hrun, haccepted, htorn, ?_, ?_⟩
  · rintro ((hwaiting | ⟨worker, phase, hworker⟩) | ⟨recovery, hscan, -⟩)
    · rw [hqueue] at hwaiting
      cases hwaiting
    · rw [hworkers] at hworker
      cases hworker
    · rw [hrecovery] at hscan
      cases hscan
  · rintro ⟨handler, enqueue, henqueue, -⟩
    rw [hsubmissions] at henqueue
    cases henqueue

end Sample

end Ghostbro.Relay
