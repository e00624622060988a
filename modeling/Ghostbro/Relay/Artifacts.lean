import Ghostbro.Relay.Deletion
import Ghostbro.Relay.Jobs

/-!
# The artifact of a complete job

A worker stores the objects of its job before it writes the record as complete, so a complete
record is backed by its objects from the start.  A removal takes the objects before the record.
For the reaper this is harmless, since the record has expired; a deletion leaves, until its last
step and for good if the process dies before it, a complete record without its objects.

The invariant is one of single jobs: the record on disk is open or has its artifact, and the copy
of a worker that has stored the objects has them too.
-/

namespace Ghostbro.Relay

open Machine

namespace RelayJobMetadata

/-- The object that a removal takes at this stage is one that the record promises. -/
def Needs (metadata : RelayJobMetadata) : Stage → Prop
  | .primary => True
  | .normalized => metadata.normalizedLen ≠ none
  | .metadata => False

/-- The record is not complete and promises no normalized object. -/
def Open (metadata : RelayJobMetadata) : Prop :=
  metadata.status ≠ .complete ∧ metadata.normalizedLen = none

/-- The lower-case hexadecimal digest that is recorded for a body. -/
def digestText (externals : Externals) (body : Bytes) : String :=
  String.ofList (hexText (externals.crypto.sha256 body).toList)

/-- The objects that the record promises are among the files, with the lengths and the digest it
states. -/
structure HasArtifact (externals : Externals) (metadata : RelayJobMetadata) (files : JobFiles) :
    Prop where
  primary : ∃ body, files.primary = some body ∧ UInt64.ofNat body.length = metadata.bodyLen ∧
    metadata.sha256 = some (digestText externals body)
  normalized : ∀ len, metadata.normalizedLen = some len →
    ∃ markdown, files.normalized = some markdown ∧ UInt64.ofNat markdown.length = len

end RelayJobMetadata

/-- Every unexpired complete job has its artifact. -/
def CompleteHasArtifact (externals : Externals) (state : State) : Prop :=
  ∀ client fileName metadata, (state.spool client).jobs.lookup fileName = some metadata →
    metadata.status = .complete → state.now < metadata.expiresAtMs →
    metadata.HasArtifact externals (state.files ⟨client, fileName⟩)

/-- The copy of a worker that has stored the object of its job and not written the record. -/
def Phase.storedCopy : Phase → Option RelayJobMetadata
  | stored metadata _ | completing metadata => some metadata
  | _ => none

/-- An unexpired complete record of the job, or an unexpired copy that is going to be written as
complete, promises the object of this stage. -/
def State.Needs (state : State) (job : JobRef) (stage : Stage) : Prop :=
  ∃ metadata : RelayJobMetadata, state.now < metadata.expiresAtMs ∧ metadata.Needs stage ∧
    ((state.files job).record = some metadata ∧ metadata.status = .complete ∨
      ∃ worker phase, state.workers.lookup worker = some ⟨job, phase⟩ ∧
        phase.storedCopy = some metadata)

/-- No job is sent while it is scheduled, and no removal takes an object that is needed. -/
def KeepsArtifacts (externals : Externals) (state : State) (event : Event) : Prop :=
  ScheduledOnce externals state event ∧
    ∀ client fileName jobId stage, Removes state client fileName jobId stage event →
      ¬state.Needs ⟨client, stage.name fileName jobId⟩ stage

section Artifacts

variable {externals : Externals} {config : RelayConfig} {metadata : RelayJobMetadata}
  {files : JobFiles} {now : UInt64}

theorem RelayJobMetadata.HasArtifact.congr {next : JobFiles}
    (h : metadata.HasArtifact externals files) (hprimary : next.primary = files.primary)
    (hnormalized : next.normalized = files.normalized) : metadata.HasArtifact externals next where
  primary := hprimary ▸ h.primary
  normalized := hnormalized ▸ h.normalized

theorem RelayJobMetadata.HasArtifact.remove {stage : Stage}
    (h : metadata.HasArtifact externals files) (hneeds : ¬metadata.Needs stage) :
    metadata.HasArtifact externals (files.remove stage) := by
  cases stage with
  | primary => exact absurd trivial hneeds
  | normalized =>
    refine ⟨h.primary, fun len hlen ↦ absurd ?_ hneeds⟩
    simp [RelayJobMetadata.Needs, hlen]
  | metadata => exact ⟨h.primary, h.normalized⟩

/-- What the copy of a worker says about the files of its job. -/
def Phase.Intact (externals : Externals) (now : UInt64) (files : JobFiles) : Phase → Prop
  | taken | failing _ => True
  | marking metadata | fetching metadata | cloning metadata | bundling metadata
  | collecting metadata | fetched metadata _ => metadata.normalizedLen = none
  | stored metadata _ => metadata.normalizedLen = none ∧
      (now < metadata.expiresAtMs → metadata.HasArtifact externals files)
  | completing metadata => now < metadata.expiresAtMs → metadata.HasArtifact externals files
  | failWriting metadata => metadata.Open

/-- The invariant of one job. -/
structure Intact (externals : Externals) (now : UInt64) (files : JobFiles)
    (phase : Option Phase) : Prop where
  record : ∀ metadata, files.record = some metadata →
    metadata.Open ∨ metadata.status = .complete ∧ (phase = none ∨ phase = some .taken) ∧
      (now < metadata.expiresAtMs → metadata.HasArtifact externals files)
  copy : ∀ held, phase = some held → held.Intact externals now files

/-- The record of a job is open while a worker is past reading it. -/
theorem Intact.open {held : Phase} (h : Intact externals now files (some held))
    (hheld : held ≠ .taken) (hrecord : files.record = some metadata) : metadata.Open := by
  rcases h.record metadata hrecord with hopen | ⟨_, hphase, _⟩
  · exact hopen
  · rcases hphase with hphase | hphase
    · cases hphase
    · cases hphase
      exact absurd rfl hheld

theorem Phase.Intact.later {later : UInt64} {held : Phase}
    (h : held.Intact externals now files) (hle : now ≤ later) :
    held.Intact externals later files := by
  cases held with
  | stored metadata outcome =>
    exact ⟨h.1, fun hlive ↦ h.2 (UInt64.lt_of_le_of_lt hle hlive)⟩
  | completing metadata => exact fun hlive ↦ h (UInt64.lt_of_le_of_lt hle hlive)
  | taken | marking _ | fetching _ | cloning _ | bundling _ | collecting _ | fetched _ _
  | failing _ | failWriting _ => exact h

theorem Intact.later {later : UInt64} {phase : Option Phase}
    (h : Intact externals now files phase) (hle : now ≤ later) :
    Intact externals later files phase where
  record metadata hrecord := by
    rcases h.record metadata hrecord with hopen | ⟨hstatus, hphase, hartifact⟩
    · exact .inl hopen
    · exact .inr ⟨hstatus, hphase, fun hlive ↦ hartifact (UInt64.lt_of_le_of_lt hle hlive)⟩
  copy held hheld := (h.copy held hheld).later hle

/-- An open record and an intact copy are all that is asked while a worker holds the job. -/
theorem intact_of_open {held : Phase}
    (hrecord : ∀ metadata, files.record = some metadata → metadata.Open)
    (hcopy : held.Intact externals now files) : Intact externals now files (some held) where
  record metadata h := .inl (hrecord metadata h)
  copy _ h := by
    cases h
    exact hcopy

theorem Phase.Intact.fetchCopy {held : Phase} (hheld : held.fetchCopy = some metadata) :
    held.Intact externals now files ↔ metadata.normalizedLen = none := by
  cases held with
  | fetching _ | cloning _ | bundling _ | collecting _ =>
    cases hheld
    exact Iff.rfl
  | taken | marking _ | fetched _ _ | stored _ _ | completing _ | failing _ | failWriting _ =>
    cases hheld

theorem Intact.action {spool next : Spool} {jobId : String} {held : Phase}
    {event : WorkerEvent} {after : Option Phase}
    (h : Intact externals now (spool.job jobId) (some held))
    (hcopy : ∀ copied, held.copy = some copied → copied.jobId = jobId)
    (haction : Action externals config now spool jobId held event next after) :
    Intact externals now (next.job jobId) after := by
  have hintact : held.Intact externals now (spool.job jobId) := h.copy held rfl
  have hopen (hheld : held ≠ .taken) (other : RelayJobMetadata)
      (hother : (spool.job jobId).record = some other) : other.Open := h.open hheld hother
  have hwritten (written : RelayJobMetadata) (hname : written.jobId = jobId)
      (afterPhase : Option Phase)
      (hfiles : Intact externals now { spool.job jobId with record := some written } afterPhase) :
      Intact externals now ((spool.record written).job jobId) afterPhase := by
    rw [Spool.job_record, if_pos hname.symm]
    exact hfiles
  cases haction with
  | leave _ =>
    refine ⟨fun metadata hrecord ↦ ?_, fun _ hnone ↦ nomatch hnone⟩
    rcases h.record metadata hrecord with hopen | ⟨hstatus, _, hartifact⟩
    · exact .inl hopen
    · exact .inr ⟨hstatus, .inl rfl, hartifact⟩
  | @load _ metadata hlookup hstatus =>
    have hloaded : metadata.Open := by
      rcases h.record metadata hlookup with hopen | ⟨hcomplete, _⟩
      · exact hopen
      · exact absurd hcomplete hstatus
    refine intact_of_open (fun other hother ↦ ?_) hloaded.2
    cases hlookup.symm.trans hother
    exact hloaded
  | @mark copied _ =>
    apply hwritten (runningCopy now copied) (hcopy copied rfl)
    refine intact_of_open (fun other hother ↦ ?_) hintact
    cases hother
    exact ⟨by simp [runningCopy], hintact⟩
  | fetch hphase hjobs _ _ hafter _ _ =>
    have hnone := (Phase.Intact.fetchCopy hphase).mp hintact
    have hrecord : (next.job jobId).record = (spool.job jobId).record := by
      unfold Spool.job
      rw [hjobs]
    refine intact_of_open (fun other hother ↦ hopen ?_ other (hrecord ▸ hother)) ?_
    · rintro rfl
      cases hphase
    · rcases hafter with hafter | ⟨outcome, rfl⟩ | ⟨error, rfl⟩
      · exact (Phase.Intact.fetchCopy hafter).mpr hnone
      · exact hnone
      · trivial
  | @store copied outcome _ =>
    refine intact_of_open (hopen (by simp)) ⟨hintact, fun _ ↦ ⟨⟨outcome.body, ?_, rfl, rfl⟩, ?_⟩⟩
    · rw [← hcopy copied rfl]
      exact AList.lookup_insert _
    · intro len hlen
      cases hintact.symm.trans hlen
  | @refuse copied outcome _ _ _ error hnext =>
    refine intact_of_open (fun other hother ↦ hopen (by simp) other ?_) trivial
    rcases hnext with rfl | ⟨left, _, rfl⟩
    · exact hother
    · exact hother
  | @plain copied outcome _ => exact intact_of_open (hopen (by simp)) hintact.2
  | @normalize copied outcome =>
    refine intact_of_open (hopen (by simp)) fun hlive ↦ ⟨(hintact.2 hlive).primary, ?_⟩
    intro len hlen
    refine ⟨externals.htmlToMarkdown outcome.body, ?_, Option.some.inj hlen⟩
    rw [← hcopy copied rfl]
    exact AList.lookup_insert _
  | normalizeFailed hjobs _ _ _ =>
    have hrecord : (next.job jobId).record = (spool.job jobId).record := by
      unfold Spool.job
      rw [hjobs]
    exact intact_of_open (fun other hother ↦ hopen (by simp) other (hrecord ▸ hother)) trivial
  | @complete copied _ =>
    apply hwritten (completeCopy now copied) (hcopy copied rfl)
    refine ⟨fun other hother ↦ ?_, fun _ hnone ↦ nomatch hnone⟩
    cases hother
    exact .inr ⟨rfl, .inl rfl, fun hlive ↦ ⟨(hintact hlive).primary, (hintact hlive).normalized⟩⟩
  | unwritten hphase =>
    refine intact_of_open (hopen ?_) trivial
    rcases hphase with ⟨rfl, _⟩ | ⟨rfl, _⟩ <;> simp
  | vanished _ =>
    exact ⟨fun other hother ↦ .inl (hopen (by simp) other hother), fun _ hnone ↦ nomatch hnone⟩
  | @reload error _ loaded hlookup =>
    exact intact_of_open (hopen (by simp))
      ⟨by simp [failedCopy], (hopen (by simp) loaded hlookup).2⟩
  | @fail copied _ =>
    apply hwritten { copied with updatedAtMs := now } (hcopy copied rfl)
    refine ⟨fun other hother ↦ .inl ?_, fun _ hnone ↦ nomatch hnone⟩
    cases hother
    exact hintact
  | unfailed _ =>
    exact ⟨fun other hother ↦ .inl (hopen (by simp) other hother), fun _ hnone ↦ nomatch hnone⟩

/-- A removal of an object that is not needed. -/
theorem Intact.remove {phase : Option Phase} {stage : Stage}
    (h : Intact externals now files phase)
    (hrecord : ∀ metadata, files.record = some metadata → metadata.status = .complete →
      now < metadata.expiresAtMs → ¬metadata.Needs stage)
    (hcopy : ∀ held metadata, phase = some held → held.storedCopy = some metadata →
      now < metadata.expiresAtMs → ¬metadata.Needs stage) :
    Intact externals now (files.remove stage) phase where
  record metadata hremoved := by
    have hbefore : files.record = some metadata := by
      cases stage with
      | primary | normalized => exact hremoved
      | metadata => cases hremoved
    rcases h.record metadata hbefore with hopen | ⟨hstatus, hphase, hartifact⟩
    · exact .inl hopen
    · exact .inr ⟨hstatus, hphase, fun hlive ↦
        (hartifact hlive).remove (hrecord metadata hbefore hstatus hlive)⟩
  copy held hheld := by
    have hintact := h.copy held hheld
    cases held with
    | stored metadata outcome =>
      exact ⟨hintact.1, fun hlive ↦ (hintact.2 hlive).remove (hcopy _ metadata hheld rfl hlive)⟩
    | completing metadata =>
      exact fun hlive ↦ (hintact hlive).remove (hcopy _ metadata hheld rfl hlive)
    | taken | marking _ | fetching _ | cloning _ | bundling _ | collecting _ | fetched _ _
    | failing _ | failWriting _ => exact hintact

theorem Intact.turn {state : State} {event : Event} {job : JobRef} {before after : Option Phase}
    {next : JobFiles} (hguard : KeepsArtifacts externals state event)
    (hat : state.At job before) (h : Intact externals state.now (state.files job) before)
    (hturn : Turn externals config state job event before next after) :
    Intact externals state.now next after := by
  cases hturn with
  | same => exact h
  | taken =>
    refine ⟨fun metadata hrecord ↦ ?_, fun held hheld ↦ ?_⟩
    · rcases h.record metadata hrecord with hopen | ⟨hstatus, _, hartifact⟩
      · exact .inl hopen
      · exact .inr ⟨hstatus, .inr rfl, hartifact⟩
    · cases hheld
      trivial
  | crashed =>
    refine ⟨fun metadata hrecord ↦ ?_, fun _ hnone ↦ nomatch hnone⟩
    rcases h.record metadata hrecord with hopen | ⟨hstatus, _, hartifact⟩
    · exact .inl hopen
    · exact .inr ⟨hstatus, .inl rfl, hartifact⟩
  | submitted _ =>
    refine ⟨fun metadata hrecord ↦ .inl ?_, fun _ hnone ↦ nomatch hnone⟩
    cases hrecord
    exact ⟨by simp [queuedMetadata], rfl⟩
  | @removed _ _ fileName jobId stage hremoves hname =>
    have hspared := hguard.2 job.keyIdHex fileName jobId stage hremoves
    rw [hname] at hspared
    refine h.remove (fun metadata hrecord hstatus hlive hneeds ↦ ?_)
      fun held metadata hheld hcopy hlive hneeds ↦ ?_
    · exact hspared ⟨metadata, hlive, hneeds, .inl ⟨hrecord, hstatus⟩⟩
    · subst hheld
      obtain ⟨worker, hworker⟩ := hat
      exact hspared ⟨metadata, hlive, hneeds, .inr ⟨worker, held, hworker, hcopy⟩⟩
  | worked _ hcopy haction => exact h.action hcopy haction

/-- Every unexpired complete job has its artifact, in the runs in which no job is sent twice and no
needed object is removed. -/
theorem complete_has_artifact {start : UInt64} {events : List Event} {outputs : List Output}
    {last : State}
    (hrun : Run (step externals config) (KeepsArtifacts externals) (State.start start) events
      outputs last) : CompleteHasArtifact externals last := by
  intro client fileName metadata hrecord hstatus hlive
  obtain ⟨phase, hat⟩ := exists_at last ⟨client, fileName⟩
  have hintact : Intact externals last.now (last.files ⟨client, fileName⟩) phase := by
    refine job_invariant (Intact externals) (fun _ _ hguard ↦ hguard.1) ?_ ?_ ?_ hrun _ phase hat
    · intro now
      exact ⟨fun _ hnone ↦ (nomatch hnone), fun _ hnone ↦ nomatch hnone⟩
    · intro now later files phase hle h
      exact h.later hle
    · intro state event job before files phase hguard hbefore h hturn
      exact h.turn hguard hbefore hturn
  rcases hintact.record metadata hrecord with hopen | ⟨_, _, hartifact⟩
  · exact absurd hstatus hopen.1
  · exact hartifact hlive

end Artifacts

/-! ### A deletion that has begun -/

namespace Sample

theorem not_scheduled_start (now : UInt64) (job : JobRef) : ¬(State.start now).Scheduled job := by
  rintro (hwaiting | ⟨worker, phase, hworker⟩)
  · cases hwaiting
  · cases hworker

/-- The first job is completed. -/
theorem complete_has_artifact_sample :
    ∃ events outputs last,
      Run sampleStep (KeepsArtifacts externals) (State.start 1000) events outputs last ∧
      (last.files jobA).record = some (finished jobA sourceA .complete) ∧
      (finished jobA sourceA .complete).HasArtifact externals (last.files jobA) := by
  have hrun : Run sampleStep (KeepsArtifacts externals) (State.start 1000) completedEvents
      [acceptedA] (storedA .complete ∅) := by
    refine run_completed ⟨not_scheduled_start _ _, fun _ _ _ _ hremoves ↦ by cases hremoves⟩ ?_
      ⟨trivial, fun _ _ _ _ hremoves ↦ by cases hremoves⟩
    intro state event hevent
    simp only [processingEvents, List.mem_cons, List.not_mem_nil, or_false] at hevent
    rcases hevent with rfl | rfl | rfl | rfl | rfl | rfl
    all_goals exact ⟨trivial, fun _ _ _ _ hremoves ↦ by cases hremoves⟩
  have hrecord : ((storedA .complete ∅).files jobA).record =
      some (finished jobA sourceA .complete) := by decide +kernel
  exact ⟨_, _, _, hrun, hrecord,
    complete_has_artifact hrun client jobA.jobId _ hrecord rfl (by decide)⟩

/-- The first job is completed and its deletion begins; when the process dies after the first
removal, the complete record stays without its object. -/
theorem complete_without_artifact :
    ∃ events outputs last,
      Run sampleStep unrestricted (State.start 1000) events outputs last ∧
      last.deletions = ∅ ∧ last.workers = ∅ ∧ ¬CompleteHasArtifact externals last := by
  have hcompleted : Run sampleStep unrestricted (State.start 1000) completedEvents [acceptedA]
      (storedA .complete ∅) := run_completed trivial (fun _ _ _ ↦ trivial) trivial
  let bare := engine (AList.insert jobA.jobId (finished jobA sourceA .complete) ∅) ∅ [] ∅
  have hdelete : sampleStep (storedA .complete ∅) (.delete 0 keyId jobA.jobId) =
      some (deleting (storedA .complete ∅) .primary, none) := by decide +kernel
  have hprimary : sampleStep (deleting (storedA .complete ∅) .primary) (.deleteNext 0 true) =
      some (deleting bare .normalized, none) := by decide +kernel
  have hcrash : sampleStep (deleting bare .normalized) .crash =
      some ({ bare with recovery := some ⟨[jobA], []⟩ }, none) := by decide +kernel
  refine ⟨_, _, _, ((hcompleted.snoc trivial hdelete).snoc trivial hprimary).snoc trivial hcrash,
    rfl, rfl, fun hall ↦ ?_⟩
  have hrecord : (bare.spool client).jobs.lookup jobA.jobId =
      some (finished jobA sourceA .complete) := by decide +kernel
  obtain ⟨body, hbody, _⟩ := (hall client jobA.jobId _ hrecord rfl (by decide)).primary
  have hnone : (bare.spool client).primary.lookup jobA.jobId = none := by decide +kernel
  cases hnone.symm.trans hbody

end Sample

end Ghostbro.Relay
