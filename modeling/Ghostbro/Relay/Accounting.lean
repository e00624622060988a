import Ghostbro.Relay.Artifacts
import Ghostbro.Relay.Durability

/-!
# Files that no record accounts for

The usage of a client is the sum of the lengths in its records, so a file that no record accounts
for is outside every quota, and only a removal that follows a record can take it away.  A worker
accounts for the objects it stores when it writes the complete record.  The scratch directory of a
git job is removed once the bundle has been read or found too large, but the `?` after each of the
two `git` commands leaves it where it is.

The invariant is one of single jobs again: the record on disk, and the copy of the worker, count
the objects; and the scratch directory is empty except between the two commands and the cleanup.
-/

namespace Ghostbro.Relay

open Machine

/-- The files in a scratch directory. -/
def WorkDir.files (dir : WorkDir) : List Bytes := dir.mirror.toList ++ dir.bundle.toList

/-- Every file of the job is counted by its record. -/
structure JobFiles.Accounted (files : JobFiles) : Prop where
  primary : ∀ body, files.primary = some body →
    ∃ metadata, files.record = some metadata ∧ metadata.bodyLen = UInt64.ofNat body.length
  normalized : ∀ markdown, files.normalized = some markdown →
    ∃ metadata, files.record = some metadata ∧
      metadata.normalizedLen = some (UInt64.ofNat markdown.length)
  work : ∀ dir, files.work = some dir → ∀ file ∈ dir.files,
    ∃ metadata, files.record = some metadata ∧
      (metadata.bodyLen = UInt64.ofNat file.length ∨
        metadata.normalizedLen = some (UInt64.ofNat file.length))

/-- No worker is processing a job of the client. -/
def State.Quiet (state : State) (client : String) : Prop :=
  ∀ worker job phase, state.workers.lookup worker = some ⟨job, phase⟩ → job.keyIdHex ≠ client

/-- Every stored byte of a client that no worker is busy with is accounted for. -/
def EveryByteAccounted (state : State) : Prop :=
  ∀ client, state.Quiet client → ∀ jobId, (state.files ⟨client, jobId⟩).Accounted

/-- The process lives, no file operation fails, a successful `git bundle` has written its file,
and a record that is to be completed can be serialized. -/
def Faultless (state : State) (event : Event) : Prop :=
  NoFileErrors state event ∧
    match event with
    | .crash => False
    | .work worker (.writeComplete _) => ∀ job metadata,
        state.workers.lookup worker = some ⟨job, .completing metadata⟩ →
        (completeCopy state.now metadata).storable
    | .work _ (.gitBundled bundle (.ok ())) => bundle.isSome
    | _ => True

/-- A `git` command that fails leaves no file behind, a submission gets an id without objects, no
job is sent while it is scheduled, and a record is removed only after its objects. -/
def LeavesNothing (externals : Externals) (state : State) (event : Event) : Prop :=
  ScheduledOnce externals state event ∧
    (∀ client fileName jobId, Removes state client fileName jobId .metadata event →
      (state.files ⟨client, fileName⟩).primary = none ∧
        (state.files ⟨client, fileName⟩).normalized = none) ∧
    match event with
    | .work _ (.gitCloned mirror (.error _)) => mirror = none
    | .work worker (.gitBundled bundle (.error _)) => bundle = none ∧
        ∀ job phase, state.workers.lookup worker = some ⟨job, phase⟩ →
          (state.files job).work.bind WorkDir.mirror = none
    | .submit keyId submission _ _ =>
        (state.files (submittedJob externals state keyId submission)).primary = none ∧
          (state.files (submittedJob externals state keyId submission)).normalized = none
    | _ => True

/-- Nothing fails outside the engine and nothing is left behind. -/
def Tidies (externals : Externals) (state : State) (event : Event) : Prop :=
  Faultless state event ∧ LeavesNothing externals state event

section Accounting

variable {externals : Externals} {config : RelayConfig} {metadata : RelayJobMetadata}
  {files next : JobFiles} {now : UInt64}

/-! ### The invariant of one job -/

/-- The objects of a job are counted by the given record, or there are none. -/
def JobFiles.CountedBy (files : JobFiles) : Option RelayJobMetadata → Prop
  | none => files.primary = none ∧ files.normalized = none
  | some metadata =>
    (∀ body, files.primary = some body → metadata.bodyLen = UInt64.ofNat body.length) ∧
      ∀ markdown, files.normalized = some markdown →
        metadata.normalizedLen = some (UInt64.ofNat markdown.length)

/-- The scratch directory of a job holds no file. -/
def JobFiles.Clean (files : JobFiles) : Prop := ∀ dir, files.work = some dir → dir.files = []

/-- The worker is between the commands of `run_git_mirror` and the cleanup. -/
def Phase.inGit : Phase → Bool
  | cloning _ | bundling _ | collecting _ => true
  | _ => false

/-- The invariant of one job. -/
structure Tidy (files : JobFiles) (phase : Option Phase) : Prop where
  record : (∀ held, phase = some held → held.storedCopy = none) → files.CountedBy files.record
  copy : ∀ held metadata, phase = some held → held.copy = some metadata →
    files.CountedBy (some metadata)
  clean : (∀ held, phase = some held → held.inGit = false) → files.Clean
  bundle : ∀ metadata, phase = some (.collecting metadata) →
    (files.work.bind WorkDir.bundle).isSome

theorem JobFiles.CountedBy.congr {record : Option RelayJobMetadata} (h : files.CountedBy record)
    (hprimary : next.primary = files.primary) (hnormalized : next.normalized = files.normalized) :
    next.CountedBy record := by
  cases record with
  | none => exact ⟨hprimary.trans h.1, hnormalized.trans h.2⟩
  | some metadata => exact ⟨hprimary ▸ h.1, hnormalized ▸ h.2⟩

/-- Removing an object takes nothing away from what is counted. -/
theorem JobFiles.CountedBy.remove {record : Option RelayJobMetadata} (h : files.CountedBy record)
    (stage : Stage) : (files.remove stage).CountedBy record := by
  cases stage with
  | metadata => exact h.congr rfl rfl
  | primary =>
    cases record with
    | none => exact ⟨rfl, h.2⟩
    | some metadata => exact ⟨fun body hbody ↦ (nomatch hbody), h.2⟩
  | normalized =>
    cases record with
    | none => exact ⟨h.1, rfl⟩
    | some metadata => exact ⟨h.1, fun markdown hmarkdown ↦ nomatch hmarkdown⟩

theorem JobFiles.CountedBy.of_none (hprimary : files.primary = none)
    (hnormalized : files.normalized = none) (record : Option RelayJobMetadata) :
    files.CountedBy record := by
  cases record with
  | none => exact ⟨hprimary, hnormalized⟩
  | some metadata =>
    refine ⟨fun body hbody ↦ ?_, fun markdown hmarkdown ↦ ?_⟩
    · cases hprimary.symm.trans hbody
    · cases hnormalized.symm.trans hmarkdown

/-- A job that no worker is busy with is accounted for. -/
theorem Tidy.accounted (h : Tidy files none) : files.Accounted := by
  have hcounted := h.record fun _ hnone ↦ nomatch hnone
  have hclean := h.clean fun _ hnone ↦ nomatch hnone
  cases hrecord : files.record with
  | none =>
    rw [hrecord] at hcounted
    refine ⟨fun body hbody ↦ ?_, fun markdown hmarkdown ↦ ?_, fun dir hdir file hfile ↦ ?_⟩
    · cases hcounted.1.symm.trans hbody
    · cases hcounted.2.symm.trans hmarkdown
    · rw [hclean dir hdir] at hfile
      cases hfile
  | some metadata =>
    rw [hrecord] at hcounted
    refine ⟨fun body hbody ↦ ⟨metadata, hrecord, hcounted.1 body hbody⟩,
      fun markdown hmarkdown ↦ ⟨metadata, hrecord, hcounted.2 markdown hmarkdown⟩,
      fun dir hdir file hfile ↦ ?_⟩
    rw [hclean dir hdir] at hfile
    cases hfile

/-! ### Scratch directories -/

/-- What the guard says about a step of the worker of a job. -/
def WorkerEvent.Tidies (now : UInt64) (files : JobFiles) (held : Phase) : WorkerEvent → Prop
  | .gitCloned mirror (.error _) => mirror = none
  | .gitBundled bundle (.error _) => bundle = none ∧ files.work.bind WorkDir.mirror = none
  | .gitBundled bundle (.ok ()) => bundle.isSome
  | .writeComplete _ => ∀ metadata, held = .completing metadata →
      (completeCopy now metadata).storable
  | _ => True

theorem Tidies.worker {state : State} {worker : ℕ} {event : WorkerEvent} {job : JobRef}
    {held : Phase} (h : Tidies externals state (.work worker event))
    (hworker : state.workers.lookup worker = some ⟨job, held⟩) :
    event.NoFileErrors ∧ event.Tidies state.now (state.files job) held := by
  obtain ⟨⟨herrors, hfaultless⟩, _, _, hleaves⟩ := h
  refine ⟨herrors, ?_⟩
  cases event with
  | gitCloned mirror result =>
    cases result with
    | error error => exact hleaves
    | ok value => trivial
  | gitBundled bundle result =>
    cases result with
    | error error => exact ⟨hleaves.1, hleaves.2 job held hworker⟩
    | ok value => exact hfaultless
  | writeComplete fault =>
    intro metadata hheld
    exact hfaultless job metadata (hheld ▸ hworker)
  | read _ | writeRunning _ | webFetched _ | packageFetched _ _ | gitPrepared _ _
  | gitCollected _ _ | commit _ _ | normalize _ | readFailed _ | writeFailed _ => trivial

/-- A step of a fetch that ends it leaves a clean scratch directory. -/
theorem Tidy.scratch {held after : Phase} {event : WorkerEvent} {dir : Option WorkDir}
    (h : Tidy files (some held)) (herrors : event.NoFileErrors)
    (htidies : event.Tidies now files held) (hscratch : Scratch files.work held event dir after)
    (hafter : after.inGit = false) : ∀ left, dir = some left → left.files = [] := by
  intro left hleft
  cases hscratch with
  | prepared _ hnext =>
    rcases hnext with hsame | hnone | hempty
    · refine h.clean (fun _ hheld ↦ ?_) left (hsame.symm.trans hleft)
      cases hheld
      rfl
    · cases hnone.symm.trans hleft
    · cases hempty.symm.trans hleft
      rfl
  | @cloned _ mirror result _ hresult =>
    rcases hresult with rfl | ⟨error, _, rfl⟩
    · cases hafter
    · have hmirror : mirror = none := htidies
      cases hleft
      rw [hmirror]
      rfl
  | @bundled _ bundle result _ hresult =>
    rcases hresult with ⟨rfl, _⟩ | ⟨error, _, rfl⟩
    · cases hafter
    · have hempty : bundle = none ∧ files.work.bind WorkDir.mirror = none := htidies
      cases hleft
      rw [hempty.1, hempty.2]
      rfl
  | collected _ hnext =>
    cases (hnext (h.bundle _ rfl) herrors.1 herrors.2).symm.trans hleft

/-- A step of a fetch that leads to collecting has a bundle to collect. -/
theorem bundle_of_scratch {held : Phase} {event : WorkerEvent} {before dir : Option WorkDir}
    (htidies : event.Tidies now files held)
    (hscratch : Scratch before held event dir (.collecting metadata)) :
    (dir.bind WorkDir.bundle).isSome := by
  cases hscratch with
  | prepared hafter _ => exact absurd rfl (hafter metadata)
  | cloned hafter =>
    rcases hafter with hafter | ⟨_, hafter, _⟩
    · cases hafter
    · cases hafter
  | bundled hafter =>
    rcases hafter with ⟨_, rfl⟩ | ⟨_, hafter, _⟩
    · exact htidies
    · cases hafter
  | collected hafter _ => exact absurd rfl (hafter metadata)

/-! ### One turn -/

theorem tidy_of_idle (hrecord : files.CountedBy files.record) (hclean : files.Clean) :
    Tidy files none where
  record _ := hrecord
  copy _ _ hnone := by cases hnone
  clean _ := hclean
  bundle _ hnone := by cases hnone

theorem tidy_of_held {held : Phase} (hgit : held.inGit = false) (hclean : files.Clean)
    (hrecord : held.storedCopy = none → files.CountedBy files.record)
    (hcopy : ∀ copied, held.copy = some copied → files.CountedBy (some copied)) :
    Tidy files (some held) where
  record hstored := hrecord (hstored held rfl)
  copy _ copied hheld hcopied := by
    cases hheld
    exact hcopy copied hcopied
  clean _ := hclean
  bundle _ hcollecting := by
    cases hcollecting
    cases hgit

/-- A copy counts what another one counts that states the same lengths. -/
theorem JobFiles.CountedBy.revise (h : files.CountedBy (some metadata))
    (revised : RelayJobMetadata) (hbody : revised.bodyLen = metadata.bodyLen)
    (hnormalized : revised.normalizedLen = metadata.normalizedLen) :
    files.CountedBy (some revised) :=
  ⟨fun body hfile ↦ hbody.trans (h.1 body hfile),
    fun markdown hfile ↦ hnormalized.trans (h.2 markdown hfile)⟩

theorem Tidy.fetch {held after : Phase} {event : WorkerEvent} (h : Tidy files (some held))
    (herrors : event.NoFileErrors) (htidies : event.Tidies now files held)
    (hphase : held.fetchCopy = some metadata) (hrecord : next.record = files.record)
    (hprimary : next.primary = files.primary) (hnormalized : next.normalized = files.normalized)
    (hafter : after.fetchCopy = some metadata ∨
      (∃ outcome, after = .fetched metadata outcome) ∨ ∃ error, after = .failing error)
    (hwork : Scratch files.work held event next.work after) : Tidy next (some after) where
  record _ := by
    rw [hrecord]
    refine (h.record fun _ hheld ↦ ?_).congr hprimary hnormalized
    cases hheld
    cases held with
    | fetching _ | cloning _ | bundling _ | collecting _ => rfl
    | taken | marking _ | fetched _ _ | stored _ _ | completing _ | failing _ | failWriting _ =>
      cases hphase
  copy _ copied hheld hcopied := by
    cases hheld
    have hcounted := h.copy held metadata rfl (Phase.copy_of_fetchCopy hphase)
    have hsame : copied = metadata := by
      rcases hafter with hfetch | ⟨outcome, rfl⟩ | ⟨error, rfl⟩
      · exact Option.some.inj (hcopied.symm.trans (Phase.copy_of_fetchCopy hfetch))
      · exact (Option.some.inj hcopied).symm
      · cases hcopied
    rw [hsame]
    exact hcounted.congr hprimary hnormalized
  clean hgit := h.scratch herrors htidies hwork (hgit after rfl)
  bundle copied hcollecting := by
    cases hcollecting
    exact bundle_of_scratch htidies hwork

theorem Tidy.action {spool after : Spool} {jobId : String} {held : Phase} {event : WorkerEvent}
    {afterPhase : Option Phase} (h : Tidy (spool.job jobId) (some held))
    (herrors : event.NoFileErrors) (htidies : event.Tidies now (spool.job jobId) held)
    (hnamed : ∀ copied, held.copy = some copied → copied.jobId = jobId)
    (haction : Action externals config now spool jobId held event after afterPhase) :
    Tidy (after.job jobId) afterPhase := by
  have hrecord (hheld : held.storedCopy = none) :
      (spool.job jobId).CountedBy (spool.job jobId).record := by
    refine h.record fun _ hsome ↦ ?_
    cases hsome
    exact hheld
  have hcopy (copied : RelayJobMetadata) (hheld : held.copy = some copied) :
      (spool.job jobId).CountedBy (some copied) := h.copy held copied rfl hheld
  have hclean (hheld : held.inGit = false) : (spool.job jobId).Clean := by
    refine h.clean fun _ hsome ↦ ?_
    cases hsome
    exact hheld
  have hwritten (written : RelayJobMetadata) (hname : written.jobId = jobId) :
      (spool.record written).job jobId = { spool.job jobId with record := some written } := by
    rw [Spool.job_record, if_pos hname.symm]
  cases haction with
  | leave _ => exact tidy_of_idle (hrecord rfl) (hclean rfl)
  | @load _ metadata hlookup _ =>
    refine tidy_of_held rfl (hclean rfl) (fun _ ↦ hrecord rfl) ?_
    rintro _ ⟨⟩
    have hcounted := hrecord rfl
    rwa [show (spool.job jobId).record = some metadata from hlookup] at hcounted
  | @mark copied _ =>
    rw [hwritten (runningCopy now copied) (hnamed copied rfl)]
    have hcounted := (hcopy copied rfl).revise (runningCopy now copied) rfl rfl
    refine tidy_of_held rfl (hclean rfl) (fun _ ↦ hcounted.congr rfl rfl) ?_
    rintro _ ⟨⟩
    exact hcounted.congr rfl rfl
  | @fetch _ _ _ copied _ hphase hjobs hprimary hnormalized hafter hwork _ =>
    have hname : copied.jobId = jobId := hnamed copied (Phase.copy_of_fetchCopy hphase)
    rw [hname] at hwork
    refine h.fetch herrors htidies hphase ?_ ?_ ?_ hafter hwork
    · exact congrArg (AList.lookup jobId) hjobs
    · exact congrArg (AList.lookup jobId) hprimary
    · exact congrArg (AList.lookup jobId) hnormalized
  | @store copied outcome _ =>
    have hcounted := hcopy copied rfl
    refine tidy_of_held rfl (hclean rfl) (fun hstored ↦ nomatch hstored) ?_
    rintro _ ⟨⟩
    refine ⟨fun body hbody ↦ ?_, hcounted.2⟩
    change (spool.primary.insert copied.jobId outcome.body).lookup jobId = some body at hbody
    rw [hnamed copied rfl, AList.lookup_insert] at hbody
    cases hbody
    rfl
  | refuse hnext =>
    rcases hnext with rfl | ⟨left, hfailed, _⟩
    · refine tidy_of_held rfl (hclean rfl) (fun _ ↦ hrecord rfl) ?_
      rintro _ ⟨⟩
    · cases hfailed.symm.trans herrors.2
  | @plain copied _ _ =>
    refine tidy_of_held rfl (hclean rfl) (fun hstored ↦ nomatch hstored) ?_
    rintro _ ⟨⟩
    exact hcopy copied rfl
  | @normalize copied outcome =>
    refine tidy_of_held rfl (hclean rfl) (fun hstored ↦ nomatch hstored) ?_
    rintro _ ⟨⟩
    refine ⟨(hcopy copied rfl).1, fun markdown hmarkdown ↦ ?_⟩
    change (spool.normalized.insert copied.jobId (externals.htmlToMarkdown outcome.body)).lookup
      jobId = some markdown at hmarkdown
    rw [hnamed copied rfl, AList.lookup_insert] at hmarkdown
    cases hmarkdown
    rfl
  | normalizeFailed _ _ _ _ => cases herrors
  | @complete copied _ =>
    rw [hwritten (completeCopy now copied) (hnamed copied rfl)]
    exact tidy_of_idle (((hcopy copied rfl).revise (completeCopy now copied) rfl rfl).congr rfl rfl)
      (hclean rfl)
  | unwritten hphase =>
    rcases hphase with ⟨rfl, _, _⟩ | ⟨rfl, rfl, hfault⟩
    · refine tidy_of_held rfl (hclean rfl) (fun _ ↦ hrecord rfl) ?_
      rintro _ ⟨⟩
    · exact absurd (htidies _ rfl) (hfault herrors)
  | vanished _ => exact tidy_of_idle (hrecord rfl) (hclean rfl)
  | @reload error _ loaded hlookup =>
    have hcounted := hrecord rfl
    refine tidy_of_held rfl (hclean rfl) (fun _ ↦ hcounted) ?_
    rintro _ ⟨⟩
    rw [show (spool.job jobId).record = some loaded from hlookup] at hcounted
    exact hcounted.revise (failedCopy error loaded) rfl rfl
  | @fail copied _ =>
    rw [hwritten { copied with updatedAtMs := now } (hnamed copied rfl)]
    exact tidy_of_idle (((hcopy copied rfl).revise _ rfl rfl).congr rfl rfl) (hclean rfl)
  | unfailed _ => exact tidy_of_idle (hrecord rfl) (hclean rfl)

theorem Tidy.turn {state : State} {event : Event} {job : JobRef} {before after : Option Phase}
    (hguard : Tidies externals state event) (h : Tidy (state.files job) before)
    (hturn : Turn externals config state job event before next after) : Tidy next after := by
  cases hturn with
  | same => exact h
  | taken =>
    have hidle (held : Phase) (hnone : none = some held) : False := nomatch hnone
    refine tidy_of_held rfl (h.clean fun held hnone ↦ (hidle held hnone).elim)
      (fun _ ↦ h.record fun held hnone ↦ (hidle held hnone).elim) ?_
    rintro _ ⟨⟩
  | crashed => exact hguard.1.2.elim
  | submitted hjob =>
    obtain ⟨hprimary, hnormalized⟩ := hguard.2.2.2
    rw [← hjob] at hprimary hnormalized
    have hcounted := JobFiles.CountedBy.of_none hprimary hnormalized
    exact tidy_of_idle ((hcounted _).congr rfl rfl) (h.clean fun _ hnone ↦ nomatch hnone)
  | @removed _ _ fileName jobId stage hremoves hname =>
    refine ⟨fun hstored ↦ ?_, fun held copied hheld hcopied ↦ ?_, fun hgit ↦ ?_,
      fun copied hcollecting ↦ ?_⟩
    · cases stage with
      | primary => exact (h.record hstored).remove .primary
      | normalized => exact (h.record hstored).remove .normalized
      | metadata =>
        obtain ⟨hprimary, hnormalized⟩ := hguard.2.2.1 job.keyIdHex fileName jobId hremoves
        rw [show fileName = job.jobId from hname] at hprimary hnormalized
        exact (JobFiles.CountedBy.of_none hprimary hnormalized _).congr rfl rfl
    · exact (h.copy held copied hheld hcopied).remove stage
    · cases stage <;> exact h.clean hgit
    · cases stage <;> exact h.bundle copied hcollecting
  | worked hworker hnamed haction =>
    obtain ⟨herrors, htidies⟩ := hguard.worker hworker
    exact h.action herrors htidies hnamed haction

/-- Every stored byte is accounted for, in the runs in which nothing is left behind. -/
theorem every_byte_accounted {start : UInt64} {events : List Event} {outputs : List Output}
    {last : State}
    (hrun : Run (step externals config) (Tidies externals) (State.start start) events outputs
      last) : EveryByteAccounted last := by
  intro client hquiet jobId
  have hidle : last.At ⟨client, jobId⟩ none := by
    rintro ⟨worker, phase, hworker⟩
    exact hquiet worker _ phase hworker rfl
  have htidy : Tidy (last.files ⟨client, jobId⟩) none := by
    refine job_invariant (fun _ files phase ↦ Tidy files phase) (fun _ _ hguard ↦ hguard.2.1)
      ?_ (fun _ _ _ _ _ h ↦ h) ?_ hrun _ none hidle
    · intro now
      exact tidy_of_idle (.of_none rfl rfl _) fun _ hnone ↦ nomatch hnone
    · intro state event job before files phase hguard _ h hturn
      exact h.turn hguard hturn
  exact htidy.accounted

end Accounting

/-! ### A git job whose bundle fails -/

namespace Sample

/-- The first job is completed, and its record counts its object. -/
theorem every_byte_accounted_sample :
    ∃ events outputs last,
      Run sampleStep (Tidies externals) (State.start 1000) events outputs last ∧
      last.Quiet client ∧ (last.files jobA).primary = some body ∧
      (last.files jobA).Accounted := by
  have hrun : Run sampleStep (Tidies externals) (State.start 1000) completedEvents [acceptedA]
      (storedA .complete ∅) := by
    refine run_completed ?_ ?_ ?_
    · exact ⟨⟨rfl, trivial⟩, not_scheduled_start _ _, (fun _ _ _ hremoves ↦ by cases hremoves),
        rfl, rfl⟩
    · intro state event hevent
      simp only [processingEvents, List.mem_cons, List.not_mem_nil, or_false] at hevent
      rcases hevent with rfl | rfl | rfl | rfl | rfl | rfl
      all_goals
        refine ⟨⟨?_, trivial⟩, trivial, (fun _ _ _ hremoves ↦ by cases hremoves), trivial⟩
      · trivial
      · rfl
      · rfl
      · trivial
      · exact ⟨rfl, rfl⟩
      · rfl
    · refine ⟨⟨rfl, ?_⟩, trivial, (fun _ _ _ hremoves ↦ by cases hremoves), trivial⟩
      rintro job metadata ⟨⟩
      decide
  have hquiet : (storedA .complete ∅).Quiet client := by
    intro worker job phase hworker
    cases hworker
  exact ⟨_, _, _, hrun, hquiet, by decide +kernel, every_byte_accounted hrun client hquiet _⟩

/-- The first job as a git mirror. -/
def mirrored (status : JobStatus) : RelayJobMetadata :=
  { pending jobA sourceA status with kind := .gitMirror }

/-- The engine with the record and the scratch directory of that job. -/
def mirroring (metadata : RelayJobMetadata) (work : HashMap String WorkDir)
    (queue : List JobRef) (workers : HashMap ℕ Worker) : State :=
  { State.start 1000 with
    spools := AList.insert client ⟨AList.insert jobA.jobId metadata ∅, ∅, ∅, work⟩ ∅
    queue := queue
    workers := workers }

def scratchA (dir : WorkDir) : HashMap String WorkDir := AList.insert jobA.jobId dir ∅

def submitMirror : Event := .submit keyId (.git sourceA) true none

/-- The git job is submitted, taken and marked as running, and gets its scratch directory. -/
def cloningEvents : List Event :=
  [submitMirror, .take 0, .work 0 (.read true), .work 0 (.writeRunning none),
    .work 0 (.gitPrepared (.ok ()) (.ok ()))]

/-- The engine with a worker of that job. -/
def mirroringIn (dir : WorkDir) (phase : Phase) : State :=
  mirroring (mirrored .running) (scratchA dir) [] (workerA phase)

theorem run_cloning {guard : State → Event → Prop}
    (hguard : ∀ state, ∀ event ∈ cloningEvents, guard state event) :
    Run sampleStep guard (State.start 1000) cloningEvents
      [.answered keyId (.submit (.git sourceA)) (.accepted jobA.jobId)]
      (mirroringIn ⟨none, none⟩ (.cloning (mirrored .running))) := by
  simp only [cloningEvents, List.mem_cons, List.not_mem_nil, or_false, forall_eq_or_imp,
    forall_eq] at hguard
  have hstep₁ : sampleStep (State.start 1000) submitMirror =
      some (mirroring (mirrored .queued) ∅ [jobA] ∅,
        some (.answered keyId (.submit (.git sourceA)) (.accepted jobA.jobId))) := by decide +kernel
  have hstep₂ : sampleStep (mirroring (mirrored .queued) ∅ [jobA] ∅) (.take 0) =
      some (mirroring (mirrored .queued) ∅ [] (workerA .taken), none) := by decide +kernel
  have hstep₃ : sampleStep (mirroring (mirrored .queued) ∅ [] (workerA .taken))
      (.work 0 (.read true)) =
        some (mirroring (mirrored .queued) ∅ [] (workerA (.marking (mirrored .queued))), none) := by
    decide +kernel
  have hstep₄ : sampleStep
      (mirroring (mirrored .queued) ∅ [] (workerA (.marking (mirrored .queued))))
      (.work 0 (.writeRunning none)) =
        some (mirroring (mirrored .running) ∅ [] (workerA (.fetching (mirrored .running))),
          none) := by decide +kernel
  have hstep₅ : sampleStep
      (mirroring (mirrored .running) ∅ [] (workerA (.fetching (mirrored .running))))
      (.work 0 (.gitPrepared (.ok ()) (.ok ()))) =
        some (mirroringIn ⟨none, none⟩ (.cloning (mirrored .running)), none) := by decide +kernel
  have hnil : Run sampleStep guard (State.start 1000) [] [] (State.start 1000) := .nil
  exact ((((hnil.snoc (hguard _).1 hstep₁).snoc (hguard _).2.1 hstep₂).snoc
    (hguard _).2.2.1 hstep₃).snoc (hguard _).2.2.2.1 hstep₄).snoc (hguard _).2.2.2.2 hstep₅

/-- A git job whose clone succeeds and whose bundle fails, as for a repository without commits. -/
theorem mirror_left_behind :
    ∃ events outputs last, Run sampleStep Faultless (State.start 1000) events outputs last ∧
      ¬EveryByteAccounted last := by
  let error := "git bundle create failed: fatal: Refusing to create empty bundle."
  let left := scratchA ⟨some [1, 2, 3], none⟩
  let failed : RelayJobMetadata := { mirrored .failed with error := some error }
  have hstep₆ : sampleStep (mirroringIn ⟨none, none⟩ (.cloning (mirrored .running)))
      (.work 0 (.gitCloned (some [1, 2, 3]) (.ok ()))) =
        some (mirroring (mirrored .running) left [] (workerA (.bundling (mirrored .running))),
          none) := by decide +kernel
  have hstep₇ : sampleStep
      (mirroring (mirrored .running) left [] (workerA (.bundling (mirrored .running))))
      (.work 0 (.gitBundled none (.error error))) =
        some (mirroring (mirrored .running) left [] (workerA (.failing error)), none) := by
    decide +kernel
  have hstep₈ : sampleStep (mirroring (mirrored .running) left [] (workerA (.failing error)))
      (.work 0 (.readFailed true)) =
        some (mirroring (mirrored .running) left [] (workerA (.failWriting failed)), none) := by
    decide +kernel
  have hstep₉ : sampleStep (mirroring (mirrored .running) left [] (workerA (.failWriting failed)))
      (.work 0 (.writeFailed none)) = some (mirroring failed left [] ∅, none) := by decide +kernel
  have hfaultless : ∀ state, ∀ event ∈ cloningEvents, Faultless state event := by
    intro state event hevent
    simp only [cloningEvents, List.mem_cons, List.not_mem_nil, or_false] at hevent
    rcases hevent with rfl | rfl | rfl | rfl | rfl
    · exact ⟨rfl, trivial⟩
    · exact ⟨trivial, trivial⟩
    · exact ⟨rfl, trivial⟩
    · exact ⟨rfl, trivial⟩
    · exact ⟨rfl, trivial⟩
  have hprepared := run_cloning hfaultless
  have hrun := (((hprepared.snoc (by exact ⟨trivial, trivial⟩) hstep₆).snoc
    (by exact ⟨trivial, trivial⟩) hstep₇).snoc (by exact ⟨rfl, trivial⟩) hstep₈).snoc
    (by exact ⟨rfl, trivial⟩) hstep₉
  refine ⟨_, _, _, hrun, fun hall ↦ ?_⟩
  have hquiet : (mirroring failed left [] ∅).Quiet client := by
    intro worker job phase hworker
    cases hworker
  have hwork : ((mirroring failed left [] ∅).files jobA).work = some ⟨some [1, 2, 3], none⟩ := by
    decide +kernel
  have hrecord : ((mirroring failed left [] ∅).files jobA).record = some failed := by
    decide +kernel
  obtain ⟨metadata, hmetadata, hcounted⟩ :=
    (hall client hquiet jobA.jobId).work _ hwork [1, 2, 3] (by simp [WorkDir.files])
  cases hrecord.symm.trans hmetadata
  rcases hcounted with hbody | hnormalized
  · cases hbody
  · cases hnormalized

end Sample

end Ghostbro.Relay
