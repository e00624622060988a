import Ghostbro.Relay.Moves
import Ghostbro.Relay.Registry

/-!
# Where stored objects come from

A primary object is the outcome of a fetch for a submission that the client itself made and that
was accepted under the id of the object.  For a package the outcome is what the network answered
to `run_package` for this job, and it passed the digest that the registry stated then.  The
invariant follows the records, the copies of the workers and the outcomes they hold; a failed write
may leave the first part of an object only.
-/

namespace Ghostbro.Relay

open Machine

/-- What a run reports: the outputs of the engine, and for each package fetch the answers of the
registry and of the host of the package. -/
inductive Report
  | output (output : Output)
  | fetched (client : String) (metadata : RelayJobMetadata) (network download : Network)

inductive FetchEvent
  | engine (event : Event)
  /-- `run_package`, with what the network answers to it. -/
  | package (worker : ℕ) (network download : Network)

/-- One event of the engine; what a package fetch hands to it comes from a network. -/
def fetchStep (externals : Externals) (config : RelayConfig) (registry : Registry) :
    Step State FetchEvent Report := fun state event ↦
  match event with
  | .engine (.work _ (.packageFetched _ _)) => none
  | .engine event =>
    (step externals config state event).map fun (next, emitted) ↦ (next, emitted.map .output)
  | .package worker network download =>
    match state.workers.lookup worker with
    | some ⟨job, .fetching metadata⟩ =>
      let resolved := resolveSource registry network metadata.source
      let digest := resolved.map ResolvedPackage.digest
      let result := resolved.bind fun package ↦ download package.url
      (step externals config state (.work worker (.packageFetched digest result))).map
        fun (next, _) ↦ (next, some (.fetched job.keyIdHex metadata network download))
    | _ => none

/-- The host of the package answered with this body, and it passes the digest that the registry
stated for the source. -/
def Verified (externals : Externals) (registry : Registry) (network download : Network)
    (source : String) (body : Bytes) : Prop :=
  ∃ package response, resolveSource registry network source = .ok package ∧
    download package.url = .ok response ∧ response.status < 400 ∧
      package.digest.verify externals response.body = .ok () ∧ response.body = body

/-- The client submitted what the record asks for, and was given its id. -/
def Asked (reports : List Report) (client : String) (metadata : RelayJobMetadata) : Prop :=
  ∃ keyId submission, Keys.keyIdHex keyId = client ∧
    .output (.answered keyId (.submit submission) (.accepted metadata.jobId)) ∈ reports ∧
      metadata.kind = submission.kind ∧ metadata.source = submission.source

/-- The copy and the outcome that a worker holds between the fetch and the end of its job. -/
def Phase.outcome : Phase → Option (RelayJobMetadata × JobOutcome)
  | fetched metadata outcome | stored metadata outcome => some (metadata, outcome)
  | _ => none

/-- The copy of a worker that runs `git`. -/
def Phase.gitCopy : Phase → Option RelayJobMetadata
  | cloning metadata | bundling metadata | collecting metadata => some metadata
  | _ => none

section Provenance

variable (externals : Externals) (registry : Registry)

/-- The network answered a fetch of the run with this body, for the same job and source. -/
def Fetched (reports : List Report) (client jobId source : String) (body : Bytes) : Prop :=
  ∃ metadata network download, .fetched client metadata network download ∈ reports ∧
    metadata.jobId = jobId ∧ metadata.source = source ∧
      Verified externals registry network download source body

/-- The outcome of a package job was fetched. -/
def Vouched (reports : List Report) (client : String) (metadata : RelayJobMetadata)
    (body : Bytes) : Prop :=
  metadata.kind = .package →
    Fetched externals registry reports client metadata.jobId metadata.source body

/-- A part of a primary object that is answered was asked for, and fetched if it is a package. -/
def DownloadsAsked (before : List Report) (report : Report) : Prop :=
  ∀ keyId jobId offset maxLen artifact terminal total body,
    report = .output (.answered keyId (.download jobId offset maxLen artifact)
      (.chunk terminal total body)) → artifact ≠ 1 →
    ∃ submission, .output (.answered keyId (.submit submission) (.accepted jobId)) ∈ before ∧
      ∀ spec, submission = .package spec →
        ∃ whole, Fetched externals registry before (Keys.keyIdHex keyId) jobId spec whole ∧
          body <:+: whole

/-- What one phase of a worker says about its job. -/
structure PhaseTraced (reports : List Report) (client : String) (phase : Phase) : Prop where
  copy : ∀ metadata ∈ phase.copy, Asked reports client metadata
  git : ∀ metadata ∈ phase.gitCopy, metadata.kind = .gitMirror
  outcome : ∀ held ∈ phase.outcome, Vouched externals registry reports client held.1 held.2.body

/-- Records and objects of one client come from its submissions. -/
structure SpoolTraced (reports : List Report) (client : String) (spool : Spool) : Prop where
  records : ∀ fileName metadata, spool.jobs.lookup fileName = some metadata →
    Asked reports client metadata
  objects : ∀ jobId body, spool.primary.lookup jobId = some body →
    ∃ metadata whole, Asked reports client metadata ∧ metadata.jobId = jobId ∧
      Vouched externals registry reports client metadata whole ∧ body <+: whole

/-- The invariant. -/
structure Traced (reports : List Report) (state : State) : Prop where
  spools : ∀ client, SpoolTraced externals registry reports client (state.spool client)
  workers : ∀ worker job phase, state.workers.lookup worker = some ⟨job, phase⟩ →
    PhaseTraced externals registry reports job.keyIdHex phase

variable {externals registry} {config : RelayConfig} {reports : List Report} {state after : State}

theorem Asked.append {client : String} {metadata : RelayJobMetadata}
    (h : Asked reports client metadata) (later : List Report) :
    Asked (reports ++ later) client metadata := by
  obtain ⟨keyId, submission, hclient, houtput, hfields⟩ := h
  exact ⟨keyId, submission, hclient, List.mem_append_left _ houtput, hfields⟩

theorem Asked.congr {client : String} {metadata revised : RelayJobMetadata}
    (h : Asked reports client metadata) (hjobId : revised.jobId = metadata.jobId)
    (hkind : revised.kind = metadata.kind) (hsource : revised.source = metadata.source) :
    Asked reports client revised := by
  obtain ⟨keyId, submission, hclient, houtput, hfields⟩ := h
  exact ⟨keyId, submission, hclient, hjobId ▸ houtput, hkind ▸ hfields.1, hsource ▸ hfields.2⟩

theorem Fetched.append {client jobId source : String} {body : Bytes}
    (h : Fetched externals registry reports client jobId source body) (later : List Report) :
    Fetched externals registry (reports ++ later) client jobId source body := by
  obtain ⟨metadata, network, download, hreport, hfields⟩ := h
  exact ⟨metadata, network, download, List.mem_append_left _ hreport, hfields⟩

theorem Vouched.append {client : String} {metadata : RelayJobMetadata} {body : Bytes}
    (h : Vouched externals registry reports client metadata body) (later : List Report) :
    Vouched externals registry (reports ++ later) client metadata body :=
  fun hpackage ↦ (h hpackage).append later

theorem Vouched.congr {client : String} {metadata revised : RelayJobMetadata} {body : Bytes}
    (h : Vouched externals registry reports client metadata body)
    (hjobId : revised.jobId = metadata.jobId) (hkind : revised.kind = metadata.kind)
    (hsource : revised.source = metadata.source) :
    Vouched externals registry reports client revised body := by
  intro hpackage
  rw [hjobId, hsource]
  exact h (hkind ▸ hpackage)

/-! ### Fetches -/

/-- What a step of a fetch hands on. -/
structure Fetch (config : RelayConfig) (phase : Phase) (event : WorkerEvent)
    (metadata : RelayJobMetadata) (after : Phase) : Prop where
  git : ∀ copied ∈ after.gitCopy, copied = metadata ∧
    (phase.gitCopy = some metadata ∨ metadata.kind = .gitMirror)
  outcome : ∀ held ∈ after.outcome, held.1 = metadata ∧
    (phase.gitCopy = some metadata ∨ metadata.kind = .webFetch ∨
      ∃ resolved result, phase = .fetching metadata ∧ event = .packageFetched resolved result ∧
        runPackage externals config resolved result = .ok held.2)

theorem fetch_of_afterFetch {phase : Phase} {event : WorkerEvent} {metadata : RelayJobMetadata}
    {outcome : Except String JobOutcome}
    (h : metadata.kind = .webFetch ∨ ∃ resolved result, phase = .fetching metadata ∧
      event = .packageFetched resolved result ∧
        runPackage externals config resolved result = outcome) :
    @Fetch externals config phase event metadata (.afterFetch metadata outcome) := by
  cases outcome with
  | error error => exact ⟨by simp [Phase.afterFetch, Phase.gitCopy],
      by simp [Phase.afterFetch, Phase.outcome]⟩
  | ok outcome =>
    refine ⟨by simp [Phase.afterFetch, Phase.gitCopy], ?_⟩
    rintro held ⟨⟩
    exact ⟨rfl, .inr h⟩

theorem fetch_of_failing (phase : Phase) (event : WorkerEvent) (metadata : RelayJobMetadata)
    (error : String) : @Fetch externals config phase event metadata (.failing error) :=
  ⟨by simp [Phase.gitCopy], by simp [Phase.outcome]⟩

theorem fetch_of_collectBundle {spool : Spool} {metadata : RelayJobMetadata}
    {readable removed : Bool} :
    @Fetch externals config (.collecting metadata) (.gitCollected readable removed) metadata
      (collectBundle config spool metadata readable removed).2 := by
  unfold collectBundle
  dsimp only
  split
  · exact fetch_of_failing _ _ _ _
  · split
    · exact fetch_of_failing _ _ _ _
    · split
      · refine ⟨by simp [Phase.gitCopy], ?_⟩
        rintro held ⟨⟩
        exact ⟨rfl, .inl rfl⟩
      · exact fetch_of_failing _ _ _ _

theorem fetch_of_workerStep {now : UInt64} {spool next : Spool} {jobId : String} {phase : Phase}
    {event : WorkerEvent} {metadata : RelayJobMetadata} {after : Phase}
    (h : workerStep externals config now spool jobId phase event = some (next, some after))
    (hphase : phase.fetchCopy = some metadata) :
    @Fetch externals config phase event metadata after := by
  unfold workerStep at h
  split at h
  case h_3 copied result =>
    obtain rfl := Option.some.inj hphase
    split at h
    · next hkind =>
      cases h
      exact fetch_of_afterFetch (.inl hkind)
    · cases h
  case h_4 copied resolved result =>
    obtain rfl := Option.some.inj hphase
    split at h
    · cases h
      exact fetch_of_afterFetch (.inr ⟨resolved, result, rfl, rfl, rfl⟩)
    · cases h
  case h_5 copied valid created =>
    obtain rfl := Option.some.inj hphase
    split at h
    · next hkind =>
      split at h <;> cases h
      · exact fetch_of_failing _ _ _ _
      · exact fetch_of_failing _ _ _ _
      · refine ⟨?_, by simp [Phase.outcome]⟩
        rintro other ⟨⟩
        exact ⟨rfl, .inr hkind⟩
    · cases h
  case h_6 copied mirror result =>
    obtain rfl := Option.some.inj hphase
    dsimp only at h
    split at h <;> cases h
    · refine ⟨?_, by simp [Phase.outcome]⟩
      rintro other ⟨⟩
      exact ⟨rfl, .inl rfl⟩
    · exact fetch_of_failing _ _ _ _
  case h_7 copied bundle result =>
    obtain rfl := Option.some.inj hphase
    dsimp only at h
    split at h <;> cases h
    · refine ⟨?_, by simp [Phase.outcome]⟩
      rintro other ⟨⟩
      exact ⟨rfl, .inl rfl⟩
    · exact fetch_of_failing _ _ _ _
  case h_8 copied readable removed =>
    obtain rfl := Option.some.inj hphase
    cases h
    exact fetch_of_collectBundle
  case h_14 => cases h
  all_goals cases hphase

theorem httpGetBytes_eq_ok {maxLen : UInt64} {response : HttpResponse} {outcome : JobOutcome}
    (h : httpGetBytes maxLen response = .ok outcome) : outcome.body = response.body := by
  unfold httpGetBytes at h
  dsimp only at h
  split at h
  · cases h
  · split at h
    · cases h
    · rw [← Except.ok.inj h]

theorem runPackage_eq_ok {resolved : Except String ExpectedDigest}
    {result : Except String HttpResponse} {outcome : JobOutcome}
    (h : runPackage externals config resolved result = .ok outcome) :
    ∃ digest response, resolved = .ok digest ∧ result = .ok response ∧ response.status < 400 ∧
      digest.verify externals response.body = .ok () ∧ outcome.body = response.body := by
  cases resolved with
  | error error => cases h
  | ok digest =>
    cases result with
    | error error => cases h
    | ok response =>
      unfold runPackage at h
      cases hget : httpGetBytes config.maxObjectLen response with
      | error error => simp [hget, bind, Except.bind] at h
      | ok fetched =>
        have hbody := httpGetBytes_eq_ok hget
        by_cases hstatus : 400 ≤ response.status
        · simp [hget, hstatus, bind, Except.bind] at h
        · cases hverify : digest.verify externals fetched.body with
          | error error => simp [hget, hstatus, hverify, bind, Except.bind] at h
          | ok _ =>
            have hout : fetched = outcome := by
              simpa [hget, hstatus, hverify, bind, Except.bind, pure, Except.pure] using h
            rw [hbody] at hverify
            rw [← hout]
            exact ⟨digest, response, rfl, rfl, by simpa using hstatus, hverify, hbody⟩

/-! ### The invariant -/

/-- A fetch of a traced worker hands on traced results. -/
theorem PhaseTraced.fetch {client : String} {phase after : Phase} {event : WorkerEvent}
    {metadata : RelayJobMetadata} (h : PhaseTraced externals registry reports client phase)
    (hphase : phase.fetchCopy = some metadata)
    (hafter : after.fetchCopy = some metadata ∨ (∃ outcome, after = .fetched metadata outcome) ∨
      ∃ error, after = .failing error)
    (hfetch : @Fetch externals config phase event metadata after)
    (hanswered : ∀ resolved result outcome, phase = .fetching metadata →
      event = .packageFetched resolved result →
      runPackage externals config resolved result = .ok outcome →
      Fetched externals registry reports client metadata.jobId metadata.source outcome.body) :
    PhaseTraced externals registry reports client after where
  copy := by
    have hasked := h.copy metadata (Phase.copy_of_fetchCopy hphase)
    intro copied hcopied
    rcases hafter with hsame | ⟨outcome, rfl⟩ | ⟨error, rfl⟩
    · obtain rfl := Option.some.inj ((Phase.copy_of_fetchCopy hsame).symm.trans hcopied)
      exact hasked
    · obtain rfl := Option.some.inj hcopied
      exact hasked
    · cases hcopied
  git := by
    intro copied hcopied
    obtain ⟨rfl, hbefore | hkind⟩ := hfetch.git copied hcopied
    · exact h.git _ hbefore
    · exact hkind
  outcome := by
    intro held hheld hpackage
    obtain ⟨hsame, hbefore⟩ := hfetch.outcome held hheld
    rw [hsame] at hpackage ⊢
    rcases hbefore with hgit | hkind | ⟨resolved, result, hfetching, hevent, hrun⟩
    · rw [h.git _ hgit] at hpackage
      cases hpackage
    · rw [hkind] at hpackage
      cases hpackage
    · exact hanswered resolved result held.2 hfetching hevent hrun

/-- Writing a record of the own job keeps the directory traced. -/
theorem SpoolTraced.record {client : String} {spool : Spool} {metadata : RelayJobMetadata}
    (h : SpoolTraced externals registry reports client spool)
    (hasked : Asked reports client metadata) :
    SpoolTraced externals registry reports client (spool.record metadata) where
  records := by
    intro fileName found hlookup
    rw [Spool.record, HashMap.lookup_insert_ite] at hlookup
    split at hlookup
    · obtain rfl := Option.some.inj hlookup
      exact hasked
    · exact h.records fileName found hlookup
  objects := h.objects

/-- So does storing an outcome, or the first part of it. -/
theorem SpoolTraced.insert {client : String} {spool : Spool} {metadata : RelayJobMetadata}
    {body whole : Bytes} (h : SpoolTraced externals registry reports client spool)
    (hasked : Asked reports client metadata)
    (hvouched : Vouched externals registry reports client metadata whole) (hbody : body <+: whole) :
    SpoolTraced externals registry reports client
      { spool with primary := spool.primary.insert metadata.jobId body } where
  records := h.records
  objects := by
    intro jobId found hlookup
    rw [HashMap.lookup_insert_ite] at hlookup
    split at hlookup
    · next hname =>
      obtain rfl := Option.some.inj hlookup
      exact ⟨metadata, whole, hasked, hname.symm, hvouched, hbody⟩
    · exact h.objects jobId found hlookup

/-- A phase with a copy and nothing else to say. -/
theorem phaseTraced_of_copy {client : String} {phase : Phase}
    (hcopy : ∀ metadata ∈ phase.copy, Asked reports client metadata)
    (hgit : phase.gitCopy = none) (houtcome : phase.outcome = none) :
    PhaseTraced externals registry reports client phase where
  copy := hcopy
  git := by simp [hgit]
  outcome := by simp [houtcome]

/-- One step of a worker keeps the directory of its client and the worker traced. -/
theorem traced_of_action {client : String} {now : UInt64} {spool next : Spool} {jobId : String}
    {phase : Phase} {event : WorkerEvent} {after : Option Phase}
    (hspool : SpoolTraced externals registry reports client spool)
    (hphase : PhaseTraced externals registry reports client phase)
    (hstep : workerStep externals config now spool jobId phase event = some (next, after))
    (hanswered : ∀ metadata resolved result outcome, phase = .fetching metadata →
      event = .packageFetched resolved result →
      runPackage externals config resolved result = .ok outcome →
      Fetched externals registry reports client metadata.jobId metadata.source outcome.body) :
    SpoolTraced externals registry reports client next ∧
      ∀ held ∈ after, PhaseTraced externals registry reports client held := by
  have hsame {found : Spool} (hjobs : found.jobs = spool.jobs)
      (hprimary : found.primary = spool.primary) :
      SpoolTraced externals registry reports client found :=
    ⟨fun fileName metadata hlookup ↦ hspool.records fileName metadata (hjobs ▸ hlookup),
      fun jobId body hlookup ↦ hspool.objects jobId body (hprimary ▸ hlookup)⟩
  have hcopies {metadata : RelayJobMetadata} (hcopy : phase.copy = some metadata) :
      Asked reports client metadata := hphase.copy metadata hcopy
  cases action_of_workerStep hstep with
  | leave _ | vanished _ => exact ⟨hspool, by simp⟩
  | load hlookup _ =>
    refine ⟨hspool, ?_⟩
    rintro held ⟨⟩
    exact phaseTraced_of_copy (by rintro _ ⟨⟩; exact hspool.records _ _ hlookup) rfl rfl
  | mark _ =>
    have hasked := (hcopies rfl).congr rfl rfl rfl
    refine ⟨hspool.record hasked, ?_⟩
    rintro held ⟨⟩
    exact phaseTraced_of_copy (by rintro _ ⟨⟩; exact hasked) rfl rfl
  | @fetch _ found _ metadata _ hfetching hjobs hprimary _ hafter _ _ =>
    refine ⟨hsame hjobs hprimary, ?_⟩
    rintro held ⟨⟩
    exact hphase.fetch hfetching hafter (fetch_of_workerStep hstep hfetching)
      fun resolved result outcome ↦ hanswered metadata resolved result outcome
  | @store metadata outcome _ =>
    have hasked := hcopies rfl
    have hvouched := hphase.outcome (metadata, outcome) rfl
    refine ⟨hspool.insert hasked hvouched (List.prefix_refl _), ?_⟩
    rintro held ⟨⟩
    refine ⟨?_, by simp [Phase.gitCopy], ?_⟩
    · rintro _ ⟨⟩
      exact hasked.congr rfl rfl rfl
    · rintro _ ⟨⟩
      exact hvouched.congr rfl rfl rfl
  | @refuse metadata outcome _ _ _ _ hnext =>
    refine ⟨?_, ?_⟩
    · rcases hnext with rfl | ⟨left, -, rfl⟩
      · exact hspool
      · exact hspool.insert (hcopies rfl) (hphase.outcome (metadata, outcome) rfl)
          (List.take_prefix _ _)
    · rintro held ⟨⟩
      exact phaseTraced_of_copy (by simp [Phase.copy]) rfl rfl
  | plain | normalize =>
    refine ⟨hsame rfl rfl, ?_⟩
    rintro held ⟨⟩
    exact phaseTraced_of_copy (by rintro _ ⟨⟩; exact (hcopies rfl).congr rfl rfl rfl) rfl rfl
  | normalizeFailed hjobs hprimary _ _ =>
    refine ⟨hsame hjobs hprimary, ?_⟩
    rintro held ⟨⟩
    exact phaseTraced_of_copy (by simp [Phase.copy]) rfl rfl
  | complete _ => exact ⟨hspool.record ((hcopies rfl).congr rfl rfl rfl), by simp⟩
  | unwritten _ =>
    refine ⟨hspool, ?_⟩
    rintro held ⟨⟩
    exact phaseTraced_of_copy (by simp [Phase.copy]) rfl rfl
  | reload hlookup =>
    refine ⟨hspool, ?_⟩
    rintro held ⟨⟩
    exact phaseTraced_of_copy
      (by rintro _ ⟨⟩; exact (hspool.records _ _ hlookup).congr rfl rfl rfl) rfl rfl
  | fail _ => exact ⟨hspool.record ((hcopies rfl).congr rfl rfl rfl), by simp⟩
  | unfailed _ => exact ⟨hspool, by simp⟩

/-! ### Runs -/

theorem SpoolTraced.append {client : String} {spool : Spool}
    (h : SpoolTraced externals registry reports client spool) (later : List Report) :
    SpoolTraced externals registry (reports ++ later) client spool where
  records fileName metadata hlookup := (h.records fileName metadata hlookup).append later
  objects jobId body hlookup := by
    obtain ⟨metadata, whole, hasked, hname, hvouched, hbody⟩ := h.objects jobId body hlookup
    exact ⟨metadata, whole, hasked.append later, hname, hvouched.append later, hbody⟩

theorem PhaseTraced.append {client : String} {phase : Phase}
    (h : PhaseTraced externals registry reports client phase) (later : List Report) :
    PhaseTraced externals registry (reports ++ later) client phase where
  copy metadata hcopy := (h.copy metadata hcopy).append later
  git := h.git
  outcome held hheld := (h.outcome held hheld).append later

theorem Traced.append (h : Traced externals registry reports state) (later : List Report) :
    Traced externals registry (reports ++ later) state where
  spools client := (h.spools client).append later
  workers worker job phase hworker := (h.workers worker job phase hworker).append later

/-- A removal takes files and adds none. -/
theorem SpoolTraced.remove {client : String} {spool : Spool}
    (h : SpoolTraced externals registry reports client spool) (fileName jobId : String)
    (stage : Stage) :
    SpoolTraced externals registry reports client (spool.remove fileName jobId stage) where
  records name metadata hlookup := by
    cases stage with
    | primary | normalized => exact h.records name metadata hlookup
    | metadata => exact h.records name metadata (HashMap.lookup_of_lookup_erase hlookup).2
  objects name body hlookup := by
    cases stage with
    | primary => exact h.objects name body (HashMap.lookup_of_lookup_erase hlookup).2
    | normalized | metadata => exact h.objects name body hlookup

theorem Traced.setSpool {keyIdHex : String} {spool : Spool}
    (h : Traced externals registry reports state)
    (hspool : SpoolTraced externals registry reports keyIdHex spool) :
    Traced externals registry reports (state.setSpool keyIdHex spool) where
  spools client := by
    rw [State.spool_setSpool]
    split
    · next hclient =>
      rw [hclient]
      exact hspool
    · exact h.spools client
  workers := h.workers

/-- Only the files and the workers matter. -/
theorem Traced.congr (h : Traced externals registry reports state)
    (hspools : ∀ client, after.spool client = state.spool client)
    (hworkers : after.workers = state.workers) : Traced externals registry reports after where
  spools client := hspools client ▸ h.spools client
  workers worker job phase hworker := h.workers worker job phase (hworkers ▸ hworker)

theorem traced_start (now : UInt64) : Traced externals registry [] (State.start now) where
  spools client := ⟨fun _ _ hlookup ↦ (by cases hlookup), fun _ _ hlookup ↦ (by cases hlookup)⟩
  workers worker job phase hworker := by cases hworker

/-- A step of a worker keeps the invariant, if the reports tell the outcome of a package fetch. -/
theorem Traced.work {worker : ℕ} {event : WorkerEvent} {emitted : Option Output}
    (h : Traced externals registry reports state)
    (hanswered : ∀ job metadata resolved result outcome,
      state.workers.lookup worker = some ⟨job, .fetching metadata⟩ →
      event = .packageFetched resolved result →
      runPackage externals config resolved result = .ok outcome →
      Fetched externals registry reports job.keyIdHex metadata.jobId metadata.source outcome.body)
    (hstep : Relay.step externals config state (.work worker event) = some (after, emitted)) :
    Traced externals registry reports after := by
  cases stepped_of_step hstep with
  | @work _ job phase _ spool later hworker hwork =>
    obtain ⟨hspool, hphase⟩ := traced_of_action (h.spools job.keyIdHex)
      (h.workers worker job phase hworker) hwork
      (by rintro metadata resolved result outcome rfl; exact hanswered _ _ _ _ _ hworker)
    refine ⟨fun client ↦ ?_, fun other found held hheld ↦ ?_⟩
    · rw [State.spool_setWorker]
      exact (h.setSpool hspool).spools client
    · rw [State.lookup_setWorker] at hheld
      split at hheld
      · obtain ⟨_, hlater, heq⟩ := Option.map_eq_some_iff.mp hheld
        obtain ⟨rfl, rfl⟩ : job = found ∧ _ = held := by simpa using heq
        exact hphase _ hlater
      · exact h.workers other found held hheld

/-- Every step of the engine that does not fetch a package keeps the invariant. -/
theorem Traced.step {event : Event} {emitted : Option Output}
    (h : Traced externals registry reports state)
    (hother : ∀ worker resolved result, event ≠ .work worker (.packageFetched resolved result))
    (hstep : Relay.step externals config state event = some (after, emitted)) :
    Traced externals registry (reports ++ (emitted.map .output).toList) after := by
  cases effect_of_step hstep with
  | tick _ =>
    refine .append ?_ _
    exact h.congr (fun _ ↦ rfl) rfl
  | quiet hsame _ => exact (h.congr (spool_of_spools hsame.spools) hsame.workers).append _
  | @accepted keyId submission _ _ _ hworkers hspools =>
    let accepted : Report := .output (.answered keyId (.submit submission)
      (.accepted (queuedMetadata externals config keyId submission state.now).jobId))
    have hlater := h.append [accepted]
    have hasked : Asked (reports ++ [accepted]) (Keys.keyIdHex keyId)
        (queuedMetadata externals config keyId submission state.now) :=
      ⟨keyId, submission, rfl, List.mem_append_right _ (List.mem_singleton_self _), rfl, rfl⟩
    exact (hlater.setSpool ((hlater.spools _).record hasked)).congr hspools hworkers
  | deleted _ _ _ hworkers hspools =>
    exact ((h.setSpool ((h.spools _).remove _ _ _)).congr hspools hworkers).append _
  | removed _ _ hworkers hspools _ =>
    exact ((h.setSpool ((h.spools _).remove _ _ _)).congr hspools hworkers).append _
  | @taken worker job _ _ _ hspools hworkers =>
    refine .append ⟨fun client ↦ ?_, fun other found phase hworker ↦ ?_⟩ _
    · rw [spool_of_spools hspools]
      exact h.spools client
    · rw [hworkers, HashMap.lookup_insert_ite] at hworker
      split at hworker
      · obtain ⟨rfl, rfl⟩ : job = found ∧ Phase.taken = phase := by simpa using hworker
        exact phaseTraced_of_copy (by simp [Phase.copy]) rfl rfl
      · exact h.workers other found phase hworker
  | crashed _ hspools hworkers =>
    refine .append ⟨fun client ↦ ?_, fun other found phase hworker ↦ ?_⟩ _
    · rw [spool_of_spools hspools]
      exact h.spools client
    · rw [hworkers] at hworker
      cases hworker
  | worked _ _ =>
    refine .append (h.work ?_ hstep) _
    rintro job metadata resolved result outcome - rfl
    exact absurd rfl (hother _ _ _)

/-- So does a package fetch, which reports what the network answered. -/
theorem Traced.package {worker : ℕ} {network download : Network} {job : JobRef}
    {metadata : RelayJobMetadata} {emitted : Option Output}
    (h : Traced externals registry reports state)
    (hworker : state.workers.lookup worker = some ⟨job, .fetching metadata⟩)
    (hstep : Relay.step externals config state (.work worker (.packageFetched
      ((resolveSource registry network metadata.source).map ResolvedPackage.digest)
      ((resolveSource registry network metadata.source).bind fun package ↦
        download package.url))) = some (after, emitted)) :
    Traced externals registry
      (reports ++ [.fetched job.keyIdHex metadata network download]) after := by
  refine (h.append _).work ?_ hstep
  intro job' metadata' resolved result outcome hworker' hevent hrun
  obtain ⟨rfl, rfl⟩ : job = job' ∧ metadata = metadata' := by
    simpa using hworker.symm.trans hworker'
  obtain ⟨rfl, rfl⟩ := WorkerEvent.packageFetched.inj hevent
  obtain ⟨digest, response, hresolved, hresult, hstatus, hverify, hbody⟩ := runPackage_eq_ok hrun
  refine ⟨metadata, network, download, List.mem_append_right _ (List.mem_singleton_self _), rfl,
    rfl, ?_⟩
  cases hpackage : resolveSource registry network metadata.source with
  | error error =>
    rw [hpackage] at hresolved
    cases hresolved
  | ok package =>
    rw [hpackage] at hresolved hresult
    obtain rfl := Except.ok.inj hresolved
    exact ⟨package, response, hpackage, hresult, hstatus, hverify, hbody.symm⟩

theorem fetchStep_engine {event : Event} {emitted : Option Output}
    (hother : ∀ worker resolved result, event ≠ .work worker (.packageFetched resolved result))
    (hstep : Relay.step externals config state event = some (after, emitted)) :
    fetchStep externals config registry state (.engine event) =
      some (after, emitted.map .output) := by
  unfold fetchStep
  split
  · next heq =>
    obtain rfl := FetchEvent.engine.inj heq
    exact absurd rfl (hother _ _ _)
  · next heq =>
    obtain rfl := FetchEvent.engine.inj heq
    rw [hstep, Option.map_some]
  · next heq => cases heq

/-- What a step of a run does. -/
theorem fetchStep_cases {event : FetchEvent} {emitted : Option Report}
    (hstep : fetchStep externals config registry state event = some (after, emitted)) :
    (∃ event output, (∀ worker resolved result,
        event ≠ .work worker (.packageFetched resolved result)) ∧
      Relay.step externals config state event = some (after, output) ∧
        emitted = output.map .output) ∨
    ∃ worker network download job metadata output,
      state.workers.lookup worker = some ⟨job, .fetching metadata⟩ ∧
      Relay.step externals config state (.work worker (.packageFetched
        ((resolveSource registry network metadata.source).map ResolvedPackage.digest)
        ((resolveSource registry network metadata.source).bind fun package ↦
          download package.url))) = some (after, output) ∧
        emitted = some (.fetched job.keyIdHex metadata network download) := by
  unfold fetchStep at hstep
  split at hstep
  · cases hstep
  · next event hother =>
    obtain ⟨⟨next, output⟩, hengine, heq⟩ := Option.map_eq_some_iff.mp hstep
    cases heq
    refine .inl ⟨event, output, ?_, hengine, rfl⟩
    rintro worker resolved result rfl
    exact hother _ _ _ rfl
  · next worker network download =>
    split at hstep
    · next job metadata hworker =>
      obtain ⟨⟨next, output⟩, hengine, heq⟩ := Option.map_eq_some_iff.mp hstep
      cases heq
      exact .inr ⟨worker, network, download, job, metadata, output, hworker, hengine, rfl⟩
    · cases hstep

theorem Traced.fetchStep {event : FetchEvent} {emitted : Option Report}
    (h : Traced externals registry reports state)
    (hstep : fetchStep externals config registry state event = some (after, emitted)) :
    Traced externals registry (reports ++ emitted.toList) after := by
  rcases fetchStep_cases hstep with ⟨event, output, hother, hengine, rfl⟩ |
    ⟨worker, network, download, job, metadata, output, hworker, hengine, rfl⟩
  · exact h.step hother hengine
  · exact h.package hworker hengine

/-- What a download returns is a part of the stored object. -/
theorem download_eq_chunk {now : UInt64} {spool : Spool} {jobId : String} {offset : UInt32}
    {maxLen : UInt16} {artifact : UInt8} {terminal : Bool} {total : UInt32} {body : Bytes}
    (hartifact : artifact ≠ 1)
    (h : download now spool jobId offset maxLen artifact = .chunk terminal total body) :
    ∃ whole, spool.primary.lookup jobId = some whole ∧ body <:+: whole := by
  unfold download at h
  split at h
  · cases h
  · split at h
    · cases h
    · split at h
      · cases h
      · split at h
        · cases h
        · cases h
        · cases h
        · simp only [hartifact, false_and, if_false] at h
          split at h
          · cases h
          · next whole hlookup =>
            refine ⟨whole, hlookup, ?_⟩
            rw [chunkOf] at h
            injection h with _ _ hbody
            rw [← hbody]
            exact (List.take_prefix _ _).isInfix.trans (List.drop_suffix _ _).isInfix

/-- Downloads are answered from the files. -/
theorem answered_of_download {event : Event} {keyId : KeyId} {jobId : String} {offset : UInt32}
    {maxLen : UInt16} {artifact : UInt8} {reply : Reply}
    (hstep : Relay.step externals config state event =
      some (after, some (.answered keyId (.download jobId offset maxLen artifact) reply))) :
    reply =
      download state.now (state.spool (Keys.keyIdHex keyId)) jobId offset maxLen artifact := by
  generalize hemitted :
    some (Output.answered keyId (.download jobId offset maxLen artifact) reply) = emitted at hstep
  cases stepped_of_step hstep with
  | download =>
    injection hemitted with houtput
    injection houtput with hkey hrequest hreply
    injection hrequest with hjob hoffset hlen hartifact
    rw [hreply, hkey, hjob, hoffset, hlen, hartifact]
  | submit | list => simp at hemitted
  | delete _ =>
    obtain ⟨_, _, heq⟩ := Option.map_eq_some_iff.mp hemitted.symm
    cases heq
  | deleteNext _ =>
    obtain ⟨_, _, heq⟩ := Option.map_eq_some_iff.mp hemitted.symm
    cases heq
  | tick _ | take _ _ _ | work _ _ | reapStart _ | reapVisit | reapNext _ | reapFinish
  | recoverVisit _ | recoverFinish _ _ | crash => cases hemitted

/-- Every part of a primary object that a client downloads was fetched for a submission of its own
that was accepted under the id.  If that is a package, the bytes are a part of what the network
answered to a fetch of this run for this job and spec, and this answer passed the digest which the
registry stated in the same fetch. -/
theorem downloads_verified {events : List FetchEvent} {now : UInt64} {last : State}
    (hrun : Run (Relay.fetchStep externals config registry) unrestricted (State.start now) events
      reports last) : EachAfter (DownloadsAsked externals registry) reports := by
  refine hrun.history (Traced externals registry) (traced_start now)
    (fun _ _ _ _ _ h _ hstep ↦ h.fetchStep hstep) ?_
  rintro before state event next report htraced - hstep keyId jobId offset maxLen artifact terminal
    total body rfl hartifact
  rcases fetchStep_cases hstep with ⟨event, output, -, hengine, hemitted⟩ |
    ⟨_, _, _, _, _, _, -, -, hemitted⟩
  · obtain ⟨_, rfl, heq⟩ := Option.map_eq_some_iff.mp hemitted.symm
    obtain rfl := Report.output.inj heq
    obtain ⟨stored, hlookup, hpart⟩ :=
      download_eq_chunk hartifact (answered_of_download hengine).symm
    obtain ⟨metadata, whole, hasked, rfl, hvouched, hwhole⟩ :=
      (htraced.spools _).objects jobId stored hlookup
    obtain ⟨keyId', submission, hclient, houtput, hkind, hsource⟩ := hasked
    obtain rfl := Keys.keyIdHex_injective hclient
    refine ⟨submission, houtput, ?_⟩
    rintro spec rfl
    refine ⟨whole, ?_, hpart.trans hwhole.isInfix⟩
    rw [Submission.kind] at hkind
    rw [Submission.source] at hsource
    rw [← hsource]
    exact hvouched hkind
  · cases hemitted

end Provenance

/-! ### A sample run -/

namespace Sample

def packageSpec : String := "npm:left-pad@1.0.0"

def packageJob : JobRef := ⟨client, "58bb119c35513a451d24dc20"⟩

/-- A registry with one package, whose digest is the one that every sample body has. -/
def registry : Registry where
  parseUrl _ := some ⟨.https, some (.domain "registry.npmjs.org"), none⟩
  join _ := none
  parseJson _ := some (.object [("versions", .object [("1.0.0", .object [("dist", .object
    [("tarball", .string "https://registry.npmjs.org/left-pad/-/left-pad-1.0.0.tgz"),
      ("integrity", .string "sha512-zeros")])])])])
  decodeBase64 _ := some (List.replicate 64 0)
  errorText _ := "invalid registry URL"
  hostText _ := "registry.npmjs.org"

def network : Network := fun _ ↦ .ok response

def digest : ExpectedDigest := .sha512 (List.replicate 64 0)

def packageRecord (metadata : RelayJobMetadata) : RelayJobMetadata :=
  { metadata with kind := .package }

def packageQueued : RelayJobMetadata := packageRecord (pending packageJob packageSpec .queued)

def packageRunning : RelayJobMetadata := packageRecord (pending packageJob packageSpec .running)

def packageFinished (status : JobStatus) : RelayJobMetadata :=
  packageRecord (finished packageJob packageSpec status)

def packageEvents : List FetchEvent :=
  [.engine (.submit keyId (.package packageSpec) true none), .engine (.take 0),
    .engine (.work 0 (.read true)), .engine (.work 0 (.writeRunning none)),
    .package 0 network network, .engine (.work 0 (.commit (.ok ()) .written)),
    .engine (.work 0 (.normalize .written)), .engine (.work 0 (.writeComplete none)),
    .engine (.download keyId packageJob.jobId 0 100 0)]

def packageReports : List Report :=
  [.output (.answered keyId (.submit (.package packageSpec)) (.accepted packageJob.jobId)),
    .fetched client packageRunning network network,
    .output (.answered keyId (.download packageJob.jobId 0 100 0) (.chunk true 2 body))]

/-- The engine with the package as the only job. -/
def packageEngine (metadata : RelayJobMetadata) (primary : HashMap String Bytes)
    (queue : List JobRef) (phase : Option Phase) : State :=
  engine (AList.insert packageJob.jobId metadata ∅) primary queue
    ((phase.map fun phase ↦ AList.insert 0 ⟨packageJob, phase⟩ ∅).getD ∅)

def stored : HashMap String Bytes := AList.insert packageJob.jobId body ∅

abbrev sampleFetchStep : Step State FetchEvent Report := fetchStep externals config registry

theorem resolveSource_package : resolveSource registry network packageSpec =
    .ok ⟨"https://registry.npmjs.org/left-pad/-/left-pad-1.0.0.tgz", digest⟩ := by
  decide +kernel

theorem run_package : Run sampleFetchStep unrestricted (State.start 1000) packageEvents
    packageReports (packageEngine (packageFinished .complete) stored [] none) := by
  have hstep₁ : sampleStep (State.start 1000) (.submit keyId (.package packageSpec) true none) =
      some (packageEngine packageQueued ∅ [packageJob] none,
        some (.answered keyId (.submit (.package packageSpec)) (.accepted packageJob.jobId))) := by
    decide +kernel
  have hstep₂ : sampleStep (packageEngine packageQueued ∅ [packageJob] none) (.take 0) =
      some (packageEngine packageQueued ∅ [] (some .taken), none) := by
    decide +kernel
  have hstep₃ : sampleStep (packageEngine packageQueued ∅ [] (some .taken))
      (.work 0 (.read true)) =
        some (packageEngine packageQueued ∅ [] (some (.marking packageQueued)), none) := by
    decide +kernel
  have hstep₄ : sampleStep (packageEngine packageQueued ∅ [] (some (.marking packageQueued)))
      (.work 0 (.writeRunning none)) =
        some (packageEngine packageRunning ∅ [] (some (.fetching packageRunning)), none) := by
    decide +kernel
  have hstep₅ : sampleFetchStep
      (packageEngine packageRunning ∅ [] (some (.fetching packageRunning)))
      (.package 0 network network) =
        some (packageEngine packageRunning ∅ [] (some (.fetched packageRunning outcome)),
          some (.fetched client packageRunning network network)) := by
    have hengine : sampleStep (packageEngine packageRunning ∅ [] (some (.fetching packageRunning)))
        (.work 0 (.packageFetched (.ok digest) (.ok response))) =
          some (packageEngine packageRunning ∅ [] (some (.fetched packageRunning outcome)),
            none) := by
      decide +kernel
    have hworker : (packageEngine packageRunning ∅ []
        (some (.fetching packageRunning))).workers.lookup 0 =
          some ⟨packageJob, .fetching packageRunning⟩ := AList.lookup_insert _
    have hresolved : resolveSource registry network packageRunning.source =
        .ok ⟨"https://registry.npmjs.org/left-pad/-/left-pad-1.0.0.tgz", digest⟩ :=
      resolveSource_package
    simp only [fetchStep, hworker, hresolved]
    exact congrArg (Option.map _) hengine
  have hstep₆ : sampleStep (packageEngine packageRunning ∅ []
      (some (.fetched packageRunning outcome))) (.work 0 (.commit (.ok ()) .written)) =
        some (packageEngine packageRunning stored []
          (some (.stored (packageFinished .running) outcome)), none) := by
    decide +kernel
  have hstep₇ : sampleStep (packageEngine packageRunning stored []
      (some (.stored (packageFinished .running) outcome))) (.work 0 (.normalize .written)) =
        some (packageEngine packageRunning stored []
          (some (.completing (packageFinished .running))), none) := by
    decide +kernel
  have hstep₈ : sampleStep (packageEngine packageRunning stored []
      (some (.completing (packageFinished .running)))) (.work 0 (.writeComplete none)) =
        some (packageEngine (packageFinished .complete) stored [] none, none) := by
    decide +kernel
  have hstep₉ : sampleStep (packageEngine (packageFinished .complete) stored [] none)
      (.download keyId packageJob.jobId 0 100 0) =
        some (packageEngine (packageFinished .complete) stored [] none,
          some (.answered keyId (.download packageJob.jobId 0 100 0) (.chunk true 2 body))) := by
    decide +kernel
  have hnil : Run sampleFetchStep unrestricted (State.start 1000) [] [] (State.start 1000) := .nil
  exact ((((((((hnil.snoc trivial (fetchStep_engine (by simp) hstep₁)).snoc trivial
    (fetchStep_engine (by simp) hstep₂)).snoc trivial (fetchStep_engine (by simp) hstep₃)).snoc
    trivial (fetchStep_engine (by simp) hstep₄)).snoc trivial hstep₅).snoc trivial
    (fetchStep_engine (by simp) hstep₆)).snoc trivial (fetchStep_engine (by simp) hstep₇)).snoc
    trivial (fetchStep_engine (by simp) hstep₈)).snoc trivial (fetchStep_engine (by simp) hstep₉)

theorem downloads_verified_sample :
    Run sampleFetchStep unrestricted (State.start 1000) packageEvents packageReports
        (packageEngine (packageFinished .complete) stored [] none) ∧
      EachAfter (DownloadsAsked externals registry) packageReports :=
  ⟨run_package, downloads_verified run_package⟩

end Sample

end Ghostbro.Relay
