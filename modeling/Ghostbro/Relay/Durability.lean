import Ghostbro.Relay.Files

/-!
# Unfinished records are scheduled

A record is written as queued before its job is sent, and every worker that writes it as running
goes on to write it as complete or failed, unless the record has been removed meanwhile.  So as
long as the file system works, an unfinished record belongs to a job that waits in the channel, is
held by a worker, will be found by the recovery scan, or is about to be sent by the submission that
has just recorded it.  A crash empties channel and workers, ends the submissions and makes the scan
start over all records.

The last write of a worker can only fail to serialize the time, which `i64` holds up to the year
292278994.
-/

namespace Ghostbro.Relay

open Machine

/-- No file operation of the worker fails. -/
def WorkerEvent.NoFileErrors : WorkerEvent → Prop
  | .read readable | .readFailed readable => readable = true
  | .writeRunning fault | .writeComplete fault | .writeFailed fault => fault = none
  | .gitPrepared _ created => created = .ok ()
  | .gitCollected readable removed => readable = true ∧ removed = true
  | .commit usage result => usage = .ok () ∧ result = .written
  | .normalize result => result = .written
  | .webFetched _ | .packageFetched _ _ | .gitCloned _ _ | .gitBundled _ _ => True

/-- No file operation of the step fails. -/
def NoFileErrors (_ : State) : Event → Prop
  | .submit _ _ _ fault => fault = none
  | .deleteNext _ removed | .reapNext removed => removed = true
  | .recoverVisit _ readable => readable = true
  | .work _ event => event.NoFileErrors
  | _ => True

instance (event : WorkerEvent) : Decidable event.NoFileErrors :=
  match event with
  | .read readable | .readFailed readable => inferInstanceAs (Decidable (readable = true))
  | .writeRunning fault | .writeComplete fault | .writeFailed fault =>
    inferInstanceAs (Decidable (fault = none))
  | .gitPrepared _ created => inferInstanceAs (Decidable (created = .ok ()))
  | .gitCollected readable removed =>
    inferInstanceAs (Decidable (readable = true ∧ removed = true))
  | .commit usage result => inferInstanceAs (Decidable (usage = .ok () ∧ result = .written))
  | .normalize result => inferInstanceAs (Decidable (result = .written))
  | .webFetched _ | .packageFetched _ _ | .gitCloned _ _ | .gitBundled _ _ => .isTrue trivial

instance (state : State) (event : Event) : Decidable (NoFileErrors state event) :=
  match event with
  | .submit _ _ _ fault => inferInstanceAs (Decidable (fault = none))
  | .deleteNext _ removed | .reapNext removed => inferInstanceAs (Decidable (removed = true))
  | .recoverVisit _ readable => inferInstanceAs (Decidable (readable = true))
  | .work _ event => inferInstanceAs (Decidable event.NoFileErrors)
  | .tick _ | .list _ | .download _ _ _ _ _ | .delete _ _ _ | .take _ | .reapStart
  | .reapVisit _ _ | .reapFinish | .recoverFinish | .crash => .isTrue trivial

/-- The job waits, is held or will be found. -/
def State.Covered (state : State) (job : JobRef) : Prop :=
  state.Scheduled job ∨ state.ToBeVisited job

/-- What keeps accepted jobs from being lost; `pending` are the jobs that a submission has recorded
and not sent yet. -/
structure Durable (pending : JobRef → Prop) (state : State) : Prop where
  named : Named state
  storable : ∀ client fileName metadata,
    (state.spool client).jobs.lookup fileName = some metadata → metadata.storable
  failing : ∀ worker job metadata, state.workers.lookup worker = some ⟨job, .failWriting metadata⟩ →
    metadata.storable ∧ metadata.status = .failed
  covered : ∀ client fileName metadata,
    (state.spool client).jobs.lookup fileName = some metadata → metadata.Unfinished →
    state.Covered ⟨client, fileName⟩ ∨ pending ⟨client, fileName⟩

section

variable {externals : Externals} {config : RelayConfig} {state after : State}
  {pending pending' : JobRef → Prop}

theorem durable_start (now : UInt64) : Durable pending (State.start now) where
  named := named_start now
  storable _ _ _ h := by cases h
  failing _ _ _ h := by cases h
  covered _ _ _ h := by cases h

theorem Durable.mono (h : Durable pending state) (hpending : ∀ job, pending job → pending' job) :
    Durable pending' state where
  named := h.named
  storable := h.storable
  failing := h.failing
  covered client fileName metadata hlookup hunfinished :=
    (h.covered client fileName metadata hlookup hunfinished).imp_right (hpending _)

/-- The clock plays no part. -/
theorem Durable.congr (h : Durable pending state) (hspools : after.spools = state.spools)
    (hworkers : after.workers = state.workers) (hqueue : after.queue = state.queue)
    (hrecovery : after.recovery = state.recovery) : Durable pending after := by
  have hspool := spool_of_spools hspools
  have hcovered (job : JobRef) (hjob : state.Covered job) : after.Covered job := by
    rcases hjob with (hwaiting | hheld) | ⟨recovery, hscan, hpending⟩
    · exact .inl (.inl (hqueue ▸ hwaiting))
    · exact .inl (.inr ((held_congr hworkers job).mpr hheld))
    · exact .inr ⟨recovery, hrecovery.trans hscan, hpending⟩
  refine ⟨⟨fun client ↦ hspool client ▸ h.named.records client, hworkers ▸ h.named.copies⟩,
    fun client ↦ hspool client ▸ h.storable client, hworkers ▸ h.failing, ?_⟩
  intro client fileName metadata hlookup hunfinished
  rw [hspool] at hlookup
  exact (h.covered client fileName metadata hlookup hunfinished).imp_left (hcovered _)

/-- A submission records its job before it sends it. -/
theorem Durable.record {client : String} {metadata : RelayJobMetadata} (h : Durable pending state)
    (hstorable : metadata.storable) (hpending : ∀ job, pending job → pending' job)
    (hnew : pending' ⟨client, metadata.jobId⟩) :
    Durable pending' (state.setSpool client ((state.spool client).record metadata)) := by
  have hrecords (other fileName : String) (found : RelayJobMetadata)
      (hlookup : ((state.setSpool client ((state.spool client).record metadata)).spool
        other).jobs.lookup fileName = some found) :
      other = client ∧ fileName = metadata.jobId ∧ found = metadata ∨
        (state.spool other).jobs.lookup fileName = some found := by
    rw [State.spool_setSpool] at hlookup
    split at hlookup
    · rename_i hclient
      rw [Spool.record, HashMap.lookup_insert_ite] at hlookup
      split at hlookup
      · rename_i hfile
        exact .inl ⟨hclient, hfile, (Option.some.inj hlookup).symm⟩
      · exact .inr (hclient ▸ hlookup)
    · exact .inr hlookup
  refine ⟨⟨?_, h.named.copies⟩, ?_, h.failing, ?_⟩
  · intro other fileName found hlookup
    rcases hrecords other fileName found hlookup with ⟨-, rfl, rfl⟩ | hbefore
    · rfl
    · exact h.named.records other fileName found hbefore
  · intro other fileName found hlookup
    rcases hrecords other fileName found hlookup with ⟨-, -, rfl⟩ | hbefore
    · exact hstorable
    · exact h.storable other fileName found hbefore
  · intro other fileName found hlookup hunfinished
    rcases hrecords other fileName found hlookup with ⟨rfl, rfl, -⟩ | hbefore
    · exact .inr hnew
    · exact (h.covered other fileName found hbefore hunfinished).imp_right (hpending _)

/-- A submission sends the job it has recorded. -/
theorem Durable.send {job : JobRef} (h : Durable pending state)
    (hpending : ∀ other, pending other → other = job ∨ pending' other) :
    Durable pending' { state with queue := state.queue ++ [job] } := by
  refine ⟨⟨h.named.records, h.named.copies⟩, h.storable, h.failing, ?_⟩
  intro client fileName metadata hlookup hunfinished
  rcases h.covered client fileName metadata hlookup hunfinished with
    ((hwaiting | hheld) | hvisit) | hwaits
  · exact .inl (.inl (.inl (List.mem_append_left _ hwaiting)))
  · exact .inl (.inl (.inr hheld))
  · exact .inl (.inr hvisit)
  · rcases hpending _ hwaits with rfl | hkept
    · exact .inl (.inl (.inl (List.mem_append_right _ (List.mem_singleton_self _))))
    · exact .inr hkept

/-! ### The last step of a worker -/

theorem storable_touch {metadata : RelayJobMetadata} {now : UInt64}
    (h : metadata.storable) (hnow : now ≤ i64Max) :
    RelayJobMetadata.storable { metadata with updatedAtMs := now } := by
  simp only [RelayJobMetadata.storable, decide_eq_true_eq] at h ⊢
  exact ⟨h.1, h.2.1, h.2.2.1, hnow, h.2.2.2.2⟩

/-- A worker leaves no unfinished record behind. -/
theorem finished_of_action {now : UInt64} {spool next : Spool} {jobId : String} {phase : Phase}
    {event : WorkerEvent} {metadata : RelayJobMetadata}
    (haction : Action externals config now spool jobId phase event next none)
    (herrors : event.NoFileErrors) (hclock : now ≤ i64Max)
    (hcopy : ∀ copied, phase.copy = some copied → copied.jobId = jobId)
    (hfailing : ∀ copied, phase = .failWriting copied →
      copied.storable ∧ copied.status = .failed)
    (hlookup : next.jobs.lookup jobId = some metadata) : ¬metadata.Unfinished := by
  have hfinal (written : RelayJobMetadata) (hname : written.jobId = jobId)
      (hstatus : written.status = .complete ∨ written.status = .failed)
      (hwritten : (spool.record written).jobs.lookup jobId = some metadata) :
      ¬metadata.Unfinished := by
    rw [Spool.record, hname, AList.lookup_insert] at hwritten
    cases hwritten
    rcases hstatus with h | h <;> simp [RelayJobMetadata.Unfinished, h]
  cases haction with
  | leave hrecord =>
    have hstatus := hrecord herrors metadata hlookup
    simp [RelayJobMetadata.Unfinished, hstatus]
  | @complete copied _ =>
    exact hfinal (completeCopy now copied) (hcopy copied rfl) (.inl rfl) hlookup
  | vanished hrecord =>
    rw [hrecord herrors] at hlookup
    cases hlookup
  | @fail copied _ =>
    exact hfinal { copied with updatedAtMs := now } (hcopy copied rfl)
      (.inr (hfailing copied rfl).2) hlookup
  | @unfailed copied fault hfault =>
    exact absurd (storable_touch (hfailing copied rfl).1 hclock) (hfault herrors)

/-! ### One step -/

theorem mem_jobFiles {client fileName : String} {metadata : RelayJobMetadata}
    (h : (state.spool client).jobs.lookup fileName = some metadata) :
    ⟨client, fileName⟩ ∈ state.jobFiles := by
  cases hspool : state.spools.lookup client with
  | none =>
    rw [State.spool, hspool] at h
    cases h
  | some spool =>
    rw [State.spool, hspool] at h
    rw [State.jobFiles, List.mem_flatMap]
    refine ⟨⟨client, spool⟩, HashMap.mem_entries_iff.mpr hspool, ?_⟩
    rw [List.mem_map]
    have hmem : fileName ∈ spool.jobs :=
      AList.lookup_isSome.mp (by rw [← Option.isSome_some, ← h]; rfl)
    exact ⟨fileName, AList.mem_keys.mpr hmem, rfl⟩

/-- A record on disk after a step was there before, or has just been queued, or belongs to the job
of the worker that moved. -/
theorem record_before {event : Event} {emitted : Option Output} {client fileName : String}
    {metadata : RelayJobMetadata} (hnamed : Named state)
    (hstep : step externals config state event = some (after, emitted))
    (hlookup : (after.spool client).jobs.lookup fileName = some metadata) :
    (state.spool client).jobs.lookup fileName = some metadata ∨
      metadata.storable ∧ (⟨client, fileName⟩ ∈ after.queue ∨
        ∃ worker phase workerEvent, event = .work worker workerEvent ∧
          state.workers.lookup worker = some ⟨⟨client, fileName⟩, phase⟩) := by
  cases files_of_step hstep with
  | same hspools =>
    rw [spool_of_spools hspools] at hlookup
    exact .inl hlookup
  | @submitted keyId submission valid fault next hstorable hqueue hspools =>
    rw [hspools, State.spool_setSpool] at hlookup
    split at hlookup
    · rename_i hclient
      subst hclient
      rw [Spool.record, HashMap.lookup_insert_ite] at hlookup
      split at hlookup
      · rename_i hfile
        cases hlookup
        exact .inr ⟨hstorable, .inl (by simp [hqueue, hfile])⟩
      · exact .inl hlookup
    · exact .inl hlookup
  | @removed event next owner file jobId stage _ hspools =>
    rw [hspools, State.spool_setSpool] at hlookup
    split at hlookup
    · rename_i hclient
      subst hclient
      cases stage with
      | primary => exact .inl hlookup
      | normalized => exact .inl hlookup
      | metadata => exact .inl (HashMap.lookup_of_lookup_erase hlookup).2
    · exact .inl hlookup
  | @worked worker job phase workerEvent spool afterPhase hworker haction =>
    rw [State.spool_setWorker, State.spool_setSpool] at hlookup
    split at hlookup
    · rename_i hclient
      rcases records_of_action haction (hnamed.copies worker job phase · hworker) with
        hjobs | ⟨written, hstorable, _, hjobs⟩
      · rw [hjobs, ← hclient] at hlookup
        exact .inl hlookup
      · rw [hjobs, HashMap.lookup_insert_ite] at hlookup
        split at hlookup
        · rename_i hfile
          cases hlookup
          refine .inr ⟨hstorable, .inr ⟨worker, phase, workerEvent, rfl, ?_⟩⟩
          rw [hworker, hclient, hfile]
        · rw [← hclient] at hlookup
          exact .inl hlookup
    · exact .inl hlookup

theorem Durable.failing_step {event : Event} (h : Durable pending state)
    (hdispatch : Dispatch externals config state event after) {worker : ℕ} {job : JobRef}
    {metadata : RelayJobMetadata}
    (hworker : after.workers.lookup worker = some ⟨job, .failWriting metadata⟩) :
    metadata.storable ∧ metadata.status = .failed := by
  cases hdispatch with
  | same _ hworkers _ => exact h.failing worker job metadata (hworkers ▸ hworker)
  | submitted _ hworkers _ => exact h.failing worker job metadata (hworkers ▸ hworker)
  | passed _ _ _ hworkers _ => exact h.failing worker job metadata (hworkers ▸ hworker)
  | recovered _ _ _ _ hworkers _ => exact h.failing worker job metadata (hworkers ▸ hworker)
  | scanned _ _ hworkers => exact h.failing worker job metadata (hworkers ▸ hworker)
  | taken _ _ hworkers _ =>
    rw [hworkers, HashMap.lookup_insert_ite] at hworker
    split at hworker
    · cases hworker
    · exact h.failing worker job metadata hworker
  | @worked moved held phase workerEvent spool afterPhase hmoved hstep =>
    rw [State.lookup_setWorker] at hworker
    split at hworker
    · obtain ⟨afterPhase, rfl, hmk⟩ := Option.map_eq_some_iff.mp hworker
      cases hmk
      cases action_of_workerStep hstep with
      | fetch hphase _ _ _ hafter _ _ =>
        rcases hafter with hafter | ⟨_, hafter⟩ | ⟨_, hafter⟩
        · cases hafter
        · cases hafter
        · cases hafter
      | @reload error readable loaded hlookup =>
        have hstorable : loaded.storable := h.storable _ _ _ hlookup
        exact ⟨hstorable, rfl⟩
    · exact h.failing worker job metadata hworker
  | crashed _ hworkers _ =>
    rw [hworkers] at hworker
    cases hworker

/-- A worker that keeps its job still holds it. -/
theorem held_of_setWorker {keyIdHex : String} {spool : Spool} {worker : ℕ} {job : JobRef}
    {phase : Phase} :
    ((state.setSpool keyIdHex spool).setWorker worker job (some phase)).Held job := by
  refine ⟨worker, phase, ?_⟩
  rw [State.lookup_setWorker, if_pos rfl]
  rfl

/-- Coverage ends only when a worker leaves its job, the scan visits it, or the process dies. -/
theorem covered_step {event : Event} {job : JobRef} (h : state.Covered job)
    (hdispatch : Dispatch externals config state event after) :
    after.Covered job ∨ after.recovery = some ⟨state.jobFiles, []⟩ ∨
      (∃ readable, event = .recoverVisit job readable ∧ (readable = true → ∀ metadata,
        (state.spool job.keyIdHex).jobs.lookup job.jobId = some metadata → metadata.Unfinished →
        ⟨job.keyIdHex, metadata.jobId⟩ ∈ after.queue)) ∨
      ∃ worker phase workerEvent, event = .work worker workerEvent ∧
        state.workers.lookup worker = some ⟨job, phase⟩ := by
  have hkept (hqueue : ∀ waiting ∈ state.queue, waiting ∈ after.queue)
      (hworkers : after.workers = state.workers)
      (hrecovery : state.ToBeVisited job → after.ToBeVisited job) : after.Covered job := by
    rcases h with (hwaiting | hheld) | hpending
    · exact .inl (.inl (hqueue job hwaiting))
    · exact .inl (.inr ((held_congr hworkers job).mpr hheld))
    · exact .inr (hrecovery hpending)
  have hvisited {visited : JobRef} {recovery : Recovery} (hne : visited ≠ job)
      (hscan : state.recovery = some recovery)
      (hrecovery : after.recovery =
        some ⟨recovery.pending.erase visited, visited :: recovery.visited⟩) :
      state.ToBeVisited job → after.ToBeVisited job := by
    rintro ⟨other, hother, hpending⟩
    obtain rfl : recovery = other := Option.some.inj (hscan.symm.trans hother)
    exact ⟨_, hrecovery, (List.mem_erase_of_ne hne.symm).mpr hpending⟩
  cases hdispatch with
  | same hqueue hworkers hrecovery =>
    refine .inl (hkept (fun waiting hwaiting ↦ hqueue ▸ hwaiting) hworkers ?_)
    rintro ⟨recovery, hscan, hpending⟩
    exact ⟨recovery, hrecovery.trans hscan, hpending⟩
  | submitted hqueue hworkers hrecovery =>
    refine .inl (hkept (fun waiting hwaiting ↦ by simp [hqueue, hwaiting]) hworkers ?_)
    rintro ⟨recovery, hscan, hpending⟩
    exact ⟨recovery, hrecovery.trans hscan, hpending⟩
  | @passed visited readable recovery next hscan hfinished hqueue hworkers hrecovery =>
    by_cases hjob : visited = job
    · subst hjob
      refine .inr (.inr (.inl ⟨readable, rfl, ?_⟩))
      intro hreadable metadata hlookup hunfinished
      exact absurd hunfinished (hfinished hreadable metadata hlookup)
    · exact .inl (hkept (fun waiting hwaiting ↦ hqueue ▸ hwaiting) hworkers
        (hvisited hjob hscan hrecovery))
  | @recovered visited readable recovery next metadata hscan hfound _ hqueue hworkers
      hrecovery =>
    by_cases hjob : visited = job
    · subst hjob
      refine .inr (.inr (.inl ⟨readable, rfl, ?_⟩))
      intro _ other hother _
      obtain rfl : metadata = other := Option.some.inj (hfound.symm.trans hother)
      simp [hqueue]
    · exact .inl (hkept (fun waiting hwaiting ↦ by simp [hqueue, hwaiting]) hworkers
        (hvisited hjob hscan hrecovery))
  | scanned hdone hqueue hworkers =>
    exact .inl (hkept (fun waiting hwaiting ↦ hqueue ▸ hwaiting) hworkers
      fun hpending ↦ absurd hpending (hdone job))
  | @taken worker taken next hidle hqueue hworkers hrecovery =>
    rcases h with (hwaiting | ⟨other, phase, hother⟩) | ⟨recovery, hscan, hpending⟩
    · rw [hqueue, List.mem_cons] at hwaiting
      rcases hwaiting with rfl | hwaiting
      · exact .inl (.inl (.inr ⟨worker, .taken, by rw [hworkers, AList.lookup_insert]⟩))
      · exact .inl (.inl (.inl hwaiting))
    · have hne : other ≠ worker := by
        rintro rfl
        exact hidle (HashMap.mem_of_lookup hother)
      exact .inl (.inl (.inr ⟨other, phase, by rw [hworkers, AList.lookup_insert_ne hne, hother]⟩))
    · exact .inl (.inr ⟨recovery, hrecovery.trans hscan, hpending⟩)
  | @worked worker held phase workerEvent spool afterPhase hworker _ =>
    by_cases hjob : held = job
    · exact .inr (.inr (.inr ⟨worker, phase, workerEvent, rfl, by rw [hworker, hjob]⟩))
    · rcases h with (hwaiting | ⟨other, heldPhase, hother⟩) | hpending
      · exact .inl (.inl (.inl (by cases afterPhase <;> exact hwaiting)))
      · have hne : other ≠ worker := by
          rintro rfl
          rw [hworker] at hother
          cases hother
          exact hjob rfl
        refine .inl (.inl (.inr ⟨other, heldPhase, ?_⟩))
        rw [State.lookup_setWorker, if_neg hne]
        exact hother
      · exact .inl (.inr (by cases afterPhase <;> exact hpending))
  | crashed _ _ hrecovery => exact .inr (.inl hrecovery)

theorem Durable.covered_step {event : Event} {emitted : Option Output} {client fileName : String}
    {metadata : RelayJobMetadata} (h : Durable pending state) (herrors : NoFileErrors state event)
    (hclock : state.now ≤ i64Max)
    (hpending : ∀ job, pending job → pending' job ∨ after.recovery = some ⟨state.jobFiles, []⟩)
    (hstep : step externals config state event = some (after, emitted))
    (hlookup : (after.spool client).jobs.lookup fileName = some metadata)
    (hunfinished : metadata.Unfinished) :
    after.Covered ⟨client, fileName⟩ ∨ pending' ⟨client, fileName⟩ := by
  have hdispatch := dispatch_of_step hstep
  have hworker (worker : ℕ) (phase : Phase) (workerEvent : WorkerEvent)
      (hevent : event = .work worker workerEvent)
      (hheld : state.workers.lookup worker = some ⟨⟨client, fileName⟩, phase⟩) :
      after.Covered ⟨client, fileName⟩ := by
    subst hevent
    cases hdispatch with
    | same _ hworkers _ => exact .inl (.inr ⟨worker, phase, by rw [hworkers, hheld]⟩)
    | @worked _ job phase' _ spool afterPhase hfound hwork =>
      cases hheld.symm.trans hfound
      cases afterPhase with
      | some next => exact .inl (.inr held_of_setWorker)
      | none =>
        -- the worker leaves the job, so its record cannot be unfinished
        rw [State.spool_setWorker, State.spool_setSpool, if_pos rfl] at hlookup
        exact absurd hunfinished (finished_of_action (action_of_workerStep hwork) herrors hclock
          (h.named.copies worker _ phase · hheld)
          (fun copied hphase ↦ h.failing worker _ copied (hphase ▸ hheld)) hlookup)
  rcases record_before h.named hstep hlookup with hbefore | ⟨-, hqueued | hworked⟩
  · have hrestart (hrestarted : after.recovery = some ⟨state.jobFiles, []⟩) :
        after.Covered ⟨client, fileName⟩ := .inr ⟨_, hrestarted, mem_jobFiles hbefore⟩
    rcases h.covered client fileName metadata hbefore hunfinished with hcovered | hwaits
    · rcases Relay.covered_step hcovered hdispatch with hcovered | hrestarted |
        ⟨readable, rfl, hsent⟩ | ⟨worker, phase, workerEvent, hevent, hheld⟩
      · exact .inl hcovered
      · exact .inl (hrestart hrestarted)
      · have hjob := hsent herrors metadata hbefore hunfinished
        rw [h.named.records client fileName metadata hbefore] at hjob
        exact .inl (.inl (.inl hjob))
      · exact .inl (hworker worker phase workerEvent hevent hheld)
    · exact (hpending _ hwaits).symm.imp_left hrestart
  · exact .inl (.inl (.inl hqueued))
  · obtain ⟨worker, phase, workerEvent, hevent, hheld⟩ := hworked
    exact .inl (hworker worker phase workerEvent hevent hheld)

/-- A job that a submission has recorded stays pending, unless the process dies. -/
theorem Durable.step {event : Event} {emitted : Option Output} (h : Durable pending state)
    (herrors : NoFileErrors state event) (hclock : state.now ≤ i64Max)
    (hpending : ∀ job, pending job → pending' job ∨ after.recovery = some ⟨state.jobFiles, []⟩)
    (hstep : step externals config state event = some (after, emitted)) :
    Durable pending' after where
  named := h.named.effect (effect_of_step hstep)
  storable client fileName metadata hlookup := by
    rcases record_before h.named hstep hlookup with hbefore | ⟨hstorable, -⟩
    · exact h.storable client fileName metadata hbefore
    · exact hstorable
  failing _ _ _ hworker := h.failing_step (dispatch_of_step hstep) hworker
  covered _ _ _ hlookup hunfinished :=
    h.covered_step herrors hclock hpending hstep hlookup hunfinished

end

end Ghostbro.Relay
