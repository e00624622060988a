import Ghostbro.Relay.Moves

/-!
# Deleted jobs

A deletion removes the record of a job, and a worker that has read the record before keeps a copy
of it across the fetch and writes it back.  Nothing tells the worker of the deletion, so a record
written from such a copy brings the job back.  When no worker holds a copy at the moment the record
is removed, the job stays away: a worker that has not read the record yet finds none, and so does
one that is about to report a failure.
-/

namespace Ghostbro.Relay

open Machine

/-- Some worker holds a copy of the record of the job. -/
def HoldsCopy (state : State) (job : JobRef) : Prop :=
  ∃ worker phase, state.workers.lookup worker = some ⟨job, phase⟩ ∧ phase.copy.isSome

/-- A deletion removes a record only while no worker holds a copy of it. -/
def DeletesUncopied (state : State) : Event → Prop
  | .deleteNext handler true => ∀ keyId jobId,
      state.deletions.lookup handler = some ⟨keyId, jobId, .metadata⟩ →
      jobId ∈ (state.spool (Keys.keyIdHex keyId)).jobs →
      ¬HoldsCopy state ⟨Keys.keyIdHex keyId, jobId⟩
  | _ => True

/-- A `DELETE` of the job was answered with OK. -/
def DeleteOk (keyId : KeyId) (jobId : String) (output : Output) : Prop :=
  ∃ reply, output = .answered keyId (.delete jobId) reply ∧ reply.status = .ok

/-- A submission was answered with the id of the job. -/
def SubmitOk (keyId : KeyId) (jobId : String) (output : Output) : Prop :=
  ∃ submission, output = .answered keyId (.submit submission) (.accepted jobId)

/-- The client sees the job: in a list, or by a download that is answered with OK. -/
def Shows (keyId : KeyId) (jobId : String) (output : Output) : Prop :=
  (∃ rows, output = .answered keyId .list (.rows rows) ∧ ∃ row ∈ rows, row.jobId = jobId) ∨
    ∃ offset maxLen artifact reply,
      output = .answered keyId (.download jobId offset maxLen artifact) reply ∧ reply.status = .ok

/-- No job is seen after its deletion, unless it was submitted again. -/
def StaysDeleted (outputs : List Output) : Prop :=
  EachAfter (fun before output ↦ ∀ keyId jobId,
    Since (DeleteOk keyId jobId) (SubmitOk keyId jobId) before → ¬Shows keyId jobId output) outputs

/-- Neither a record of the job nor a copy of it is left. -/
structure Gone (state : State) (job : JobRef) : Prop where
  record : (state.spool job.keyIdHex).jobs.lookup job.jobId = none
  copy : ¬HoldsCopy state job

variable {externals : Externals} {config : RelayConfig} {state next : State} {event : Event}
  {emitted : Option Output}

/-- A job comes back only by a submission. -/
theorem Gone.effect {keyId : KeyId} {jobId : String} (hnamed : Named state)
    (hgone : Gone state ⟨Keys.keyIdHex keyId, jobId⟩)
    (heffect : Effect externals config state event next emitted)
    (hquiet : ∀ output ∈ emitted, ¬SubmitOk keyId jobId output) :
    Gone next ⟨Keys.keyIdHex keyId, jobId⟩ where
  record := by
    have hchange := heffect.records (Keys.keyIdHex keyId)
    have hrecord := hgone.record
    generalize (next.spool (Keys.keyIdHex keyId)).jobs = jobs at hchange ⊢
    cases hchange with
    | same => exact hrecord
    | erased other _ =>
      rw [HashMap.lookup_erase_ite]
      split
      · rfl
      · exact hrecord
    | queued keyId' submission fault hclient _ hemitted =>
      obtain rfl : keyId' = keyId := Keys.keyIdHex_injective hclient
      have hname : jobId ≠ (queuedMetadata externals config keyId' submission state.now).jobId := by
        rintro rfl
        exact hquiet _ hemitted ⟨submission, rfl⟩
      rw [HashMap.lookup_insert_ite, if_neg hname]
      exact hrecord
    | written worker job phase metadata revised hworker hclient hcopy hrevises =>
      have hname : jobId ≠ revised.jobId := by
        intro heq
        have hjob : job = ⟨Keys.keyIdHex keyId, jobId⟩ := by
          rw [heq, hrevises.jobId, hnamed.copies worker job phase metadata hworker hcopy, ← hclient]
        exact hgone.copy ⟨worker, phase, hjob ▸ hworker, by simp [hcopy]⟩
      rw [HashMap.lookup_insert_ite, if_neg hname]
      exact hrecord
  copy := by
    rintro ⟨worker, phase, hworker, hcopy⟩
    obtain ⟨revised, hrevised⟩ := Option.isSome_iff_exists.mp hcopy
    rcases heffect.copies hworker hrevised with ⟨before, metadata, hbefore, hheld, _⟩ |
      ⟨metadata, hlookup, _⟩
    · exact hgone.copy ⟨worker, before, hbefore, by simp [hheld]⟩
    · rw [hgone.record] at hlookup
      cases hlookup

/-- The removal that a deletion answers with OK. -/
theorem gone_of_deleteOk {keyId : KeyId} {jobId : String} {output : Output}
    (heffect : Effect externals config state event next (some output))
    (hguard : DeletesUncopied state event) (hdelete : DeleteOk keyId jobId output) :
    Gone next ⟨Keys.keyIdHex keyId, jobId⟩ := by
  obtain ⟨reply, rfl, hok⟩ := hdelete
  cases heffect with
  | quiet _ htruthful => exact absurd hok (htruthful _ rfl)
  | removed _ _ _ _ htruthful => exact absurd hok (htruthful _ rfl)
  | deleted hdeletion hmem hnow hworkers hspools =>
    refine ⟨?_, ?_⟩
    · rw [hspools, State.spool_setSpool, if_pos rfl]
      exact AList.lookup_erase _ _
    · rintro ⟨worker, phase, hworker, hcopy⟩
      exact hguard keyId jobId hdeletion hmem ⟨worker, phase, hworkers ▸ hworker, hcopy⟩

/-- A job that is gone is not shown. -/
theorem Gone.not_shows {keyId : KeyId} {jobId : String} {output : Output} (hnamed : Named state)
    (hgone : Gone state ⟨Keys.keyIdHex keyId, jobId⟩)
    (heffect : Effect externals config state event next (some output)) :
    ¬Shows keyId jobId output := by
  have htruthful (hshows : Shows keyId jobId output) : ¬Truthful state output := by
    rcases hshows with ⟨rows, rfl, row, hrow, rfl⟩ |
      ⟨offset, maxLen, artifact, reply, rfl, hok⟩
    · intro htruthful
      obtain rfl : rows = _ := by simpa [Truthful] using htruthful
      obtain ⟨fileName, metadata, hlookup, rfl⟩ := mem_list hrow
      have hrecord : (state.spool (Keys.keyIdHex keyId)).jobs.lookup metadata.jobId = none :=
        hgone.record
      rw [hnamed.records _ _ _ hlookup, hlookup] at hrecord
      cases hrecord
    · intro htruthful
      obtain rfl : reply = _ := htruthful
      exact download_status_ne_ok hgone.record hok
  intro hshows
  cases heffect with
  | quiet _ htrue => exact htruthful hshows (htrue _ rfl)
  | removed _ _ _ _ htrue => exact htruthful hshows (htrue _ rfl)
  | accepted _ _ _ => rcases hshows with ⟨_, h, _⟩ | ⟨_, _, _, _, h, _⟩ <;> cases h
  | deleted _ _ _ _ _ => rcases hshows with ⟨_, h, _⟩ | ⟨_, _, _, _, h, _⟩ <;> cases h

/-- In a run in which every deletion removes its record while no worker holds a copy of it, a
deleted job is not seen again. -/
theorem deleted_job_stays_deleted {now : UInt64} {events : List Event} {outputs : List Output}
    {last : State}
    (hrun : Run (step externals config) DeletesUncopied (State.start now) events outputs last) :
    StaysDeleted outputs := by
  let inv (outputs : List Output) (state : State) : Prop :=
    Named state ∧ ∀ keyId jobId, Since (DeleteOk keyId jobId) (SubmitOk keyId jobId) outputs →
      Gone state ⟨Keys.keyIdHex keyId, jobId⟩
  refine hrun.history inv ⟨named_start now, ?_⟩ ?_ ?_
  · rintro keyId jobId ⟨before, output, after, heq, _⟩
    simp at heq
  · rintro outputs state event next emitted ⟨hnamed, hgone⟩ hguard hstep
    have heffect := effect_of_step hstep
    refine ⟨hnamed.effect heffect, fun keyId jobId hsince ↦ ?_⟩
    rcases since_append_toList hsince with ⟨output, houtput, hdelete⟩ | ⟨hbefore, hquiet⟩
    · obtain rfl : emitted = some output := houtput
      exact gone_of_deleteOk heffect hguard hdelete
    · exact (hgone keyId jobId hbefore).effect hnamed heffect hquiet
  · rintro outputs state event next output ⟨hnamed, hgone⟩ _ hstep keyId jobId hsince
    exact (hgone keyId jobId hsince).not_shows hnamed (effect_of_step hstep)

/-! ### Deletion before and after the copy -/

section SampleRuns

open Sample

/-- A deletion of the first job at the given stage. -/
def deleting (state : State) (stage : Stage) : State :=
  { state with deletions := AList.insert 0 ⟨keyId, jobA.jobId, stage⟩ ∅ }

/-- The first job with its object, and its worker. -/
def storedA (status : JobStatus) (workers : HashMap ℕ Worker) : State :=
  engine (AList.insert jobA.jobId (finished jobA sourceA status) ∅)
    (AList.insert jobA.jobId body ∅) [] workers

def deletedA : Output := .answered keyId (.delete jobA.jobId) (.message .ok "deleted")

/-- What the worker does for the first job until the record is complete. -/
def processingEvents : List Event :=
  [.take 0, .work 0 (.read true), .work 0 (.writeRunning none),
    .work 0 (.webFetched (.ok response)), .work 0 (.commit (.ok ()) .written),
    .work 0 (.normalize .written)]

def completedEvents : List Event :=
  submitA :: processingEvents ++ [.work 0 (.writeComplete none)]

/-- The first job while its object is stored and its record is not. -/
def storing (phase : Phase) : State :=
  engine (AList.insert jobA.jobId (pending jobA sourceA .running) ∅)
    (AList.insert jobA.jobId body ∅) [] (workerA phase)

/-- The first job is submitted and completed. -/
theorem run_completed {guard : State → Event → Prop}
    (hsubmit : guard (State.start 1000) submitA)
    (hwork : ∀ state, ∀ event ∈ processingEvents, guard state event)
    (hlast : guard (storing (.completing (finished jobA sourceA .running)))
      (.work 0 (.writeComplete none))) :
    Run sampleStep guard (State.start 1000) completedEvents [acceptedA]
      (storedA .complete ∅) := by
  have hrunning := run_running guard hsubmit (hwork _ _ (by simp [processingEvents]))
    (hwork _ _ (by simp [processingEvents])) (hwork _ _ (by simp [processingEvents]))
  have hfetched : sampleStep running (.work 0 (.webFetched (.ok response))) =
      some (alone .running [] (workerA (.fetched (pending jobA sourceA .running) outcome)),
        none) := by decide +kernel
  have hstored : sampleStep
      (alone .running [] (workerA (.fetched (pending jobA sourceA .running) outcome)))
      (.work 0 (.commit (.ok ()) .written)) =
      some (storing (.stored (finished jobA sourceA .running) outcome), none) := by decide +kernel
  have hnormalized : sampleStep (storing (.stored (finished jobA sourceA .running) outcome))
      (.work 0 (.normalize .written)) =
      some (storing (.completing (finished jobA sourceA .running)), none) := by decide +kernel
  have hcomplete : sampleStep (storing (.completing (finished jobA sourceA .running)))
      (.work 0 (.writeComplete none)) = some (storedA .complete ∅, none) := by decide +kernel
  exact (((hrunning.snoc (hwork _ _ (by simp [processingEvents])) hfetched).snoc
    (hwork _ _ (by simp [processingEvents])) hstored).snoc
    (hwork _ _ (by simp [processingEvents])) hnormalized).snoc hlast hcomplete

theorem deletesUncopied_of_idle {state : State} (h : state.workers = ∅) (event : Event) :
    DeletesUncopied state event := by
  unfold DeletesUncopied
  split
  · rintro keyId jobId _ _ ⟨worker, phase, hworker, _⟩
    rw [h] at hworker
    cases hworker
  · trivial

/-- The first job is finished, deleted and not listed. -/
theorem deleted_after_completion :
    ∃ events outputs last,
      Run sampleStep DeletesUncopied (State.start 1000) events outputs last ∧
      outputs = [acceptedA, deletedA, .answered keyId .list (.rows [])] ∧
      StaysDeleted outputs := by
  have hcompleted : Run sampleStep DeletesUncopied (State.start 1000) completedEvents [acceptedA]
      (storedA .complete ∅) := by
    refine run_completed trivial (fun state event hevent ↦ ?_) trivial
    simp only [processingEvents, List.mem_cons, List.not_mem_nil, or_false] at hevent
    rcases hevent with rfl | rfl | rfl | rfl | rfl | rfl <;> trivial
  have hdelete : sampleStep (storedA .complete ∅) (.delete 0 keyId jobA.jobId) =
      some (deleting (storedA .complete ∅) .primary, none) := by decide +kernel
  have hprimary : sampleStep (deleting (storedA .complete ∅) .primary) (.deleteNext 0 true) =
      some (deleting (engine (AList.insert jobA.jobId (finished jobA sourceA .complete) ∅) ∅ [] ∅)
        .normalized, none) := by decide +kernel
  have hobject : sampleStep
      (deleting (engine (AList.insert jobA.jobId (finished jobA sourceA .complete) ∅) ∅ [] ∅)
        .normalized) (.deleteNext 0 true) =
      some (deleting (engine (AList.insert jobA.jobId (finished jobA sourceA .complete) ∅) ∅ [] ∅)
        .metadata, none) := by decide +kernel
  have hdeleted : sampleStep
      (deleting (engine (AList.insert jobA.jobId (finished jobA sourceA .complete) ∅) ∅ [] ∅)
        .metadata) (.deleteNext 0 true) = some (engine ∅ ∅ [] ∅, some deletedA) := by
    decide +kernel
  have hlist : sampleStep (engine ∅ ∅ [] ∅) (.list keyId) =
      some (engine ∅ ∅ [] ∅, some (.answered keyId .list (.rows []))) := by decide +kernel
  have hrun := ((((hcompleted.snoc (by trivial) hdelete).snoc
    (deletesUncopied_of_idle rfl _) hprimary).snoc (deletesUncopied_of_idle rfl _) hobject).snoc
    (deletesUncopied_of_idle rfl _) hdeleted).snoc (by trivial) hlist
  exact ⟨_, _, _, hrun, rfl, deleted_job_stays_deleted hrun⟩

/-- The first job is deleted while its worker waits for the response; it is listed again once the
worker is done. -/
theorem deletion_undone_by_worker :
    ∃ events outputs last, Run sampleStep unrestricted (State.start 1000) events outputs last ∧
      ¬StaysDeleted outputs := by
  have hrunning := run_running unrestricted trivial trivial trivial trivial
  have hdelete : sampleStep running (.delete 0 keyId jobA.jobId) =
      some (deleting running .primary, none) := by decide +kernel
  have hprimary : sampleStep (deleting running .primary) (.deleteNext 0 true) =
      some (deleting running .normalized, none) := by decide +kernel
  have hobject : sampleStep (deleting running .normalized) (.deleteNext 0 true) =
      some (deleting running .metadata, none) := by decide +kernel
  have hdeleted : sampleStep (deleting running .metadata) (.deleteNext 0 true) =
      some (engine ∅ ∅ [] (workerA (.fetching (pending jobA sourceA .running))),
        some deletedA) := by decide +kernel
  have hfetched : sampleStep
      (engine ∅ ∅ [] (workerA (.fetching (pending jobA sourceA .running))))
      (.work 0 (.webFetched (.ok response))) =
      some (engine ∅ ∅ [] (workerA (.fetched (pending jobA sourceA .running) outcome)),
        none) := by decide +kernel
  have hstored : sampleStep
      (engine ∅ ∅ [] (workerA (.fetched (pending jobA sourceA .running) outcome)))
      (.work 0 (.commit (.ok ()) .written)) =
      some (engine ∅ (AList.insert jobA.jobId body ∅) []
        (workerA (.stored (finished jobA sourceA .running) outcome)), none) := by decide +kernel
  have hnormalized : sampleStep (engine ∅ (AList.insert jobA.jobId body ∅) []
        (workerA (.stored (finished jobA sourceA .running) outcome)))
      (.work 0 (.normalize .written)) =
      some (engine ∅ (AList.insert jobA.jobId body ∅) []
        (workerA (.completing (finished jobA sourceA .running))), none) := by decide +kernel
  have hcomplete : sampleStep (engine ∅ (AList.insert jobA.jobId body ∅) []
        (workerA (.completing (finished jobA sourceA .running))))
      (.work 0 (.writeComplete none)) = some (storedA .complete ∅, none) := by decide +kernel
  have hlist : sampleStep (storedA .complete ∅) (.list keyId) =
      some (storedA .complete ∅, some (.answered keyId .list
        (.rows [(finished jobA sourceA .complete).row]))) := by decide +kernel
  have hdeletion := (((hrunning.snoc trivial hdelete).snoc trivial hprimary).snoc trivial
    hobject).snoc trivial hdeleted
  have hrun := ((((hdeletion.snoc trivial hfetched).snoc trivial hstored).snoc trivial
    hnormalized).snoc trivial hcomplete).snoc trivial hlist
  refine ⟨_, _, _, hrun, fun hstays ↦ ?_⟩
  refine hstays [acceptedA, deletedA] _ [] rfl keyId jobA.jobId ?_ ?_
  · exact ⟨[acceptedA], deletedA, [], rfl, ⟨_, rfl, rfl⟩, by simp⟩
  · exact .inl ⟨_, rfl, _, List.mem_singleton_self _, rfl⟩

end SampleRuns

end Ghostbro.Relay
