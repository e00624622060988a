import Ghostbro.Relay.Moves

/-!
# The storage quota

A worker compares the quota with the usage that the records of the client account for, and stores
its object, under the lock of the client; it writes the record that accounts for the object only
after the lock is released.  Until then the object is stored and not counted, so a second worker
of the client may pass the same check.  As long as the records account for all stored objects
whenever a worker enters the locked section, and no submission takes over the record of another
job, the objects of the live jobs of a client fit the quota.
-/

namespace Ghostbro.Relay

open Machine

/-- The size of the primary object of a job; none counts as empty. -/
def objectLen (spool : Spool) (jobId : String) : ℕ :=
  (spool.primary.lookup jobId).elim 0 List.length

/-- What the object of a job adds to the bytes of its client, given the record of the job. -/
def liveShare (now : UInt64) (spool : Spool) (jobId : String) (metadata : RelayJobMetadata) : ℕ :=
  if metadata.expiresAtMs ≤ now then 0 else objectLen spool jobId

/-- The sizes of the primary objects of all jobs that have not expired. -/
def liveBytes (now : UInt64) (spool : Spool) : ℕ := HashMap.total spool.jobs (liveShare now spool)

/-- What the records of all jobs that have not expired account for. -/
def recordedBytes (now : UInt64) (spool : Spool) : ℕ :=
  HashMap.total spool.jobs fun _ metadata ↦
    if metadata.expiresAtMs ≤ now then 0 else metadata.recorded.toNat

/-- Every record that has not expired states the size of the object on disk. -/
def RecordsMatch (now : UInt64) (spool : Spool) : Prop :=
  ∀ jobId metadata, spool.jobs.lookup jobId = some metadata → now < metadata.expiresAtMs →
    metadata.bodyLen.toNat = objectLen spool jobId

/-- Submissions without normalization, workers, reads and the clock. -/
def InScope : Event → Prop
  | .tick _ | .list _ | .download _ _ _ _ _ | .take _ | .work _ _ => True
  | .submit _ submission _ _ => submission.normalize = false
  | _ => False

/-- Every step is in scope, no submission reuses the id of a job on disk, and a worker enters the
locked section only while the records of its client match the stored objects. -/
def Accounted (externals : Externals) (config : RelayConfig) (state : State) (event : Event) :
    Prop :=
  InScope event ∧
    (∀ keyId submission valid fault, event = .submit keyId submission valid fault →
      (queuedMetadata externals config keyId submission state.now).jobId ∉
        (state.spool (Keys.keyIdHex keyId)).jobs) ∧
    ∀ worker usage result job phase, event = .work worker (.commit usage result) →
      state.workers.lookup worker = some ⟨job, phase⟩ →
      RecordsMatch state.now (state.spool job.keyIdHex)

/-! ### Sums over one directory -/

variable {now : UInt64} {spool : Spool}

/-- The usage count is the recorded sum, as far as 64 bits hold it. -/
theorem toNat_clientUsage (now : UInt64) (spool : Spool) :
    (clientUsage now spool).2.toNat = recordedBytes now spool % 2 ^ 64 := by
  have hfold (entries : List (Σ _ : String, RelayJobMetadata)) (usage : ℕ × UInt64) :
      (entries.foldl (fun usage entry ↦
        if entry.2.expiresAtMs ≤ now then usage
        else (usage.1 + 1, usage.2 + entry.2.recorded)) usage).2.toNat =
      (usage.2.toNat + entries.foldr (fun entry sum ↦
        (if entry.2.expiresAtMs ≤ now then 0 else entry.2.recorded.toNat) + sum) 0) % 2 ^ 64 := by
    induction entries generalizing usage with
    | nil =>
      have hlt := usage.2.toNat_lt
      simp [Nat.mod_eq_of_lt hlt]
    | cons entry rest ih =>
      rw [List.foldl_cons, ih, List.foldr_cons]
      split
      · rw [Nat.zero_add]
      · rw [UInt64.toNat_add]
        omega
  have h := hfold spool.jobs.entries (0, 0)
  rw [UInt64.toNat_zero, Nat.zero_add] at h
  exact h

/-- Only records and primary objects count. -/
theorem liveBytes_congr {next : Spool} (hjobs : next.jobs = spool.jobs)
    (hprimary : next.primary = spool.primary) (now : UInt64) :
    liveBytes now next = liveBytes now spool := by
  have hshare : liveShare now next = liveShare now spool := by
    funext jobId metadata
    simp only [liveShare, objectLen, hprimary]
  rw [liveBytes, liveBytes, hjobs, hshare]

/-- As time passes, fewer jobs are live. -/
theorem liveBytes_le_of_le {later : UInt64} (hle : now ≤ later) (spool : Spool) :
    liveBytes later spool ≤ liveBytes now spool := by
  apply HashMap.total_le_total
  intro jobId metadata _
  unfold liveShare
  split
  · exact Nat.zero_le _
  · rename_i hlive
    have hlive' : ¬metadata.expiresAtMs ≤ now := fun h ↦ hlive (UInt64.le_trans h hle)
    rw [if_neg hlive']

/-- Writing a record whose share is that of the old one keeps the sum. -/
theorem liveBytes_insert_record {jobId : String} {metadata : RelayJobMetadata}
    (h : liveShare now spool jobId metadata =
      (spool.jobs.lookup jobId).elim 0 (liveShare now spool jobId)) :
    liveBytes now { spool with jobs := spool.jobs.insert jobId metadata } =
      liveBytes now spool := by
  calc
    HashMap.total (spool.jobs.insert jobId metadata) (liveShare now spool) =
        liveShare now spool jobId metadata +
          HashMap.total (spool.jobs.erase jobId) (liveShare now spool) :=
      HashMap.total_insert _ _ _ _
    _ = HashMap.total (spool.jobs.erase jobId) (liveShare now spool) +
          (spool.jobs.lookup jobId).elim 0 (liveShare now spool jobId) := by
      rw [h, Nat.add_comm]
    _ = HashMap.total spool.jobs (liveShare now spool) := HashMap.total_erase_add _ _ _

/-- Storing an object adds at most its size. -/
theorem liveBytes_insert_object_le (now : UInt64) (spool : Spool) (jobId : String) (body : Bytes) :
    liveBytes now { spool with primary := spool.primary.insert jobId body } ≤
      liveBytes now spool + body.length := by
  let stored : Spool := { spool with primary := spool.primary.insert jobId body }
  have hothers : HashMap.total (spool.jobs.erase jobId) (liveShare now stored) ≤
      HashMap.total (spool.jobs.erase jobId) (liveShare now spool) := by
    apply HashMap.total_le_total
    intro other metadata hlookup
    have hne := (HashMap.lookup_of_lookup_erase hlookup).1
    simp [liveShare, objectLen, stored, hne]
  have hshare : (spool.jobs.lookup jobId).elim 0 (liveShare now stored jobId) ≤ body.length := by
    cases spool.jobs.lookup jobId with
    | none => simp
    | some metadata =>
      simp only [Option.elim_some, liveShare, objectLen, stored, HashMap.lookup_insert_ite]
      split <;> simp
  calc
    HashMap.total spool.jobs (liveShare now stored) =
        HashMap.total (spool.jobs.erase jobId) (liveShare now stored) +
          (spool.jobs.lookup jobId).elim 0 (liveShare now stored jobId) :=
      (HashMap.total_erase_add _ _ _).symm
    _ ≤ HashMap.total (spool.jobs.erase jobId) (liveShare now spool) + body.length :=
      Nat.add_le_add hothers hshare
    _ ≤ HashMap.total spool.jobs (liveShare now spool) + body.length := by
      have herase := HashMap.total_erase_add spool.jobs (liveShare now spool) jobId
      omega

/-- Records that match the objects account for exactly the live bytes. -/
theorem recordedBytes_eq_liveBytes (hmatch : RecordsMatch now spool)
    (hplain : ∀ jobId metadata, spool.jobs.lookup jobId = some metadata →
      metadata.normalizedLen = none) : recordedBytes now spool = liveBytes now spool := by
  have hshare : ∀ jobId metadata, spool.jobs.lookup jobId = some metadata →
      (if metadata.expiresAtMs ≤ now then 0 else metadata.recorded.toNat) =
        liveShare now spool jobId metadata := by
    intro jobId metadata hlookup
    unfold liveShare
    split
    · rfl
    · rename_i hlive
      rw [← hmatch jobId metadata hlookup (UInt64.not_le.mp hlive)]
      simp [RelayJobMetadata.recorded, hplain jobId metadata hlookup]
  apply Nat.le_antisymm
  · exact HashMap.total_le_total fun jobId metadata h ↦ (hshare jobId metadata h).le
  · exact HashMap.total_le_total fun jobId metadata h ↦ (hshare jobId metadata h).ge

/-- The check under the lock, on records that match the objects. -/
theorem liveBytes_add_le_of_quotaAllows {config : RelayConfig} {body : Bytes}
    (hmatch : RecordsMatch now spool)
    (hplain : ∀ jobId metadata, spool.jobs.lookup jobId = some metadata →
      metadata.normalizedLen = none)
    (hwithin : liveBytes now spool ≤ config.maxBytesPerClient.toNat)
    (hquota : quotaAllows config now spool body)
    (hlimit : body.length ≤ config.maxObjectLen.toNat) :
    liveBytes now spool + body.length ≤ config.maxBytesPerClient.toNat := by
  have hmax : config.maxBytesPerClient.toNat ≤ 2 ^ 63 - 1 :=
    UInt64.le_iff_toNat_le.mp config.maxBytesPerClient_le
  have hbody : (UInt64.ofNat body.length).toNat = body.length := by
    have hlt := config.maxObjectLen.toNat_lt
    rw [UInt64.toNat_ofNat']
    omega
  have husage : (clientUsage now spool).2.toNat = liveBytes now spool := by
    rw [toNat_clientUsage, recordedBytes_eq_liveBytes hmatch hplain]
    omega
  have hsum := UInt64.le_iff_toNat_le.mp hquota
  rw [toNat_saturatingAdd, husage, hbody] at hsum
  omega

/-! ### The invariant -/

/-- The live objects of every client fit the quota; records and copies stay plain, every object
belongs to a record, and a copy expires with its record. -/
structure WithinQuota (config : RelayConfig) (state : State) : Prop where
  within : ∀ client, liveBytes state.now (state.spool client) ≤ config.maxBytesPerClient.toNat
  plain : ∀ client jobId metadata, (state.spool client).jobs.lookup jobId = some metadata →
    metadata.normalize = false ∧ metadata.normalizedLen = none
  owned : ∀ client jobId, jobId ∈ (state.spool client).primary →
    jobId ∈ (state.spool client).jobs
  copies : ∀ worker job phase metadata, state.workers.lookup worker = some ⟨job, phase⟩ →
    phase.copy = some metadata →
    (metadata.normalize = false ∧ metadata.normalizedLen = none) ∧
      ∃ record, (state.spool job.keyIdHex).jobs.lookup metadata.jobId = some record ∧
        record.expiresAtMs = metadata.expiresAtMs

theorem withinQuota_start (config : RelayConfig) (now : UInt64) :
    WithinQuota config (State.start now) where
  within _ := Nat.zero_le _
  plain _ _ _ h := by cases h
  owned _ _ h := by cases h
  copies _ _ _ _ h := by cases h

section Steps

variable {externals : Externals} {config : RelayConfig} {state after : State} {event : Event}
  {emitted : Option Output}

/-- Removals are out of scope. -/
theorem not_inScope_of_removal (h : event.IsRemoval) : ¬InScope event := by
  cases event <;> first | exact id | exact h.elim

/-- A step in scope keeps the objects of a client, or stores one under the lock. -/
theorem Effect.objects (h : Effect externals config state event after emitted)
    (hscope : InScope event) (client : String) :
    (after.spool client).primary = (state.spool client).primary ∨
    ∃ worker job phase metadata outcome usage result body,
      event = .work worker (.commit usage result) ∧
      state.workers.lookup worker = some ⟨job, phase⟩ ∧ job.keyIdHex = client ∧
      phase = .fetched metadata outcome ∧
      quotaAllows config state.now (state.spool client) outcome.body ∧
      outcome.body.length ≤ config.maxObjectLen.toNat ∧ body.length ≤ outcome.body.length ∧
      after.spool client = { state.spool client with
        primary := (state.spool client).primary.insert metadata.jobId body } := by
  cases h with
  | tick _ => exact .inl rfl
  | quiet hsame _ => exact .inl (by rw [spool_of_spools hsame.spools])
  | accepted _ _ hspools =>
    left
    rw [hspools, State.spool_setSpool]
    split
    · rename_i hclient
      rw [hclient]
    · rfl
  | deleted _ _ _ _ _ => exact hscope.elim
  | removed hevent _ _ _ _ => exact absurd hscope (not_inScope_of_removal hevent)
  | taken _ _ hspools _ => exact .inl (by rw [spool_of_spools hspools])
  | @worked worker job phase event spool after' hworker hmove =>
    rw [State.spool_setWorker, State.spool_setSpool]
    split
    · rename_i hclient
      subst hclient
      cases hmove with
      | keep _ hprimary _ => exact .inl hprimary
      | load _ _ _ => exact .inl rfl
      | record _ _ _ => exact .inl rfl
      | @store _ metadata outcome usage result body hevent hphase hquota hlimit hbody _ =>
        exact .inr ⟨worker, job, phase, metadata, outcome, usage, result, body, by rw [hevent],
          hworker, rfl, hphase, hquota, hlimit, hbody, rfl⟩
    · exact .inl rfl
  | crashed _ _ _ => exact hscope.elim

/-- No record disappears, and none changes its lifetime. -/
theorem WithinQuota.record_persists (hwithin : WithinQuota config state)
    (heffect : Effect externals config state event after emitted)
    (haccounted : Accounted externals config state event) {client jobId : String}
    {record : RelayJobMetadata} (hlookup : (state.spool client).jobs.lookup jobId = some record) :
    ∃ record', (after.spool client).jobs.lookup jobId = some record' ∧
      record'.expiresAtMs = record.expiresAtMs := by
  have hchange := heffect.records client
  generalize (after.spool client).jobs = jobs at hchange ⊢
  cases hchange with
  | same => exact ⟨record, hlookup, rfl⟩
  | erased _ hevent => exact absurd haccounted.1 (not_inScope_of_removal hevent)
  | queued keyId submission fault hclient hevent _ =>
    subst hclient
    have hfresh := haccounted.2.1 keyId submission true fault hevent
    have hne : jobId ≠ (queuedMetadata externals config keyId submission state.now).jobId := by
      rintro rfl
      exact hfresh (HashMap.mem_of_lookup hlookup)
    rw [HashMap.lookup_insert_ite, if_neg hne]
    exact ⟨record, hlookup, rfl⟩
  | written worker job phase metadata revised hworker hclient hcopy hrevises =>
    rw [HashMap.lookup_insert_ite]
    split
    · rename_i hname
      subst hclient
      obtain ⟨_, held, hheld, hexpires⟩ := hwithin.copies worker job phase metadata hworker hcopy
      rw [← hrevises.jobId, ← hname, hlookup] at hheld
      obtain rfl : record = held := Option.some.inj hheld
      exact ⟨revised, rfl, hrevises.expiresAtMs.trans hexpires.symm⟩
    · exact ⟨record, hlookup, rfl⟩

/-- The sum after a step that stores no object. -/
theorem WithinQuota.records_within (hwithin : WithinQuota config state)
    (heffect : Effect externals config state event after emitted)
    (haccounted : Accounted externals config state event) {client : String}
    (hprimary : (after.spool client).primary = (state.spool client).primary) :
    liveBytes state.now (after.spool client) ≤ config.maxBytesPerClient.toNat := by
  have hcongr : liveBytes state.now (after.spool client) =
      liveBytes state.now { state.spool client with jobs := (after.spool client).jobs } := by
    apply liveBytes_congr
    · rfl
    · exact hprimary
  have hchange := heffect.records client
  rw [hcongr]
  generalize (after.spool client).jobs = jobs at hchange ⊢
  cases hchange with
  | same => exact hwithin.within client
  | erased _ hevent => exact absurd haccounted.1 (not_inScope_of_removal hevent)
  | queued keyId submission fault hclient hevent _ =>
    subst hclient
    have hfresh := haccounted.2.1 keyId submission true fault hevent
    rw [liveBytes_insert_record]
    · exact hwithin.within _
    · have hobject : (queuedMetadata externals config keyId submission state.now).jobId ∉
          (state.spool (Keys.keyIdHex keyId)).primary := fun h ↦ hfresh (hwithin.owned _ _ h)
      rw [AList.lookup_eq_none.mpr hfresh]
      simp [liveShare, objectLen, AList.lookup_eq_none.mpr hobject]
  | written worker job phase metadata revised hworker hclient hcopy hrevises =>
    subst hclient
    obtain ⟨_, held, hheld, hexpires⟩ := hwithin.copies worker job phase metadata hworker hcopy
    rw [liveBytes_insert_record]
    · exact hwithin.within _
    · rw [hrevises.jobId, hheld]
      simp only [Option.elim_some, liveShare, hrevises.expiresAtMs, hexpires]

theorem WithinQuota.effect (hwithin : WithinQuota config state) (hnamed : Named state)
    (heffect : Effect externals config state event after emitted)
    (haccounted : Accounted externals config state event) : WithinQuota config after where
  within client := by
    refine le_trans (liveBytes_le_of_le heffect.now_le (after.spool client)) ?_
    rcases heffect.objects haccounted.1 client with hprimary | ⟨worker, job, phase, metadata,
      outcome, usage, result, body, hevent, hworker, rfl, _, hquota, hlimit, hbody, hspool⟩
    · exact hwithin.records_within heffect haccounted hprimary
    · have hmatch := haccounted.2.2 worker usage result job phase hevent hworker
      have hplain := fun jobId metadata h ↦ (hwithin.plain job.keyIdHex jobId metadata h).2
      rw [hspool]
      calc
        liveBytes state.now _ ≤ liveBytes state.now (state.spool job.keyIdHex) + body.length :=
          liveBytes_insert_object_le _ _ _ _
        _ ≤ liveBytes state.now (state.spool job.keyIdHex) + outcome.body.length :=
          Nat.add_le_add_left hbody _
        _ ≤ config.maxBytesPerClient.toNat :=
          liveBytes_add_le_of_quotaAllows hmatch hplain (hwithin.within _) hquota hlimit
  plain client jobId metadata hlookup := by
    have hchange := heffect.records client
    generalize (after.spool client).jobs = jobs at hchange hlookup
    cases hchange with
    | same => exact hwithin.plain client jobId metadata hlookup
    | erased _ _ =>
      exact hwithin.plain client jobId metadata (HashMap.lookup_of_lookup_erase hlookup).2
    | queued keyId submission fault hclient hevent _ =>
      rw [HashMap.lookup_insert_ite] at hlookup
      split at hlookup
      · have hscope := haccounted.1
        rw [hevent] at hscope
        rw [← Option.some.inj hlookup]
        exact ⟨hscope, rfl⟩
      · exact hwithin.plain client jobId metadata hlookup
    | written worker job phase copied revised hworker hclient hcopy hrevises =>
      rw [HashMap.lookup_insert_ite] at hlookup
      split at hlookup
      · obtain ⟨⟨hflag, hlen⟩, _⟩ := hwithin.copies worker job phase copied hworker hcopy
        rw [← Option.some.inj hlookup]
        exact ⟨hrevises.normalize.trans hflag, (hrevises.normalizedLen hflag).trans hlen⟩
      · exact hwithin.plain client jobId metadata hlookup
  owned client jobId hmem := by
    have hkept (h : jobId ∈ (state.spool client).jobs) : jobId ∈ (after.spool client).jobs := by
      obtain ⟨record, hrecord⟩ := Option.isSome_iff_exists.mp (AList.lookup_isSome.mpr h)
      obtain ⟨record', hrecord', _⟩ := hwithin.record_persists heffect haccounted hrecord
      exact HashMap.mem_of_lookup hrecord'
    rcases heffect.objects haccounted.1 client with hprimary | ⟨worker, job, phase, metadata,
      outcome, usage, result, body, _, hworker, rfl, hphase, _, _, _, hspool⟩
    · rw [hprimary] at hmem
      exact hkept (hwithin.owned client jobId hmem)
    · rw [hspool, AList.mem_insert] at hmem
      rcases hmem with rfl | hmem
      · obtain ⟨_, record, hrecord, _⟩ :=
          hwithin.copies worker job phase metadata hworker (by rw [hphase]; rfl)
        exact hkept (HashMap.mem_of_lookup hrecord)
      · exact hkept (hwithin.owned _ jobId hmem)
  copies worker job phase revised hworker hcopy := by
    rcases heffect.copies hworker hcopy with ⟨before, metadata, hbefore, hheld, hrevises⟩ |
      ⟨metadata, hlookup, hrevises⟩
    · obtain ⟨⟨hflag, hlen⟩, record, hrecord, hexpires⟩ :=
        hwithin.copies worker job before metadata hbefore hheld
      obtain ⟨record', hrecord', hexpires'⟩ :=
        hwithin.record_persists heffect haccounted hrecord
      refine ⟨⟨hrevises.normalize.trans hflag, (hrevises.normalizedLen hflag).trans hlen⟩,
        record', ?_, ?_⟩
      · rw [hrevises.jobId]
        exact hrecord'
      · rw [hexpires', hexpires, hrevises.expiresAtMs]
    · obtain ⟨hflag, hlen⟩ := hwithin.plain _ _ metadata hlookup
      obtain ⟨record', hrecord', hexpires'⟩ :=
        hwithin.record_persists heffect haccounted hlookup
      refine ⟨⟨hrevises.normalize.trans hflag, (hrevises.normalizedLen hflag).trans hlen⟩,
        record', ?_, ?_⟩
      · rw [hrevises.jobId, hnamed.records _ _ metadata hlookup]
        exact hrecord'
      · rw [hexpires', hrevises.expiresAtMs]

/-- In a run of submissions and workers in which the records of a client match its objects
whenever a worker enters the locked section, the live objects of every client fit the quota in
every state. -/
theorem quota_holds {now : UInt64} {events : List Event} {outputs : List Output} {last : State}
    (hrun : Run (step externals config) (Accounted externals config) (State.start now) events
      outputs last) (client : String) :
    liveBytes last.now (last.spool client) ≤ config.maxBytesPerClient.toNat := by
  have hinv : Named last ∧ WithinQuota config last := by
    refine hrun.invariant (fun _ state ↦ Named state ∧ WithinQuota config state)
      ⟨named_start now, withinQuota_start config now⟩ ?_
    rintro outputs state event next emitted ⟨hnamed, hwithin⟩ haccounted hstep
    have heffect := effect_of_step hstep
    exact ⟨hnamed.effect heffect, hwithin.effect hnamed heffect haccounted⟩
  exact hinv.2.within client

end Steps

/-! ### Two workers of one client -/

section SampleRuns

open Sample

/-- The steps of a worker outside the locked section. -/
def Routine : Event → Prop
  | .take _ => True
  | .work _ (.commit _ _) => False
  | .work _ _ => True
  | _ => False

def submitB : Event := .submit keyId (.web sourceB false) true none

def acceptedB : Output := .answered keyId (.submit (.web sourceB false)) (.accepted jobB.jobId)

/-- Both jobs, the first one running. -/
def both (statusB : JobStatus) (primary : HashMap String Bytes) (queue : List JobRef)
    (workers : HashMap ℕ Worker) : State :=
  engine (AList.insert jobB.jobId (pending jobB sourceB statusB)
    (AList.insert jobA.jobId (pending jobA sourceA .running) ∅)) primary queue workers

def withB (phaseA phaseB : Phase) : HashMap ℕ Worker :=
  AList.insert 1 ⟨jobB, phaseB⟩ (workerA phaseA)

def withA (phaseA phaseB : Phase) : HashMap ℕ Worker :=
  AList.insert 0 ⟨jobA, phaseA⟩ (AList.insert 1 ⟨jobB, phaseB⟩ ∅)

def fetchingA : Phase := .fetching (pending jobA sourceA .running)

def fetchedA : Phase := .fetched (pending jobA sourceA .running) outcome

def fetchedB : Phase := .fetched (pending jobB sourceB .running) outcome

def storedPhaseA : Phase := .stored (finished jobA sourceA .running) outcome

/-- Both workers have fetched their bodies, and nothing is stored. -/
def bothFetched : State := both .running ∅ [] (withB fetchedA fetchedB)

/-- The first worker has stored its object and released the lock. -/
def firstStored : State :=
  both .running (AList.insert jobA.jobId body ∅) [] (withA storedPhaseA fetchedB)

def bothFetchedEvents : List Event :=
  runningEvents ++ [submitB, .take 1, .work 1 (.read true), .work 1 (.writeRunning none),
    .work 0 (.webFetched (.ok response)), .work 1 (.webFetched (.ok response))]

theorem run_bothFetched (guard : State → Event → Prop)
    (hroutine : ∀ state event, Routine event → guard state event)
    (hsubmitA : guard (State.start 1000) submitA) (hsubmitB : guard running submitB) :
    Run sampleStep guard (State.start 1000) bothFetchedEvents [acceptedA, acceptedB]
      bothFetched := by
  have hrunning := run_running guard hsubmitA (hroutine _ _ trivial) (hroutine _ _ trivial)
    (hroutine _ _ trivial)
  have hsubmit : sampleStep running submitB =
      some (both .queued ∅ [jobB] (workerA fetchingA), some acceptedB) := by decide +kernel
  have htake : sampleStep (both .queued ∅ [jobB] (workerA fetchingA)) (.take 1) =
      some (both .queued ∅ [] (withB fetchingA .taken), none) := by decide +kernel
  have hread : sampleStep (both .queued ∅ [] (withB fetchingA .taken)) (.work 1 (.read true)) =
      some (both .queued ∅ [] (withB fetchingA (.marking (pending jobB sourceB .queued))),
        none) := by decide +kernel
  have hwrite : sampleStep
      (both .queued ∅ [] (withB fetchingA (.marking (pending jobB sourceB .queued))))
      (.work 1 (.writeRunning none)) =
      some (both .running ∅ [] (withB fetchingA (.fetching (pending jobB sourceB .running))),
        none) := by decide +kernel
  have hfetchA : sampleStep
      (both .running ∅ [] (withB fetchingA (.fetching (pending jobB sourceB .running))))
      (.work 0 (.webFetched (.ok response))) =
      some (both .running ∅ [] (withA fetchedA (.fetching (pending jobB sourceB .running))),
        none) := by decide +kernel
  have hfetchB : sampleStep
      (both .running ∅ [] (withA fetchedA (.fetching (pending jobB sourceB .running))))
      (.work 1 (.webFetched (.ok response))) = some (bothFetched, none) := by decide +kernel
  have hsecond := (((hrunning.snoc hsubmitB hsubmit).snoc (hroutine _ _ (by trivial)) htake).snoc
    (hroutine _ _ (by trivial)) hread).snoc (hroutine _ _ (by trivial)) hwrite
  exact (hsecond.snoc (hroutine _ _ (by trivial)) hfetchA).snoc (hroutine _ _ (by trivial)) hfetchB

theorem step_firstStored : sampleStep bothFetched (.work 0 (.commit (.ok ()) .written)) =
    some (firstStored, none) := by decide +kernel

theorem accounted_of_routine (state : State) (event : Event) (h : Routine event) :
    Accounted externals config state event := by
  refine ⟨?_, ?_, ?_⟩
  · cases event <;> first | exact h.elim | trivial
  · rintro keyId submission valid fault rfl
    exact h.elim
  · rintro worker usage result job phase rfl
    exact h.elim

theorem accounted_submit {state : State} {submission : Submission} {valid : Bool}
    {fault : Option String} (hflag : submission.normalize = false)
    (hfresh : (queuedMetadata externals config keyId submission state.now).jobId ∉
      (state.spool (Keys.keyIdHex keyId)).jobs) :
    Accounted externals config state (.submit keyId submission valid fault) := by
  refine ⟨hflag, ?_, ?_⟩
  · rintro _ _ _ _ ⟨⟩
    exact hfresh
  · rintro _ _ _ _ _ ⟨⟩

theorem accounted_commit {state : State} {worker : ℕ} {usage : Except String Unit}
    {result : WriteResult} {job : JobRef} {phase : Phase}
    (hworker : state.workers.lookup worker = some ⟨job, phase⟩)
    (hentries : ∀ entry ∈ (state.spool job.keyIdHex).jobs.entries,
      entry.2.bodyLen.toNat = objectLen (state.spool job.keyIdHex) entry.1) :
    Accounted externals config state (.work worker (.commit usage result)) := by
  refine ⟨trivial, ?_, ?_⟩
  · rintro _ _ _ _ ⟨⟩
  · rintro _ _ _ job' phase' ⟨⟩ hworker'
    obtain ⟨rfl, rfl⟩ : job = job' ∧ phase = phase' := by simpa [hworker] using hworker'
    intro jobId metadata hlookup _
    exact hentries ⟨jobId, metadata⟩ (HashMap.mem_entries_iff.mpr hlookup)

/-- The first worker finishes before the second one enters the locked section, and the second one
is refused. -/
theorem quota_holds_in_turn :
    ∃ events outputs last,
      Run sampleStep (Accounted externals config) (State.start 1000) events outputs last ∧
      (last.spool client).primary.keys = [jobA.jobId] ∧
      liveBytes last.now (last.spool client) ≤ config.maxBytesPerClient.toNat := by
  have hfetched := run_bothFetched (Accounted externals config) accounted_of_routine
    (accounted_submit rfl (by decide +kernel)) (accounted_submit rfl (by decide +kernel))
  have hnormalized : sampleStep firstStored (.work 0 (.normalize .written)) =
      some (both .running (AList.insert jobA.jobId body ∅) []
        (withA (.completing (finished jobA sourceA .running)) fetchedB), none) := by
    decide +kernel
  let completed (phaseB : Phase) : State :=
    engine (AList.insert jobA.jobId (finished jobA sourceA .complete)
      (AList.insert jobB.jobId (pending jobB sourceB .running) ∅))
      (AList.insert jobA.jobId body ∅) [] (AList.insert 1 ⟨jobB, phaseB⟩ ∅)
  have hcompleted : sampleStep (both .running (AList.insert jobA.jobId body ∅) []
        (withA (.completing (finished jobA sourceA .running)) fetchedB))
      (.work 0 (.writeComplete none)) = some (completed fetchedB, none) := by decide +kernel
  have hrefused : sampleStep (completed fetchedB) (.work 1 (.commit (.ok ()) .written)) =
      some (completed (.failing "storage quota would be exceeded by job result"), none) := by
    decide +kernel
  have hfirst := hfetched.snoc
    (accounted_commit (show bothFetched.workers.lookup 0 = some ⟨jobA, fetchedA⟩ by decide +kernel)
      (by decide +kernel)) step_firstStored
  have hsecond := (hfirst.snoc (accounted_of_routine _ _ (by trivial)) hnormalized).snoc
    (accounted_of_routine _ _ (by trivial)) hcompleted
  have hrun := hsecond.snoc
    (accounted_commit (show (completed fetchedB).workers.lookup 1 = some ⟨jobB, fetchedB⟩ by
      decide +kernel) (by decide +kernel)) hrefused
  exact ⟨_, _, _, hrun, by decide +kernel, quota_holds hrun client⟩

/-- The second worker enters the locked section before the first one has written its record: both
pass the check, and four bytes are stored under a quota of three. -/
theorem quota_exceeded_by_two_workers :
    ∃ events outputs last,
      Run sampleStep (fun _ event ↦ InScope event) (State.start 1000) events outputs last ∧
      ¬liveBytes last.now (last.spool client) ≤ config.maxBytesPerClient.toNat := by
  have hroutine (state : State) (event : Event) (h : Routine event) : InScope event :=
    (accounted_of_routine state event h).1
  have hfetched := run_bothFetched (fun _ event ↦ InScope event) hroutine rfl rfl
  have hstored : sampleStep firstStored (.work 1 (.commit (.ok ()) .written)) =
      some (both .running (AList.insert jobB.jobId body (AList.insert jobA.jobId body ∅)) []
        (AList.insert 1 ⟨jobB, .stored (finished jobB sourceB .running) outcome⟩
          (workerA storedPhaseA)), none) := by decide +kernel
  have hrun := (hfetched.snoc (by trivial) step_firstStored).snoc (by trivial) hstored
  exact ⟨_, _, _, hrun, by decide +kernel⟩

end SampleRuns

end Ghostbro.Relay
