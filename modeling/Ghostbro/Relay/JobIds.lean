import Ghostbro.Relay.Moves

/-!
# Job ids

The id of a job is cut from a hash of the client's key, the source and the clock in milliseconds,
and `enqueue` writes the record of that id without asking whether there is one.  The three hashed
parts can be told apart again, so two accepted submissions of a client get one id exactly if they
name the same source in the same millisecond, whatever their kinds; the later one then takes over
the record of the earlier one.
-/

namespace Ghostbro.Relay

open Machine

/-- A submission that was answered OK, with the clock value of its id; `overwrites` tells whether
its record replaced one that had not expired. -/
structure Accepted where
  keyId : KeyId
  submission : Submission
  nowMs : UInt64
  jobId : String
  overwrites : Bool
  deriving DecidableEq

namespace Accepted

/-- The input of the hash in `relay_job_id`. -/
def hashed (accepted : Accepted) : Bytes :=
  accepted.keyId.toList ++ utf8 accepted.submission.source ++ (u64ToBe accepted.nowMs).toList

/-- The source and the millisecond of a submission. -/
def moment (accepted : Accepted) : String × UInt64 :=
  (accepted.submission.source, accepted.nowMs)

end Accepted

/-- The first 24 hexadecimal digits of SHA-256. -/
def idDigits (externals : Externals) (input : Bytes) : List Char :=
  (hexText (externals.crypto.sha256 input).toList).take 24

/-- No two of the inputs that were hashed have the same first digits. -/
def CollisionFree (externals : Externals) (accepted : List Accepted) : Prop :=
  ∀ first ∈ accepted, ∀ second ∈ accepted,
    idDigits externals first.hashed = idDigits externals second.hashed →
      first.hashed = second.hashed

/-- A record of this id that has not expired is on disk. -/
def State.hasLive (state : State) (client jobId : String) : Bool :=
  ((state.spool client).jobs.lookup jobId).any fun metadata ↦ state.now < metadata.expiresAtMs

/-- The submission that an answer accepts. -/
def acceptedBy (state : State) : Option Output → Option Accepted
  | some (.answered keyId (.submit submission) (.accepted jobId)) =>
    some ⟨keyId, submission, state.now, jobId, state.hasLive (Keys.keyIdHex keyId) jobId⟩
  | _ => none

/-- The engine, with the accepted submissions as its outputs. -/
def acceptStep (externals : Externals) (config : RelayConfig) : Step State Event Accepted :=
  fun state event ↦ (step externals config state event).map fun (next, output) ↦
    (next, acceptedBy state output)

/-- The accepted submissions of one client. -/
def acceptedFrom (keyId : KeyId) (accepted : List Accepted) : List Accepted :=
  accepted.filter fun submission ↦ submission.keyId = keyId

/-! ### What is hashed -/

theorem utf8_injective : Function.Injective utf8 := by
  intro text text' h
  have hdata : text.toByteArray.data = text'.toByteArray.data := Array.toList_inj.mp h
  exact String.toByteArray_inj.mp (congrArg ByteArray.mk hdata)

/-- For one client the input of the hash determines the source and the millisecond. -/
theorem Accepted.moment_eq_of_hashed {first second : Accepted} (hkey : first.keyId = second.keyId)
    (h : first.hashed = second.hashed) : first.moment = second.moment := by
  rw [hashed, hashed, hkey, List.append_assoc, List.append_assoc] at h
  have htail := List.append_cancel_left h
  obtain ⟨hsource, hclock⟩ := List.append_inj' htail (by simp)
  have hnow : first.nowMs = second.nowMs := by
    have hbytes := Vector.toList_inj.mp hclock
    rw [← u64OfBe_u64ToBe first.nowMs, hbytes, u64OfBe_u64ToBe]
  exact Prod.ext (utf8_injective hsource) hnow

/-! ### Where records come from -/

section Runs

variable {externals : Externals} {config : RelayConfig} {state next last : State}
  {event : Event} {output : Option Output} {emitted : Option Accepted} {events : List Event}
  {accepted : List Accepted}

/-- An accepted submission has the id that `relay_job_id` computes. -/
theorem acceptedBy_eq_some {new : Accepted}
    (heffect : Effect externals config state event next output)
    (h : acceptedBy state output = some new) :
    new.jobId = String.ofList (idDigits externals new.hashed) ∧
      new.overwrites = state.hasLive (Keys.keyIdHex new.keyId) new.jobId := by
  have hrefused (htruthful : ∀ answer ∈ output, Truthful state answer) : False := by
    unfold acceptedBy at h
    split at h
    · exact htruthful _ rfl rfl
    · cases h
  cases heffect with
  | quiet _ htruthful => exact (hrefused htruthful).elim
  | removed _ _ _ _ htruthful => exact (hrefused htruthful).elim
  | accepted _ _ _ =>
    obtain rfl := Option.some.inj h
    exact ⟨rfl, rfl⟩
  | tick _ => cases h
  | deleted _ _ _ _ _ => cases h
  | taken _ _ _ _ => cases h
  | worked _ _ => cases h
  | crashed _ _ _ => cases h

/-- Every record on disk, and every copy that a worker holds, is named by an accepted submission
of its client. -/
structure Filed (externals : Externals) (accepted : List Accepted) (state : State) : Prop where
  named : Named state
  records : ∀ client fileName, fileName ∈ (state.spool client).jobs →
    ∃ earlier ∈ accepted, Keys.keyIdHex earlier.keyId = client ∧ earlier.jobId = fileName
  copies : ∀ worker job phase metadata, state.workers.lookup worker = some ⟨job, phase⟩ →
    phase.copy = some metadata →
      ∃ earlier ∈ accepted, Keys.keyIdHex earlier.keyId = job.keyIdHex ∧
        earlier.jobId = metadata.jobId
  ids : ∀ earlier ∈ accepted, earlier.jobId = String.ofList (idDigits externals earlier.hashed)

theorem filed_start (externals : Externals) (now : UInt64) :
    Filed externals [] (State.start now) where
  named := named_start now
  records _ _ h := by cases h
  copies _ _ _ _ h := by cases h
  ids _ h := by cases h

theorem Filed.effect (hfiled : Filed externals accepted state)
    (heffect : Effect externals config state event next output) :
    Filed externals (accepted ++ (acceptedBy state output).toList) next where
  named := hfiled.named.effect heffect
  records client fileName hmem := by
    have hkept (h : fileName ∈ (state.spool client).jobs) :
        ∃ earlier ∈ accepted ++ (acceptedBy state output).toList,
          Keys.keyIdHex earlier.keyId = client ∧ earlier.jobId = fileName := by
      obtain ⟨earlier, hearlier, hname⟩ := hfiled.records client fileName h
      exact ⟨earlier, List.mem_append_left _ hearlier, hname⟩
    generalize hjobs : (next.spool client).jobs = jobs at hmem
    have hchange := heffect.records client
    rw [hjobs] at hchange
    cases hchange with
    | same => exact hkept hmem
    | erased other _ => exact hkept (AList.mem_erase.mp hmem).2
    | queued keyId submission fault hclient _ hemitted =>
      rcases (AList.mem_insert _).mp hmem with rfl | hmem
      · rw [hemitted]
        exact ⟨_, List.mem_append_right _ (List.mem_singleton_self _), hclient, rfl⟩
      · exact hkept hmem
    | written worker job phase metadata revised hworker hclient hcopy hrevises =>
      rcases (AList.mem_insert _).mp hmem with rfl | hmem
      · obtain ⟨earlier, hearlier, hkey, hname⟩ :=
          hfiled.copies worker job phase metadata hworker hcopy
        exact ⟨earlier, List.mem_append_left _ hearlier, hkey.trans hclient,
          hname.trans hrevises.jobId.symm⟩
      · exact hkept hmem
  copies worker job phase revised hworker hcopy := by
    rcases heffect.copies hworker hcopy with ⟨before, metadata, hbefore, hheld, hrevises⟩ |
      ⟨metadata, hlookup, hrevises⟩
    · obtain ⟨earlier, hearlier, hkey, hname⟩ :=
        hfiled.copies worker job before metadata hbefore hheld
      exact ⟨earlier, List.mem_append_left _ hearlier, hkey, hname.trans hrevises.jobId.symm⟩
    · have hmem : job.jobId ∈ (state.spool job.keyIdHex).jobs :=
        HashMap.mem_of_lookup hlookup
      obtain ⟨earlier, hearlier, hkey, hname⟩ := hfiled.records job.keyIdHex job.jobId hmem
      refine ⟨earlier, List.mem_append_left _ hearlier, hkey, ?_⟩
      rw [hname, hrevises.jobId, hfiled.named.records _ _ metadata hlookup]
  ids earlier hearlier := by
    rcases List.mem_append.mp hearlier with hbefore | hnew
    · exact hfiled.ids earlier hbefore
    · exact (acceptedBy_eq_some heffect (Option.mem_toList.mp hnew)).1

/-- A step of the engine with its answer. -/
theorem acceptStep_eq_some (h : acceptStep externals config state event = some (next, emitted)) :
    ∃ output, Effect externals config state event next output ∧
      emitted = acceptedBy state output := by
  obtain ⟨⟨_, output⟩, hstep, heq⟩ := Option.map_eq_some_iff.mp h
  obtain ⟨rfl, rfl⟩ := Prod.mk.inj heq
  exact ⟨output, effect_of_step hstep, rfl⟩

theorem filed_step (hfiled : Filed externals accepted state)
    (hstep : acceptStep externals config state event = some (next, emitted)) :
    Filed externals (accepted ++ emitted.toList) next := by
  obtain ⟨output, heffect, rfl⟩ := acceptStep_eq_some hstep
  exact hfiled.effect heffect

theorem filed_run {now : UInt64}
    (hrun : Run (acceptStep externals config) unrestricted (State.start now) events accepted last) :
    Filed externals accepted last := by
  apply hrun.invariant (Filed externals) (filed_start externals now)
  intro accepted state event next emitted hfiled _ hstep
  exact filed_step hfiled hstep

/-- A record that is overwritten was named by an earlier submission of the client. -/
theorem overwrites_run {now : UInt64}
    (hrun : Run (acceptStep externals config) unrestricted (State.start now) events accepted last) :
    EachAfter (fun before new ↦ new.overwrites = true →
      ∃ earlier ∈ before, earlier.keyId = new.keyId ∧ earlier.jobId = new.jobId) accepted := by
  refine hrun.history (Filed externals) (filed_start externals now) ?_ ?_
  · intro accepted state event next emitted hfiled _ hstep
    exact filed_step hfiled hstep
  · intro before state event next new hfiled _ hstep hoverwrites
    obtain ⟨output, heffect, hnew⟩ := acceptStep_eq_some hstep
    rw [(acceptedBy_eq_some heffect hnew.symm).2] at hoverwrites
    have hmem : new.jobId ∈ (state.spool (Keys.keyIdHex new.keyId)).jobs := by
      apply AList.lookup_isSome.mp
      unfold State.hasLive at hoverwrites
      cases hlookup : (state.spool (Keys.keyIdHex new.keyId)).jobs.lookup new.jobId with
      | none => simp [hlookup] at hoverwrites
      | some metadata => rfl
    obtain ⟨earlier, hearlier, hkey, hname⟩ := hfiled.records _ _ hmem
    exact ⟨earlier, hearlier, Keys.keyIdHex_injective hkey, hname⟩

/-! ### Collisions -/

theorem mem_acceptedFrom {keyId : KeyId} {submission : Accepted} :
    submission ∈ acceptedFrom keyId accepted ↔
      submission ∈ accepted ∧ submission.keyId = keyId := by
  simp [acceptedFrom]

/-- Two submissions of one client get one id exactly if they name one source in the same
millisecond. -/
theorem jobId_eq_iff {now : UInt64} {first second : Accepted} {keyId : KeyId}
    (hrun : Run (acceptStep externals config) unrestricted (State.start now) events accepted last)
    (hfree : CollisionFree externals accepted) (hfirst : first ∈ acceptedFrom keyId accepted)
    (hsecond : second ∈ acceptedFrom keyId accepted) :
    first.jobId = second.jobId ↔ first.moment = second.moment := by
  obtain ⟨hmem, hkey⟩ := mem_acceptedFrom.mp hfirst
  obtain ⟨hmem', hkey'⟩ := mem_acceptedFrom.mp hsecond
  rw [(filed_run hrun).ids first hmem, (filed_run hrun).ids second hmem', String.ofList_inj]
  constructor
  · intro hdigits
    exact Accepted.moment_eq_of_hashed (hkey.trans hkey'.symm) (hfree _ hmem _ hmem' hdigits)
  · intro hmoment
    obtain ⟨hsource, hnow⟩ := Prod.mk.inj hmoment
    rw [Accepted.hashed, Accepted.hashed, hkey, hkey', hsource, hnow]

/-- The jobs of a client have ids of their own, and none takes over the record of a live job,
exactly if no two of its accepted submissions name one source in the same millisecond. -/
theorem accepted_submissions_distinct_iff {now : UInt64}
    (hrun : Run (acceptStep externals config) unrestricted (State.start now) events accepted last)
    (hfree : CollisionFree externals accepted) (keyId : KeyId) :
    ((acceptedFrom keyId accepted).map Accepted.jobId).Nodup ∧
        (∀ submission ∈ acceptedFrom keyId accepted, submission.overwrites = false) ↔
      ((acceptedFrom keyId accepted).map Accepted.moment).Nodup := by
  have hsame : ((acceptedFrom keyId accepted).map Accepted.jobId).Nodup ↔
      ((acceptedFrom keyId accepted).map Accepted.moment).Nodup := by
    rw [List.Nodup, List.Nodup, List.pairwise_map, List.pairwise_map]
    apply List.Pairwise.iff_of_mem
    intro first second hfirst hsecond
    rw [ne_eq, ne_eq, jobId_eq_iff hrun hfree hfirst hsecond]
  rw [hsame, and_iff_left_iff_imp]
  intro hdistinct submission hsubmission
  rw [← hsame] at hdistinct
  by_contra hoverwrites
  obtain ⟨hmem, hkey⟩ := mem_acceptedFrom.mp hsubmission
  obtain ⟨before, after, rfl⟩ := List.append_of_mem hmem
  obtain ⟨earlier, hearlier, hkey', hname⟩ :=
    overwrites_run hrun before submission after rfl (by simpa using hoverwrites)
  rw [acceptedFrom, List.filter_append, List.map_append, List.nodup_append] at hdistinct
  refine hdistinct.2.2 earlier.jobId ?_ submission.jobId ?_ hname
  · exact List.mem_map_of_mem (List.mem_filter.mpr ⟨hearlier, by simpa [hkey] using hkey'⟩)
  · exact List.mem_map_of_mem (List.mem_filter.mpr ⟨List.mem_cons_self, by simpa using hkey⟩)

end Runs

/-! ### The same page twice -/

section SampleRuns

open Sample

abbrev sampleAccept : Step State Event Accepted := acceptStep externals config

/-- The submission of the first source at 1000. -/
def acceptedPage (overwrites : Bool) : Accepted :=
  ⟨keyId, .web sourceA false, 1000, jobA.jobId, overwrites⟩

theorem run_submitA : Run sampleAccept unrestricted (State.start 1000) [submitA]
    [acceptedPage false] (alone .queued [jobA] ∅) := by
  have hstep : sampleAccept (State.start 1000) submitA =
      some (alone .queued [jobA] ∅, some (acceptedPage false)) := by decide +kernel
  exact Run.nil.snoc trivial hstep

theorem collisionFree_page (overwrites : List Bool) :
    CollisionFree externals (overwrites.map acceptedPage) := by
  intro first hfirst second hsecond _
  obtain ⟨_, -, rfl⟩ := List.mem_map.mp hfirst
  obtain ⟨_, -, rfl⟩ := List.mem_map.mp hsecond
  rfl

/-- SHA-256 on the first source a second later, too. -/
def laterSha256 (bytes : Bytes) : Octets 32 :=
  if bytes = keyId.toList ++ utf8 sourceA ++ (u64ToBe 2000).toList then
    #v[173, 139, 29, 138, 176, 106, 60, 40, 100, 36, 44, 51, 203, 168, 122, 58, 172, 13, 181, 86,
      113, 150, 24, 89, 213, 177, 138, 168, 70, 136, 0, 132]
  else sha256 bytes

def laterExternals : Externals :=
  { externals with crypto := { externals.crypto with sha256 := laterSha256 } }

/-- Two sources in one millisecond, and the first one again a second later. -/
def pagesEvents : List Event :=
  [submitA, .submit keyId (.web sourceB false) true none, .tick 2000, submitA]

def acceptedPages : List Accepted :=
  [acceptedPage false, ⟨keyId, .web sourceB false, 1000, jobB.jobId, false⟩,
    ⟨keyId, .web sourceA false, 2000, "ad8b1d8ab06a3c2864242c33", false⟩]

theorem accepted_submissions_distinct_pages :
    ∃ last, Run (acceptStep laterExternals config) unrestricted (State.start 1000) pagesEvents
        acceptedPages last ∧
      ((acceptedFrom keyId acceptedPages).map Accepted.jobId).Nodup ∧
      ∀ submission ∈ acceptedFrom keyId acceptedPages, submission.overwrites = false := by
  have hexec : (exec (acceptStep laterExternals config) unrestricted (State.start 1000)
      pagesEvents).any fun result ↦ decide (result.2 = acceptedPages) := by decide +kernel
  obtain ⟨accepted, last, hrun, haccepted⟩ := exists_run_of_exec hexec
  obtain rfl : accepted = acceptedPages := of_decide_eq_true haccepted
  have hfree : CollisionFree laterExternals acceptedPages := by
    unfold CollisionFree
    decide +kernel
  refine ⟨last, hrun, (accepted_submissions_distinct_iff hrun hfree keyId).mpr ?_⟩
  decide +kernel

/-- A page that is submitted twice in one millisecond gets one id, and the second submission takes
over the record of the first. -/
theorem accepted_submissions_collide :
    ¬∀ (externals : Externals) (config : RelayConfig) (now : UInt64) (events : List Event)
        (accepted : List Accepted) (last : State) (keyId : KeyId),
      Run (acceptStep externals config) unrestricted (State.start now) events accepted last →
      CollisionFree externals accepted →
        ((acceptedFrom keyId accepted).map Accepted.jobId).Nodup ∧
          ∀ submission ∈ acceptedFrom keyId accepted, submission.overwrites = false := by
  intro hall
  have hstep : sampleAccept (alone .queued [jobA] ∅) submitA =
      some (alone .queued [jobA, jobA] ∅, some (acceptedPage true)) := by decide +kernel
  have hdistinct := hall externals config 1000 _ _ _ keyId (run_submitA.snoc trivial hstep)
    (collisionFree_page [false, true])
  revert hdistinct
  decide +kernel

end SampleRuns

end Ghostbro.Relay
