import Ghostbro.Relay.Engine

/-!
# Job lifetimes

The configuration file gives the lifetime of a job in seconds.  `enqueue` turns it into milliseconds
with 128 bits, narrows them to 64 and adds them to the clock, and a record is written only if its
expiry fits a signed 64-bit integer.  So the expiry is the sum modulo 2^64, and only sums of which
the lower 64 bits say the right thing make an exact expiry.
-/

namespace Ghostbro.Relay

/-! ### The configuration file -/

/-- The limits of `RelaySection`.  Integers of the file are signed 64-bit integers. -/
structure RelaySection where
  jobTtl : Option UInt64
  maxJobsPerClient : Option ℕ
  maxBytesPerClient : Option UInt64
  maxObjectLen : Option UInt64
  workers : Option ℕ
  jobTtl_le : ∀ seconds ∈ jobTtl, seconds ≤ i64Max
  maxBytesPerClient_le : ∀ bytes ∈ maxBytesPerClient, bytes ≤ i64Max

/-- `relay_config`. -/
def relayConfig : Option RelaySection → RelayConfig
  | none => .default
  | some relay =>
    { jobTtlSeconds := relay.jobTtl.getD RelayConfig.default.jobTtlSeconds
      maxJobsPerClient := relay.maxJobsPerClient.getD RelayConfig.default.maxJobsPerClient
      maxBytesPerClient := relay.maxBytesPerClient.getD RelayConfig.default.maxBytesPerClient
      maxObjectLen := relay.maxObjectLen.getD RelayConfig.default.maxObjectLen
      workerCount := relay.workers.getD RelayConfig.default.workerCount
      maxBytesPerClient_le := by
        cases h : relay.maxBytesPerClient with
        | none => exact RelayConfig.default.maxBytesPerClient_le
        | some bytes => exact relay.maxBytesPerClient_le bytes h }

/-! ### The four readers of an expiry -/

section Expiry

variable {externals : Externals} {config config' : RelayConfig} {keyId : KeyId}
  {submission : Submission} {now : UInt64} {fault : Option String} {spool next : Spool}
  {jobId jobId' : String} {metadata metadata' : RelayJobMetadata}

/-- No request and no pass of the reaper takes the job for expired. -/
structure LiveAt (externals : Externals) (config : RelayConfig) (now : UInt64) (spool : Spool)
    (jobId : String) (metadata : RelayJobMetadata) : Prop where
  listed : metadata.row ∈ list now spool
  downloadable : ∀ offset maxLen artifact,
    download now spool jobId offset maxLen artifact ≠ .message .notFound "job expired"
  counted : (clientUsage now spool).1 =
    (clientUsage now { spool with jobs := spool.jobs.erase jobId }).1 + 1
  kept : ∀ state client, state.reaper = .scanning now → state.spool client = spool →
    step externals config state (.reapVisit client jobId) = some (state, none)

/-- The usage count adds one for each live record. -/
theorem clientUsage_fst (now : UInt64) (spool : Spool) :
    (clientUsage now spool).1 = HashMap.total spool.jobs fun _ metadata ↦
      if metadata.expiresAtMs ≤ now then 0 else 1 := by
  have hfold (entries : List (Σ _ : String, RelayJobMetadata)) (usage : ℕ × UInt64) :
      (entries.foldl (fun usage entry ↦
        if entry.2.expiresAtMs ≤ now then usage
        else (usage.1 + 1, usage.2 + entry.2.recorded)) usage).1 =
      usage.1 + entries.foldr (fun entry sum ↦
        (if entry.2.expiresAtMs ≤ now then 0 else 1) + sum) 0 := by
    induction entries generalizing usage with
    | nil => rfl
    | cons entry rest ih =>
      rw [List.foldl_cons, ih, List.foldr_cons]
      split
      · rw [Nat.zero_add]
      · rw [Nat.add_assoc]
  have hall := hfold spool.jobs.entries (0, 0)
  rwa [Nat.zero_add] at hall

theorem liveAt_of_lt (externals : Externals) (config : RelayConfig)
    (hlookup : spool.jobs.lookup jobId = some metadata) (hlive : now < metadata.expiresAtMs) :
    LiveAt externals config now spool jobId metadata where
  listed := by
    apply List.mem_map_of_mem (List.mem_filter.mpr ⟨HashMap.mem_entries_iff.mpr hlookup, _⟩)
    exact decide_eq_true hlive
  downloadable offset maxLen artifact := by
    have hmessage : internalError ≠ .message .notFound "job expired" := by decide
    unfold download
    rw [hlookup]
    dsimp only
    rw [if_neg (UInt64.not_le.mpr hlive)]
    split
    · exact hmessage
    · cases metadata.status with
      | queued | running => simp
      | failed => simp
      | complete =>
        dsimp only
        split
        · simp
        · split
          · exact hmessage
          · exact nofun
  counted := by
    have htotal := HashMap.total_erase_add spool.jobs
      (fun _ metadata ↦ if metadata.expiresAtMs ≤ now then 0 else 1) jobId
    rw [hlookup, Option.elim_some, if_neg (UInt64.not_le.mpr hlive)] at htotal
    rw [clientUsage_fst, clientUsage_fst]
    exact htotal.symm
  kept state client hreaper hspool := by
    simp only [step, hreaper, hspool, hlookup]
    rw [if_neg (UInt64.not_le.mpr hlive)]

/-! ### Lifetimes -/

namespace RelayConfig

/-- The lifetime of a job in milliseconds. -/
def lifetime (config : RelayConfig) : ℕ := config.jobTtlSeconds.toNat * 1000

/-- The sum of the clock and the lifetime is storable, or its lower 64 bits are those of the largest
storable value. -/
def KeepsExpiry (config : RelayConfig) (now : UInt64) : Prop :=
  now.toNat + config.lifetime ≤ i64Max.toNat ∨
    (now.toNat + config.lifetime) % 2 ^ 64 = i64Max.toNat

end RelayConfig

/-- The expiry is the current time plus the lifetime, at most the largest storable value. -/
def ExactExpiry (config : RelayConfig) (now : UInt64) (metadata : RelayJobMetadata) : Prop :=
  metadata.expiresAtMs.toNat = min (now.toNat + config.lifetime) i64Max.toNat

theorem toNat_expiresAtMs (externals : Externals) (config : RelayConfig) (keyId : KeyId)
    (submission : Submission) (now : UInt64) :
    (queuedMetadata externals config keyId submission now).expiresAtMs.toNat =
      (now.toNat + config.lifetime) % 2 ^ 64 := by
  change (now + config.jobTtlMillis).toNat = _
  rw [UInt64.toNat_add, RelayConfig.jobTtlMillis, UInt64.toNat_ofNat', Nat.add_mod_mod]
  rfl

theorem exactExpiry_iff (externals : Externals) (config : RelayConfig) (keyId : KeyId)
    (submission : Submission) (now : UInt64) :
    ExactExpiry config now (queuedMetadata externals config keyId submission now) ↔
      config.KeepsExpiry now := by
  have hmax : i64Max.toNat = 2 ^ 63 - 1 := rfl
  rw [ExactExpiry, RelayConfig.KeepsExpiry, toNat_expiresAtMs]
  omega

/-- The record of an accepted submission. -/
theorem lookup_of_accepted
    (h : enqueue externals config keyId submission now fault spool =
      (.accepted jobId, some (next, jobId'))) :
    next.jobs.lookup jobId = some (queuedMetadata externals config keyId submission now) := by
  obtain ⟨hreply, -, rfl⟩ := enqueue_eq_some h
  rw [Reply.accepted.inj hreply]
  exact AList.lookup_insert _

/-- An exact expiry of a positive lifetime lies ahead. -/
theorem lt_expiresAtMs (hexact : ExactExpiry config now metadata) (hnow : now.toNat < 2 ^ 62)
    (hpos : 0 < config.jobTtlSeconds) : now < metadata.expiresAtMs := by
  have hmax : i64Max.toNat = 2 ^ 63 - 1 := rfl
  have hseconds : 0 < config.jobTtlSeconds.toNat := UInt64.lt_iff_toNat_lt.mp hpos
  rw [UInt64.lt_iff_toNat_lt, hexact, RelayConfig.lifetime]
  omega

theorem expiresAtMs_le (hexact : ExactExpiry config now metadata)
    (hexact' : ExactExpiry config' now metadata')
    (hle : config.jobTtlSeconds ≤ config'.jobTtlSeconds) :
    metadata.expiresAtMs ≤ metadata'.expiresAtMs := by
  have hseconds := UInt64.le_iff_toNat_le.mp hle
  rw [UInt64.le_iff_toNat_le, hexact, hexact', RelayConfig.lifetime, RelayConfig.lifetime]
  omega

/-- An accepted submission expires exactly after the configured lifetime, is live until then and
expires no later than under a longer lifetime that is kept, if and only if its lifetime is kept. -/
theorem expiry_exact_iff {relay : Option RelaySection} (hnow : now.toNat < 2 ^ 62)
    (haccepted : enqueue externals (relayConfig relay) keyId submission now fault spool =
      (.accepted jobId, some (next, jobId'))) :
    (∃ metadata, next.jobs.lookup jobId = some metadata ∧
        ExactExpiry (relayConfig relay) now metadata ∧
        (0 < (relayConfig relay).jobTtlSeconds →
          LiveAt externals (relayConfig relay) now next jobId metadata) ∧
        ∀ relay' submission' fault' spool' jobId' next' metadata',
          (relayConfig relay).jobTtlSeconds ≤ (relayConfig relay').jobTtlSeconds →
          (relayConfig relay').KeepsExpiry now →
          enqueue externals (relayConfig relay') keyId submission' now fault' spool' =
            (.accepted jobId', some (next', jobId')) →
          next'.jobs.lookup jobId' = some metadata' →
            metadata.expiresAtMs ≤ metadata'.expiresAtMs) ↔
      (relayConfig relay).KeepsExpiry now := by
  have hlookup := lookup_of_accepted haccepted
  constructor
  · rintro ⟨metadata, hmetadata, hexact, -⟩
    obtain rfl := Option.some.inj (hlookup.symm.trans hmetadata)
    exact (exactExpiry_iff _ _ _ _ _).mp hexact
  · intro hkeeps
    have hexact := (exactExpiry_iff externals (relayConfig relay) keyId submission now).mpr hkeeps
    refine ⟨_, hlookup, hexact, ?_, ?_⟩
    · intro hpos
      exact liveAt_of_lt externals _ hlookup (lt_expiresAtMs hexact hnow hpos)
    · intro relay' submission' fault' spool' jobId' next' metadata' hle hkeeps' haccepted'
        hmetadata'
      obtain rfl := Option.some.inj ((lookup_of_accepted haccepted').symm.trans hmetadata')
      exact expiresAtMs_le hexact ((exactExpiry_iff _ _ _ _ _).mpr hkeeps') hle

end Expiry

section Samples

open Sample

/-- A configuration file with nothing but a lifetime. -/
def lifetimeOnly (seconds : UInt64) (h : seconds ≤ i64Max) : RelaySection where
  jobTtl := some seconds
  maxJobsPerClient := none
  maxBytesPerClient := none
  maxObjectLen := none
  workers := none
  jobTtl_le := by simpa using h
  maxBytesPerClient_le := by simp

/-- The directory after the only submission. -/
def accepted (relay : Option RelaySection) : Spool :=
  { Spool.empty with
    jobs := AList.insert jobA.jobId
      (queuedMetadata externals (relayConfig relay) keyId (.web sourceA false) 1000) ∅ }

theorem expiry_exact_day :
    (1000 : UInt64).toNat < 2 ^ 62 ∧
      enqueue externals (relayConfig none) keyId (.web sourceA false) 1000 none Spool.empty =
        (.accepted jobA.jobId, some (accepted none, jobA.jobId)) ∧
      ((∃ metadata, (accepted none).jobs.lookup jobA.jobId = some metadata ∧
          ExactExpiry (relayConfig none) 1000 metadata ∧
          (0 < (relayConfig none).jobTtlSeconds →
            LiveAt externals (relayConfig none) 1000 (accepted none) jobA.jobId metadata) ∧
          ∀ relay' submission' fault' spool' jobId' next' metadata',
            (relayConfig none).jobTtlSeconds ≤ (relayConfig relay').jobTtlSeconds →
            (relayConfig relay').KeepsExpiry 1000 →
            enqueue externals (relayConfig relay') keyId submission' 1000 fault' spool' =
              (.accepted jobId', some (next', jobId')) →
            next'.jobs.lookup jobId' = some metadata' →
              metadata.expiresAtMs ≤ metadata'.expiresAtMs) ↔
        (relayConfig none).KeepsExpiry 1000) := by
  have haccepted : enqueue externals (relayConfig none) keyId (.web sourceA false) 1000 none
      Spool.empty = (.accepted jobA.jobId, some (accepted none, jobA.jobId)) := by decide +kernel
  exact ⟨by decide, haccepted, expiry_exact_iff (by decide) haccepted⟩

end Samples

/-- A lifetime of 18446744073709552 seconds is 2^64 + 384 milliseconds, and the job expires after
384 of them. -/
theorem expiry_not_exact :
    ¬∀ (externals : Externals) (relay : Option RelaySection) (keyId : KeyId)
        (submission : Submission) (now : UInt64) (fault : Option String) (spool next : Spool)
        (jobId jobId' : String) (metadata : RelayJobMetadata), now.toNat < 2 ^ 62 →
      enqueue externals (relayConfig relay) keyId submission now fault spool =
        (.accepted jobId, some (next, jobId')) →
      next.jobs.lookup jobId = some metadata → ExactExpiry (relayConfig relay) now metadata := by
  intro hall
  let relay : RelaySection := lifetimeOnly 18446744073709552 (by decide)
  have haccepted : enqueue Sample.externals (relayConfig (some relay)) Sample.keyId
      (.web Sample.sourceA false) 1000 none Spool.empty =
        (.accepted Sample.jobA.jobId, some (accepted (some relay), Sample.jobA.jobId)) := by
    decide +kernel
  have hexact := hall _ _ _ _ _ _ _ _ _ _ _ (by decide) haccepted (lookup_of_accepted haccepted)
  have hkeeps := (exactExpiry_iff _ _ _ _ _).mp hexact
  rw [RelayConfig.KeepsExpiry] at hkeeps
  revert hkeeps
  decide

end Ghostbro.Relay
