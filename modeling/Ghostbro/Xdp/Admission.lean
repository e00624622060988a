import Ghostbro.Foundation.Machine
import Ghostbro.Foundation.TokenBucket
import Ghostbro.Xdp.Verdict

/-!
# Admission of SPA datagrams

A datagram to the SPA port is handed to userspace if its length is that of a sealed packet, if the
bucket of its source address grants it, and if then the bucket shared by all sources grants it.
Both buckets are token buckets over machine words.  A source without an entry starts with a full
bucket, and the zero-filled slot of the shared bucket counts as unused.  The kernel may evict the
entry of any source between two frames, and userspace may change the allow map and drain the ring.
-/

namespace Ghostbro.Xdp

open Machine TokenBucket

/-! ### The frames that reach the limiters -/

/-- The frame is a datagram to the SPA port with the length of a sealed packet. -/
def IsCandidate (maps : Maps) (frame : Bytes) : Prop :=
  (wordAt frame 12 = ethertypeIpv4 ∧ ethHdrLen + ipv4MinHdrLen ≤ frame.length ∧ 5 ≤ ihl frame) ∧
    (protocol frame = ipProtoUdp ∧ (loadConfig maps).spaMode &&& spaModeUdp ≠ 0) ∧
    (transportOffset frame + udpHdrLen ≤ frame.length ∧
      destinationPort frame = (loadConfig maps).spaPort) ∧
    (udpHdrLen ≤ udpLength frame (transportOffset frame) ∧
      transportOffset frame + udpLength frame (transportOffset frame) ≤ frame.length) ∧
    isSpaLength (udpLength frame (transportOffset frame) - udpHdrLen) = true

instance (maps : Maps) (frame : Bytes) : Decidable (IsCandidate maps frame) := by
  unfold IsCandidate
  infer_instance

/-- The two limiters, in the order of `handle_udp`. -/
def limitersAllow (context : Context) (maps : Maps) (srcIp rateLimitPerMinute : UInt32) :
    Maps × Bool :=
  let perIp := rateLimitAllows maps context.now srcIp rateLimitPerMinute
  if perIp.2 then globalRateLimitAllows perIp.1 context.nowGlobal rateLimitPerMinute else perIp

/-- The state of the limiters is the same. -/
structure SameLimits (maps maps' : Maps) : Prop where
  rateLimit : maps'.rateLimit = maps.rateLimit
  globalRate : maps'.globalRate = maps.globalRate

theorem SameLimits.refl (maps : Maps) : SameLimits maps maps := ⟨rfl, rfl⟩

theorem emitSpaEvent_limits (context : Context) (maps : Maps) (frame : Bytes)
    (payloadOffset payloadLen : ℕ) (srcIp : UInt32) (srcPort : UInt16) :
    SameLimits maps
      (emitSpaEvent context maps frame payloadOffset payloadLen srcIp srcPort) := by
  obtain ⟨spaRing, heq⟩ :=
    emitSpaEvent_writes context maps frame payloadOffset payloadLen srcIp srcPort
  rw [heq]
  exact ⟨rfl, rfl⟩

variable {context : Context} {maps : Maps} {frame : Bytes}

/-- An event is emitted exactly if both limiters allow it. -/
theorem admitSpa_eq {payloadOffset payloadLen : ℕ} {srcIp : UInt32} {srcPort : UInt16}
    {limit : UInt32} (hlength : isSpaLength payloadLen = true) :
    admitSpa context maps frame payloadOffset payloadLen srcIp srcPort limit =
      if (limitersAllow context maps srcIp limit).2 then
        emitSpaEvent context (limitersAllow context maps srcIp limit).1 frame payloadOffset
          payloadLen srcIp srcPort
      else (limitersAllow context maps srcIp limit).1 := by
  unfold admitSpa limitersAllow
  rw [hlength]
  dsimp only
  by_cases hperIp : (rateLimitAllows maps context.now srcIp limit).2 = true
  · by_cases htotal : (globalRateLimitAllows (rateLimitAllows maps context.now srcIp limit).1
        context.nowGlobal limit).2 = true
    · simp [hperIp, htotal]
    · simp [hperIp, htotal]
  · simp [hperIp]

/-- What the program does with a candidate. -/
theorem ghostbroXdp_of_candidate (context : Context) (h : IsCandidate maps frame) :
    (∃ payloadOffset payloadLen srcPort, (ghostbroXdp context maps frame).1 =
        emitSpaEvent context (limitersAllow context maps (sourceAddr frame).toU32
          (loadConfig maps).rateLimitPerMinute).1 frame payloadOffset payloadLen
          (sourceAddr frame).toU32 srcPort ∧
        (limitersAllow context maps (sourceAddr frame).toU32
          (loadConfig maps).rateLimitPerMinute).2 = true) ∨
      (ghostbroXdp context maps frame).1 = (limitersAllow context maps (sourceAddr frame).toU32
        (loadConfig maps).rateLimitPerMinute).1 := by
  obtain ⟨haccepted, hudp, hheader, hcovers, hlength⟩ := h
  have htcp : protocol frame ≠ ipProtoTcp := by
    rw [hudp.1]
    decide
  rw [destinationPort] at hheader
  unfold ghostbroXdp
  rw [tryGhostbroXdp_eq context maps (le_trans (Nat.le_add_right _ _) haccepted.2.1),
    if_pos haccepted, if_neg htcp, if_pos hudp, handleUdp_eq, if_pos hheader, if_pos hcovers,
    admitSpa_eq hlength, Option.getD_some]
  dsimp only
  split_ifs with hallow
  · exact .inl ⟨_, _, _, rfl, hallow⟩
  · exact .inr rfl

/-- A candidate leaves the limiters as the two calls do. -/
theorem limits_of_candidate (context : Context) (h : IsCandidate maps frame) :
    SameLimits (limitersAllow context maps (sourceAddr frame).toU32
      (loadConfig maps).rateLimitPerMinute).1 (ghostbroXdp context maps frame).1 := by
  rcases ghostbroXdp_of_candidate context h with ⟨_, _, _, heq, -⟩ | heq
  · rw [heq]
    exact emitSpaEvent_limits _ _ _ _ _ _ _
  · rw [heq]
    exact SameLimits.refl _

/-- All other frames change the allow map at most. -/
theorem ghostbroXdp_of_not_candidate (context : Context) (h : ¬IsCandidate maps frame) :
    ∃ allowMap, (ghostbroXdp context maps frame).1 = { maps with allowMap := allowMap } := by
  unfold ghostbroXdp
  by_cases hlength : ethHdrLen ≤ frame.length
  · rw [tryGhostbroXdp_eq context maps hlength, handleTcp_eq, handleUdp_eq]
    split_ifs with haccepted htcp hport hallowed hudp hheader hcovers
    · exact isAllowed_writes _ _ _
    · exact isAllowed_writes _ _ _
    · exact ⟨_, rfl⟩
    · have hspa : isSpaLength (udpLength frame (transportOffset frame) - udpHdrLen) ≠ true :=
        fun hspa ↦ h ⟨haccepted, hudp, hheader, hcovers, hspa⟩
      rw [Option.getD_some, admitSpa, Bool.eq_false_iff.mpr hspa]
      exact ⟨_, rfl⟩
    all_goals exact ⟨_, rfl⟩
  · rw [(tryGhostbroXdp_eq_none_iff context maps frame).mpr (not_le.mp hlength)]
    exact ⟨_, rfl⟩

/-- They leave the limiters alone. -/
theorem limits_of_not_candidate (context : Context) (h : ¬IsCandidate maps frame) :
    SameLimits maps (ghostbroXdp context maps frame).1 := by
  obtain ⟨allowMap, heq⟩ := ghostbroXdp_of_not_candidate context h
  rw [heq]
  exact ⟨rfl, rfl⟩

/-! ### The limiters as token buckets -/

/-- A stored state as a bucket of natural numbers. -/
def bucketOf (state : RateState) : Bucket := ⟨state.tokens.toNat, state.lastNs.toNat⟩

/-- The bucket of a source. -/
def sourceBucket (maps : Maps) (srcIp : UInt32) : Option Bucket :=
  (maps.rateLimit.lookup srcIp).map bucketOf

/-- The shared bucket; a zero refill time marks a slot that has not been used. -/
def globalBucket (maps : Maps) : Option Bucket :=
  maps.globalRate.bind fun state ↦ if state.lastNs = 0 then none else some (bucketOf state)

/-- The shared bucket is refilled by a call at this time. -/
def globalRefills (maps : Maps) (now : UInt64) : Bool :=
  maps.globalRate.any fun state ↦
    decide (state.lastNs = 0 ∨ saturatingSub now state.lastNs ≥ rateRefillNs)

/-- The length of a refill window. -/
abbrev window : ℕ := rateRefillNs.toNat

/-- The effective limit of a source, as a number. -/
abbrev sourceLimit (rateLimitPerMinute : UInt32) : ℕ := (effectiveLimit rateLimitPerMinute).toNat

/-- The limit of all sources together, as a number. -/
def totalLimit (rateLimitPerMinute : UInt32) : ℕ :=
  min (min (256 * sourceLimit rateLimitPerMinute) (2 ^ 32 - 1)) 1000000

theorem sourceLimit_pos (rateLimitPerMinute : UInt32) : 0 < sourceLimit rateLimitPerMinute := by
  apply Nat.pos_of_ne_zero
  intro hzero
  have hlimit : effectiveLimit rateLimitPerMinute = 0 := UInt32.toNat_inj.mp hzero
  unfold effectiveLimit at hlimit
  split_ifs at hlimit with hdefault
  · cases hlimit
  · exact hdefault hlimit

theorem totalLimit_pos (rateLimitPerMinute : UInt32) : 0 < totalLimit rateLimitPerMinute := by
  have hpos := sourceLimit_pos rateLimitPerMinute
  unfold totalLimit
  omega

/-- The product saturates before it is cut. -/
theorem toNat_globalLimit (rateLimitPerMinute : UInt32) :
    (globalLimit rateLimitPerMinute).toNat = totalLimit rateLimitPerMinute := by
  rw [globalLimit, totalLimit, UInt32.toNat_ofNat', globalRateMultiplier, globalRateMax,
    Nat.mul_comm]
  apply Nat.mod_eq_of_lt
  exact lt_of_le_of_lt (min_le_right _ _) (by decide)

theorem refills_iff {state : RateState} {now : UInt64} :
    Refills window (some (bucketOf state)) now.toNat ↔
      saturatingSub now state.lastNs ≥ rateRefillNs := by
  rw [ge_iff_le, UInt64.le_iff_toNat_le, toNat_saturatingSub]
  simp [Refills, bucketOf]

/-- The test for a token and its removal, as both functions make them. -/
def spend (state : RateState) : RateState × Bool :=
  if state.tokens = 0 then (state, false) else ({ state with tokens := state.tokens - 1 }, true)

/-- The removal of a token does not wrap. -/
theorem bucketOf_spend (state : RateState) :
    bucketOf (spend state).1 = ⟨(bucketOf state).tokens - 1, (bucketOf state).last⟩ := by
  unfold spend
  split_ifs with hempty
  · have hzero : (bucketOf state).tokens = 0 := by
      rw [bucketOf, hempty]
      rfl
    rw [hzero, Nat.zero_sub, ← hzero]
  · have hpositive : state.tokens.toNat ≠ 0 := fun h ↦ hempty (UInt32.toNat_inj.mp h)
    have hone : (1 : UInt32) ≤ state.tokens := by
      rw [UInt32.le_iff_toNat_le]
      exact Nat.one_le_iff_ne_zero.mpr hpositive
    simp only [bucketOf, UInt32.toNat_sub_of_le _ _ hone]
    rfl

theorem spend_snd (state : RateState) :
    (spend state).2 = decide ((bucketOf state).tokens ≠ 0) := by
  have hempty : state.tokens = 0 ↔ (bucketOf state).tokens = 0 :=
    ⟨fun h ↦ by rw [bucketOf, h]; rfl, fun h ↦ UInt32.toNat_inj.mp h⟩
  unfold spend
  by_cases h : state.tokens = 0
  · rw [if_pos h, decide_eq_false (not_not.mpr (hempty.mp h))]
  · rw [if_neg h, decide_eq_true (mt hempty.mpr h)]

theorem isSome_grant {limit period now : ℕ} {bucket : Option Bucket} :
    (grant limit period bucket now).isSome =
      decide ((available limit period bucket now).tokens ≠ 0) := by
  unfold grant
  split_ifs with hempty
  · simp [hempty]
  · simp [hempty]

/-- The state of a source after the refill. -/
def found (maps : Maps) (now : UInt64) (srcIp limit : UInt32) : RateState :=
  let state := (maps.rateLimit.lookup srcIp).getD ⟨effectiveLimit limit, now⟩
  if saturatingSub now state.lastNs ≥ rateRefillNs then ⟨effectiveLimit limit, now⟩ else state

theorem rateLimitAllows_eq (maps : Maps) (now : UInt64) (srcIp limit : UInt32) :
    rateLimitAllows maps now srcIp limit =
      ({ maps with
        rateLimit := maps.rateLimit.insert srcIp (spend (found maps now srcIp limit)).1 },
        (spend (found maps now srcIp limit)).2) := by
  unfold rateLimitAllows found spend
  dsimp only
  split_ifs <;> rfl

theorem bucketOf_found (maps : Maps) (now : UInt64) (srcIp limit : UInt32) :
    bucketOf (found maps now srcIp limit) =
      available (sourceLimit limit) window (sourceBucket maps srcIp) now.toNat := by
  unfold found available sourceBucket
  cases maps.rateLimit.lookup srcIp with
  | none => simp [Refills, bucketOf]
  | some state =>
    dsimp only [Option.getD_some, Option.map_some]
    by_cases hrefill : saturatingSub now state.lastNs ≥ rateRefillNs
    · rw [if_pos hrefill, if_pos (refills_iff.mpr hrefill)]
      rfl
    · rw [if_neg hrefill, if_neg (mt refills_iff.mp hrefill)]

/-- The call of the limiter for one source serves the bucket of that source. -/
theorem rateLimitAllows_serves (maps : Maps) (now : UInt64) (srcIp limit : UInt32) :
    sourceBucket (rateLimitAllows maps now srcIp limit).1 srcIp =
        some (serve (sourceLimit limit) window (sourceBucket maps srcIp) now.toNat) ∧
      (rateLimitAllows maps now srcIp limit).2 =
        (grant (sourceLimit limit) window (sourceBucket maps srcIp) now.toNat).isSome := by
  rw [rateLimitAllows_eq, isSome_grant, ← bucketOf_found, spend_snd]
  refine ⟨?_, rfl⟩
  rw [sourceBucket, AList.lookup_insert, Option.map_some, bucketOf_spend, serve, ← bucketOf_found]

theorem rateLimitAllows_other {maps : Maps} {now : UInt64} {srcIp other limit : UInt32}
    (h : other ≠ srcIp) :
    sourceBucket (rateLimitAllows maps now srcIp limit).1 other = sourceBucket maps other := by
  unfold rateLimitAllows sourceBucket
  dsimp only
  split_ifs <;> rw [AList.lookup_insert_ne h]

theorem globalRate_rateLimitAllows (maps : Maps) (now : UInt64) (srcIp limit : UInt32) :
    (rateLimitAllows maps now srcIp limit).1.globalRate = maps.globalRate := by
  rw [rateLimitAllows_eq]

/-- The state of the shared bucket after the refill. -/
def globalFound (state : RateState) (now : UInt64) (limit : UInt32) : RateState :=
  if state.lastNs = 0 ∨ saturatingSub now state.lastNs ≥ rateRefillNs then
    ⟨globalLimit limit, now⟩
  else state

theorem globalRateLimitAllows_eq {maps : Maps} {state : RateState}
    (h : maps.globalRate = some state) (now : UInt64) (limit : UInt32) :
    globalRateLimitAllows maps now limit =
      ({ maps with globalRate := some (spend (globalFound state now limit)).1 },
        (spend (globalFound state now limit)).2) := by
  unfold globalRateLimitAllows globalFound spend
  rw [h]
  dsimp only
  split_ifs <;> rfl

theorem globalRefills_iff {maps : Maps} {state : RateState} (h : maps.globalRate = some state)
    (now : UInt64) :
    Refills window (globalBucket maps) now.toNat ↔
      state.lastNs = 0 ∨ saturatingSub now state.lastNs ≥ rateRefillNs := by
  rw [globalBucket, h, Option.bind_some]
  split_ifs with hunused
  · simp [Refills, hunused]
  · rw [refills_iff, or_iff_right hunused]

theorem bucketOf_globalFound {maps : Maps} {state : RateState} (h : maps.globalRate = some state)
    (now : UInt64) (limit : UInt32) :
    bucketOf (globalFound state now limit) =
      available (totalLimit limit) window (globalBucket maps) now.toNat := by
  have hrefills := globalRefills_iff h now
  unfold globalFound available
  by_cases hrefill : state.lastNs = 0 ∨ saturatingSub now state.lastNs ≥ rateRefillNs
  · rw [if_pos hrefill, if_pos (hrefills.mpr hrefill), bucketOf, toNat_globalLimit]
  · rw [if_neg hrefill, if_neg (mt hrefills.mp hrefill), globalBucket, h, Option.bind_some,
      if_neg (not_or.mp hrefill).1, Option.getD_some]

/-- After a call at a positive time the shared bucket counts as used. -/
theorem lastNs_globalFound {state : RateState} {now : UInt64} (hnow : 0 < now) (limit : UInt32) :
    (spend (globalFound state now limit)).1.lastNs ≠ 0 := by
  have hspend (found : RateState) : (spend found).1.lastNs = found.lastNs := by
    unfold spend
    split_ifs <;> rfl
  rw [hspend]
  unfold globalFound
  split_ifs with hrefill
  · exact (UInt64.pos_iff_ne_zero.mp hnow)
  · exact (not_or.mp hrefill).1

/-- The call of the shared limiter serves the shared bucket. -/
theorem globalRateLimitAllows_serves {maps : Maps} (hslot : maps.globalRate.isSome) {now : UInt64}
    (hnow : 0 < now) (limit : UInt32) :
    globalBucket (globalRateLimitAllows maps now limit).1 =
        some (serve (totalLimit limit) window (globalBucket maps) now.toNat) ∧
      grant (totalLimit limit) window (globalBucket maps) now.toNat =
        (if (globalRateLimitAllows maps now limit).2 then
          some ⟨now.toNat, globalRefills maps now⟩
        else none) ∧
      (globalRateLimitAllows maps now limit).1.globalRate.isSome := by
  obtain ⟨state, hstate⟩ := Option.isSome_iff_exists.mp hslot
  have hflag : decide (Refills window (globalBucket maps) now.toNat) = globalRefills maps now := by
    rw [globalRefills, hstate, Option.any_some]
    exact decide_eq_decide.mpr (globalRefills_iff hstate now)
  rw [globalRateLimitAllows_eq hstate]
  refine ⟨?_, ?_, rfl⟩
  · rw [globalBucket, Option.bind_some, if_neg (lastNs_globalFound hnow limit), bucketOf_spend,
      serve, ← bucketOf_globalFound hstate]
  · rw [grant, hflag, ← bucketOf_globalFound hstate, spend_snd]
    simp only [decide_eq_true_eq, ite_not, ne_eq]

theorem rateLimit_globalRateLimitAllows (maps : Maps) (now : UInt64) (limit : UInt32) :
    (globalRateLimitAllows maps now limit).1.rateLimit = maps.rateLimit := by
  obtain ⟨globalRate, heq⟩ := globalRateLimitAllows_writes maps now limit
  rw [heq]

/-! ### Frames, evictions and userspace -/

namespace Admission

/-- An admitted frame: its source, the two clock readings of the limiters, and whether it refilled
the shared bucket. -/
structure Admitted where
  srcIp : UInt32
  now : UInt64
  nowGlobal : UInt64
  refilled : Bool
  deriving DecidableEq

/-- An admission as a grant of the shared bucket. -/
def totalGrant (admitted : Admitted) : Grant := ⟨admitted.nowGlobal.toNat, admitted.refilled⟩

/-- When the frames of a source were admitted, by the clock of its own limiter. -/
def sourceTimes (srcIp : UInt32) (outputs : List Admitted) : List ℕ :=
  (outputs.filter fun admitted ↦ admitted.srcIp = srcIp).map fun admitted ↦ admitted.now.toNat

theorem sourceTimes_append (srcIp : UInt32) (outputs outputs' : List Admitted) :
    sourceTimes srcIp (outputs ++ outputs') =
      sourceTimes srcIp outputs ++ sourceTimes srcIp outputs' := by
  simp only [sourceTimes, List.filter_append, List.map_append]

/-- The admission of a frame, which is when `handle_udp` emits an event. -/
def admission (context : Context) (maps : Maps) (frame : Bytes) : Option Admitted :=
  if IsCandidate maps frame ∧ (limitersAllow context maps (sourceAddr frame).toU32
      (loadConfig maps).rateLimitPerMinute).2 = true then
    some ⟨(sourceAddr frame).toU32, context.now, context.nowGlobal,
      globalRefills maps context.nowGlobal⟩
  else none

/-- The maps, and the last reading of the clock. -/
structure State where
  maps : Maps
  clock : UInt64
  deriving DecidableEq

inductive Event
  | frame (context : Context) (frame : Bytes)
  /-- The kernel evicts the entry of a source from the map of rate limits. -/
  | evict (srcIp : UInt32)
  /-- Userspace changes the allow map and drains the ring. -/
  | userspace (allowMap : HashMap UInt32 AllowEntry) (spaRing : List Bytes)

/-- One frame after the other, with evictions and userspace between them. -/
def step : Step State Event Admitted
  | state, .frame context frame =>
    some (⟨(ghostbroXdp context state.maps frame).1, context.nowGlobal⟩,
      admission context state.maps frame)
  | state, .evict srcIp =>
    some ({ state with
      maps := { state.maps with rateLimit := state.maps.rateLimit.erase srcIp } }, none)
  | state, .userspace allowMap spaRing =>
    some ({ state with
      maps := { state.maps with allowMap := allowMap, spaRing := spaRing } }, none)

/-- The clock is positive and does not go back. -/
def Ticking (state : State) : Event → Prop
  | .frame context _ =>
    state.clock ≤ context.now ∧ 0 < context.now ∧ context.now ≤ context.nowGlobal
  | _ => True

/-- The program before its first frame: no source has an entry, and the kernel has zeroed the slot
of the shared bucket. -/
def start (config : Option BpfConfig) (allowMap : HashMap UInt32 AllowEntry)
    (spaRing : List Bytes) : State where
  maps := ⟨config, allowMap, ∅, some ⟨0, 0⟩, spaRing⟩
  clock := 0

/-- The configured limit. -/
def configuredLimit (config : Option BpfConfig) : UInt32 :=
  (loadConfig ⟨config, ∅, ∅, none, []⟩).rateLimitPerMinute

/-! ### What a frame does to the buckets -/

variable {config : Option BpfConfig} {state next : State} {event : Event}
  {emitted : Option Admitted}

theorem config_step (hstep : step state event = some (next, emitted)) :
    next.maps.config = state.maps.config := by
  cases event with
  | frame context frame =>
    obtain ⟨rfl, -⟩ := Prod.mk.inj (Option.some.inj hstep)
    exact (ghostbroXdp_maps context state.maps frame).config
  | evict srcIp =>
    obtain ⟨rfl, -⟩ := Prod.mk.inj (Option.some.inj hstep)
    rfl
  | userspace allowMap spaRing =>
    obtain ⟨rfl, -⟩ := Prod.mk.inj (Option.some.inj hstep)
    rfl

theorem rateLimit_of_config (h : state.maps.config = config) :
    (loadConfig state.maps).rateLimitPerMinute = configuredLimit config := by
  rw [← h]
  rfl

theorem admission_of_not_candidate {context : Context} {maps : Maps} {frame : Bytes}
    (h : ¬IsCandidate maps frame) : admission context maps frame = none :=
  if_neg fun hadmitted ↦ h hadmitted.1

/-- Nothing is admitted against the bucket of its source. -/
theorem eq_of_admission {context : Context} {maps : Maps} {frame : Bytes} {admitted : Admitted}
    (h : admission context maps frame = some admitted) :
    admitted = ⟨(sourceAddr frame).toU32, context.now, context.nowGlobal,
        globalRefills maps context.nowGlobal⟩ ∧
      (rateLimitAllows maps context.now (sourceAddr frame).toU32
        (loadConfig maps).rateLimitPerMinute).2 = true := by
  unfold admission at h
  split_ifs at h with hallow
  refine ⟨(Option.some.inj h).symm, ?_⟩
  by_contra hdenied
  have hdeny : limitersAllow context maps (sourceAddr frame).toU32
      (loadConfig maps).rateLimitPerMinute = _ := if_neg hdenied
  rw [hdeny] at hallow
  exact hdenied hallow.2

theorem spaRing_limitersAllow (context : Context) (maps : Maps)
    (srcIp rateLimitPerMinute : UInt32) :
    (limitersAllow context maps srcIp rateLimitPerMinute).1.spaRing = maps.spaRing := by
  unfold limitersAllow
  dsimp only
  split_ifs
  · rw [globalRateLimitAllows_spaRing, rateLimitAllows_spaRing]
  · rw [rateLimitAllows_spaRing]

theorem spaRing_emitSpaEvent (context : Context) (maps : Maps) (frame : Bytes)
    (payloadOffset payloadLen : ℕ) (srcIp : UInt32) (srcPort : UInt16) :
    (emitSpaEvent context maps frame payloadOffset payloadLen srcIp srcPort).spaRing =
        maps.spaRing ∨
      ∃ item, (emitSpaEvent context maps frame payloadOffset payloadLen srcIp srcPort).spaRing =
        maps.spaRing ++ [item] := by
  unfold emitSpaEvent
  generalize (if payloadLen > 176 then 176 else payloadLen) = copyLen
  dsimp only
  split_ifs
  · exact .inl rfl
  · split
    · exact .inl rfl
    · split
      · exact .inl rfl
      · exact .inr ⟨_, rfl⟩

/-- Userspace is handed one event for an admitted frame at most, and none for any other: the ring
grows only on admissions. -/
theorem spaRing_grows_on_admission (context : Context) (maps : Maps) (frame : Bytes) :
    (ghostbroXdp context maps frame).1.spaRing = maps.spaRing ∨
      ((admission context maps frame).isSome ∧
        ∃ item, (ghostbroXdp context maps frame).1.spaRing = maps.spaRing ++ [item]) := by
  by_cases hcandidate : IsCandidate maps frame
  · have hring := spaRing_limitersAllow context maps (sourceAddr frame).toU32
      (loadConfig maps).rateLimitPerMinute
    rcases ghostbroXdp_of_candidate context hcandidate with ⟨_, _, _, heq, hallow⟩ | heq
    · rw [heq, ← hring]
      have hadmitted : (admission context maps frame).isSome := by
        rw [admission, if_pos ⟨hcandidate, hallow⟩]
        rfl
      exact (spaRing_emitSpaEvent _ _ _ _ _ _ _).imp_right fun hitem ↦ ⟨hadmitted, hitem⟩
    · rw [heq]
      exact .inl hring
  · obtain ⟨allowMap, heq⟩ := ghostbroXdp_of_not_candidate context hcandidate
    rw [heq]
    exact .inl rfl

/-- The shared bucket after a candidate whose own bucket has a token. -/
theorem globalBucket_candidate {context : Context} {maps : Maps} {frame : Bytes}
    (hcandidate : IsCandidate maps frame) (hslot : maps.globalRate.isSome)
    (hnow : 0 < context.nowGlobal) (hperIp : (rateLimitAllows maps context.now
      (sourceAddr frame).toU32 (loadConfig maps).rateLimitPerMinute).2 = true) :
    let next := (ghostbroXdp context maps frame).1
    let limit := totalLimit (loadConfig maps).rateLimitPerMinute
    globalBucket next = some (serve limit window (globalBucket maps) context.nowGlobal.toNat) ∧
      next.globalRate.isSome ∧
      grant limit window (globalBucket maps) context.nowGlobal.toNat =
        (admission context maps frame).map totalGrant := by
  dsimp only
  have hlimits := limits_of_candidate context hcandidate
  have hallow : limitersAllow context maps (sourceAddr frame).toU32
      (loadConfig maps).rateLimitPerMinute = _ := if_pos hperIp
  have hsame := globalRate_rateLimitAllows maps context.now (sourceAddr frame).toU32
    (loadConfig maps).rateLimitPerMinute
  rw [hallow] at hlimits
  rw [← hsame] at hslot
  obtain ⟨hserve, hgrant, hsome⟩ := globalRateLimitAllows_serves hslot hnow
    (loadConfig maps).rateLimitPerMinute
  unfold globalBucket at hserve hgrant
  unfold globalRefills at hgrant
  rw [hsame] at hserve hgrant
  unfold globalBucket admission globalRefills
  rw [hlimits.globalRate, hallow]
  refine ⟨hserve, hsome, hgrant.trans ?_⟩
  simp only [hcandidate, true_and]
  split_ifs <;> rfl

/-- The shared bucket after a frame: untouched and nothing admitted, or served, and the admission
is its grant. -/
theorem globalBucket_frame {context : Context} {maps : Maps} (frame : Bytes)
    (hslot : maps.globalRate.isSome) (hnow : 0 < context.nowGlobal) :
    let next := (ghostbroXdp context maps frame).1
    let limit := totalLimit (loadConfig maps).rateLimitPerMinute
    (globalBucket next = globalBucket maps ∧ next.globalRate.isSome ∧
        admission context maps frame = none) ∨
      (globalBucket next =
          some (serve limit window (globalBucket maps) context.nowGlobal.toNat) ∧
        next.globalRate.isSome ∧
        grant limit window (globalBucket maps) context.nowGlobal.toNat =
          (admission context maps frame).map totalGrant) := by
  dsimp only
  by_cases hcandidate : IsCandidate maps frame
  · by_cases hperIp : (rateLimitAllows maps context.now (sourceAddr frame).toU32
        (loadConfig maps).rateLimitPerMinute).2 = true
    · exact .inr (globalBucket_candidate hcandidate hslot hnow hperIp)
    · have hlimits := limits_of_candidate context hcandidate
      have hdeny : limitersAllow context maps (sourceAddr frame).toU32
          (loadConfig maps).rateLimitPerMinute = _ := if_neg hperIp
      have hsame := hlimits.globalRate
      rw [hdeny, globalRate_rateLimitAllows] at hsame
      left
      unfold globalBucket
      rw [hsame]
      refine ⟨rfl, hslot, if_neg fun hadmitted ↦ hperIp ?_⟩
      rw [← hdeny]
      exact hadmitted.2
  · have hsame := (limits_of_not_candidate context hcandidate).globalRate
    left
    unfold globalBucket
    rw [hsame]
    exact ⟨rfl, hslot, admission_of_not_candidate hcandidate⟩

/-- The bucket of a source after a frame: untouched and nothing of the source admitted, or served,
and an admission needs its grant. -/
theorem sourceBucket_frame (context : Context) (maps : Maps) (frame : Bytes) (srcIp : UInt32) :
    let next := (ghostbroXdp context maps frame).1
    let limit := sourceLimit (loadConfig maps).rateLimitPerMinute
    (sourceBucket next srcIp = sourceBucket maps srcIp ∧
        ∀ admitted ∈ admission context maps frame, admitted.srcIp ≠ srcIp) ∨
      (sourceBucket next srcIp =
          some (serve limit window (sourceBucket maps srcIp) context.now.toNat) ∧
        ∀ admitted ∈ admission context maps frame, admitted.now = context.now ∧
          (grant limit window (sourceBucket maps srcIp) context.now.toNat).isSome = true) := by
  dsimp only
  by_cases hcandidate : IsCandidate maps frame
  · have hlimits := (limits_of_candidate context hcandidate).rateLimit
    have hbucket (other : UInt32) : sourceBucket (ghostbroXdp context maps frame).1 other =
        sourceBucket (rateLimitAllows maps context.now (sourceAddr frame).toU32
          (loadConfig maps).rateLimitPerMinute).1 other := by
      unfold sourceBucket
      rw [hlimits]
      unfold limitersAllow
      dsimp only
      split_ifs
      · rw [rateLimit_globalRateLimitAllows]
      · rfl
    rw [hbucket]
    by_cases hsource : srcIp = (sourceAddr frame).toU32
    · right
      obtain ⟨hserve, hgrant⟩ := rateLimitAllows_serves maps context.now srcIp
        (loadConfig maps).rateLimitPerMinute
      rw [← hsource]
      refine ⟨hserve, fun admitted hadmitted ↦ ?_⟩
      rw [← hgrant, hsource]
      obtain ⟨rfl, hallowed⟩ := eq_of_admission hadmitted
      exact ⟨rfl, hallowed⟩
    · left
      refine ⟨rateLimitAllows_other hsource, fun admitted hadmitted ↦ ?_⟩
      obtain ⟨rfl, -⟩ := eq_of_admission hadmitted
      exact Ne.symm hsource
  · have hsame := (limits_of_not_candidate context hcandidate).rateLimit
    left
    unfold sourceBucket
    rw [hsame, admission_of_not_candidate hcandidate]
    exact ⟨rfl, by simp⟩

/-! ### Runs -/

/-- The shared bucket has granted exactly the admissions. -/
structure TotalServed (config : Option BpfConfig) (outputs : List Admitted) (state : State) :
    Prop where
  sameConfig : state.maps.config = config
  slot : state.maps.globalRate.isSome
  served : Served (totalLimit (configuredLimit config)) window (outputs.map totalGrant)
    (globalBucket state.maps) state.clock.toNat

/-- The bucket of a source has granted all its admissions, and possibly requests that the shared
bucket refused. -/
structure SourceServed (config : Option BpfConfig) (srcIp : UInt32) (outputs : List Admitted)
    (state : State) : Prop where
  sameConfig : state.maps.config = config
  served : ∃ grants, (sourceTimes srcIp outputs).Sublist (grants.map Grant.time) ∧
    Served (sourceLimit (configuredLimit config)) window grants (sourceBucket state.maps srcIp)
      state.clock.toNat

theorem totalServed_step {outputs : List Admitted} (h : TotalServed config outputs state)
    (hticking : Ticking state event) (hstep : step state event = some (next, emitted)) :
    TotalServed config (outputs ++ emitted.toList) next := by
  have hconfig := (config_step hstep).trans h.sameConfig
  cases event with
  | frame context frame =>
    obtain ⟨rfl, rfl⟩ := Prod.mk.inj (Option.some.inj hstep)
    obtain ⟨hclock, hpositive, hnow⟩ := hticking
    have hserved := h.served.wait (UInt64.le_iff_toNat_le.mp (UInt64.le_trans hclock hnow))
    have hlimit := rateLimit_of_config h.sameConfig
    rcases globalBucket_frame frame h.slot (UInt64.lt_of_lt_of_le hpositive hnow) with
      ⟨hbucket, hslot, hnone⟩ | ⟨hbucket, hslot, hgrant⟩
    · refine ⟨hconfig, hslot, ?_⟩
      rw [hnone, Option.toList_none, List.append_nil, hbucket]
      exact hserved
    · refine ⟨hconfig, hslot, ?_⟩
      rw [hlimit] at hbucket hgrant
      have hrequest := hserved.request
      rw [hgrant, ← hbucket, Option.toList_map, ← List.map_append] at hrequest
      exact hrequest
  | evict srcIp =>
    obtain ⟨rfl, rfl⟩ := Prod.mk.inj (Option.some.inj hstep)
    refine ⟨hconfig, h.slot, ?_⟩
    rw [Option.toList_none, List.append_nil]
    exact h.served
  | userspace allowMap spaRing =>
    obtain ⟨rfl, rfl⟩ := Prod.mk.inj (Option.some.inj hstep)
    refine ⟨hconfig, h.slot, ?_⟩
    rw [Option.toList_none, List.append_nil]
    exact h.served

/-- A request of a source brings at most its own admission. -/
theorem sublist_of_grant {srcIp : UInt32} {now : UInt64} {limit period : ℕ}
    {bucket : Option Bucket} (h : ∀ admitted ∈ emitted,
      admitted.now = now ∧ (grant limit period bucket now.toNat).isSome = true) :
    (sourceTimes srcIp emitted.toList).Sublist
      ((grant limit period bucket now.toNat).toList.map Grant.time) := by
  cases emitted with
  | none => exact List.nil_sublist _
  | some admitted =>
    obtain ⟨htime, hgranted⟩ := h admitted rfl
    obtain ⟨granted, hgrant⟩ := Option.isSome_iff_exists.mp hgranted
    rw [hgrant, Option.toList_some, Option.toList_some, List.map_singleton, time_of_grant hgrant,
      ← htime]
    exact List.filter_sublist.map fun admitted : Admitted ↦ admitted.now.toNat

theorem sourceServed_step {srcIp : UInt32} {outputs : List Admitted}
    (h : SourceServed config srcIp outputs state) (hticking : Ticking state event)
    (hkept : event ≠ .evict srcIp) (hstep : step state event = some (next, emitted)) :
    SourceServed config srcIp (outputs ++ emitted.toList) next := by
  have hconfig := (config_step hstep).trans h.sameConfig
  obtain ⟨grants, hsublist, hserved⟩ := h.served
  cases event with
  | frame context frame =>
    obtain ⟨rfl, rfl⟩ := Prod.mk.inj (Option.some.inj hstep)
    obtain ⟨hclock, hpositive, hnow⟩ := hticking
    have hbefore := hserved.wait (UInt64.le_iff_toNat_le.mp hclock)
    have hlater := UInt64.le_iff_toNat_le.mp hnow
    have hlimit := rateLimit_of_config h.sameConfig
    rcases sourceBucket_frame context state.maps frame srcIp with
      ⟨hbucket, hother⟩ | ⟨hbucket, hadmitted⟩
    · refine ⟨hconfig, grants, ?_, ?_⟩
      · have hnone : sourceTimes srcIp (admission context state.maps frame).toList = [] := by
          apply List.map_eq_nil_iff.mpr
          apply List.filter_eq_nil_iff.mpr
          intro admitted hmem
          simpa using hother admitted (Option.mem_toList.mp hmem)
        rw [sourceTimes_append, hnone, List.append_nil]
        exact hsublist
      · rw [hbucket]
        exact hbefore.wait hlater
    · rw [hlimit] at hbucket hadmitted
      have hrequest := hbefore.request.wait hlater
      rw [← hbucket] at hrequest
      refine ⟨hconfig, _, ?_, hrequest⟩
      rw [sourceTimes_append, List.map_append]
      exact hsublist.append (sublist_of_grant hadmitted)
  | evict other =>
    obtain ⟨rfl, rfl⟩ := Prod.mk.inj (Option.some.inj hstep)
    have hne : srcIp ≠ other := fun h ↦ hkept (by rw [h])
    rw [Option.toList_none, List.append_nil]
    refine ⟨hconfig, grants, hsublist, ?_⟩
    unfold sourceBucket
    rw [AList.lookup_erase_ne hne]
    exact hserved
  | userspace allowMap spaRing =>
    obtain ⟨rfl, rfl⟩ := Prod.mk.inj (Option.some.inj hstep)
    rw [Option.toList_none, List.append_nil]
    exact ⟨hconfig, grants, hsublist, hserved⟩

/-- No entry holds more tokens than its limit. -/
structure WithinLimits (config : Option BpfConfig) (maps : Maps) : Prop where
  sameConfig : maps.config = config
  source : ∀ srcIp, ∀ used ∈ sourceBucket maps srcIp,
    used.tokens ≤ sourceLimit (configuredLimit config)
  total : ∀ used ∈ globalBucket maps, used.tokens ≤ totalLimit (configuredLimit config)

theorem withinLimits_step (h : WithinLimits config state.maps)
    (hslot : state.maps.globalRate.isSome) (hticking : Ticking state event)
    (hstep : step state event = some (next, emitted)) : WithinLimits config next.maps := by
  have hconfig := (config_step hstep).trans h.sameConfig
  have hlimit := rateLimit_of_config h.sameConfig
  cases event with
  | frame context frame =>
    obtain ⟨rfl, -⟩ := Prod.mk.inj (Option.some.inj hstep)
    obtain ⟨-, hpositive, hnow⟩ := hticking
    refine ⟨hconfig, fun srcIp ↦ ?_, ?_⟩
    · rcases sourceBucket_frame context state.maps frame srcIp with ⟨hbucket, -⟩ | ⟨hbucket, -⟩
      · rw [hbucket]
        exact h.source srcIp
      · intro used hused
        rw [hbucket, hlimit] at hused
        obtain rfl := Option.some.inj hused
        exact tokens_serve_le (h.source srcIp)
    · rcases globalBucket_frame frame hslot (UInt64.lt_of_lt_of_le hpositive hnow) with
        ⟨hbucket, -⟩ | ⟨hbucket, -⟩
      · rw [hbucket]
        exact h.total
      · intro used hused
        rw [hbucket, hlimit] at hused
        obtain rfl := Option.some.inj hused
        exact tokens_serve_le h.total
  | evict other =>
    obtain ⟨rfl, -⟩ := Prod.mk.inj (Option.some.inj hstep)
    refine ⟨hconfig, fun srcIp used hused ↦ ?_, h.total⟩
    unfold sourceBucket at hused
    by_cases hsource : srcIp = other
    · rw [hsource, AList.lookup_erase] at hused
      cases hused
    · rw [AList.lookup_erase_ne hsource] at hused
      exact h.source srcIp used hused
  | userspace allowMap spaRing =>
    obtain ⟨rfl, -⟩ := Prod.mk.inj (Option.some.inj hstep)
    exact ⟨hconfig, h.source, h.total⟩

variable {allowMap : HashMap UInt32 AllowEntry} {spaRing : List Bytes} {events : List Event}
  {outputs : List Admitted}

theorem totalServed_of_run
    (hrun : Run step Ticking (start config allowMap spaRing) events outputs state) :
    TotalServed config outputs state :=
  hrun.invariant (TotalServed config) ⟨rfl, rfl, .start⟩
    fun _ _ _ _ _ h hticking hstep ↦ totalServed_step h hticking hstep

theorem sourceServed_of_run {srcIp : UInt32}
    (hrun : Run step Ticking (start config allowMap spaRing) events outputs state)
    (hkept : ∀ event ∈ events, event ≠ .evict srcIp) :
    SourceServed config srcIp outputs state := by
  apply (hrun.restrict hkept).invariant (SourceServed config srcIp)
  · exact ⟨rfl, [], List.nil_sublist _, .start⟩
  · intro outputs state event next emitted h hguard hstep
    exact sourceServed_step h hguard.1 hguard.2 hstep

theorem withinLimits_of_run
    (hrun : Run step Ticking (start config allowMap spaRing) events outputs state) :
    WithinLimits config state.maps := by
  have hboth := hrun.invariant
    (fun outputs state ↦ TotalServed config outputs state ∧ WithinLimits config state.maps)
    ⟨⟨rfl, rfl, .start⟩, rfl, by simp [sourceBucket, start], by simp [globalBucket, start]⟩
    fun _ _ _ _ _ h hticking hstep ↦ ⟨totalServed_step h.1 hticking hstep,
      withinLimits_step h.2 h.1.slot hticking hstep⟩
  exact hboth.2

/-- A call stores the tokens it found less the one it took, and found no more than its limit. -/
def Spends (limit : ℕ) (bucket : Option Bucket) (now : UInt64) (stored : Option RateState)
    (allowed : Bool) : Prop :=
  ∃ state, stored = some state ∧
    state.tokens.toNat + allowed.toNat = (available limit window bucket now.toNat).tokens ∧
    (available limit window bucket now.toNat).tokens ≤ limit

theorem spends_source {maps : Maps} (h : WithinLimits config maps) (now : UInt64)
    (srcIp : UInt32) :
    Spends (sourceLimit (configuredLimit config)) (sourceBucket maps srcIp) now
      ((rateLimitAllows maps now srcIp (configuredLimit config)).1.rateLimit.lookup srcIp)
      (rateLimitAllows maps now srcIp (configuredLimit config)).2 := by
  obtain ⟨hserve, hgrant⟩ := rateLimitAllows_serves maps now srcIp (configuredLimit config)
  obtain ⟨stored, hstored, hbucket⟩ := Option.map_eq_some_iff.mp hserve
  refine ⟨stored, hstored, ?_, tokens_available_le (h.source srcIp)⟩
  rw [hgrant, ← tokens_serve_add, ← hbucket]
  rfl

theorem spends_total {maps : Maps} (h : WithinLimits config maps) (hslot : maps.globalRate.isSome)
    {now : UInt64} (hnow : 0 < now) :
    Spends (totalLimit (configuredLimit config)) (globalBucket maps) now
      (globalRateLimitAllows maps now (configuredLimit config)).1.globalRate
      (globalRateLimitAllows maps now (configuredLimit config)).2 := by
  obtain ⟨hserve, hgrant, -⟩ := globalRateLimitAllows_serves hslot hnow (configuredLimit config)
  obtain ⟨stored, hstored, hbucket⟩ := Option.bind_eq_some_iff.mp hserve
  refine ⟨stored, hstored, ?_, tokens_available_le h.total⟩
  have hallowed : (grant (totalLimit (configuredLimit config)) window (globalBucket maps)
      now.toNat).isSome = (globalRateLimitAllows maps now (configuredLimit config)).2 := by
    rw [hgrant]
    cases (globalRateLimitAllows maps now (configuredLimit config)).2 <;> rfl
  split_ifs at hbucket
  rw [← hallowed, ← tokens_serve_add, ← Option.some.inj hbucket]
  rfl

/-- For every run of frames, with `L` the effective limit of a source and `G` the limit of all
sources: of the frames admitted within less than a window there are at most `2 * G - 1`, whatever
is evicted, and at most `2 * L - 1` of one source whose entry is never evicted; from one refill of
the shared bucket to the next at most `G` are admitted; and every call of a limiter subtracts
without wrapping. -/
theorem admission_bounds (config : Option BpfConfig) (allowMap : HashMap UInt32 AllowEntry)
    (spaRing : List Bytes) (events : List Event) (outputs : List Admitted) (state : State)
    (hrun : Run step Ticking (start config allowMap spaRing) events outputs state) :
    let L := (effectiveLimit (configuredLimit config)).toNat
    let G := min (min (256 * L) (2 ^ 32 - 1)) 1000000
    (∀ picked : List Admitted, picked.Sublist outputs →
      (∀ a ∈ picked, ∀ b ∈ picked, b.nowGlobal.toNat < a.nowGlobal.toNat + rateRefillNs.toNat) →
      picked.length ≤ 2 * G - 1) ∧
    (∀ srcIp, (∀ event ∈ events, event ≠ .evict srcIp) →
      ∀ picked : List Admitted, picked.Sublist outputs → (∀ a ∈ picked, a.srcIp = srcIp) →
      (∀ a ∈ picked, ∀ b ∈ picked, b.now.toNat < a.now.toNat + rateRefillNs.toNat) →
      picked.length ≤ 2 * L - 1) ∧
    (∀ before segment after : List Admitted, outputs = before ++ segment ++ after →
      (∀ a ∈ segment.tail, a.refilled = false) → segment.length ≤ G) ∧
    (∀ now srcIp, Spends L (sourceBucket state.maps srcIp) now
      ((rateLimitAllows state.maps now srcIp (configuredLimit config)).1.rateLimit.lookup srcIp)
      (rateLimitAllows state.maps now srcIp (configuredLimit config)).2) ∧
    (∀ now, 0 < now → Spends G (globalBucket state.maps) now
      (globalRateLimitAllows state.maps now (configuredLimit config)).1.globalRate
      (globalRateLimitAllows state.maps now (configuredLimit config)).2) ∧
    (globalLimit (configuredLimit config)).toNat = G := by
  dsimp only
  have htotal := totalServed_of_run hrun
  have hwithin := withinLimits_of_run hrun
  refine ⟨fun picked hpicked hnear ↦ ?_, fun srcIp hkept picked hpicked hsource hnear ↦ ?_,
    fun before segment after houtputs hsegment ↦ ?_,
    fun now srcIp ↦ spends_source hwithin now srcIp,
    fun now hnow ↦ spends_total hwithin htotal.slot hnow, toNat_globalLimit _⟩
  · have hbound := htotal.served.picked_length_le (totalLimit_pos _) (hpicked.map totalGrant) (by
      intro a ha b hb
      simp only [List.map_map, List.mem_map, Function.comp_apply] at ha hb
      obtain ⟨earlier, hearlier, rfl⟩ := ha
      obtain ⟨later, hlater, rfl⟩ := hb
      exact hnear earlier hearlier later hlater)
    rw [List.length_map] at hbound
    exact hbound
  · obtain ⟨grants, hsublist, hserved⟩ := (sourceServed_of_run hrun hkept).served
    have hfilter : (picked.map fun admitted ↦ admitted.now.toNat).Sublist
        (sourceTimes srcIp outputs) := by
      have hkeep : picked.filter (fun admitted ↦ admitted.srcIp = srcIp) = picked :=
        List.filter_eq_self.mpr fun a ha ↦ by simpa using hsource a ha
      rw [← hkeep]
      exact (hpicked.filter _).map _
    have hbound := hserved.near_length_le (sourceLimit_pos _) (hfilter.trans hsublist) (by
      intro a ha b hb
      obtain ⟨earlier, hearlier, rfl⟩ := List.mem_map.mp ha
      obtain ⟨later, hlater, rfl⟩ := List.mem_map.mp hb
      exact hnear earlier hearlier later hlater)
    rw [List.length_map] at hbound
    exact hbound
  · have hgrants : outputs.map totalGrant =
        before.map totalGrant ++ segment.map totalGrant ++ after.map totalGrant := by
      rw [houtputs, List.map_append, List.map_append]
    have hbound := htotal.served.segment_length_le (totalLimit_pos _) hgrants (by
      intro later hlater
      rw [← List.map_tail] at hlater
      obtain ⟨admitted, hadmitted, rfl⟩ := List.mem_map.mp hlater
      exact hsegment admitted hadmitted)
    rw [List.length_map] at hbound
    exact hbound

/-! ### A sample run -/

/-- A datagram from 203.0.113.7 to port 53 with 143 octets of payload. -/
def sampleFrame : Bytes :=
  List.replicate 12 2 ++ [0x08, 0x00] ++
    [0x45, 0, 0, 171, 0, 1, 0, 0, 64, 17, 0, 0, 203, 0, 113, 7, 198, 51, 100, 1] ++
    [0xc0, 0x00, 0, 53, 0, 151, 0, 0] ++ List.replicate 143 9

/-- The clock stands at this time, and the ring is full. -/
def sampleContext (now : UInt64) : Context := ⟨.little, now, now, none⟩

/-- One frame a minute under a limit of one: each is admitted by a refill of its own bucket. -/
def sampleConfig : Option BpfConfig := some ⟨53, 8443, 1, 1⟩

def sampleSource : UInt32 := 0xcb007107

def sampleState (clock : UInt64) : State :=
  ⟨⟨sampleConfig, ∅, AList.insert sampleSource ⟨0, clock⟩ ∅, some ⟨255, clock⟩, []⟩, clock⟩

/-- The bound of one source is reached by one frame in a window. -/
theorem admission_bounds_sample :
    ([⟨sampleSource, 1000, 1000, true⟩] : List Admitted).length ≤
      2 * (effectiveLimit (configuredLimit sampleConfig)).toNat - 1 := by
  have hfirst : step (start sampleConfig ∅ []) (.frame (sampleContext 1000) sampleFrame) =
      some (sampleState 1000, some ⟨sampleSource, 1000, 1000, true⟩) := by
    decide +kernel
  have hsecond : step (sampleState 1000) (.frame (sampleContext 60000001000) sampleFrame) =
      some (sampleState 60000001000, some ⟨sampleSource, 60000001000, 60000001000, true⟩) := by
    decide +kernel
  have hnil : Run step Ticking (start sampleConfig ∅ []) [] [] (start sampleConfig ∅ []) := .nil
  have hticking₁ : Ticking (start sampleConfig ∅ []) (.frame (sampleContext 1000) sampleFrame) :=
    ⟨by decide, by decide, by decide⟩
  have hticking₂ : Ticking (sampleState 1000) (.frame (sampleContext 60000001000) sampleFrame) :=
    ⟨by decide, by decide, by decide⟩
  have hrun := (hnil.snoc hticking₁ hfirst).snoc hticking₂ hsecond
  obtain ⟨-, hsource, -⟩ := admission_bounds _ _ _ _ _ _ hrun
  apply hsource sampleSource
  · simp
  · exact List.singleton_sublist.mpr (by simp)
  · simp
  · intro a ha b hb
    rw [List.mem_singleton.mp ha, List.mem_singleton.mp hb]
    decide

end Admission

end Ghostbro.Xdp
