import Ghostbro.Foundation.HashMap
import Ghostbro.Common.Keys

/-!
# The XDP program

`ghostbro_xdp` looks at one frame at a time.  A frame is a byte string from the Ethernet header
on; `data` is its start, so a checked pointer sum is an offset and a bounds check compares with
the length of the frame.  A failed read is `none` and fails open.  The BPF maps are explicit
state.  What the program gets from the kernel in one invocation is a `Context`: the clock values
it reads, the byte order of the host and the ring memory it may reserve.
-/

namespace Ghostbro

/-! ### Types shared with userspace -/

def defaultSpaPort : UInt16 := 53

def defaultProxyPort : UInt16 := 8443

def defaultRateLimitPerMinute : UInt32 := 5

def spaModeUdp : UInt32 := 1

/-- `BpfConfig`. -/
structure BpfConfig where
  spaPort : UInt16
  proxyPort : UInt16
  rateLimitPerMinute : UInt32
  spaMode : UInt32
  deriving DecidableEq

/-- `AllowEntry`. -/
structure AllowEntry where
  expiryNs : UInt64
  keyId : KeyId
  clientId : UInt16
  pad : UInt16
  deriving DecidableEq

/-- `RateState`. -/
structure RateState where
  tokens : UInt32
  lastNs : UInt64
  deriving DecidableEq

/-- The byte order of the host. -/
inductive Endian
  | little
  | big
  deriving DecidableEq

/-- `to_ne_bytes` of a number of `width` octets. -/
def Endian.neBytes (endian : Endian) (width value : ℕ) : Bytes :=
  match endian with
  | .little => (beBytes width value).reverse
  | .big => beBytes width value

/-- The number that a native-endian byte string denotes. -/
def Endian.neNat (endian : Endian) (bytes : Bytes) : ℕ :=
  match endian with
  | .little => beNat bytes.reverse
  | .big => beNat bytes

namespace Xdp

inductive XdpAction
  | pass
  | drop
  deriving DecidableEq

/-- The maps of the program; the ring holds submitted events, oldest first. -/
structure Maps where
  config : Option BpfConfig
  allowMap : HashMap UInt32 AllowEntry
  rateLimit : HashMap UInt32 RateState
  globalRate : Option RateState
  spaRing : List Bytes
  deriving DecidableEq

/-- What one invocation gets from the kernel. -/
structure Context where
  endian : Endian
  /-- `bpf_ktime_get_ns` in `is_allowed` or `rate_limit_allows`. -/
  now : UInt64
  /-- `bpf_ktime_get_ns` in `global_rate_limit_allows`. -/
  nowGlobal : UInt64
  /-- The memory that `SPA_RING.reserve` hands out, if the ring has room. -/
  reservation : Option (Octets 184)

def ethHdrLen : ℕ := 14

def ipv4MinHdrLen : ℕ := 20

def tcpMinHdrLen : ℕ := 20

def udpHdrLen : ℕ := 8

def ethertypeIpv4 : UInt16 := 0x0800

def ipProtoTcp : UInt8 := 6

def ipProtoUdp : UInt8 := 17

def rateRefillNs : UInt64 := 60000000000

def globalRateMultiplier : ℕ := 256

def globalRateMax : ℕ := 1000000

/-! ### Reading the frame -/

/-- `has_bytes`. -/
def hasBytes (frame : Bytes) (offset len : ℕ) : Bool := decide (offset + len ≤ frame.length)

/-- `read_u8`. -/
def readU8 (frame : Bytes) (offset : ℕ) : Option UInt8 := frame[offset]?

/-- `read_be_u16`. -/
def readBeU16 (frame : Bytes) (offset : ℕ) : Option UInt16 := do
  let high ← readU8 frame offset
  let low ← readU8 frame (offset + 1)
  return (high.toUInt16 <<< 8) ||| low.toUInt16

/-- `read_be_u32`. -/
def readBeU32 (frame : Bytes) (offset : ℕ) : Option UInt32 := do
  let b0 ← readU8 frame offset
  let b1 ← readU8 frame (offset + 1)
  let b2 ← readU8 frame (offset + 2)
  let b3 ← readU8 frame (offset + 3)
  return (b0.toUInt32 <<< 24) ||| (b1.toUInt32 <<< 16) ||| (b2.toUInt32 <<< 8) ||| b3.toUInt32

/-! ### The gate and the rate limits -/

/-- `load_config`. -/
def loadConfig (maps : Maps) : BpfConfig :=
  maps.config.getD ⟨defaultSpaPort, defaultProxyPort, defaultRateLimitPerMinute, spaModeUdp⟩

/-- `is_allowed`, with the lazy deletion of an expired entry. -/
def isAllowed (maps : Maps) (now : UInt64) (srcIp : UInt32) : Maps × Bool :=
  match maps.allowMap.lookup srcIp with
  | none => (maps, false)
  | some entry =>
    if entry.expiryNs ≤ now then ({ maps with allowMap := maps.allowMap.erase srcIp }, false)
    else (maps, true)

/-- The limit in force for a configured one. -/
def effectiveLimit (configuredLimit : UInt32) : UInt32 :=
  if configuredLimit = 0 then defaultRateLimitPerMinute else configuredLimit

/-- `rate_limit_allows`. -/
def rateLimitAllows (maps : Maps) (now : UInt64) (srcIp configuredLimit : UInt32) :
    Maps × Bool :=
  let limit := effectiveLimit configuredLimit
  let state := (maps.rateLimit.lookup srcIp).getD ⟨limit, now⟩
  let state := if saturatingSub now state.lastNs ≥ rateRefillNs then ⟨limit, now⟩ else state
  if state.tokens = 0 then
    ({ maps with rateLimit := maps.rateLimit.insert srcIp state }, false)
  else
    let state := { state with tokens := state.tokens - 1 }
    ({ maps with rateLimit := maps.rateLimit.insert srcIp state }, true)

/-- The budget of the global bucket: `saturating_mul` by the multiplier, then `min`. -/
def globalLimit (configuredLimit : UInt32) : UInt32 :=
  UInt32.ofNat (min (min ((effectiveLimit configuredLimit).toNat * globalRateMultiplier)
    (2 ^ 32 - 1)) globalRateMax)

/-- `global_rate_limit_allows`; an unavailable slot fails closed. -/
def globalRateLimitAllows (maps : Maps) (now : UInt64) (configuredLimit : UInt32) :
    Maps × Bool :=
  match maps.globalRate with
  | none => (maps, false)
  | some state =>
    let state :=
      if state.lastNs = 0 ∨ saturatingSub now state.lastNs ≥ rateRefillNs then
        ⟨globalLimit configuredLimit, now⟩
      else state
    if state.tokens = 0 then ({ maps with globalRate := some state }, false)
    else ({ maps with globalRate := some { state with tokens := state.tokens - 1 } }, true)

/-! ### Events -/

/-- `is_spa_length`. -/
def isSpaLength (payloadLen : ℕ) : Bool := decide (143 ≤ payloadLen ∧ payloadLen ≤ 176)

/-- `bpf_xdp_load_bytes`. -/
def xdpLoadBytes (frame : Bytes) (offset len : ℕ) : Option Bytes :=
  if offset + len ≤ frame.length then some ((frame.drop offset).take len) else none

/-- `emit_spa_event`: header fields and payload are written over the reserved memory. -/
def emitSpaEvent (context : Context) (maps : Maps) (frame : Bytes)
    (payloadOffset payloadLen : ℕ) (srcIp : UInt32) (srcPort : UInt16) : Maps :=
  let copyLen := if payloadLen > 176 then 176 else payloadLen
  if copyLen < 143 then maps
  else
    match context.reservation with
    | none => maps
    | some memory =>
      match xdpLoadBytes frame payloadOffset copyLen with
      | none => maps
      | some payload =>
        let event := context.endian.neBytes 4 srcIp.toNat ++
          context.endian.neBytes 2 srcPort.toNat ++ context.endian.neBytes 2 copyLen ++
          payload ++ memory.toList.drop (8 + copyLen)
        { maps with spaRing := maps.spaRing ++ [event] }

/-! ### The program -/

/-- `handle_tcp`. -/
def handleTcp (context : Context) (maps : Maps) (frame : Bytes) (transportOffset : ℕ)
    (srcIp : UInt32) (proxyPort : UInt16) : Option (Maps × XdpAction) :=
  if !hasBytes frame transportOffset tcpMinHdrLen then some (maps, .pass)
  else do
    let dstPort ← readBeU16 frame (transportOffset + 2)
    if dstPort ≠ proxyPort then some (maps, .pass)
    else
      let allowed := isAllowed maps context.now srcIp
      if allowed.2 then some (allowed.1, .pass) else some (allowed.1, .drop)

/-- The admission of `handle_udp`: length, per-source limit and global limit, in this order. -/
def admitSpa (context : Context) (maps : Maps) (frame : Bytes) (payloadOffset payloadLen : ℕ)
    (srcIp : UInt32) (srcPort : UInt16) (rateLimitPerMinute : UInt32) : Maps :=
  if !isSpaLength payloadLen then maps
  else
    let perIp := rateLimitAllows maps context.now srcIp rateLimitPerMinute
    if !perIp.2 then perIp.1
    else
      let total := globalRateLimitAllows perIp.1 context.nowGlobal rateLimitPerMinute
      if !total.2 then total.1
      else emitSpaEvent context total.1 frame payloadOffset payloadLen srcIp srcPort

/-- `handle_udp`. -/
def handleUdp (context : Context) (maps : Maps) (frame : Bytes) (transportOffset : ℕ)
    (srcIp : UInt32) (spaPort : UInt16) (rateLimitPerMinute : UInt32) :
    Option (Maps × XdpAction) :=
  if !hasBytes frame transportOffset udpHdrLen then some (maps, .pass)
  else do
    let dstPort ← readBeU16 frame (transportOffset + 2)
    if dstPort ≠ spaPort then some (maps, .pass)
    else do
      let srcPort ← readBeU16 frame transportOffset
      let udpLen ← readBeU16 frame (transportOffset + 4)
      if udpLen.toNat < udpHdrLen then some (maps, .drop)
      else
        let payloadOffset := transportOffset + udpHdrLen
        let payloadLen := udpLen.toNat - udpHdrLen
        if !hasBytes frame payloadOffset payloadLen then some (maps, .drop)
        else some (admitSpa context maps frame payloadOffset payloadLen srcIp srcPort
          rateLimitPerMinute, .drop)

/-- The IPv4 header length in octets that a version and length octet denotes. -/
def headerLen (vihl : UInt8) : ℕ := (vihl &&& 0x0f).toNat * 4

/-- `try_ghostbro_xdp`. -/
def tryGhostbroXdp (context : Context) (maps : Maps) (frame : Bytes) :
    Option (Maps × XdpAction) := do
  let config := loadConfig maps
  let ethertype ← readBeU16 frame 12
  if ethertype ≠ ethertypeIpv4 then some (maps, .pass)
  else if !hasBytes frame ethHdrLen ipv4MinHdrLen then some (maps, .pass)
  else do
    let vihl ← readU8 frame ethHdrLen
    if headerLen vihl < ipv4MinHdrLen then some (maps, .pass)
    else do
      let proto ← readU8 frame (ethHdrLen + 9)
      let srcIp ← readBeU32 frame (ethHdrLen + 12)
      let transportOffset := ethHdrLen + headerLen vihl
      if proto = ipProtoTcp then
        handleTcp context maps frame transportOffset srcIp config.proxyPort
      else if proto = ipProtoUdp ∧ config.spaMode &&& spaModeUdp ≠ 0 then
        handleUdp context maps frame transportOffset srcIp config.spaPort
          config.rateLimitPerMinute
      else some (maps, .pass)

/-- `ghostbro_xdp`. -/
def ghostbroXdp (context : Context) (maps : Maps) (frame : Bytes) : Maps × XdpAction :=
  (tryGhostbroXdp context maps frame).getD (maps, .pass)

/-! ### What an invocation does to the configuration and the allow map -/

/-- Each helper writes one map at most. -/
theorem isAllowed_writes (maps : Maps) (now : UInt64) (srcIp : UInt32) :
    ∃ allowMap, (isAllowed maps now srcIp).1 = { maps with allowMap := allowMap } := by
  unfold isAllowed
  split
  · exact ⟨_, rfl⟩
  · split_ifs <;> exact ⟨_, rfl⟩

theorem rateLimitAllows_writes (maps : Maps) (now : UInt64) (srcIp configuredLimit : UInt32) :
    ∃ rateLimit, (rateLimitAllows maps now srcIp configuredLimit).1 =
      { maps with rateLimit := rateLimit } := by
  unfold rateLimitAllows
  dsimp only
  split_ifs <;> exact ⟨_, rfl⟩

theorem globalRateLimitAllows_writes (maps : Maps) (now : UInt64) (configuredLimit : UInt32) :
    ∃ globalRate, (globalRateLimitAllows maps now configuredLimit).1 =
      { maps with globalRate := globalRate } := by
  unfold globalRateLimitAllows
  split
  · exact ⟨_, rfl⟩
  · dsimp only
    split_ifs <;> exact ⟨_, rfl⟩

theorem rateLimitAllows_spaRing (maps : Maps) (now : UInt64) (srcIp configuredLimit : UInt32) :
    (rateLimitAllows maps now srcIp configuredLimit).1.spaRing = maps.spaRing := by
  obtain ⟨rateLimit, heq⟩ := rateLimitAllows_writes maps now srcIp configuredLimit
  rw [heq]

theorem globalRateLimitAllows_spaRing (maps : Maps) (now : UInt64) (configuredLimit : UInt32) :
    (globalRateLimitAllows maps now configuredLimit).1.spaRing = maps.spaRing := by
  obtain ⟨globalRate, heq⟩ := globalRateLimitAllows_writes maps now configuredLimit
  rw [heq]

theorem emitSpaEvent_writes (context : Context) (maps : Maps) (frame : Bytes)
    (payloadOffset payloadLen : ℕ) (srcIp : UInt32) (srcPort : UInt16) :
    ∃ spaRing, emitSpaEvent context maps frame payloadOffset payloadLen srcIp srcPort =
      { maps with spaRing := spaRing } := by
  unfold emitSpaEvent
  generalize (if payloadLen > 176 then 176 else payloadLen) = copyLen
  dsimp only
  split_ifs
  · exact ⟨_, rfl⟩
  · split
    · exact ⟨_, rfl⟩
    · split <;> exact ⟨_, rfl⟩

/-- The configuration and the allow map are the same. -/
structure SameGate (maps maps' : Maps) : Prop where
  config : maps'.config = maps.config
  allowMap : maps'.allowMap = maps.allowMap

theorem SameGate.refl (maps : Maps) : SameGate maps maps := ⟨rfl, rfl⟩

theorem SameGate.trans {maps maps' maps'' : Maps} (h : SameGate maps maps')
    (h' : SameGate maps' maps'') : SameGate maps maps'' :=
  ⟨h'.config.trans h.config, h'.allowMap.trans h.allowMap⟩

/-- The configuration is the same, and at most one entry that had expired is gone. -/
structure LazilyDeleted (now : UInt64) (maps maps' : Maps) : Prop where
  config : maps'.config = maps.config
  allowMap : maps'.allowMap = maps.allowMap ∨ ∃ ip entry,
    maps.allowMap.lookup ip = some entry ∧ entry.expiryNs ≤ now ∧
      maps'.allowMap = maps.allowMap.erase ip

theorem SameGate.lazilyDeleted {now : UInt64} {maps maps' : Maps} (h : SameGate maps maps') :
    LazilyDeleted now maps maps' := ⟨h.config, .inl h.allowMap⟩

theorem isAllowed_maps (maps : Maps) (now : UInt64) (srcIp : UInt32) :
    LazilyDeleted now maps (isAllowed maps now srcIp).1 := by
  unfold isAllowed
  cases hlookup : maps.allowMap.lookup srcIp with
  | none => exact (SameGate.refl maps).lazilyDeleted
  | some entry =>
    dsimp only
    split_ifs with hexpired
    · exact ⟨rfl, .inr ⟨srcIp, entry, hlookup, hexpired, rfl⟩⟩
    · exact (SameGate.refl maps).lazilyDeleted

theorem rateLimitAllows_maps (maps : Maps) (now : UInt64) (srcIp configuredLimit : UInt32) :
    SameGate maps (rateLimitAllows maps now srcIp configuredLimit).1 := by
  obtain ⟨rateLimit, heq⟩ := rateLimitAllows_writes maps now srcIp configuredLimit
  rw [heq]
  exact ⟨rfl, rfl⟩

theorem globalRateLimitAllows_maps (maps : Maps) (now : UInt64) (configuredLimit : UInt32) :
    SameGate maps (globalRateLimitAllows maps now configuredLimit).1 := by
  obtain ⟨globalRate, heq⟩ := globalRateLimitAllows_writes maps now configuredLimit
  rw [heq]
  exact ⟨rfl, rfl⟩

theorem emitSpaEvent_maps (context : Context) (maps : Maps) (frame : Bytes)
    (payloadOffset payloadLen : ℕ) (srcIp : UInt32) (srcPort : UInt16) :
    SameGate maps (emitSpaEvent context maps frame payloadOffset payloadLen srcIp srcPort) := by
  obtain ⟨spaRing, heq⟩ :=
    emitSpaEvent_writes context maps frame payloadOffset payloadLen srcIp srcPort
  rw [heq]
  exact ⟨rfl, rfl⟩

theorem admitSpa_maps (context : Context) (maps : Maps) (frame : Bytes)
    (payloadOffset payloadLen : ℕ) (srcIp : UInt32) (srcPort : UInt16)
    (rateLimitPerMinute : UInt32) :
    SameGate maps (admitSpa context maps frame payloadOffset payloadLen srcIp srcPort
      rateLimitPerMinute) := by
  have hperIp := rateLimitAllows_maps maps context.now srcIp rateLimitPerMinute
  have htotal := hperIp.trans
    (globalRateLimitAllows_maps _ context.nowGlobal rateLimitPerMinute)
  unfold admitSpa
  dsimp only
  split_ifs
  · exact SameGate.refl maps
  · exact hperIp
  · exact htotal
  · exact htotal.trans (emitSpaEvent_maps _ _ _ _ _ _ _)

theorem handleUdp_maps {context : Context} {maps maps' : Maps} {frame : Bytes}
    {transportOffset : ℕ} {srcIp : UInt32} {spaPort : UInt16} {rateLimitPerMinute : UInt32}
    {action : XdpAction}
    (h : handleUdp context maps frame transportOffset srcIp spaPort rateLimitPerMinute =
      some (maps', action)) : SameGate maps maps' := by
  simp only [handleUdp, Option.bind_eq_bind] at h
  split_ifs at h
  · obtain ⟨rfl, _⟩ := Prod.mk.inj (Option.some.inj h)
    exact SameGate.refl maps
  · obtain ⟨dstPort, _, h⟩ := Option.bind_eq_some_iff.mp h
    split_ifs at h
    · obtain ⟨rfl, _⟩ := Prod.mk.inj (Option.some.inj h)
      exact SameGate.refl maps
    · obtain ⟨srcPort, _, h⟩ := Option.bind_eq_some_iff.mp h
      obtain ⟨udpLen, _, h⟩ := Option.bind_eq_some_iff.mp h
      split_ifs at h
      · obtain ⟨rfl, _⟩ := Prod.mk.inj (Option.some.inj h)
        exact SameGate.refl maps
      · obtain ⟨rfl, _⟩ := Prod.mk.inj (Option.some.inj h)
        exact SameGate.refl maps
      · obtain ⟨rfl, _⟩ := Prod.mk.inj (Option.some.inj h)
        exact admitSpa_maps _ _ _ _ _ _ _ _

theorem handleTcp_maps {context : Context} {maps maps' : Maps} {frame : Bytes}
    {transportOffset : ℕ} {srcIp : UInt32} {proxyPort : UInt16} {action : XdpAction}
    (h : handleTcp context maps frame transportOffset srcIp proxyPort = some (maps', action)) :
    LazilyDeleted context.now maps maps' := by
  simp only [handleTcp, Option.bind_eq_bind] at h
  split at h
  · obtain ⟨rfl, _⟩ := Prod.mk.inj (Option.some.inj h)
    exact (SameGate.refl maps).lazilyDeleted
  · obtain ⟨dstPort, _, h⟩ := Option.bind_eq_some_iff.mp h
    split_ifs at h
    · obtain ⟨rfl, _⟩ := Prod.mk.inj (Option.some.inj h)
      exact (SameGate.refl maps).lazilyDeleted
    · obtain ⟨rfl, _⟩ := Prod.mk.inj (Option.some.inj h)
      exact isAllowed_maps maps context.now srcIp
    · obtain ⟨rfl, _⟩ := Prod.mk.inj (Option.some.inj h)
      exact isAllowed_maps maps context.now srcIp

/-- One invocation keeps the configuration and deletes at most one expired allow entry. -/
theorem ghostbroXdp_maps (context : Context) (maps : Maps) (frame : Bytes) :
    LazilyDeleted context.now maps (ghostbroXdp context maps frame).1 := by
  unfold ghostbroXdp
  cases h : tryGhostbroXdp context maps frame with
  | none => exact (SameGate.refl maps).lazilyDeleted
  | some verdict =>
    obtain ⟨maps', action⟩ := verdict
    simp only [tryGhostbroXdp, Option.bind_eq_bind] at h
    obtain ⟨ethertype, _, h⟩ := Option.bind_eq_some_iff.mp h
    split_ifs at h
    · obtain ⟨rfl, _⟩ := Prod.mk.inj (Option.some.inj h)
      exact (SameGate.refl maps).lazilyDeleted
    · obtain ⟨rfl, _⟩ := Prod.mk.inj (Option.some.inj h)
      exact (SameGate.refl maps).lazilyDeleted
    obtain ⟨vihl, _, h⟩ := Option.bind_eq_some_iff.mp h
    split_ifs at h
    · obtain ⟨rfl, _⟩ := Prod.mk.inj (Option.some.inj h)
      exact (SameGate.refl maps).lazilyDeleted
    obtain ⟨proto, _, h⟩ := Option.bind_eq_some_iff.mp h
    obtain ⟨srcIp, _, h⟩ := Option.bind_eq_some_iff.mp h
    split_ifs at h
    · exact handleTcp_maps h
    · exact (handleUdp_maps h).lazilyDeleted
    · obtain ⟨rfl, _⟩ := Prod.mk.inj (Option.some.inj h)
      exact (SameGate.refl maps).lazilyDeleted

end Xdp

end Ghostbro
