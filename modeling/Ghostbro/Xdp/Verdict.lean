import Ghostbro.Xdp.Reading

/-!
# The verdict on one frame

The program either drops a frame or passes it on, and what it drops can be said without its
control flow: IPv4 segments to the proxy port from addresses without a live entry, and datagrams
to the SPA port.  Every read after the EtherType stands behind a bounds check that covers it, so
the branch that fails open is left to frames that end inside the Ethernet header.
-/

namespace Ghostbro.Xdp

/-! ### What is dropped -/

/-- The header length field of an IPv4 packet, in words of four octets. -/
def ihl (frame : Bytes) : ℕ := (frame.getD ethHdrLen 0 &&& 0x0f).toNat

/-- Where the transport header starts. -/
def transportOffset (frame : Bytes) : ℕ := ethHdrLen + 4 * ihl frame

/-- The protocol field of an IPv4 packet. -/
def protocol (frame : Bytes) : UInt8 := frame.getD (ethHdrLen + 9) 0

/-- The destination port of a TCP or UDP header. -/
def destinationPort (frame : Bytes) : UInt16 := wordAt frame (transportOffset frame + 2)

/-- A TCP header to the proxy port, from a source without a live entry. -/
structure BlockedTcp (context : Context) (maps : Maps) (frame : Bytes) : Prop where
  protocol : protocol frame = ipProtoTcp
  header : transportOffset frame + tcpMinHdrLen ≤ frame.length
  port : destinationPort frame = (loadConfig maps).proxyPort
  notLive : ¬∃ entry, maps.allowMap.lookup (sourceAddr frame).toU32 = some entry ∧
    context.now < entry.expiryNs

/-- A UDP header to the SPA port, with SPA over UDP switched on. -/
structure BlockedUdp (maps : Maps) (frame : Bytes) : Prop where
  mode : (loadConfig maps).spaMode &&& spaModeUdp ≠ 0
  protocol : protocol frame = ipProtoUdp
  header : transportOffset frame + udpHdrLen ≤ frame.length
  port : destinationPort frame = (loadConfig maps).spaPort

/-- The frames that the program drops. -/
def Blocked (context : Context) (maps : Maps) (frame : Bytes) : Prop :=
  wordAt frame 12 = ethertypeIpv4 ∧ 5 ≤ ihl frame ∧
    (BlockedTcp context maps frame ∨ BlockedUdp maps frame)

/-! ### The two handlers -/

variable {context : Context} {maps : Maps} {frame : Bytes}

theorem isAllowed_eq_false_iff {now : UInt64} {srcIp : UInt32} :
    (isAllowed maps now srcIp).2 = false ↔
      ¬∃ entry, maps.allowMap.lookup srcIp = some entry ∧ now < entry.expiryNs := by
  unfold isAllowed
  cases hlookup : maps.allowMap.lookup srcIp with
  | none => simp
  | some entry =>
    dsimp only
    split_ifs with hexpired
    · simpa using hexpired
    · simpa using hexpired

/-- Only an expired entry of the address itself is deleted. -/
theorem allowMap_isAllowed (maps : Maps) (now : UInt64) (srcIp : UInt32) :
    (isAllowed maps now srcIp).1.allowMap = maps.allowMap ∨
      ∃ entry, maps.allowMap.lookup srcIp = some entry ∧ entry.expiryNs ≤ now ∧
        (isAllowed maps now srcIp).1.allowMap = maps.allowMap.erase srcIp := by
  unfold isAllowed
  cases hlookup : maps.allowMap.lookup srcIp with
  | none => exact .inl rfl
  | some entry =>
    dsimp only
    split_ifs with hexpired
    · exact .inr ⟨entry, rfl, hexpired, rfl⟩
    · exact .inl rfl

theorem handleTcp_eq (context : Context) (maps : Maps) (frame : Bytes) (offset : ℕ)
    (srcIp : UInt32) (port : UInt16) :
    handleTcp context maps frame offset srcIp port =
      some (if offset + tcpMinHdrLen ≤ frame.length ∧ wordAt frame (offset + 2) = port then
        ((isAllowed maps context.now srcIp).1,
          if (isAllowed maps context.now srcIp).2 then .pass else .drop)
      else (maps, .pass)) := by
  unfold handleTcp
  by_cases hheader : offset + tcpMinHdrLen ≤ frame.length
  · have hport : readBeU16 frame (offset + 2) = some (wordAt frame (offset + 2)) := by
      apply readBeU16_eq
      simp only [tcpMinHdrLen] at hheader
      omega
    simp only [hasBytes_of_le hheader, hport, hheader, Option.bind_eq_bind, Option.bind_some,
      Bool.not_true, Bool.false_eq_true, if_false, true_and, ne_eq, ite_not]
    split_ifs <;> rfl
  · simp only [hasBytes_eq_false hheader, hheader, Bool.not_false, if_true, false_and, if_false]

/-- The length field of a UDP header. -/
def udpLength (frame : Bytes) (offset : ℕ) : ℕ := (wordAt frame (offset + 4)).toNat

/-- The datagrams that reach the admission are those whose length field covers the header and is
covered by the frame. -/
theorem handleUdp_eq (context : Context) (maps : Maps) (frame : Bytes) (offset : ℕ)
    (srcIp : UInt32) (port : UInt16) (limit : UInt32) :
    handleUdp context maps frame offset srcIp port limit =
      some (if offset + udpHdrLen ≤ frame.length ∧ wordAt frame (offset + 2) = port then
        (if udpHdrLen ≤ udpLength frame offset ∧ offset + udpLength frame offset ≤ frame.length then
          admitSpa context maps frame (offset + udpHdrLen) (udpLength frame offset - udpHdrLen)
            srcIp (wordAt frame offset) limit
        else maps, .drop)
      else (maps, .pass)) := by
  unfold handleUdp
  by_cases hheader : offset + udpHdrLen ≤ frame.length
  · have hread : ∀ position ≤ offset + 4,
        readBeU16 frame position = some (wordAt frame position) := by
      intro position hposition
      apply readBeU16_eq
      simp only [udpHdrLen] at hheader
      omega
    have hlength : (wordAt frame (offset + 4)).toNat = udpLength frame offset := rfl
    rw [hread (offset + 2) (by omega), hread offset (by omega), hread (offset + 4) le_rfl]
    simp only [hasBytes_of_le hheader, hheader, Option.bind_eq_bind, Option.bind_some,
      Bool.not_true, Bool.false_eq_true, if_false, true_and, ne_eq, ite_not, hlength]
    by_cases hport : wordAt frame (offset + 2) = port
    · rw [if_pos hport, if_pos hport]
      by_cases hcovers : udpLength frame offset < udpHdrLen
      · rw [if_pos hcovers, if_neg (fun h ↦ absurd h.1 (not_le.mpr hcovers))]
      · have hpayload : offset + udpHdrLen + (udpLength frame offset - udpHdrLen) =
            offset + udpLength frame offset := by omega
        rw [if_neg hcovers, hasBytes, hpayload]
        simp only [not_lt.mp hcovers, true_and, Bool.not_eq_true', decide_eq_false_iff_not, ite_not]
        split_ifs <;> rfl
    · rw [if_neg hport, if_neg hport]
  · simp only [hasBytes_eq_false hheader, hheader, Bool.not_false, if_true, false_and, if_false]

/-- Once a header to the SPA port is there, every way out of `handle_udp` is a drop. -/
theorem handleUdp_verdict (context : Context) (maps : Maps) (frame : Bytes) (offset : ℕ)
    (srcIp : UInt32) (port : UInt16) (limit : UInt32) :
    ∃ maps', handleUdp context maps frame offset srcIp port limit =
        some (maps', if offset + udpHdrLen ≤ frame.length ∧ wordAt frame (offset + 2) = port then
          .drop else .pass) ∧ SameGate maps maps' := by
  have hresult : ∃ maps', handleUdp context maps frame offset srcIp port limit =
      some (maps', if offset + udpHdrLen ≤ frame.length ∧ wordAt frame (offset + 2) = port then
        .drop else .pass) := by
    rw [handleUdp_eq]
    split_ifs <;> exact ⟨_, rfl⟩
  obtain ⟨maps', hmaps'⟩ := hresult
  exact ⟨maps', hmaps', handleUdp_maps hmaps'⟩

/-! ### The whole program -/

theorem headerLen_eq (frame : Bytes) : headerLen (frame.getD ethHdrLen 0) = 4 * ihl frame := by
  rw [headerLen, ihl, Nat.mul_comm]

/-- The program on frames that reach past the Ethernet header: one test after the other, and no
read that fails. -/
theorem tryGhostbroXdp_eq (context : Context) (maps : Maps) (h : ethHdrLen ≤ frame.length) :
    tryGhostbroXdp context maps frame =
      if wordAt frame 12 = ethertypeIpv4 ∧ ethHdrLen + ipv4MinHdrLen ≤ frame.length ∧
          5 ≤ ihl frame then
        if protocol frame = ipProtoTcp then
          handleTcp context maps frame (transportOffset frame) (sourceAddr frame).toU32
            (loadConfig maps).proxyPort
        else if protocol frame = ipProtoUdp ∧ (loadConfig maps).spaMode &&& spaModeUdp ≠ 0 then
          handleUdp context maps frame (transportOffset frame) (sourceAddr frame).toU32
            (loadConfig maps).spaPort (loadConfig maps).rateLimitPerMinute
        else some (maps, .pass)
      else some (maps, .pass) := by
  have hethertype : readBeU16 frame 12 = some (wordAt frame 12) := readBeU16_eq h
  unfold tryGhostbroXdp
  rw [hethertype]
  simp only [Option.bind_eq_bind, Option.bind_some, ne_eq]
  by_cases hipv4 : wordAt frame 12 = ethertypeIpv4
  · by_cases hheader : ethHdrLen + ipv4MinHdrLen ≤ frame.length
    · have hlength : 34 ≤ frame.length := hheader
      have hvihl : readU8 frame ethHdrLen = some (frame.getD ethHdrLen 0) :=
        readU8_eq (by simp only [ethHdrLen]; omega)
      have hprotocol : readU8 frame (ethHdrLen + 9) = some (protocol frame) :=
        readU8_eq (by simp only [ethHdrLen]; omega)
      have hsource : readBeU32 frame (ethHdrLen + 12) = some (sourceAddr frame).toU32 :=
        readBeU32_eq (by simp only [ethHdrLen]; omega)
      have hshort : 4 * ihl frame < ipv4MinHdrLen ↔ ¬5 ≤ ihl frame := by
        rw [ipv4MinHdrLen]
        omega
      rw [hasBytes_of_le hheader, hvihl]
      simp only [Option.bind_some, headerLen_eq, hshort]
      rw [hprotocol, hsource]
      simp only [Option.bind_some, hipv4, hheader, not_true_eq_false, Bool.not_true,
        Bool.false_eq_true, if_false, true_and, ite_not, transportOffset]
    · simp [hasBytes_eq_false hheader, hheader]
  · simp [hipv4]

/-- Only a frame that ends inside the Ethernet header makes a read fail. -/
theorem tryGhostbroXdp_eq_none_iff (context : Context) (maps : Maps) (frame : Bytes) :
    tryGhostbroXdp context maps frame = none ↔ frame.length < ethHdrLen := by
  constructor
  · intro hnone
    by_contra hlength
    obtain ⟨maps', hudp, -⟩ := handleUdp_verdict context maps frame (transportOffset frame)
      (sourceAddr frame).toU32 (loadConfig maps).spaPort (loadConfig maps).rateLimitPerMinute
    rw [tryGhostbroXdp_eq context maps (not_lt.mp hlength), handleTcp_eq, hudp] at hnone
    split_ifs at hnone
  · intro hlength
    unfold tryGhostbroXdp
    rw [readBeU16_eq_none (by simpa only [ethHdrLen] using hlength)]
    rfl

/-- A blocked frame holds a complete IPv4 header. -/
theorem Blocked.length_le (h : Blocked context maps frame) :
    ethHdrLen + ipv4MinHdrLen ≤ frame.length := by
  obtain ⟨-, hihl, htransport⟩ := h
  rcases htransport with htcp | hudp
  · have hheader := htcp.header
    simp only [transportOffset, ethHdrLen, tcpMinHdrLen, ipv4MinHdrLen] at hheader ⊢
    omega
  · have hheader := hudp.header
    simp only [transportOffset, ethHdrLen, udpHdrLen, ipv4MinHdrLen] at hheader ⊢
    omega

/-- The verdict on an IPv4 frame whose header the program accepts. -/
theorem action_of_header (hethertype : wordAt frame 12 = ethertypeIpv4)
    (hlength : ethHdrLen + ipv4MinHdrLen ≤ frame.length) (hihl : 5 ≤ ihl frame) :
    (ghostbroXdp context maps frame).2 = .drop ↔
      BlockedTcp context maps frame ∨ BlockedUdp maps frame := by
  have hdistinct : ipProtoTcp ≠ ipProtoUdp := by decide
  have heq := tryGhostbroXdp_eq context maps (le_trans (Nat.le_add_right _ _) hlength)
  rw [if_pos ⟨hethertype, hlength, hihl⟩] at heq
  unfold ghostbroXdp
  rw [heq]
  split_ifs with htcp hudp
  · rw [handleTcp_eq, Option.getD_some]
    have hnotUdp : ¬BlockedUdp maps frame := by
      intro h
      exact hdistinct (htcp.symm.trans h.protocol)
    rw [or_iff_left hnotUdp]
    split_ifs with hport hallowed
    · refine iff_of_false (by simp) fun h ↦ ?_
      rw [isAllowed_eq_false_iff.mpr h.notLive] at hallowed
      cases hallowed
    · refine iff_of_true rfl ⟨htcp, hport.1, hport.2, ?_⟩
      exact isAllowed_eq_false_iff.mp (by simpa using hallowed)
    · exact iff_of_false (by simp) fun h ↦ hport ⟨h.header, h.port⟩
  · obtain ⟨maps', hhandle, -⟩ := handleUdp_verdict context maps frame (transportOffset frame)
      (sourceAddr frame).toU32 (loadConfig maps).spaPort (loadConfig maps).rateLimitPerMinute
    rw [hhandle, Option.getD_some]
    have hnotTcp : ¬BlockedTcp context maps frame := fun h ↦ htcp h.protocol
    rw [or_iff_right hnotTcp]
    split_ifs with hport
    · exact iff_of_true rfl ⟨hudp.2, hudp.1, hport.1, hport.2⟩
    · exact iff_of_false (by simp) fun h ↦ hport ⟨h.header, h.port⟩
  · refine iff_of_false (by simp) ?_
    rintro (h | h)
    · exact htcp h.protocol
    · exact hudp ⟨h.protocol, h.mode⟩

theorem action_eq_drop_iff (context : Context) (maps : Maps) (frame : Bytes) :
    (ghostbroXdp context maps frame).2 = .drop ↔ Blocked context maps frame := by
  by_cases haccepted : wordAt frame 12 = ethertypeIpv4 ∧
      ethHdrLen + ipv4MinHdrLen ≤ frame.length ∧ 5 ≤ ihl frame
  · obtain ⟨hethertype, hlength, hihl⟩ := haccepted
    rw [action_of_header hethertype hlength hihl]
    exact ⟨fun h ↦ ⟨hethertype, hihl, h⟩, fun h ↦ h.2.2⟩
  · have hpass : (ghostbroXdp context maps frame).2 = .pass := by
      unfold ghostbroXdp
      by_cases hlength : ethHdrLen ≤ frame.length
      · rw [tryGhostbroXdp_eq context maps hlength, if_neg haccepted]
        rfl
      · rw [(tryGhostbroXdp_eq_none_iff context maps frame).mpr (not_le.mp hlength)]
        rfl
    rw [hpass]
    exact iff_of_false (by simp) fun h ↦ haccepted ⟨h.1, h.length_le, h.2.1⟩

/-- The allow map loses at most an expired entry of the source of the frame. -/
theorem allowMap_ghostbroXdp (context : Context) (maps : Maps) (frame : Bytes) :
    (ghostbroXdp context maps frame).1.allowMap = maps.allowMap ∨
      ∃ entry, maps.allowMap.lookup (sourceAddr frame).toU32 = some entry ∧
        entry.expiryNs ≤ context.now ∧ (ghostbroXdp context maps frame).1.allowMap =
          maps.allowMap.erase (sourceAddr frame).toU32 := by
  unfold ghostbroXdp
  by_cases hlength : ethHdrLen ≤ frame.length
  · obtain ⟨maps', hudp, hsame⟩ := handleUdp_verdict context maps frame (transportOffset frame)
      (sourceAddr frame).toU32 (loadConfig maps).spaPort (loadConfig maps).rateLimitPerMinute
    rw [tryGhostbroXdp_eq context maps hlength, handleTcp_eq, hudp]
    split_ifs
    · exact allowMap_isAllowed maps context.now (sourceAddr frame).toU32
    · exact allowMap_isAllowed maps context.now (sourceAddr frame).toU32
    all_goals first
      | exact .inl rfl
      | exact .inl hsame.allowMap
  · rw [(tryGhostbroXdp_eq_none_iff context maps frame).mpr (not_le.mp hlength)]
    exact .inl rfl

/-- For every frame: the verdict is drop exactly on the blocked frames and pass on all others, a
read fails exactly on frames shorter than an Ethernet header, and the allow map changes only by
the deletion of an expired entry of the frame's source. -/
theorem single_frame_verdict (context : Context) (maps : Maps) (frame : Bytes) :
    ((ghostbroXdp context maps frame).2 = .drop ↔ Blocked context maps frame) ∧
    ((ghostbroXdp context maps frame).2 = .pass ↔ ¬Blocked context maps frame) ∧
    (tryGhostbroXdp context maps frame = none ↔ frame.length < 14) ∧
    ((ghostbroXdp context maps frame).1.allowMap = maps.allowMap ∨
      ∃ entry, maps.allowMap.lookup (sourceAddr frame).toU32 = some entry ∧
        entry.expiryNs ≤ context.now ∧ (ghostbroXdp context maps frame).1.allowMap =
          maps.allowMap.erase (sourceAddr frame).toU32) := by
  have hdrop := action_eq_drop_iff context maps frame
  have hpass : (ghostbroXdp context maps frame).2 = .pass ↔ ¬Blocked context maps frame := by
    rw [← hdrop]
    cases (ghostbroXdp context maps frame).2 <;> simp
  exact ⟨hdrop, hpass, tryGhostbroXdp_eq_none_iff context maps frame,
    allowMap_ghostbroXdp context maps frame⟩

end Ghostbro.Xdp
