import Ghostbro.Server.Daemon
import Ghostbro.Xdp.Reading

/-!
# From the wire to the verifier

The XDP program writes an SPA candidate into the ring as raw memory, and `run_spa` reads that
memory back as a struct.  A candidate is a UDP datagram to the SPA port whose length field leaves
143 to 176 octets of payload, behind an IPv4 header of any length; the program looks at the
EtherType, the header length and the protocol, and at nothing else of the IPv4 header.  Such a
datagram reaches the verifier octet for octet and with the source address of the frame, and no
other frame puts anything into the ring.
-/

namespace Ghostbro

/-! ### Native byte order -/

@[simp]
theorem Endian.length_neBytes (endian : Endian) (width value : ℕ) :
    (endian.neBytes width value).length = width := by
  cases endian <;> simp [neBytes]

/-- A number that fits is read back as it was written. -/
theorem Endian.neNat_neBytes (endian : Endian) {width value : ℕ} (h : value < 256 ^ width) :
    endian.neNat (endian.neBytes width value) = value := by
  cases endian with
  | little => rw [neNat, neBytes, List.reverse_reverse, beNat_beBytes, Nat.mod_eq_of_lt h]
  | big => rw [neNat, neBytes, beNat_beBytes, Nat.mod_eq_of_lt h]

namespace Xdp

/-! ### Candidates -/

/-- The payload of the UDP datagram behind an IPv4 header of `ihl` words. -/
def udpPayload (frame : Bytes) (ihl udpLen : ℕ) : Bytes :=
  (frame.drop (ethHdrLen + ihl * 4 + udpHdrLen)).take (udpLen - udpHdrLen)

/-- An Ethernet frame with an IPv4 header of `ihl` words and a UDP datagram to the SPA port whose
length field is `udpLen`, all of which is present.  Anything may follow the datagram. -/
structure CarriesSpa (spaPort : UInt16) (frame : Bytes) (ihl udpLen : ℕ) : Prop where
  ethertype : readBeU16 frame 12 = some ethertypeIpv4
  header : ∃ vihl, readU8 frame ethHdrLen = some vihl ∧ (vihl &&& 0x0f).toNat = ihl
  minHeader : 5 ≤ ihl
  protocol : readU8 frame (ethHdrLen + 9) = some ipProtoUdp
  port : readBeU16 frame (ethHdrLen + ihl * 4 + 2) = some spaPort
  length : ∃ word, readBeU16 frame (ethHdrLen + ihl * 4 + 4) = some word ∧ word.toNat = udpLen
  window : 143 ≤ udpLen - udpHdrLen ∧ udpLen - udpHdrLen ≤ 176
  present : ethHdrLen + ihl * 4 + udpLen ≤ frame.length

/-- Both token buckets admit a candidate of the source. -/
def RatesAdmit (context : Context) (maps : Maps) (source : Ipv4Addr) : Prop :=
  let limit := (loadConfig maps).rateLimitPerMinute
  let perIp := rateLimitAllows maps context.now source.toU32 limit
  perIp.2 = true ∧ (globalRateLimitAllows perIp.1 context.nowGlobal limit).2 = true

/-- Everything that has to hold for a frame to be submitted. -/
structure Submitted (context : Context) (maps : Maps) (frame : Bytes) (ihl udpLen : ℕ) :
    Prop where
  carries : CarriesSpa (loadConfig maps).spaPort frame ihl udpLen
  /-- The server is configured for SPA over UDP. -/
  udpMode : (loadConfig maps).spaMode &&& spaModeUdp ≠ 0
  rates : RatesAdmit context maps (sourceAddr frame)
  room : context.reservation.isSome

/-! ### What an invocation submits -/

/-- The ring memory after `emit_spa_event`: three native-endian words, the payload, and what was
in the reserved memory behind it. -/
def ringEvent (endian : Endian) (memory : Octets 184) (srcIp : UInt32) (srcPort : UInt16)
    (payload : Bytes) : Bytes :=
  endian.neBytes 4 srcIp.toNat ++ endian.neBytes 2 srcPort.toNat ++
    endian.neBytes 2 payload.length ++ payload ++ memory.toList.drop (8 + payload.length)

theorem emitSpaEvent_eq {context : Context} {memory : Octets 184} {frame : Bytes}
    {payloadOffset payloadLen : ℕ} (hmemory : context.reservation = some memory)
    (hmin : 143 ≤ payloadLen) (hmax : payloadLen ≤ 176)
    (hpresent : payloadOffset + payloadLen ≤ frame.length) (maps : Maps) (srcIp : UInt32)
    (srcPort : UInt16) :
    (emitSpaEvent context maps frame payloadOffset payloadLen srcIp srcPort).spaRing =
      maps.spaRing ++ [ringEvent context.endian memory srcIp srcPort
        ((frame.drop payloadOffset).take payloadLen)] := by
  have hlength : ((frame.drop payloadOffset).take payloadLen).length = payloadLen := by
    rw [List.length_take, List.length_drop]
    omega
  have hclamp : (if payloadLen > 176 then 176 else payloadLen) = payloadLen :=
    if_neg (by omega)
  simp only [emitSpaEvent, hclamp, hmemory, xdpLoadBytes, ringEvent, hlength]
  rw [if_neg (by omega), if_pos hpresent]

/-- A candidate goes into the ring exactly if its length, both buckets and the ring allow it. -/
theorem admitSpa_spaRing (context : Context) (maps : Maps) {frame : Bytes}
    {payloadOffset payloadLen : ℕ} (hpresent : payloadOffset + payloadLen ≤ frame.length)
    (srcIp : UInt32) (srcPort : UInt16) (limit : UInt32) :
    let perIp := rateLimitAllows maps context.now srcIp limit
    let after := admitSpa context maps frame payloadOffset payloadLen srcIp srcPort limit
    ((143 ≤ payloadLen ∧ payloadLen ≤ 176) ∧ perIp.2 = true ∧
        (globalRateLimitAllows perIp.1 context.nowGlobal limit).2 = true ∧
        ∃ memory, context.reservation = some memory ∧
          after.spaRing = maps.spaRing ++ [ringEvent context.endian memory srcIp srcPort
            ((frame.drop payloadOffset).take payloadLen)]) ∨
      ¬((143 ≤ payloadLen ∧ payloadLen ≤ 176) ∧ perIp.2 = true ∧
        (globalRateLimitAllows perIp.1 context.nowGlobal limit).2 = true ∧
        context.reservation.isSome) ∧ after.spaRing = maps.spaRing := by
  intro perIp after
  have hperIp : perIp.1.spaRing = maps.spaRing := rateLimitAllows_spaRing ..
  have htotal : (globalRateLimitAllows perIp.1 context.nowGlobal limit).1.spaRing =
      maps.spaRing := (globalRateLimitAllows_spaRing ..).trans hperIp
  have hafter : after = if !isSpaLength payloadLen then maps
      else if !perIp.2 then perIp.1
      else if !(globalRateLimitAllows perIp.1 context.nowGlobal limit).2 then
        (globalRateLimitAllows perIp.1 context.nowGlobal limit).1
      else emitSpaEvent context (globalRateLimitAllows perIp.1 context.nowGlobal limit).1 frame
        payloadOffset payloadLen srcIp srcPort := rfl
  rw [hafter]
  split_ifs with hlength hbucket hglobal
  · refine .inr ⟨fun h ↦ ?_, rfl⟩
    simp [isSpaLength, h.1] at hlength
  · refine .inr ⟨fun h ↦ ?_, hperIp⟩
    simp [h.2.1] at hbucket
  · refine .inr ⟨fun h ↦ ?_, htotal⟩
    simp [h.2.2.1] at hglobal
  · have hwindow : 143 ≤ payloadLen ∧ payloadLen ≤ 176 := by simpa [isSpaLength] using hlength
    cases hmemory : context.reservation with
    | none =>
      refine .inr ⟨fun h ↦ ?_, ?_⟩
      · simp at h
      · simp only [emitSpaEvent, hmemory]
        split_ifs <;> exact htotal
    | some memory =>
      refine .inl ⟨hwindow, by simpa using hbucket, by simpa using hglobal, memory, rfl, ?_⟩
      rw [emitSpaEvent_eq hmemory hwindow.1 hwindow.2 hpresent, htotal]

/-- The program hands a complete UDP datagram for the SPA port to the admission checks. -/
theorem ghostbroXdp_of_carries (context : Context) {maps : Maps} {frame : Bytes} {ihl udpLen : ℕ}
    (h : CarriesSpa (loadConfig maps).spaPort frame ihl udpLen)
    (hmode : (loadConfig maps).spaMode &&& spaModeUdp ≠ 0) :
    ∃ srcPort, (ghostbroXdp context maps frame).1 =
      admitSpa context maps frame (ethHdrLen + ihl * 4 + udpHdrLen) (udpLen - udpHdrLen)
        (sourceAddr frame).toU32 srcPort (loadConfig maps).rateLimitPerMinute := by
  obtain ⟨vihl, hvihl, hihl⟩ := h.header
  obtain ⟨word, hword, rfl⟩ := h.length
  have hmin := h.minHeader
  have hwindow : 143 ≤ word.toNat - 8 := h.window.1
  have hpresent : 14 + ihl * 4 + word.toNat ≤ frame.length := h.present
  have hlen : headerLen vihl = ihl * 4 := by rw [headerLen, hihl]
  have hsource : readBeU32 frame (ethHdrLen + 12) = some (sourceAddr frame).toU32 :=
    readBeU32_eq (by simp only [ethHdrLen]; omega)
  have hip : hasBytes frame ethHdrLen ipv4MinHdrLen = true :=
    hasBytes_of_le (by simp only [ethHdrLen, ipv4MinHdrLen]; omega)
  have hports : hasBytes frame (ethHdrLen + ihl * 4) udpHdrLen = true :=
    hasBytes_of_le (by simp only [ethHdrLen, udpHdrLen]; omega)
  have hpayload : hasBytes frame (ethHdrLen + ihl * 4 + udpHdrLen) (word.toNat - udpHdrLen) =
      true := hasBytes_of_le (by simp only [ethHdrLen, udpHdrLen]; omega)
  obtain ⟨srcPort, hsrcPort⟩ : ∃ srcPort, readBeU16 frame (ethHdrLen + ihl * 4) = some srcPort := by
    simp only [readBeU16, ethHdrLen]
    rw [readU8_eq (by omega), readU8_eq (by omega)]
    exact ⟨_, rfl⟩
  have hudp : handleUdp context maps frame (ethHdrLen + ihl * 4) (sourceAddr frame).toU32
      (loadConfig maps).spaPort (loadConfig maps).rateLimitPerMinute =
        some (admitSpa context maps frame (ethHdrLen + ihl * 4 + udpHdrLen)
          (word.toNat - udpHdrLen) (sourceAddr frame).toU32 srcPort
          (loadConfig maps).rateLimitPerMinute, .drop) := by
    have hheader : ¬word.toNat < udpHdrLen := by
      simp only [udpHdrLen]
      omega
    simp [handleUdp, hports, h.port, hsrcPort, hword, hheader, hpayload]
  refine ⟨srcPort, ?_⟩
  have htry : tryGhostbroXdp context maps frame = handleUdp context maps frame
      (ethHdrLen + ihl * 4) (sourceAddr frame).toU32 (loadConfig maps).spaPort
      (loadConfig maps).rateLimitPerMinute := by
    have hheader : ¬ihl * 4 < ipv4MinHdrLen := by
      simp only [ipv4MinHdrLen]
      omega
    have hproto : ¬ipProtoUdp = ipProtoTcp := by decide
    simp [tryGhostbroXdp, h.ethertype, hip, hvihl, h.protocol, hsource, hlen, hheader, hproto,
      hmode]
  rw [ghostbroXdp, htry, hudp]
  rfl

theorem isAllowed_spaRing (maps : Maps) (now : UInt64) (srcIp : UInt32) :
    (isAllowed maps now srcIp).1.spaRing = maps.spaRing := by
  obtain ⟨allowMap, heq⟩ := isAllowed_writes maps now srcIp
  rw [heq]

theorem handleTcp_spaRing {context : Context} {maps maps' : Maps} {frame : Bytes}
    {transportOffset : ℕ} {srcIp : UInt32} {proxyPort : UInt16} {action : XdpAction}
    (h : handleTcp context maps frame transportOffset srcIp proxyPort = some (maps', action)) :
    maps'.spaRing = maps.spaRing := by
  have hallowed := isAllowed_spaRing maps context.now srcIp
  simp only [handleTcp, Option.bind_eq_bind] at h
  split at h
  · cases h
    rfl
  · obtain ⟨dstPort, _, h⟩ := Option.bind_eq_some_iff.mp h
    split_ifs at h
    · cases h
      rfl
    · cases h
      exact hallowed
    · cases h
      exact hallowed

/-- What `handle_udp` has read when it changes the ring. -/
theorem handleUdp_spaRing {context : Context} {maps maps' : Maps} {frame : Bytes}
    {transportOffset : ℕ} {srcIp : UInt32} {spaPort : UInt16} {limit : UInt32}
    {action : XdpAction}
    (h : handleUdp context maps frame transportOffset srcIp spaPort limit = some (maps', action))
    (hchanged : maps'.spaRing ≠ maps.spaRing) :
    ∃ word : UInt16, readBeU16 frame (transportOffset + 2) = some spaPort ∧
      readBeU16 frame (transportOffset + 4) = some word ∧
      (143 ≤ word.toNat - udpHdrLen ∧ word.toNat - udpHdrLen ≤ 176) ∧
      transportOffset + word.toNat ≤ frame.length := by
  simp only [handleUdp, Option.bind_eq_bind] at h
  split at h
  · cases h
    exact absurd rfl hchanged
  obtain ⟨dstPort, hdst, h⟩ := Option.bind_eq_some_iff.mp h
  split at h
  · cases h
    exact absurd rfl hchanged
  rename_i hport
  obtain ⟨srcPort, _, h⟩ := Option.bind_eq_some_iff.mp h
  obtain ⟨word, hword, h⟩ := Option.bind_eq_some_iff.mp h
  split_ifs at h with hheader hpresent
  · cases h
    exact absurd rfl hchanged
  · cases h
    exact absurd rfl hchanged
  · cases h
    have hbytes : transportOffset + udpHdrLen + (word.toNat - udpHdrLen) ≤ frame.length := by
      simpa [hasBytes] using hpresent
    have hwhole : transportOffset + word.toNat ≤ frame.length := by omega
    obtain ⟨hwindow, -⟩ | ⟨-, hsame⟩ := admitSpa_spaRing context maps hbytes srcIp srcPort limit
    · exact ⟨word, by rw [hdst, not_not.mp hport], hword, hwindow, hwhole⟩
    · exact absurd hsame hchanged

/-- Only a complete UDP datagram for the SPA port can change the ring. -/
theorem carries_of_spaRing_ne {context : Context} {maps : Maps} {frame : Bytes}
    (h : (ghostbroXdp context maps frame).1.spaRing ≠ maps.spaRing) :
    ∃ ihl udpLen, CarriesSpa (loadConfig maps).spaPort frame ihl udpLen ∧
      (loadConfig maps).spaMode &&& spaModeUdp ≠ 0 := by
  cases htry : tryGhostbroXdp context maps frame with
  | none =>
    rw [ghostbroXdp, htry] at h
    exact absurd rfl h
  | some verdict =>
    obtain ⟨maps', action⟩ := verdict
    have hchanged : maps'.spaRing ≠ maps.spaRing := by
      rwa [ghostbroXdp, htry] at h
    simp only [tryGhostbroXdp, Option.bind_eq_bind] at htry
    obtain ⟨ethertype, hethertype, htry⟩ := Option.bind_eq_some_iff.mp htry
    split_ifs at htry with hipv4
    · cases htry
      exact absurd rfl hchanged
    · cases htry
      exact absurd rfl hchanged
    obtain ⟨vihl, hvihl, htry⟩ := Option.bind_eq_some_iff.mp htry
    split_ifs at htry with hheader
    · cases htry
      exact absurd rfl hchanged
    obtain ⟨proto, hproto, htry⟩ := Option.bind_eq_some_iff.mp htry
    obtain ⟨srcIp, _, htry⟩ := Option.bind_eq_some_iff.mp htry
    split_ifs at htry with htcp hudp
    · exact absurd (handleTcp_spaRing htry) hchanged
    · obtain ⟨word, hport, hword, hwindow, hpresent⟩ := handleUdp_spaRing htry hchanged
      refine ⟨(vihl &&& 0x0f).toNat, word.toNat, ?_, hudp.2⟩
      have hmin : 5 ≤ (vihl &&& 0x0f).toNat := by
        simp only [headerLen, ipv4MinHdrLen] at hheader
        omega
      exact
        { ethertype := by rw [hethertype, not_not.mp hipv4]
          header := ⟨vihl, hvihl, rfl⟩
          minHeader := hmin
          protocol := by rw [hproto, hudp.1]
          port := hport
          length := ⟨word, hword, rfl⟩
          window := hwindow
          present := hpresent }
    · cases htry
      exact absurd rfl hchanged

theorem spaRing_of_submitted {context : Context} {maps : Maps} {frame : Bytes} {ihl udpLen : ℕ}
    (h : Submitted context maps frame ihl udpLen) :
    ∃ memory srcPort, (ghostbroXdp context maps frame).1.spaRing =
      maps.spaRing ++ [ringEvent context.endian memory (sourceAddr frame).toU32 srcPort
        (udpPayload frame ihl udpLen)] := by
  obtain ⟨srcPort, hxdp⟩ := ghostbroXdp_of_carries context h.carries h.udpMode
  have hpresent := h.carries.present
  have hwindow := h.carries.window
  have hbytes : ethHdrLen + ihl * 4 + udpHdrLen + (udpLen - udpHdrLen) ≤ frame.length := by omega
  obtain ⟨-, -, -, memory, -, hring⟩ | ⟨hrefused, -⟩ := admitSpa_spaRing context maps
    hbytes (sourceAddr frame).toU32 srcPort (loadConfig maps).rateLimitPerMinute
  · refine ⟨memory, srcPort, ?_⟩
    rw [hxdp, hring]
    rfl
  · exact absurd ⟨hwindow, h.rates.1, h.rates.2, h.room⟩ hrefused

theorem spaRing_of_not_submitted {context : Context} {maps : Maps} {frame : Bytes}
    (h : ∀ ihl udpLen, ¬Submitted context maps frame ihl udpLen) :
    (ghostbroXdp context maps frame).1.spaRing = maps.spaRing := by
  by_contra hchanged
  obtain ⟨ihl, udpLen, hcarries, hmode⟩ := carries_of_spaRing_ne hchanged
  obtain ⟨srcPort, hxdp⟩ := ghostbroXdp_of_carries context hcarries hmode
  have hpresent := hcarries.present
  have hwindow := hcarries.window
  have hbytes : ethHdrLen + ihl * 4 + udpHdrLen + (udpLen - udpHdrLen) ≤ frame.length := by omega
  obtain ⟨-, hperIp, htotal, memory, hmemory, -⟩ | ⟨-, hsame⟩ := admitSpa_spaRing
    context maps hbytes (sourceAddr frame).toU32 srcPort
    (loadConfig maps).rateLimitPerMinute
  · exact h ihl udpLen ⟨hcarries, hmode, ⟨hperIp, htotal⟩, by rw [hmemory]; rfl⟩
  · exact hchanged (hxdp ▸ hsame)

/-! ### The key of the allow map -/

/-- An Ethernet frame with an IPv4 header and a TCP segment to the port, complete up to the end of
the minimal TCP header. -/
structure CarriesTcp (port : UInt16) (frame : Bytes) (ihl : ℕ) : Prop where
  ethertype : readBeU16 frame 12 = some ethertypeIpv4
  header : ∃ vihl, readU8 frame ethHdrLen = some vihl ∧ (vihl &&& 0x0f).toNat = ihl
  minHeader : 5 ≤ ihl
  protocol : readU8 frame (ethHdrLen + 9) = some ipProtoTcp
  port : readBeU16 frame (ethHdrLen + ihl * 4 + 2) = some port
  present : ethHdrLen + ihl * 4 + tcpMinHdrLen ≤ frame.length

/-- The gate looks a TCP segment up under the big-endian value of its source address. -/
theorem ghostbroXdp_of_carriesTcp {context : Context} {maps : Maps} {frame : Bytes} {ihl : ℕ}
    (h : CarriesTcp (loadConfig maps).proxyPort frame ihl) :
    let allowed := isAllowed maps context.now (sourceAddr frame).toU32
    ghostbroXdp context maps frame = (allowed.1, if allowed.2 then .pass else .drop) := by
  obtain ⟨vihl, hvihl, hihl⟩ := h.header
  have hmin := h.minHeader
  have hpresent : 14 + ihl * 4 + 20 ≤ frame.length := h.present
  have hlen : headerLen vihl = ihl * 4 := by rw [headerLen, hihl]
  have hsource : readBeU32 frame (ethHdrLen + 12) = some (sourceAddr frame).toU32 :=
    readBeU32_eq (by simp only [ethHdrLen]; omega)
  have hip : hasBytes frame ethHdrLen ipv4MinHdrLen = true :=
    hasBytes_of_le (by simp only [ethHdrLen, ipv4MinHdrLen]; omega)
  have htcp : hasBytes frame (ethHdrLen + ihl * 4) tcpMinHdrLen = true := hasBytes_of_le h.present
  have hheader : ¬ihl * 4 < ipv4MinHdrLen := by
    simp only [ipv4MinHdrLen]
    omega
  intro allowed
  have htry : tryGhostbroXdp context maps frame =
      some (allowed.1, if allowed.2 then .pass else .drop) := by
    simp only [tryGhostbroXdp, h.ethertype, hip, hvihl, h.protocol, hsource, hlen, hheader,
      handleTcp, htcp, h.port, Option.bind_eq_bind, Option.bind_some]
    simp only [ne_eq, not_true_eq_false, if_false, Bool.not_true, if_true, Bool.false_eq_true]
    split_ifs <;> rfl
  rw [ghostbroXdp, htry]
  rfl

/-- A TCP segment to the port with the given source, without options and data. -/
def tcpSegment (source : Ipv4Addr) (port : UInt16) : Bytes :=
  List.replicate 12 0 ++ [0x08, 0x00] ++
    [0x45, 0, 0, 40, 0, 0, 0, 0, 64, 6, 0, 0] ++ source.toList ++ [0, 0, 0, 0] ++
    [0xc0, 0x00] ++ beBytes 2 port.toNat ++ List.replicate 16 0

theorem sourceAddr_tcpSegment (source : Ipv4Addr) (port : UInt16) :
    sourceAddr (tcpSegment source port) = source := by
  obtain ⟨⟨octets⟩, hsize⟩ := source
  match octets, hsize with
  | [b0, b1, b2, b3], _ => rfl

theorem carriesTcp_tcpSegment (source : Ipv4Addr) (port : UInt16) :
    CarriesTcp port (tcpSegment source port) 5 := by
  have hlength : (tcpSegment source port).length = 54 := by simp [tcpSegment]
  have hport : wordAt (tcpSegment source port) 36 =
      UInt16.ofNat (beNat (beBytes 2 port.toNat)) := by
    obtain ⟨⟨octets⟩, hsize⟩ := source
    match octets, hsize with
    | [b0, b1, b2, b3], _ => rfl
  have hnat : port.toNat % 256 ^ 2 = port.toNat := Nat.mod_eq_of_lt port.toNat_lt
  rw [beNat_beBytes, hnat, UInt16.ofNat_toNat] at hport
  refine ⟨?_, ⟨0x45, rfl, by decide⟩, by decide, rfl, ?_, ?_⟩
  · have htype : wordAt (tcpSegment source port) 12 = UInt16.ofNat (beNat [0x08, 0x00]) := rfl
    rw [readBeU16_eq (by rw [hlength]; decide), htype]
    decide
  · rw [readBeU16_eq (by rw [hlength]; decide)]
    exact congrArg some hport
  · rw [hlength]
    decide

end Xdp

/-! ### Reading the ring -/

/-- `parse_spa_event` recovers address, length and payload from the ring memory. -/
theorem parseSpaEvent_ringEvent (endian : Endian) (memory : Octets 184) (srcIp : UInt32)
    (srcPort : UInt16) {payload : Bytes} (hlength : payload.length ≤ 176) :
    ∃ event, parseSpaEvent endian (Xdp.ringEvent endian memory srcIp srcPort payload) =
        some event ∧ event.srcIp = srcIp ∧ event.payloadLen.toNat = payload.length ∧
      event.payload.toList.take payload.length = payload := by
  set item := Xdp.ringEvent endian memory srcIp srcPort payload with hitem
  have hsize : item.length = 184 := by
    simp only [hitem, Xdp.ringEvent, List.length_append, Endian.length_neBytes, List.length_drop,
      Vector.length_toList]
    omega
  have hip : item.take 4 = endian.neBytes 4 srcIp.toNat := by
    rw [hitem, Xdp.ringEvent]
    simp only [List.append_assoc]
    exact List.take_left' (endian.length_neBytes ..)
  have hword : (item.drop 6).take 2 = endian.neBytes 2 payload.length := by
    rw [hitem, Xdp.ringEvent]
    simp only [List.append_assoc]
    rw [← List.append_assoc, List.drop_left' (by simp), List.take_left' (by simp)]
  have hpayload : (item.drop 8).take payload.length = payload := by
    rw [hitem, Xdp.ringEvent, List.append_assoc, List.drop_left' (by simp),
      List.take_left' rfl]
  have hipNat : srcIp.toNat < 256 ^ 4 := srcIp.toNat_lt
  refine ⟨_, if_neg (not_not.mpr hsize), ?_, ?_, ?_⟩
  · rw [hip, endian.neNat_neBytes hipNat, UInt32.ofNat_toNat]
  · rw [hword, endian.neNat_neBytes (by omega), UInt16.toNat_ofNat']
    omega
  · rw [toList_readArray (by omega), List.take_take, min_eq_left hlength, hpayload]

namespace Daemon

/-- `run_spa` passes the payload and the address of a ring event on to the verifier. -/
theorem spaStep_ringEvent (crypto : Crypto) (toml : Toml) (host : Endian) (memory : Octets 184)
    (srcIp : UInt32) (srcPort : UInt16) {payload : Bytes} (hlength : payload.length ≤ 176)
    {state : State} {rest : List Bytes} (hidle : state.task = .idle)
    (hring : state.maps.spaRing = Xdp.ringEvent host memory srcIp srcPort payload :: rest)
    (nowMs : UInt64) (fault : Option SaveFault) :
    spaStep crypto toml host state (.ringNext nowMs fault) =
      some (handleSpa crypto toml { state with maps := { state.maps with spaRing := rest } } srcIp
        payload nowMs fault) := by
  obtain ⟨event, hparse, rfl, hlen, hpayload⟩ :=
    parseSpaEvent_ringEvent host memory srcIp srcPort hlength
  have hfits : ¬event.payloadLen.toNat > 176 := by omega
  simp only [spaStep, hidle, hring, hparse]
  rw [if_neg hfits, hlen, hpayload]

/-- The accept of a candidate carries the address of the candidate. -/
theorem srcIp_of_handleSpa {crypto : Crypto} {toml : Toml} {state : State} {srcIp : UInt32}
    {payload : Bytes} {nowMs : UInt64} {fault : Option SaveFault} {admission : Admission}
    (h : (handleSpa crypto toml state srcIp payload nowMs fault).2 = some (.accepted admission)) :
    admission.srcIp = srcIp := by
  simp only [handleSpa] at h
  split at h
  · cases h
  · cases h
    rfl

/-- A connection rests on the mirror entry under the big-endian value of its peer address. -/
theorem connection_of_connect {state next : State} {id : ℕ} {peer : Ipv4Addr}
    {output : Option Output} {connection : Connection}
    (h : connectionStep state (.connect id peer) = some (next, output))
    (hconnection : next.connections.lookup id = some connection) :
    connection.srcIp = peer.toU32 ∧
      state.mirror.lookup peer.toU32 = some connection.source := by
  simp only [connectionStep] at h
  split at h
  · cases h
  split at h
  · cases h
  rename_i hfresh
  have hnone : state.connections.lookup id = none := AList.lookup_eq_none.mpr hfresh
  split at h
  · cases h
    rw [hnone] at hconnection
    cases hconnection
  rename_i source hsource
  split at h
  · cases h
    rw [hnone] at hconnection
    cases hconnection
  · cases h
    rw [AList.lookup_insert] at hconnection
    cases hconnection
    exact ⟨rfl, hsource⟩

/-- With SPA over UDP configured, a candidate that both buckets admit and the ring can hold is
submitted, and `run_spa` calls the verifier with its payload and source address; no other frame
submits anything.  The candidate's key in the allow map is the one that the gate reads for TCP
segments from the same source and that `handle_connection` computes for that peer. -/
theorem handoff_lossless (context : Xdp.Context) (maps : Xdp.Maps) (frame : Bytes) :
    (∀ ihl udpLen, Xdp.Submitted context maps frame ihl udpLen →
      ∃ item, (Xdp.ghostbroXdp context maps frame).1.spaRing = maps.spaRing ++ [item] ∧
        (∃ event, parseSpaEvent context.endian item = some event ∧
          Ipv4Addr.ofU32 event.srcIp = Xdp.sourceAddr frame ∧
          event.payload.toList.take event.payloadLen.toNat = Xdp.udpPayload frame ihl udpLen) ∧
        ∀ crypto toml state rest nowMs fault, state.task = .idle →
          state.maps.spaRing = item :: rest →
          spaStep crypto toml context.endian state (.ringNext nowMs fault) =
            some (handleSpa crypto toml
              { state with maps := { state.maps with spaRing := rest } }
              (Xdp.sourceAddr frame).toU32 (Xdp.udpPayload frame ihl udpLen) nowMs fault)) ∧
    ((∀ ihl udpLen, ¬Xdp.Submitted context maps frame ihl udpLen) →
      (Xdp.ghostbroXdp context maps frame).1.spaRing = maps.spaRing) ∧
    (∀ crypto toml allowTtlSeconds state payload nowMs fault admission,
      (handleSpa crypto toml state (Xdp.sourceAddr frame).toU32 payload nowMs fault).2 =
        some (.accepted admission) →
      ∀ later entry, later.task = .stamped admission entry →
        ∃ next, allowStep allowTtlSeconds later (.kernelInsert true) = some (next, none) ∧
          next.maps.allowMap =
            later.maps.allowMap.insert (Xdp.sourceAddr frame).toU32 entry) ∧
    (∀ context' maps' frame' ihl, Xdp.CarriesTcp (Xdp.loadConfig maps').proxyPort frame' ihl →
      Xdp.sourceAddr frame' = Xdp.sourceAddr frame →
      let allowed := Xdp.isAllowed maps' context'.now (Xdp.sourceAddr frame).toU32
      Xdp.ghostbroXdp context' maps' frame' = (allowed.1, if allowed.2 then .pass else .drop)) ∧
    ∀ state next id output connection,
      connectionStep state (.connect id (Xdp.sourceAddr frame)) = some (next, output) →
      next.connections.lookup id = some connection →
      connection.srcIp = (Xdp.sourceAddr frame).toU32 ∧
        state.mirror.lookup (Xdp.sourceAddr frame).toU32 = some connection.source := by
  refine ⟨?_, Xdp.spaRing_of_not_submitted, ?_, ?_, ?_⟩
  · intro ihl udpLen hsubmitted
    obtain ⟨memory, srcPort, hring⟩ := Xdp.spaRing_of_submitted hsubmitted
    have hlength : (Xdp.udpPayload frame ihl udpLen).length ≤ 176 :=
      (List.length_take_le ..).trans hsubmitted.carries.window.2
    refine ⟨_, hring, ?_, ?_⟩
    · obtain ⟨event, hparse, hip, hlen, hpayload⟩ := parseSpaEvent_ringEvent context.endian memory
        (Xdp.sourceAddr frame).toU32 srcPort hlength
      exact ⟨event, hparse, by rw [hip, Ipv4Addr.ofU32_toU32], by rw [hlen, hpayload]⟩
    · intro crypto toml state rest nowMs fault hidle hhead
      exact spaStep_ringEvent crypto toml _ memory _ srcPort hlength hidle hhead nowMs fault
  · intro crypto toml allowTtlSeconds state payload nowMs fault admission haccepted later entry
      hstamped
    rw [← srcIp_of_handleSpa haccepted]
    refine ⟨_, by simp only [allowStep, hstamped, if_true]; rfl, rfl⟩
  · intro context' maps' frame' ihl htcp hsource
    rw [← hsource]
    exact Xdp.ghostbroXdp_of_carriesTcp htcp
  · intro state next id output connection hconnect hconnection
    exact connection_of_connect hconnect hconnection

/-! ### A candidate on a server for UDP and on a server for HTTPS only -/

namespace Sample

/-- A frame from 203.0.113.7 with six words of IPv4 header, 143 octets of SPA payload and two
octets of trailer. -/
def spaFrame : Bytes :=
  List.replicate 12 2 ++ [0x08, 0x00] ++
    [0x46, 0, 0, 175, 0, 1, 0, 0, 64, 17, 0, 0, 203, 0, 113, 7, 198, 51, 100, 1, 1, 1, 1, 1] ++
    [0xc0, 0x00, 0, 53, 0, 151, 0, 0] ++ List.replicate 143 9 ++ [0, 0]

/-- A context of a little-endian host with room in the ring. -/
def spaContext : Xdp.Context := ⟨.little, 1000, 1000, some (Vector.replicate 184 0)⟩

/-- Maps of a server with the given SPA modes. -/
def spaMaps (spaMode : UInt32) : Xdp.Maps :=
  ⟨some ⟨53, 8443, 5, spaMode⟩, ∅, ∅, some ⟨0, 0⟩, []⟩

theorem carriesSpa_spaFrame (spaMode : UInt32) :
    Xdp.CarriesSpa (Xdp.loadConfig (spaMaps spaMode)).spaPort spaFrame 6 151 where
  ethertype := by decide +kernel
  header := ⟨0x46, by decide +kernel, by decide⟩
  minHeader := by decide
  protocol := by decide +kernel
  port := by
    have hport : Xdp.readBeU16 spaFrame (Xdp.ethHdrLen + 6 * 4 + 2) = some 53 := by decide +kernel
    exact hport
  length := ⟨151, by decide +kernel, by decide⟩
  window := by decide
  present := by decide +kernel

theorem ratesAdmit_spaFrame {spaMode : UInt32} (h : spaMode = 1 ∨ spaMode = 2) :
    Xdp.RatesAdmit spaContext (spaMaps spaMode) (Xdp.sourceAddr spaFrame) := by
  rcases h with rfl | rfl
  · exact ⟨by decide +kernel, by decide +kernel⟩
  · exact ⟨by decide +kernel, by decide +kernel⟩

end Sample

theorem handoff_lossless_sample :
    ∃ item, (Xdp.ghostbroXdp Sample.spaContext (Sample.spaMaps 1) Sample.spaFrame).1.spaRing =
      [item] ∧ ∃ event, parseSpaEvent .little item = some event ∧
        Ipv4Addr.ofU32 event.srcIp = #v[203, 0, 113, 7] ∧
        event.payload.toList.take event.payloadLen.toNat = List.replicate 143 9 := by
  have hsubmitted : Xdp.Submitted Sample.spaContext (Sample.spaMaps 1) Sample.spaFrame 6 151 :=
    { carries := Sample.carriesSpa_spaFrame 1
      udpMode := by decide
      rates := Sample.ratesAdmit_spaFrame (.inl rfl)
      room := rfl }
  obtain ⟨item, hring, ⟨event, hparse, hip, hpayload⟩, -⟩ :=
    (handoff_lossless Sample.spaContext (Sample.spaMaps 1) Sample.spaFrame).1 6 151 hsubmitted
  refine ⟨item, hring, event, hparse, hip.trans (by decide +kernel),
    hpayload.trans (by decide +kernel)⟩

/-- A server configured for SPA over HTTPS only does not submit the candidate, although both
buckets would admit it and the ring has room. -/
theorem handoff_needs_udp_mode :
    Xdp.CarriesSpa (Xdp.loadConfig (Sample.spaMaps 2)).spaPort Sample.spaFrame 6 151 ∧
      Xdp.RatesAdmit Sample.spaContext (Sample.spaMaps 2) (Xdp.sourceAddr Sample.spaFrame) ∧
      Sample.spaContext.reservation.isSome ∧
      (Xdp.ghostbroXdp Sample.spaContext (Sample.spaMaps 2) Sample.spaFrame).1.spaRing = [] :=
  ⟨Sample.carriesSpa_spaFrame 2, Sample.ratesAdmit_spaFrame (.inr rfl), rfl, by decide +kernel⟩

end Daemon

end Ghostbro
