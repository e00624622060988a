import Ghostbro.Foundation.Machine
import Ghostbro.Xdp.Program

/-!
# The gate and IPv4 fragmentation

The program decides one frame at a time, the host acts on reassembled datagrams.  Reassembly is
described from the host's side and as permissively as possible: each 8-octet block of a datagram
may come from any fragment of its group that covers it, so every policy for overlapping
fragments is included.

The destination port of a TCP segment lies in the first block, hence in a frame with fragment
offset zero.  The program sees that port unless the frame ends before octet 20 of the segment.
-/

namespace Ghostbro.Xdp

open Machine

/-- An IPv4 packet of a frame as the host reads it. -/
structure Fragment where
  source : UInt32
  destination : UInt32
  protocol : UInt8
  identification : UInt16
  headerLen : ℕ
  /-- The fragment offset in blocks of eight octets. -/
  offset : ℕ
  moreFragments : Bool
  payload : Bytes
  deriving DecidableEq

/-- The host's view of an untagged Ethernet II frame: version 4, a complete header and no more
octets than `total length` says, so that Ethernet padding is cut off. -/
def parseFragment (frame : Bytes) : Option Fragment := do
  let ethertype ← readBeU16 frame 12
  let vihl ← readU8 frame ethHdrLen
  let totalLen ← readBeU16 frame (ethHdrLen + 2)
  let identification ← readBeU16 frame (ethHdrLen + 4)
  let flagsOffset ← readBeU16 frame (ethHdrLen + 6)
  let protocol ← readU8 frame (ethHdrLen + 9)
  let source ← readBeU32 frame (ethHdrLen + 12)
  let destination ← readBeU32 frame (ethHdrLen + 16)
  if ethertype = ethertypeIpv4 ∧ vihl >>> 4 = 4 ∧ ipv4MinHdrLen ≤ headerLen vihl ∧
      headerLen vihl ≤ totalLen.toNat ∧ ethHdrLen + totalLen.toNat ≤ frame.length then
    some
      { source := source
        destination := destination
        protocol := protocol
        identification := identification
        headerLen := headerLen vihl
        offset := (flagsOffset &&& 0x1fff).toNat
        moreFragments := decide (flagsOffset &&& 0x2000 ≠ 0)
        payload := (frame.drop (ethHdrLen + headerLen vihl)).take
          (totalLen.toNat - headerLen vihl) }
  else none

/-- A packet that has to wait for others. -/
def Fragment.IsFragment (fragment : Fragment) : Prop :=
  fragment.moreFragments = true ∨ fragment.offset ≠ 0

/-- What a fragment contributes: all but the last one contribute whole blocks. -/
def Fragment.piece (fragment : Fragment) : Bytes :=
  if fragment.moreFragments then fragment.payload.take (fragment.payload.length / 8 * 8)
  else fragment.payload

/-- A complete IPv4 datagram. -/
structure Datagram where
  source : UInt32
  destination : UInt32
  protocol : UInt8
  payload : Bytes

/-- The block of a byte string with the given index. -/
def block (bytes : Bytes) (index : ℕ) : Bytes := (bytes.drop (8 * index)).take 8

/-- The fragment belongs to the datagram with the given identification. -/
def Fragment.BelongsTo (fragment : Fragment) (datagram : Datagram) (identification : UInt16) :
    Prop :=
  fragment.source = datagram.source ∧ fragment.destination = datagram.destination ∧
    fragment.protocol = datagram.protocol ∧ fragment.identification = identification

/-- The host delivers the datagram from these packets: an unfragmented one by itself, or a group
whose last fragment fixes the length and whose pieces cover every block. -/
def Reassembles (packets : List Fragment) (datagram : Datagram) : Prop :=
  (∃ packet ∈ packets, ¬packet.IsFragment ∧
    datagram = ⟨packet.source, packet.destination, packet.protocol, packet.payload⟩) ∨
  ∃ identification,
    (∃ last ∈ packets, last.IsFragment ∧ last.BelongsTo datagram identification ∧
      last.moreFragments = false ∧
      8 * last.offset + last.payload.length = datagram.payload.length) ∧
    ∀ index, 8 * index < datagram.payload.length →
      ∃ packet ∈ packets, packet.IsFragment ∧ packet.BelongsTo datagram identification ∧
        packet.offset ≤ index ∧
        block datagram.payload index <+: block packet.piece (index - packet.offset)

/-- A TCP segment with a complete minimal header for the given destination port. -/
def Datagram.IsTcpTo (datagram : Datagram) (port : UInt16) : Prop :=
  datagram.protocol = ipProtoTcp ∧ tcpMinHdrLen ≤ datagram.payload.length ∧
    readBeU16 datagram.payload 2 = some port

/-- Some datagram of the source that is reassembled from the frames reaches the port. -/
def Reaches (source : UInt32) (port : UInt16) (frames : List Bytes) : Prop :=
  ∃ datagram, Reassembles (frames.filterMap parseFragment) datagram ∧
    datagram.source = source ∧ datagram.IsTcpTo port

/-! ### Frames over time -/

/-- The program handles a frame, or the daemon and the kernel change its maps. -/
inductive Event
  | frame (context : Context) (frame : Bytes)
  | update (allowMap : HashMap UInt32 AllowEntry) (rateLimit : HashMap UInt32 RateState)
      (spaRing : List Bytes)

/-- The outputs are the frames that the program passes. -/
def step : Step Maps Event Bytes
  | maps, .frame context frame =>
    let verdict := ghostbroXdp context maps frame
    some (verdict.1, if verdict.2 = .pass then some frame else none)
  | maps, .update allowMap rateLimit spaRing =>
    some ({ maps with allowMap := allowMap, rateLimit := rateLimit, spaRing := spaRing }, none)

/-- The allow map holds no entry of the address that is live at the given time. -/
def NoLiveEntry (maps : Maps) (now : UInt64) (source : UInt32) : Prop :=
  ∀ entry, maps.allowMap.lookup source = some entry → entry.expiryNs ≤ now

/-- The source has no live entry whenever a frame of it is handled. -/
def NotAllowed (source : UInt32) (maps : Maps) : Event → Prop
  | .frame context frame => ∀ packet, parseFragment frame = some packet →
      packet.source = source → NoLiveEntry maps context.now source
  | .update _ _ _ => True

/-- A first fragment of a segment to the port whose frame ends before the end of the minimal TCP
header, with at least the block that holds the port. -/
def IsTinyFirstFragment (port : UInt16) (frame : Bytes) : Prop :=
  ∃ packet, parseFragment frame = some packet ∧ packet.protocol = ipProtoTcp ∧
    packet.offset = 0 ∧ packet.moreFragments = true ∧ 8 ≤ packet.payload.length ∧
    readBeU16 packet.payload 2 = some port ∧
    frame.length < ethHdrLen + packet.headerLen + tcpMinHdrLen

/-- The same source, and no frame is a tiny first fragment to the port. -/
def NotAllowedNorTiny (source : UInt32) (port : UInt16) (maps : Maps) (event : Event) : Prop :=
  NotAllowed source maps event ∧
    ∀ context frame, event = .frame context frame → ¬IsTinyFirstFragment port frame

/-! ### Reading through slices -/

theorem readBeU16_of_getElem? {bytes bytes' : Bytes} {offset offset' : ℕ} {word : UInt16}
    (h0 : ∀ byte, bytes[offset]? = some byte → bytes'[offset']? = some byte)
    (h1 : ∀ byte, bytes[offset + 1]? = some byte → bytes'[offset' + 1]? = some byte)
    (h : readBeU16 bytes offset = some word) : readBeU16 bytes' offset' = some word := by
  simp only [readBeU16, readU8, Option.bind_eq_bind, Option.bind_eq_some_iff] at h ⊢
  obtain ⟨high, hhigh, low, hlow, hword⟩ := h
  exact ⟨high, h0 high hhigh, low, h1 low hlow, hword⟩

/-- A word of a slice is a word of the whole string. -/
theorem readBeU16_slice {frame : Bytes} {start len offset : ℕ} {word : UInt16}
    (h : readBeU16 ((frame.drop start).take len) offset = some word) :
    readBeU16 frame (start + offset) = some word := by
  have hbyte : ∀ index byte, ((frame.drop start).take len)[index]? = some byte →
      frame[start + index]? = some byte := by
    intro index byte hbyte
    rw [List.getElem?_take] at hbyte
    split_ifs at hbyte
    rwa [List.getElem?_drop] at hbyte
  exact readBeU16_of_getElem? (hbyte offset) (hbyte (offset + 1)) h

/-- The first block of a byte string decides the word at offset two. -/
theorem readBeU16_of_block_isPrefix {bytes bytes' : Bytes} (hlength : 8 ≤ bytes.length)
    (hblock : block bytes 0 <+: block bytes' 0) {word : UInt16}
    (h : readBeU16 bytes 2 = some word) :
    8 ≤ bytes'.length ∧ readBeU16 bytes' 2 = some word := by
  have hlength' := hblock.length_le
  simp only [block, Nat.mul_zero, List.drop_zero, List.length_take] at hblock hlength'
  have htake : bytes.take 8 = bytes'.take 8 := hblock.eq_of_length (by simp; omega)
  have hbyte : ∀ index < 8, ∀ byte, bytes[index]? = some byte → bytes'[index]? = some byte := by
    intro index hindex byte hbyte
    have hget : (bytes.take 8)[index]? = (bytes'.take 8)[index]? := by rw [htake]
    rw [List.getElem?_take_of_lt hindex, List.getElem?_take_of_lt hindex] at hget
    rw [← hget]
    exact hbyte
  exact ⟨by omega, readBeU16_of_getElem? (hbyte 2 (by omega)) (hbyte 3 (by omega)) h⟩

/-! ### What a passed frame can be -/

/-- The octets of a parsed frame that the program reads too. -/
theorem parseFragment_reads {frame : Bytes} {packet : Fragment}
    (h : parseFragment frame = some packet) :
    ∃ vihl, readBeU16 frame 12 = some ethertypeIpv4 ∧ readU8 frame ethHdrLen = some vihl ∧
      packet.headerLen = headerLen vihl ∧ ipv4MinHdrLen ≤ headerLen vihl ∧
      readU8 frame (ethHdrLen + 9) = some packet.protocol ∧
      readBeU32 frame (ethHdrLen + 12) = some packet.source ∧
      ethHdrLen + ipv4MinHdrLen ≤ frame.length ∧
      ethHdrLen + packet.headerLen + packet.payload.length ≤ frame.length ∧
      ∀ port, readBeU16 packet.payload 2 = some port →
        readBeU16 frame (ethHdrLen + packet.headerLen + 2) = some port := by
  simp only [parseFragment, Option.bind_eq_bind, Option.bind_eq_some_iff] at h
  obtain ⟨ethertype, hethertype, vihl, hvihl, totalLen, _, identification, _, flagsOffset, _,
    protocol, hprotocol, source, hsource, destination, _, h⟩ := h
  split_ifs at h with hvalid
  obtain ⟨rfl, _, hmin, hheader, htotal⟩ := hvalid
  obtain rfl := Option.some.inj h
  have hlength : ((frame.drop (ethHdrLen + headerLen vihl)).take
      (totalLen.toNat - headerLen vihl)).length = totalLen.toNat - headerLen vihl := by
    rw [List.length_take, List.length_drop]
    omega
  refine ⟨vihl, hethertype, hvihl, rfl, hmin, hprotocol, hsource, by omega, ?_, fun port ↦
    readBeU16_slice⟩
  rw [hlength]
  dsimp only
  omega

theorem isAllowed_of_noLiveEntry {maps : Maps} {now : UInt64} {source : UInt32}
    (h : NoLiveEntry maps now source) : (isAllowed maps now source).2 = false := by
  unfold isAllowed
  cases hlookup : maps.allowMap.lookup source with
  | none => rfl
  | some entry => simp [h entry hlookup]

/-- The program drops a TCP frame to the proxy port whose minimal header it can read, unless the
source has a live entry. -/
theorem ghostbroXdp_drop {context : Context} {maps : Maps} {frame : Bytes} {packet : Fragment}
    (hparse : parseFragment frame = some packet) (hprotocol : packet.protocol = ipProtoTcp)
    (hport : readBeU16 packet.payload 2 = some (loadConfig maps).proxyPort)
    (hheader : ethHdrLen + packet.headerLen + tcpMinHdrLen ≤ frame.length)
    (hlive : NoLiveEntry maps context.now packet.source) :
    (ghostbroXdp context maps frame).2 = .drop := by
  obtain ⟨vihl, hethertype, hvihl, hlen, hmin, hproto, hsource, hip, _, hframePort⟩ :=
    parseFragment_reads hparse
  have hdstPort := hframePort _ hport
  rw [hlen] at hdstPort hheader
  have hmin' : ¬headerLen vihl < ipv4MinHdrLen := by omega
  have htcp : handleTcp context maps frame (ethHdrLen + headerLen vihl) packet.source
      (loadConfig maps).proxyPort = some ((isAllowed maps context.now packet.source).1, .drop) := by
    simp [handleTcp, hasBytes, hheader, hdstPort, isAllowed_of_noLiveEntry hlive]
  simp [ghostbroXdp, tryGhostbroXdp, hethertype, hasBytes, hip, hvihl, hmin', hproto, hprotocol,
    hsource, htcp]

/-- A frame that brings the head of a segment from the source to the port: an unfragmented
segment with a complete header, or a first fragment with a whole block. -/
def BringsHead (source : UInt32) (port : UInt16) (frame : Bytes) : Prop :=
  ∃ packet, parseFragment frame = some packet ∧ packet.source = source ∧
    packet.protocol = ipProtoTcp ∧ packet.offset = 0 ∧
    readBeU16 packet.payload 2 = some port ∧ 8 ≤ packet.payload.length ∧
    (packet.moreFragments = false → tcpMinHdrLen ≤ packet.payload.length)

/-- The port of a reassembled segment comes from one frame. -/
theorem bringsHead_of_reaches {source : UInt32} {port : UInt16} {frames : List Bytes}
    (h : Reaches source port frames) : ∃ frame ∈ frames, BringsHead source port frame := by
  obtain ⟨datagram, hreassembles, hsource, hprotocol, hlength, hport⟩ := h
  rcases hreassembles with ⟨packet, hpacket, hwhole, rfl⟩ | ⟨identification, _, hcover⟩
  · obtain ⟨frame, hframe, hparse⟩ := List.mem_filterMap.mp hpacket
    unfold Fragment.IsFragment at hwhole
    push Not at hwhole
    have hlength' : 8 ≤ packet.payload.length := le_trans (by decide) hlength
    exact ⟨frame, hframe, packet, hparse, hsource, hprotocol, hwhole.2, hport, hlength',
      fun _ ↦ hlength⟩
  · have hlength' : 8 ≤ datagram.payload.length := le_trans (by decide) hlength
    obtain ⟨packet, hpacket, hfragment, hbelongs, hoffset, hblock⟩ := hcover 0 (by omega)
    obtain ⟨frame, hframe, hparse⟩ := List.mem_filterMap.mp hpacket
    have hzero : packet.offset = 0 := by omega
    -- a fragment with offset zero has more fragments after it, so its piece is a slice
    have hmore : packet.moreFragments = true := by
      rcases hfragment with hmore | hoff
      · exact hmore
      · exact absurd hzero hoff
    rw [hzero] at hblock
    obtain ⟨hpiece, hpiecePort⟩ := readBeU16_of_block_isPrefix hlength' hblock hport
    rw [Fragment.piece, if_pos hmore] at hpiece hpiecePort
    have hslice : readBeU16 ((packet.payload.drop 0).take (packet.payload.length / 8 * 8)) 2 =
        some port := by rwa [List.drop_zero]
    have hpayloadPort := readBeU16_slice hslice
    rw [List.length_take] at hpiece
    rw [Nat.zero_add] at hpayloadPort
    exact ⟨frame, hframe, packet, hparse, hbelongs.1.trans hsource,
      hbelongs.2.2.1.trans hprotocol, hzero, hpayloadPort, by omega, fun h ↦ by simp [hmore] at h⟩

/-! ### Whole runs -/

/-- A passed frame never brings the head of a segment, if the guard is met. -/
theorem not_bringsHead_of_pass {source : UInt32} {context : Context} {maps : Maps}
    {frame : Bytes}
    (hguard : NotAllowedNorTiny source (loadConfig maps).proxyPort maps (.frame context frame))
    (hpass : (ghostbroXdp context maps frame).2 = .pass) :
    ¬BringsHead source (loadConfig maps).proxyPort frame := by
  rintro ⟨packet, hparse, rfl, hprotocol, hoffset, hport, hlength, hwhole⟩
  have hlive := hguard.1 packet hparse rfl
  by_cases hheader : ethHdrLen + packet.headerLen + tcpMinHdrLen ≤ frame.length
  · have hdrop := ghostbroXdp_drop hparse hprotocol hport hheader hlive
    rw [hdrop] at hpass
    cases hpass
  · obtain ⟨_, _, _, _, _, _, _, _, hpayload, _⟩ := parseFragment_reads hparse
    -- a complete header would fit the frame, so more fragments must follow
    have hmore : packet.moreFragments = true := by
      by_contra hmore
      have hcomplete := hwhole (by simpa using hmore)
      omega
    exact hguard.2 context frame rfl ⟨packet, hparse, hprotocol, hoffset, hmore, hlength, hport,
      by omega⟩

/-- As long as the source has no live entry and no frame is a tiny first fragment, no datagram of
the source that is reassembled from passed frames reaches the proxy port. -/
theorem not_reaches_of_run (source : UInt32) (start last : Maps) (events : List Event)
    (passed : List Bytes)
    (hrun : Run step (NotAllowedNorTiny source (loadConfig start).proxyPort) start events passed
      last) :
    ¬Reaches source (loadConfig start).proxyPort passed := by
  let inv (passed : List Bytes) (maps : Maps) : Prop :=
    maps.config = start.config ∧
      ∀ frame ∈ passed, ¬BringsHead source (loadConfig start).proxyPort frame
  have hinv : inv passed last := by
    refine Run.invariant inv ⟨rfl, by simp⟩ ?_ hrun
    rintro passed maps event next emitted ⟨hconfig, hpassed⟩ hguard hstep
    have hport : (loadConfig maps).proxyPort = (loadConfig start).proxyPort := by
      rw [loadConfig, loadConfig, hconfig]
    cases event with
    | frame context frame =>
      obtain ⟨rfl, rfl⟩ := Prod.mk.inj (Option.some.inj hstep)
      refine ⟨(ghostbroXdp_maps context maps frame).config.trans hconfig, fun earlier hearlier ↦ ?_⟩
      rcases List.mem_append.mp hearlier with hold | hnew
      · exact hpassed earlier hold
      · split_ifs at hnew with hpass
        · obtain rfl : earlier = frame := by simpa using hnew
          rw [← hport] at hguard ⊢
          exact not_bringsHead_of_pass hguard hpass
        · simp at hnew
    | update allowMap rateLimit spaRing =>
      obtain ⟨rfl, rfl⟩ := Prod.mk.inj (Option.some.inj hstep)
      exact ⟨hconfig, by simpa using hpassed⟩
  intro hreaches
  obtain ⟨frame, hframe, hhead⟩ := bringsHead_of_reaches hreaches
  exact hinv.2 frame hframe hhead

/-! ### A segment in two fragments -/

/-- The maps of a freshly attached program. -/
def freshMaps : Maps := ⟨none, ∅, ∅, some ⟨0, 0⟩, []⟩

def sampleContext : Context := ⟨.little, 1000, 1000, none⟩

/-- 198.51.100.23. -/
def sampleSource : UInt32 := 0xc6336417

/-- An Ethernet II frame around an IPv4 header without options, `options` and a payload. -/
def ethernetFrame (header options payload : Bytes) : Bytes :=
  [2, 0, 0, 0, 0, 1, 2, 0, 0, 0, 0, 2, 0x08, 0x00] ++ header ++ options ++ payload

/-- A connection request to the proxy port, cut after eight octets; twenty octets of padding
options keep both frames above the Ethernet minimum. -/
def firstFragment : Bytes :=
  ethernetFrame
    [0x4a, 0, 0, 0x30, 0x12, 0x34, 0x20, 0, 0x40, 6, 0xd3, 0x34, 198, 51, 100, 23, 203, 0, 113, 10]
    (List.replicate 20 1) [0xc3, 0x50, 0x20, 0xfb, 0, 0, 0, 1]

def secondFragment : Bytes :=
  ethernetFrame
    [0x4a, 0, 0, 0x34, 0x12, 0x34, 0, 1, 0x40, 6, 0xf3, 0x2f, 198, 51, 100, 23, 203, 0, 113, 10]
    (List.replicate 20 1) [0, 0, 0, 0, 0x50, 2, 0xff, 0xff, 0x65, 0x40, 0, 0]

/-- The fragments as the host parses them. -/
def parsedFragment (offset : ℕ) (moreFragments : Bool) (payload : Bytes) : Fragment :=
  ⟨sampleSource, 0xcb00710a, ipProtoTcp, 0x1234, 40, offset, moreFragments, payload⟩

theorem parse_firstFragment : parseFragment firstFragment =
    some (parsedFragment 0 true [0xc3, 0x50, 0x20, 0xfb, 0, 0, 0, 1]) := by decide +kernel

theorem parse_secondFragment : parseFragment secondFragment =
    some (parsedFragment 1 false [0, 0, 0, 0, 0x50, 2, 0xff, 0xff, 0x65, 0x40, 0, 0]) := by
  decide +kernel

theorem notAllowed_freshMaps (frame : Bytes) :
    NotAllowed sampleSource freshMaps (.frame sampleContext frame) := by
  intro packet _ _ entry hentry
  cases hentry

/-- The program passes both fragments of a source that was never allowed, and the host reassembles
them into a connection request to the proxy port. -/
theorem reaches_by_tiny_fragments :
    Run step (NotAllowed sampleSource) freshMaps
        [.frame sampleContext firstFragment, .frame sampleContext secondFragment]
        [firstFragment, secondFragment] freshMaps ∧
      Reaches sampleSource (loadConfig freshMaps).proxyPort [firstFragment, secondFragment] := by
  constructor
  · have hfirst : step freshMaps (.frame sampleContext firstFragment) =
        some (freshMaps, some firstFragment) := by decide +kernel
    have hsecond : step freshMaps (.frame sampleContext secondFragment) =
        some (freshMaps, some secondFragment) := by decide +kernel
    have hnil : Run step (NotAllowed sampleSource) freshMaps [] [] freshMaps := .nil
    exact (hnil.snoc (notAllowed_freshMaps _) hfirst).snoc (notAllowed_freshMaps _) hsecond
  · have hpackets : [firstFragment, secondFragment].filterMap parseFragment =
        [parsedFragment 0 true [0xc3, 0x50, 0x20, 0xfb, 0, 0, 0, 1],
          parsedFragment 1 false [0, 0, 0, 0, 0x50, 2, 0xff, 0xff, 0x65, 0x40, 0, 0]] := by
      simp [parse_firstFragment, parse_secondFragment]
    refine ⟨⟨sampleSource, 0xcb00710a, ipProtoTcp, [0xc3, 0x50, 0x20, 0xfb, 0, 0, 0, 1, 0, 0, 0, 0,
      0x50, 2, 0xff, 0xff, 0x65, 0x40, 0, 0]⟩, ?_, rfl, rfl, by decide, by decide +kernel⟩
    rw [hpackets]
    refine .inr ⟨0x1234, ⟨_, List.mem_cons_of_mem _ List.mem_cons_self, .inr (by decide),
      ⟨rfl, rfl, rfl, rfl⟩, rfl, rfl⟩, fun index hindex ↦ ?_⟩
    have hcases : index = 0 ∨ index = 1 ∨ index = 2 := by
      have : 8 * index < 20 := hindex
      omega
    rcases hcases with rfl | rfl | rfl
    · exact ⟨_, List.mem_cons_self, .inl rfl, ⟨rfl, rfl, rfl, rfl⟩, le_refl 0, [], by decide⟩
    · exact ⟨_, List.mem_cons_of_mem _ List.mem_cons_self, .inr (by decide),
        ⟨rfl, rfl, rfl, rfl⟩, le_refl 1, [], by decide⟩
    · exact ⟨_, List.mem_cons_of_mem _ List.mem_cons_self, .inr (by decide),
        ⟨rfl, rfl, rfl, rfl⟩, by decide, [], by decide⟩

/-- A first fragment with a complete TCP header, for another port. -/
def wholeHeader : Bytes :=
  ethernetFrame
    [0x45, 0, 0, 0x2c, 0x12, 0x34, 0x20, 0, 0x40, 6, 0x7d, 0xc6, 198, 51, 100, 23, 203, 0, 113, 10]
    [] [0xc3, 0x50, 0x01, 0xbb, 0, 0, 0, 1, 0, 0, 0, 0, 0x50, 2, 0xff, 0xff, 0x84, 0x80, 0, 0, 0, 0,
      0, 0]

theorem not_reaches_wholeHeader :
    ¬Reaches sampleSource (loadConfig freshMaps).proxyPort [wholeHeader] := by
  have hstep : step freshMaps (.frame sampleContext wholeHeader) =
      some (freshMaps, some wholeHeader) := by decide +kernel
  have hlength : ¬wholeHeader.length < ethHdrLen + 20 + tcpMinHdrLen := by decide +kernel
  have hparse : (parseFragment wholeHeader).map Fragment.headerLen = some 20 := by decide +kernel
  apply not_reaches_of_run sampleSource freshMaps freshMaps [.frame sampleContext wholeHeader]
  have hnil : Run step (NotAllowedNorTiny sampleSource (loadConfig freshMaps).proxyPort) freshMaps
      [] [] freshMaps := .nil
  refine hnil.snoc ⟨notAllowed_freshMaps _, ?_⟩ hstep
  rintro context frame heq ⟨packet, hpacket, _, _, _, _, _, htiny⟩
  obtain ⟨rfl, rfl⟩ : sampleContext = context ∧ wholeHeader = frame := by simpa using heq
  rw [hpacket] at hparse
  have hheader : packet.headerLen = 20 := by simpa using hparse
  rw [hheader] at htiny
  exact hlength htiny

end Ghostbro.Xdp
