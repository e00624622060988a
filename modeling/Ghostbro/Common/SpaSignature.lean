import Ghostbro.Common.SpaPacket

/-!
# What an SPA signature covers

`SpaPacket::open` decodes the decrypted record into fields, and `SpaPacket::verify` encodes the
fields again to obtain the signed message.  The encoding is canonical: on every payload that `open`
accepts it restores the first 31 bytes of the record, so the signature covers what was sealed and
nothing else.  All parts of the message have a fixed width, hence two messages agree only if every
field, the ephemeral key and the server key agree.
-/

namespace Ghostbro.SpaPacket

variable {crypto : Crypto}

/-- The record inside the seal of a wire payload. -/
def decryptedRecord (crypto : Crypto) (wire : Bytes) (serverStaticPrivate : Octets 32) :
    Option Bytes :=
  (Seal.openCore crypto (wire.take spaSealedCoreLen) serverStaticPrivate).map
    Seal.Opened.plaintext

theorem ephemeralPub_of_openCore {sealedCore : Bytes} {serverPrivate : Octets 32}
    {opened : Seal.Opened} (h : Seal.openCore crypto sealedCore serverPrivate = some opened) :
    opened.ephemeralPub = readArray 32 sealedCore 0 := by
  simp only [Seal.openCore] at h
  split_ifs at h
  obtain ⟨plaintext, -, rfl⟩ := Option.map_eq_some_iff.mp h
  rfl

/-- Everything `open` has checked about a payload it accepts. -/
theorem openWire_ok {wire : Bytes} {serverPrivate : Octets 32} {packet : SpaPacket}
    (h : openWire crypto wire serverPrivate = .ok packet) :
    ∃ record, decryptedRecord crypto wire serverPrivate = some record ∧
      spaMinLen ≤ wire.length ∧ wire.length ≤ spaMaxLen ∧
      record.length = spaInnerLen ∧ record.take 2 = versionPrefix ∧
      record.getD 2 0 &&& spaReservedFlags = 0 ∧
      packet = parseInner record (readArray 32 (wire.take spaSealedCoreLen) 0) := by
  simp only [openWire] at h
  split at h
  · cases h
  rename_i hlength
  split at h
  · cases h
  rename_i opened hopened
  have hephemeral := ephemeralPub_of_openCore hopened
  split_ifs at h with hrecord hversion hflags
  refine ⟨opened.plaintext, by rw [decryptedRecord, hopened, Option.map_some], ?_⟩
  rw [not_not] at hlength hrecord hversion hflags
  refine ⟨hlength.1, hlength.2, hrecord, hversion, hflags, ?_⟩
  rw [← hephemeral]
  exact (Except.ok.inj h).symm

/-! ### Decoding and encoding again -/

/-- A flag byte without reserved bits is restored from the two fields it is decoded into. -/
theorem flagBits_of_unreserved (flags : UInt8) (h : flags &&& spaReservedFlags = 0) :
    (SpaMode.fromFlags flags).flagBit |||
      (if decide (flags &&& spaFlagUsePacketSource ≠ 0) then spaFlagUsePacketSource else 0) =
        flags := by
  have hall : ∀ byte : Fin 256, UInt8.ofNat byte &&& spaReservedFlags = 0 →
      (SpaMode.fromFlags (UInt8.ofNat byte)).flagBit |||
        (if decide (UInt8.ofNat byte &&& spaFlagUsePacketSource ≠ 0) then
          spaFlagUsePacketSource else 0) = UInt8.ofNat byte := by decide +kernel
  have hbyte := hall ⟨flags.toNat, flags.toNat_lt⟩
  rw [UInt8.ofNat_toNat] at hbyte
  exact hbyte h

/-- The bytes that `verify` signs over are the signed part of the record. -/
theorem signedRegion_parseInner {record : Bytes} (ephemeralPub : Octets 32)
    (hlength : record.length = spaInnerLen) (hversion : record.take 2 = versionPrefix)
    (hflags : record.getD 2 0 &&& spaReservedFlags = 0) :
    let packet := parseInner record ephemeralPub
    signedRegion packet.flagsByte packet.keyId packet.timestampMs packet.counter packet.allowIp =
      record.take spaInnerSignedLen := by
  have hlong : record.length = 95 := hlength
  have hflag : (parseInner record ephemeralPub).flagsByte = record.getD 2 0 :=
    flagBits_of_unreserved _ hflags
  have htake : record.take 2 ++ [record.getD 2 0] = record.take 3 := by
    have hsome : record[2]? = some (record.getD 2 0) := by
      rw [List.getD_eq_getElem?_getD, List.getElem?_eq_getElem (by omega)]
      rfl
    rw [List.take_add_one (i := 2), hsome]
    rfl
  calc
    _ = versionPrefix ++ [record.getD 2 0] ++ (readArray 8 record 3).toList ++
          (readArray 8 record 11).toList ++ (readArray 8 record 19).toList ++
          (readArray 4 record 27).toList := by
      simp only [signedRegion, hflag]
      simp only [parseInner, u64ToBe_u64OfBe]
    _ = record.take 3 ++ (readArray 8 record 3).toList ++ (readArray 8 record 11).toList ++
          (readArray 8 record 19).toList ++ (readArray 4 record 27).toList := by
      rw [← hversion, htake]
    _ = record.take 31 := by
      rw [take_append_readArray (by omega), take_append_readArray (by omega),
        take_append_readArray (by omega), take_append_readArray (by omega)]

theorem checkedMessage_of_openWire {wire : Bytes} {serverPrivate : Octets 32} {packet : SpaPacket}
    (h : openWire crypto wire serverPrivate = .ok packet) :
    ∃ record, decryptedRecord crypto wire serverPrivate = some record ∧
      ∀ server, packet.checkedMessage server =
        record.take spaInnerSignedLen ++ wire.take spaEphemeralLen ++ server.toList := by
  obtain ⟨record, hrecord, hmin, -, hlength, hversion, hflags, rfl⟩ := openWire_ok h
  refine ⟨record, hrecord, fun server ↦ ?_⟩
  have hwire : 143 ≤ wire.length := hmin
  have hephemeral : (readArray 32 (wire.take spaSealedCoreLen) 0).toList =
      wire.take spaEphemeralLen := by
    rw [toList_readArray (by rw [List.length_take]; exact le_min (by decide) (by omega)),
      List.drop_zero, List.take_take]
    rfl
  rw [checkedMessage, signedMessage, signedRegion_parseInner _ hlength hversion hflags]
  rw [← hephemeral]
  rfl

/-! ### Distinct contents have distinct messages -/

/-- Two packets, each for its server, with the same signed content. -/
structure SameContent (packet packet' : SpaPacket) (server server' : Octets 32) : Prop where
  flags : packet.flagsByte = packet'.flagsByte
  keyId : packet.keyId = packet'.keyId
  timestampMs : packet.timestampMs = packet'.timestampMs
  counter : packet.counter = packet'.counter
  allowIp : packet.allowIp = packet'.allowIp
  ephemeralPub : packet.ephemeralPub = packet'.ephemeralPub
  server : server = server'

/-- Two strings that end in arrays of one width agree exactly if both parts do. -/
theorem append_octets_inj {width : ℕ} {front front' : Bytes} {octets octets' : Octets width}
    (h : front ++ octets.toList = front' ++ octets'.toList) :
    front = front' ∧ octets = octets' := by
  have hparts := List.append_inj' h (by rw [Vector.length_toList, Vector.length_toList])
  exact ⟨hparts.1, Vector.toList_inj.mp hparts.2⟩

theorem sameContent_of_checkedMessage_eq {packet packet' : SpaPacket} {server server' : Octets 32}
    (h : packet.checkedMessage server = packet'.checkedMessage server') :
    SameContent packet packet' server server' := by
  obtain ⟨hephemeral, hserver⟩ := append_octets_inj h
  obtain ⟨hip, hpub⟩ := append_octets_inj hephemeral
  obtain ⟨hcounter, hallow⟩ := append_octets_inj hip
  obtain ⟨htime, hcount⟩ := append_octets_inj hcounter
  obtain ⟨hkey, hstamp⟩ := append_octets_inj htime
  obtain ⟨hflags, hid⟩ := append_octets_inj hkey
  have hbyte : packet.flagsByte = packet'.flagsByte := by
    simpa using List.append_cancel_left hflags
  exact ⟨hbyte, hid, u64ToBe_injective hstamp, u64ToBe_injective hcount, hallow, hpub, hserver⟩

/-! ### Signatures bind record, seal and server -/

/-- `made` lists the packets and servers the holder of a key has signed for; that verification
accepts no other message is the unforgeability of the signature scheme. -/
def AcceptsOnly (crypto : Crypto) (key : Octets 32) (made : List (SpaPacket × Octets 32)) : Prop :=
  ∀ message signature, crypto.ed25519Verify key message signature = true →
    ∃ entry ∈ made, message = entry.1.checkedMessage entry.2

theorem sameContent_of_verify {key server : Octets 32} {made : List (SpaPacket × Octets 32)}
    {packet : SpaPacket} (honly : AcceptsOnly crypto key made)
    (h : packet.verify crypto key server = .ok ()) :
    ∃ entry ∈ made, SameContent packet entry.1 server entry.2 := by
  unfold verify at h
  split_ifs at h with hverify
  obtain ⟨entry, hentry, hmessage⟩ := honly _ _ hverify
  exact ⟨entry, hentry, sameContent_of_checkedMessage_eq hmessage⟩

/-- The checked message is the signed part of the decrypted record with the ephemeral key of the
wire and the server key; packets that differ in any part of it have different messages; and a
packet verifies only for the content and the server its key holder signed for. -/
theorem signature_covers_record (crypto : Crypto) :
    (∀ wire serverPrivate packet, openWire crypto wire serverPrivate = .ok packet →
      ∃ record, decryptedRecord crypto wire serverPrivate = some record ∧
        ∀ server, packet.checkedMessage server =
          record.take spaInnerSignedLen ++ wire.take spaEphemeralLen ++ server.toList) ∧
    (∀ wire wire' serverPrivate serverPrivate' packet packet' record record' server server',
      openWire crypto wire serverPrivate = .ok packet →
      openWire crypto wire' serverPrivate' = .ok packet' →
      decryptedRecord crypto wire serverPrivate = some record →
      decryptedRecord crypto wire' serverPrivate' = some record' →
      (record.take 2 ≠ record'.take 2 ∨ record[2]? ≠ record'[2]? ∨
        packet.keyId ≠ packet'.keyId ∨ packet.timestampMs ≠ packet'.timestampMs ∨
        packet.counter ≠ packet'.counter ∨ packet.allowIp ≠ packet'.allowIp ∨
        wire.take spaEphemeralLen ≠ wire'.take spaEphemeralLen ∨ server ≠ server') →
      packet.checkedMessage server ≠ packet'.checkedMessage server') ∧
    ∀ key made, AcceptsOnly crypto key made →
      ∀ (packet : SpaPacket) server, packet.verify crypto key server = .ok () →
        ∃ entry ∈ made, SameContent packet entry.1 server entry.2 := by
  refine ⟨fun wire serverPrivate packet ↦ checkedMessage_of_openWire, ?_,
    fun key made honly packet server ↦ sameContent_of_verify honly⟩
  intro wire wire' serverPrivate serverPrivate' packet packet' record record' server server'
    hopen hopen' hrecord hrecord' hdiffers heq
  have hcontent := sameContent_of_checkedMessage_eq heq
  obtain ⟨_, hsome, hmessage⟩ := checkedMessage_of_openWire hopen
  obtain ⟨_, hsome', hmessage'⟩ := checkedMessage_of_openWire hopen'
  obtain rfl := Option.some.inj (hrecord.symm.trans hsome)
  obtain rfl := Option.some.inj (hrecord'.symm.trans hsome')
  -- The messages agree part by part, so no field can be the one that differs.
  rw [hmessage, hmessage'] at heq
  have hparts := (append_octets_inj heq).1
  obtain ⟨_, hrecorded, hmin, -, hlength, -⟩ := openWire_ok hopen
  obtain ⟨_, hrecorded', hmin', -, hlength', -⟩ := openWire_ok hopen'
  obtain rfl := Option.some.inj (hrecord.symm.trans hrecorded)
  obtain rfl := Option.some.inj (hrecord'.symm.trans hrecorded')
  obtain ⟨hsigned, hephemeral⟩ := List.append_inj hparts (by simp [hlength, hlength'])
  have hversion : record.take 2 = record'.take 2 := by
    have htwo := congrArg (List.take 2) hsigned
    rwa [List.take_take, List.take_take] at htwo
  have hflags : record[2]? = record'[2]? := by
    have hthird := congrArg (fun bytes ↦ bytes[2]?) hsigned
    rwa [List.getElem?_take_of_lt (by decide), List.getElem?_take_of_lt (by decide)] at hthird
  simp [hversion, hflags, hcontent.keyId, hcontent.timestampMs, hcontent.counter, hcontent.allowIp,
    hephemeral, hcontent.server] at hdiffers


/-! ### One signed packet -/

namespace Sample

def signingKey : Octets 32 := Vector.replicate 32 5

def server : Octets 32 := Vector.replicate 32 9

/-- The packet of `signingKey` for `server`, at time 1000 with counter 7. -/
def signed : SpaPacket :=
  let keyId := keyIdForPublicKey Crypto.transparent signingKey
  let ephemeralPub : Octets 32 := Vector.replicate 32 3
  { mode := .https
    usePacketSource := true
    keyId := keyId
    timestampMs := 1000
    counter := 7
    allowIp := Vector.replicate 4 0
    signature := Crypto.transparent.ed25519Sign signingKey
      (signedMessage (signedRegion 3 keyId 1000 7 (Vector.replicate 4 0)) ephemeralPub server)
    ephemeralPub := ephemeralPub }

/-- The transparent primitives in a world where `signed` is the only message ever signed. -/
def ledger : Crypto :=
  { Crypto.transparent with
    ed25519Verify := fun key message signature ↦
      decide (message = signed.checkedMessage server) &&
        Crypto.transparent.ed25519Verify key message signature }

def wire : Bytes :=
  buildWithPadding ledger signingKey .https 1000 7 .packetSource [1, 2] server
    (Vector.replicate 32 3)

theorem openWire_wire : openWire ledger wire server = .ok signed := by
  have hopen : (openWire ledger wire server).toOption = some signed := by decide +kernel
  cases hresult : openWire ledger wire server with
  | error error =>
    rw [hresult] at hopen
    cases hopen
  | ok packet =>
    rw [hresult] at hopen
    exact congrArg Except.ok (Option.some.inj hopen)

theorem acceptsOnly_ledger : AcceptsOnly ledger signingKey [(signed, server)] := by
  intro message signature hverify
  have hmessage : message = signed.checkedMessage server := by
    simp only [ledger, Bool.and_eq_true, decide_eq_true_eq] at hverify
    exact hverify.1
  exact ⟨(signed, server), List.mem_singleton_self _, hmessage⟩

end Sample

theorem signature_covers_record_sample :
    ∃ record, decryptedRecord Sample.ledger Sample.wire Sample.server = some record ∧
      Sample.signed.checkedMessage Sample.server =
        record.take spaInnerSignedLen ++ Sample.wire.take spaEphemeralLen ++
          Sample.server.toList ∧
      Sample.signed.checkedMessage Sample.server ≠
        Sample.signed.checkedMessage (Vector.replicate 32 8) ∧
      Sample.signed.verify Sample.ledger Sample.signingKey Sample.server = .ok () ∧
      ∃ entry ∈ [(Sample.signed, Sample.server)],
        SameContent Sample.signed entry.1 Sample.server entry.2 := by
  obtain ⟨hcovers, hdistinct, hbinds⟩ := signature_covers_record Sample.ledger
  have hopen := Sample.openWire_wire
  obtain ⟨record, hrecord, hmessage⟩ := hcovers _ _ _ hopen
  have hother : Sample.server ≠ Vector.replicate 32 8 := by decide
  have hverify : Sample.signed.verify Sample.ledger Sample.signingKey Sample.server = .ok () := by
    have htrue : Sample.ledger.ed25519Verify Sample.signingKey
        (Sample.signed.checkedMessage Sample.server) Sample.signed.signature = true := by
      decide +kernel
    rw [verify, if_pos htrue]
  exact ⟨record, hrecord, hmessage Sample.server,
    hdistinct _ _ _ _ _ _ _ _ _ _ hopen hopen hrecord hrecord (by simp [hother]), hverify,
    hbinds _ _ Sample.acceptsOnly_ledger _ _ hverify⟩

end Ghostbro.SpaPacket
