import Ghostbro.Server.SpaVerifier

/-!
# Honest packets are accepted

The client builds a packet in `build_with_padding`; the server takes it apart in `seal::open`,
`SpaPacket::open` and `SpaVerifier::verify`.  Of the primitives only their defining equations are
used: both sides of an X25519 exchange agree, decryption undoes encryption and the tag has sixteen
bytes, and a signature verifies under the key that made it.  Under these equations the server
recovers exactly the packet the client meant, whatever the padding, and accepts it.
-/

namespace Ghostbro

/-- The equations that the primitives satisfy. -/
structure Crypto.Correct (crypto : Crypto) : Prop where
  agreement : ∀ secret secret', crypto.diffieHellman secret (crypto.x25519Public secret') =
    crypto.diffieHellman secret' (crypto.x25519Public secret)
  decrypts : ∀ key nonce associated message,
    crypto.aeadDecrypt key nonce associated (crypto.aeadEncrypt key nonce associated message) =
      some message
  tagged : ∀ key nonce associated message,
    (crypto.aeadEncrypt key nonce associated message).length = message.length + spaAeadTagLen
  verifies : ∀ signingKey message,
    crypto.ed25519Verify (crypto.verifyingKey signingKey) message
      (crypto.ed25519Sign signingKey message) = true

theorem Crypto.transparent_correct : Crypto.transparent.Correct where
  agreement secret secret' := by
    apply Vector.ext
    intro index hindex
    simp [transparent, UInt8.xor_comm]
  decrypts key nonce associated message := by simp [transparent]
  tagged key nonce associated message := by simp [transparent, spaAeadTagLen]
  verifies signingKey message := by simp [transparent]

namespace SpaPacket

variable {crypto : Crypto}

@[simp]
theorem length_signedRegion (flags : UInt8) (keyId : KeyId) (timestampMs counter : UInt64)
    (allowIp : Octets 4) :
    (signedRegion flags keyId timestampMs counter allowIp).length = spaInnerSignedLen := by
  simp [signedRegion, versionPrefix, spaInnerSignedLen]

/-- The packet that `build_with_padding` seals. -/
def honestPacket (crypto : Crypto) (signingKey : Octets 32) (mode : SpaMode)
    (timestampMs counter : UInt64) (allowIp : SpaAllowIp)
    (serverStaticPubkey ephemeralSecret : Octets 32) : SpaPacket :=
  let keyId := keyIdForPublicKey crypto (crypto.verifyingKey signingKey)
  let ephemeralPub := crypto.x25519Public ephemeralSecret
  { mode := mode
    usePacketSource := decide (allowIp = .packetSource)
    keyId := keyId
    timestampMs := timestampMs
    counter := counter
    allowIp := allowIp.ipBytes
    signature := crypto.ed25519Sign signingKey (signedMessage
      (signedRegion (mode.flagBit ||| allowIp.flagBit) keyId timestampMs counter allowIp.ipBytes)
      ephemeralPub serverStaticPubkey)
    ephemeralPub := ephemeralPub }

/-! ### Opening what was sealed -/

theorem length_sealWithEphemeral (hcorrect : crypto.Correct) (plaintext : Bytes)
    (serverPub ephemeralSecret : Octets 32) :
    (Seal.sealWithEphemeral crypto plaintext serverPub ephemeralSecret).length =
      spaEphemeralLen + plaintext.length + spaAeadTagLen := by
  simp only [Seal.sealWithEphemeral, List.length_append, Vector.length_toList, hcorrect.tagged]
  exact (Nat.add_assoc ..).symm

/-- The server derives the key and nonce of the sender, so the seal opens. -/
theorem openCore_sealWithEphemeral (hcorrect : crypto.Correct) (plaintext : Bytes)
    (serverPrivate ephemeralSecret : Octets 32) :
    Seal.openCore crypto (Seal.sealWithEphemeral crypto plaintext
      (crypto.x25519Public serverPrivate) ephemeralSecret) serverPrivate =
        some ⟨plaintext, crypto.x25519Public ephemeralSecret⟩ := by
  have hlength := length_sealWithEphemeral hcorrect plaintext (crypto.x25519Public serverPrivate)
    ephemeralSecret
  have hephemeral : readArray 32 (Seal.sealWithEphemeral crypto plaintext
      (crypto.x25519Public serverPrivate) ephemeralSecret) 0 =
        crypto.x25519Public ephemeralSecret :=
    readArray_of_eq_append [] _ rfl rfl
  have hciphertext (ciphertext : Bytes) :
      ((crypto.x25519Public ephemeralSecret).toList ++ ciphertext).drop spaEphemeralLen =
        ciphertext :=
    List.drop_left' (Vector.length_toList)
  unfold Seal.openCore
  rw [if_neg (by omega), hephemeral]
  simp only [Seal.sealWithEphemeral, hciphertext]
  rw [hcorrect.agreement serverPrivate ephemeralSecret, hcorrect.decrypts]
  rfl

/-! ### Parsing what was laid out -/

/-- The flag byte decodes to the two choices it encodes and sets no reserved bit. -/
theorem flags_decode (mode : SpaMode) (usePacketSource : Bool) :
    let flags := mode.flagBit ||| (if usePacketSource then spaFlagUsePacketSource else 0)
    SpaMode.fromFlags flags = mode ∧
      decide (flags &&& spaFlagUsePacketSource ≠ 0) = usePacketSource ∧
      flags &&& spaReservedFlags = 0 := by
  cases mode <;> cases usePacketSource <;> decide

theorem flagBit_eq (allowIp : SpaAllowIp) :
    allowIp.flagBit =
      if decide (allowIp = .packetSource) then spaFlagUsePacketSource else 0 := by
  cases allowIp <;> rfl

/-- Every field reads back from its offset. -/
theorem parseInner_signedRegion (mode : SpaMode) (allowIp : SpaAllowIp) (keyId : KeyId)
    (timestampMs counter : UInt64) (signature : Octets 64) (ephemeralPub : Octets 32) :
    parseInner (signedRegion (mode.flagBit ||| allowIp.flagBit) keyId timestampMs counter
      allowIp.ipBytes ++ signature.toList) ephemeralPub =
        { mode := mode
          usePacketSource := decide (allowIp = .packetSource)
          keyId := keyId
          timestampMs := timestampMs
          counter := counter
          allowIp := allowIp.ipBytes
          signature := signature
          ephemeralPub := ephemeralPub } := by
  set flags := mode.flagBit ||| allowIp.flagBit with hflags
  set inner := signedRegion flags keyId timestampMs counter allowIp.ipBytes ++ signature.toList
    with hinner
  have hlayout : inner = versionPrefix ++ [flags] ++ keyId.toList ++
      (u64ToBe timestampMs).toList ++ (u64ToBe counter).toList ++ allowIp.ipBytes.toList ++
      signature.toList := rfl
  have hflag : inner.getD 2 0 = flags := by
    rw [hlayout]
    simp [versionPrefix]
  have hkeyId : readArray 8 inner 3 = keyId := by
    apply readArray_of_eq_append (versionPrefix ++ [flags]) ((u64ToBe timestampMs).toList ++
      (u64ToBe counter).toList ++ allowIp.ipBytes.toList ++ signature.toList)
    · simp only [hlayout, List.append_assoc]
    · rfl
  have htimestamp : readArray 8 inner 11 = u64ToBe timestampMs := by
    apply readArray_of_eq_append (versionPrefix ++ [flags] ++ keyId.toList)
      ((u64ToBe counter).toList ++ allowIp.ipBytes.toList ++ signature.toList)
    · simp only [hlayout, List.append_assoc]
    · simp [versionPrefix]
  have hcounter : readArray 8 inner 19 = u64ToBe counter := by
    apply readArray_of_eq_append (versionPrefix ++ [flags] ++ keyId.toList ++
      (u64ToBe timestampMs).toList) (allowIp.ipBytes.toList ++ signature.toList)
    · simp only [hlayout, List.append_assoc]
    · simp [versionPrefix]
  have hallowIp : readArray 4 inner 27 = allowIp.ipBytes := by
    apply readArray_of_eq_append (versionPrefix ++ [flags] ++ keyId.toList ++
      (u64ToBe timestampMs).toList ++ (u64ToBe counter).toList) signature.toList
    · simp only [hlayout]
    · simp [versionPrefix]
  have hsignature : readArray 64 inner 31 = signature := by
    apply readArray_of_eq_append (signedRegion flags keyId timestampMs counter allowIp.ipBytes) []
    · rw [List.append_nil]
    · exact length_signedRegion ..
  simp only [parseInner, hflag, hkeyId, htimestamp, hcounter, hallowIp, hsignature,
    u64OfBe_u64ToBe]
  rw [flagBit_eq] at hflags
  obtain ⟨hmode, hsource, -⟩ := flags_decode mode (decide (allowIp = .packetSource))
  rw [hflags, hmode, hsource]

/-- The wire has an admissible length and opens to the packet that was built. -/
theorem openWire_buildWithPadding (hcorrect : crypto.Correct) (signingKey : Octets 32)
    (mode : SpaMode) (timestampMs counter : UInt64) (allowIp : SpaAllowIp) {padding : Bytes}
    (hpadding : padding.length ≤ 33) (serverPrivate ephemeralSecret : Octets 32) :
    let serverPub := crypto.x25519Public serverPrivate
    let wire := buildWithPadding crypto signingKey mode timestampMs counter allowIp padding
      serverPub ephemeralSecret
    spaMinLen ≤ wire.length ∧ wire.length ≤ spaMaxLen ∧
      openWire crypto wire serverPrivate = .ok (honestPacket crypto signingKey mode timestampMs
        counter allowIp serverPub ephemeralSecret) := by
  intro serverPub wire
  set inner := signedRegion (mode.flagBit ||| allowIp.flagBit)
    (keyIdForPublicKey crypto (crypto.verifyingKey signingKey)) timestampMs counter
    allowIp.ipBytes ++ (honestPacket crypto signingKey mode timestampMs counter allowIp serverPub
      ephemeralSecret).signature.toList with hinner
  have hwire : wire = Seal.sealWithEphemeral crypto inner serverPub ephemeralSecret ++ padding :=
    rfl
  have hinnerLength : inner.length = spaInnerLen := by
    rw [hinner, List.length_append, length_signedRegion, Vector.length_toList]
    rfl
  have hcore : (Seal.sealWithEphemeral crypto inner serverPub ephemeralSecret).length =
      spaSealedCoreLen := by
    rw [length_sealWithEphemeral hcorrect, hinnerLength]
    rfl
  have hlength : wire.length = 143 + padding.length := by
    rw [hwire, List.length_append, hcore]
    rfl
  have hbounds : spaMinLen ≤ wire.length ∧ wire.length ≤ spaMaxLen := by
    simp only [hlength, spaMaxLen]
    exact ⟨Nat.le_add_right .., by omega⟩
  refine ⟨hbounds.1, hbounds.2, ?_⟩
  have htake : wire.take spaSealedCoreLen =
      Seal.sealWithEphemeral crypto inner serverPub ephemeralSecret := by
    rw [hwire, List.take_left' hcore]
  have hflag : inner.getD 2 0 = mode.flagBit ||| allowIp.flagBit := by
    simp [hinner, signedRegion, versionPrefix]
  have hversion : inner.take 2 = versionPrefix := by
    simp [hinner, signedRegion, versionPrefix]
  have hreserved : (mode.flagBit ||| allowIp.flagBit) &&& spaReservedFlags = 0 := by
    rw [flagBit_eq]
    exact (flags_decode mode _).2.2
  rw [openWire, if_neg (not_not.mpr hbounds), htake, openCore_sealWithEphemeral hcorrect]
  dsimp only
  rw [if_neg (not_not.mpr hinnerLength), if_neg (not_not.mpr hversion), hflag,
    if_neg (not_not.mpr hreserved), hinner, parseInner_signedRegion]
  rfl

/-- The signature of an honest packet verifies for the server it was made for. -/
theorem verify_honestPacket (hcorrect : crypto.Correct) (signingKey : Octets 32) (mode : SpaMode)
    (timestampMs counter : UInt64) (allowIp : SpaAllowIp)
    (serverStaticPubkey ephemeralSecret : Octets 32) :
    (honestPacket crypto signingKey mode timestampMs counter allowIp serverStaticPubkey
      ephemeralSecret).verify crypto (crypto.verifyingKey signingKey) serverStaticPubkey =
        .ok () := by
  have hflags : (honestPacket crypto signingKey mode timestampMs counter allowIp
      serverStaticPubkey ephemeralSecret).flagsByte = mode.flagBit ||| allowIp.flagBit := by
    cases allowIp <;> rfl
  unfold verify checkedMessage
  rw [hflags]
  apply if_pos
  exact hcorrect.verifies ..

end SpaPacket

namespace SpaVerifier

variable {crypto : Crypto}

/-- The verifier holds the key pair of a server; `from_counters` makes it so and nothing changes
it. -/
def Serves (crypto : Crypto) (verifier : SpaVerifier) (serverPrivate : Octets 32) : Prop :=
  verifier.serverStaticPrivate = serverPrivate ∧
    verifier.serverStaticPubkey = crypto.x25519Public serverPrivate

theorem serves_fromCounters (crypto : Crypto) (clients : List AuthorizedClient)
    (timeWindowSeconds : UInt64) (highestCounters : HashMap KeyId UInt64)
    (counterStatePath : Option Path) (serverPrivate : Octets 32) :
    Serves crypto (fromCounters crypto clients timeWindowSeconds highestCounters
      counterStatePath serverPrivate) serverPrivate := ⟨rfl, rfl⟩

/-- The checks of `authenticate` in the direction of acceptance. -/
theorem authenticate_of_checks {verifier : SpaVerifier} {payload : Bytes} {source : Ipv4Addr}
    {nowMs : UInt64} {packet : SpaPacket} {client : AuthorizedClient}
    (hopen : SpaPacket.openWire crypto payload verifier.serverStaticPrivate = .ok packet)
    (hclient : verifier.clients.lookup packet.keyId = some client)
    (hverify : packet.verify crypto client.publicKey verifier.serverStaticPubkey = .ok ())
    (htier : client.tier = .full)
    (hwindow : absDiff nowMs packet.timestampMs ≤ verifier.timeWindowMs)
    (hsource : packet.usePacketSource = false → packet.allowIp = source) :
    verifier.authenticate crypto payload source nowMs = .ok (packet, client) := by
  have hbound : ¬(!packet.usePacketSource ∧ packet.allowIp ≠ source) := by
    rintro ⟨hexplicit, hdiffers⟩
    exact hdiffers (hsource (by simpa using hexplicit))
  have hfresh : ¬absDiff nowMs packet.timestampMs > verifier.timeWindowMs :=
    UInt64.not_lt.mpr hwindow
  simp only [authenticate, hopen, hclient, hverify]
  rw [if_neg (not_not.mpr htier), if_neg hfresh, if_neg hbound]

/-- The wire of an honest client has an admissible length, opens to the packet that was meant, and
is accepted when the roster, the clock, the source, the counter and the disk allow it. -/
theorem honest_packet_accepted (hcorrect : crypto.Correct) (signingKey : Octets 32)
    (mode : SpaMode) (timestampMs counter : UInt64) (allowIp : SpaAllowIp) (padding : Bytes)
    (hpadding : padding.length ≤ 33) (serverPrivate ephemeralSecret : Octets 32) :
    let serverPub := crypto.x25519Public serverPrivate
    let keyId := SpaPacket.keyIdForPublicKey crypto (crypto.verifyingKey signingKey)
    let wire := SpaPacket.buildWithPadding crypto signingKey mode timestampMs counter allowIp
      padding serverPub ephemeralSecret
    143 ≤ wire.length ∧ wire.length ≤ 176 ∧
      ∃ packet, SpaPacket.openWire crypto wire serverPrivate = .ok packet ∧
        packet.mode = mode ∧ packet.usePacketSource = decide (allowIp = .packetSource) ∧
        packet.keyId = keyId ∧ packet.timestampMs = timestampMs ∧ packet.counter = counter ∧
        packet.allowIp = allowIp.ipBytes ∧
        ∀ toml (verifier : SpaVerifier) files source nowMs fault client,
          verifier.Serves crypto serverPrivate →
          verifier.clients.lookup keyId = some client →
          client.publicKey = crypto.verifyingKey signingKey →
          client.tier = .full →
          absDiff nowMs timestampMs ≤ verifier.timeWindowMs →
          (∀ ip, allowIp = .explicit ip → source = ip) →
          verifier.highestCounter keyId < counter →
          ((verifier.recordCounter packet).persistCounters toml files fault).2 = .ok () →
          (verifier.verify crypto toml files wire source nowMs fault).result =
            .ok { keyId := keyId
                  clientId := client.clientId
                  clientName := client.name
                  noisePublicKey := client.noisePublicKey
                  mode := mode
                  counter := counter
                  maxConcurrentSessions := client.maxConcurrentSessions } := by
  intro serverPub keyId wire
  obtain ⟨hmin, hmax, hopen⟩ := SpaPacket.openWire_buildWithPadding hcorrect signingKey mode
    timestampMs counter allowIp hpadding serverPrivate ephemeralSecret
  set packet := SpaPacket.honestPacket crypto signingKey mode timestampMs counter allowIp
    serverPub ephemeralSecret with hpacket
  refine ⟨hmin, hmax, packet, hopen, rfl, rfl, rfl, rfl, rfl, rfl, ?_⟩
  intro toml verifier files source nowMs fault client hserves hclient hkey htier hwindow hsource
    hcounter hpersist
  have hverify := SpaPacket.verify_honestPacket hcorrect signingKey mode timestampMs counter
    allowIp serverPub ephemeralSecret
  have hauthenticate : verifier.authenticate crypto wire source nowMs = .ok (packet, client) := by
    apply authenticate_of_checks
    · rw [hserves.1]
      exact hopen
    · exact hclient
    · rw [hkey, hserves.2]
      exact hverify
    · exact htier
    · exact hwindow
    · intro hexplicit
      cases allowIp with
      | explicit ip => exact (hsource ip rfl).symm
      | packetSource => simp [hpacket, SpaPacket.honestPacket] at hexplicit
  have hfresh : ¬packet.counter ≤ verifier.highestCounter packet.keyId :=
    UInt64.not_le.mpr hcounter
  simp only [verify, hauthenticate]
  rw [if_neg hfresh, hpersist]
  rfl

/-- A fresh server without a counter file accepts the first packet of its one client. -/
theorem honest_packet_accepted_sample :
    let verifier := fromCounters Crypto.transparent [Sample.client "alice" 1 Sample.alice] 30 ∅
      none Sample.serverPrivate
    let wire := SpaPacket.buildWithPadding Crypto.transparent Sample.alice .udp 1000 7
      (.explicit Sample.source) [1, 2, 3] Sample.serverPrivate (Vector.replicate 32 3)
    ([1, 2, 3] : Bytes).length ≤ 33 ∧
      ∃ accept, (verifier.verify Crypto.transparent Toml.plain ∅ wire Sample.source 2000
        none).result = .ok accept ∧ accept.counter = 7 := by
  intro verifier wire
  obtain ⟨-, -, packet, -, -, -, -, -, -, -, haccepts⟩ :=
    honest_packet_accepted Crypto.transparent_correct Sample.alice .udp 1000 7
      (.explicit Sample.source) [1, 2, 3] (by decide) Sample.serverPrivate
      (Vector.replicate 32 3)
  have haccept := haccepts Toml.plain verifier ∅ Sample.source 2000 none
    (Sample.client "alice" 1 Sample.alice) (serves_fromCounters ..) (by decide +kernel) rfl rfl
    (by decide +kernel) (by
      intro ip hip
      exact SpaAllowIp.explicit.inj hip) (by decide +kernel) rfl
  exact ⟨by decide, _, haccept, rfl⟩

end SpaVerifier

/-! ### Sample payloads -/

namespace Sample

open SpaVerifier

variable (signingKey : Octets 32) (counter : UInt64)

/-- A sample payload opens to its record. -/
theorem openWire_payload :
    SpaPacket.openWire Crypto.transparent (payload signingKey counter) serverPrivate =
      .ok (packet signingKey counter) :=
  (SpaPacket.openWire_buildWithPadding Crypto.transparent_correct signingKey .udp 0 counter
    .packetSource (Nat.zero_le _) serverPrivate (Vector.replicate 32 3)).2.2

theorem verify_packet :
    (packet signingKey counter).verify Crypto.transparent
      (Crypto.transparent.verifyingKey signingKey) serverPrivate = .ok () :=
  SpaPacket.verify_honestPacket Crypto.transparent_correct signingKey .udp 0 counter .packetSource
    serverPrivate (Vector.replicate 32 3)

theorem authenticate_payload {verifier : SpaVerifier} {name : String} {clientId : UInt16}
    (hserves : verifier.Serves Crypto.transparent serverPrivate)
    (hclient : verifier.clients.lookup (SpaPacket.keyIdForPublicKey Crypto.transparent
      (Crypto.transparent.verifyingKey signingKey)) = some (client name clientId signingKey))
    (ip : Ipv4Addr) :
    verifier.authenticate Crypto.transparent (payload signingKey counter) ip 0 =
      .ok (packet signingKey counter, client name clientId signingKey) := by
  apply authenticate_of_checks
  · rw [hserves.1]
    exact openWire_payload signingKey counter
  · exact hclient
  · rw [hserves.2]
    exact verify_packet signingKey counter
  · rfl
  · have hzero : absDiff 0 (packet signingKey counter).timestampMs = 0 := by
      change absDiff 0 0 = 0
      decide
    rw [hzero]
    exact UInt64.zero_le
  · nofun

end Sample

end Ghostbro
