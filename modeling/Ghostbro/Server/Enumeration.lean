import Ghostbro.Server.Isolation

/-!
# What an unsigned payload learns

Without a valid signature of an enrolled key, a payload is refused before `verify` looks at a tier,
a name, a time window or a counter.  The checks up to the signature see the two keys of the server
and the enrolled signing keys, and nothing else of the verifier; `checkSignature` is written over
exactly these, so two servers that agree on them cannot be told apart by unsigned payloads.
-/

namespace Ghostbro.Enumeration

open SpaVerifier Isolation

variable (crypto : Crypto) (toml : Toml)

/-- The signing key that is enrolled under a key identifier. -/
def enrolledKey (verifier : SpaVerifier) (keyId : KeyId) : Option (Octets 32) :=
  (verifier.clients.lookup keyId).map AuthorizedClient.publicKey

/-- The checks of `verify` up to the signature. -/
def checkSignature (enrolled : KeyId → Option (Octets 32))
    (serverStaticPrivate serverStaticPubkey : Octets 32) (payload : Bytes) :
    Except SpaVerifyError SpaPacket :=
  match SpaPacket.openWire crypto payload serverStaticPrivate with
  | .error error => .error (.parse error)
  | .ok packet =>
    match enrolled packet.keyId with
    | none => .error (.unknownKey (Keys.keyIdHex packet.keyId))
    | some publicKey =>
      match packet.verify crypto publicKey serverStaticPubkey with
      | .error error => .error (.parse error)
      | .ok () => .ok packet

/-- `checkSignature` on what a verifier knows. -/
def signatureCheck (verifier : SpaVerifier) (payload : Bytes) : Except SpaVerifyError SpaPacket :=
  checkSignature crypto (enrolledKey verifier) verifier.serverStaticPrivate
    verifier.serverStaticPubkey payload

section

variable {crypto} {verifier verifier' : SpaVerifier} {payload : Bytes}

/-- The check fails on a payload that no enrolled key has signed. -/
theorem signatureCheck_eq_error (h : ¬∃ keyId, SignedBy crypto verifier keyId payload) :
    ∃ error, signatureCheck crypto verifier payload = .error error := by
  unfold signatureCheck checkSignature enrolledKey
  cases hopen : SpaPacket.openWire crypto payload verifier.serverStaticPrivate with
  | error error => exact ⟨_, rfl⟩
  | ok packet =>
    cases hclient : verifier.clients.lookup packet.keyId with
    | none => exact ⟨_, by simp only [hclient, Option.map_none]; rfl⟩
    | some client =>
      cases hverify : packet.verify crypto client.publicKey verifier.serverStaticPubkey with
      | error error => exact ⟨.parse error, by simp [hclient, hverify]⟩
      | ok _ => exact (h ⟨packet.keyId, packet, client, hopen, rfl, hclient, hverify⟩).elim

/-- A call ends with the error of the failed check, before anything is written. -/
theorem verify_of_signatureCheck {error : SpaVerifyError}
    (h : signatureCheck crypto verifier payload = .error error) (files : FileSystem)
    (source : Ipv4Addr) (nowMs : UInt64) (fault : Option SaveFault) :
    verifier.verify crypto toml files payload source nowMs fault =
      ⟨verifier, files, .error error⟩ := by
  have hauth : verifier.authenticate crypto payload source nowMs = .error error := by
    unfold signatureCheck checkSignature enrolledKey at h
    unfold authenticate
    cases hopen : SpaPacket.openWire crypto payload verifier.serverStaticPrivate with
    | error _ => simpa [hopen] using h
    | ok packet =>
      cases hclient : verifier.clients.lookup packet.keyId with
      | none => simpa [hopen, hclient] using h
      | some client =>
        cases hverify : packet.verify crypto client.publicKey verifier.serverStaticPubkey with
        | error _ => simpa [hopen, hclient, hverify] using h
        | ok _ => simp [hopen, hclient, hverify] at h
  simp only [verify, hauth]

theorem signatureCheck_congr
    (hprivate : verifier'.serverStaticPrivate = verifier.serverStaticPrivate)
    (hpublic : verifier'.serverStaticPubkey = verifier.serverStaticPubkey)
    (henrolled : ∀ keyId, enrolledKey verifier' keyId = enrolledKey verifier keyId)
    (payload : Bytes) :
    signatureCheck crypto verifier' payload = signatureCheck crypto verifier payload := by
  unfold signatureCheck
  rw [hprivate, hpublic, funext henrolled]

/-- Two servers with the same keys answer an unsigned payload with the same error, and neither
changes. -/
theorem verify_unsigned_alike
    (hprivate : verifier'.serverStaticPrivate = verifier.serverStaticPrivate)
    (hpublic : verifier'.serverStaticPubkey = verifier.serverStaticPubkey)
    (henrolled : ∀ keyId, enrolledKey verifier' keyId = enrolledKey verifier keyId)
    (payload : Bytes) (hunsigned : ¬∃ keyId, SignedBy crypto verifier keyId payload)
    (source : Ipv4Addr) (nowMs : UInt64) (files files' : FileSystem)
    (fault fault' : Option SaveFault) :
    ∃ error, verifier.verify crypto toml files payload source nowMs fault =
        ⟨verifier, files, .error error⟩ ∧
      verifier'.verify crypto toml files' payload source nowMs fault' =
        ⟨verifier', files', .error error⟩ := by
  obtain ⟨error, herror⟩ := signatureCheck_eq_error hunsigned
  have herror' : signatureCheck crypto verifier' payload = .error error := by
    rw [signatureCheck_congr hprivate hpublic henrolled, herror]
  exact ⟨error, verify_of_signatureCheck toml herror files source nowMs fault,
    verify_of_signatureCheck toml herror' files' source nowMs fault'⟩

end

/-! ### A full client and a decoy client -/

open Sample

/-- A server that knows alice as a full client and has seen nothing. -/
def fullServer : SpaVerifier :=
  fromCounters Crypto.transparent [client "alice" 1 alice] 30 ∅ none serverPrivate

/-- A server that knows alice as a decoy under another name and has a counter of hers. -/
def decoyServer : SpaVerifier :=
  fromCounters Crypto.transparent [{ client "mallory" 9 alice with tier := .decoy }] 60
    (HashMap.collect [(Vector.replicate 8 5, 41)]) (some defaultPath) serverPrivate

theorem enrolledKey_single (client : AuthorizedClient) (timeWindowSeconds : UInt64)
    (counters : HashMap KeyId UInt64) (path : Option Path) (keyId : KeyId) :
    enrolledKey (fromCounters crypto [client] timeWindowSeconds counters path serverPrivate) keyId =
      if keyId = client.keyId then some client.publicKey else none := by
  have hlookup : (rosterOf [client]).lookup keyId =
      if keyId = client.keyId then some client else none := HashMap.lookup_insert_ite _ _ _ _
  unfold enrolledKey fromCounters
  rw [hlookup]
  split_ifs <;> rfl

/-- Bob is enrolled at neither server and gets the same refusal from both. -/
theorem verify_unsigned_alike_bob :
    ∃ error, fullServer.verify Crypto.transparent Toml.plain ∅ (payload bob 7) source 0 none =
        ⟨fullServer, ∅, .error error⟩ ∧
      decoyServer.verify Crypto.transparent Toml.plain ∅ (payload bob 7) source 0 none =
        ⟨decoyServer, ∅, .error error⟩ := by
  apply verify_unsigned_alike
  · rfl
  · rfl
  · intro keyId
    unfold decoyServer fullServer
    rw [enrolledKey_single, enrolledKey_single]
    rfl
  · intro hsigned
    obtain ⟨keyId, opened, client, hopen, hkey, hclient, -⟩ := hsigned
    have hopened : opened = packet bob 7 :=
      Except.ok.inj (hopen.symm.trans (openWire_payload bob 7))
    have hstranger : fullServer.clients.lookup (Vector.replicate 8 6) = none := by decide +kernel
    rw [← hkey, hopened, keyId_bob, hstranger] at hclient
    cases hclient

end Ghostbro.Enumeration
