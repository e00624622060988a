import Ghostbro.Common.SpaPacket
import Ghostbro.Server.CounterState

/-!
# The SPA verifier

`SpaVerifier::verify` opens a payload, authenticates it against the roster and then compares its
counter with the stored high-water mark.  The checks before the counter comparison read nothing
that `verify` writes; they are `authenticate`.  The rest updates the counter table in memory,
persists the whole table and only then accepts.
-/

namespace Ghostbro

/-- `ClientTier`. -/
inductive ClientTier
  | full
  | decoy
  deriving DecidableEq, Repr

/-- `AuthorizedClient`. -/
structure AuthorizedClient where
  name : String
  publicKey : Octets 32
  noisePublicKey : Octets 32
  keyId : KeyId
  clientId : UInt16
  tier : ClientTier
  maxConcurrentSessions : Option UInt16
  deriving DecidableEq

/-- `SpaAccept`. -/
structure SpaAccept where
  keyId : KeyId
  clientId : UInt16
  clientName : String
  noisePublicKey : Octets 32
  mode : SpaMode
  counter : UInt64
  maxConcurrentSessions : Option UInt16
  deriving DecidableEq

/-- `SpaVerifyError`. -/
inductive SpaVerifyError
  | parse (error : SpaError)
  | unknownKey (keyId : String)
  | unauthorizedTier (name : String)
  | timestampOutsideWindow
  | sourceIpMismatch
  | replayedCounter
  | persist (error : String)
  deriving DecidableEq

/-- `SpaVerifier`. -/
structure SpaVerifier where
  clients : HashMap KeyId AuthorizedClient
  highestCounters : HashMap KeyId UInt64
  timeWindowMs : UInt64
  counterStatePath : Option Path
  serverStaticPrivate : Octets 32
  serverStaticPubkey : Octets 32
  deriving DecidableEq

namespace SpaVerifier

/-- The roster of a list of clients by key identifier. -/
def rosterOf (clients : List AuthorizedClient) : HashMap KeyId AuthorizedClient :=
  HashMap.collect (clients.map fun client ↦ (client.keyId, client))

variable (crypto : Crypto) (toml : Toml)

/-- `SpaVerifier::from_counters`. -/
def fromCounters (clients : List AuthorizedClient) (timeWindowSeconds : UInt64)
    (highestCounters : HashMap KeyId UInt64) (counterStatePath : Option Path)
    (serverStaticPrivate : Octets 32) : SpaVerifier where
  clients := rosterOf clients
  highestCounters := highestCounters
  timeWindowMs := saturatingMul timeWindowSeconds 1000
  counterStatePath := counterStatePath
  serverStaticPrivate := serverStaticPrivate
  serverStaticPubkey := crypto.x25519Public serverStaticPrivate

/-- `SpaVerifier::load`. -/
def load (files : FileSystem) (clients : List AuthorizedClient) (timeWindowSeconds : UInt64)
    (counterStatePath : Path) (serverStaticPrivate : Octets 32) (allowMissingState : Bool) :
    Except String SpaVerifier :=
  match loadCounterState toml files counterStatePath allowMissingState with
  | .error error => .error error
  | .ok counters =>
    .ok (fromCounters crypto clients timeWindowSeconds counters (some counterStatePath)
      serverStaticPrivate)

/-- `SpaVerifier::reload_clients`: the new verifier and the removed key identifiers. -/
def reloadClients (verifier : SpaVerifier) (clients : List AuthorizedClient) :
    SpaVerifier × List KeyId :=
  let roster := rosterOf clients
  ({ verifier with clients := roster },
    verifier.clients.keys.filter fun keyId ↦ decide (keyId ∉ roster))

/-- The stored high-water mark, zero for a key that has none. -/
def highestCounter (verifier : SpaVerifier) (keyId : KeyId) : UInt64 :=
  (verifier.highestCounters.lookup keyId).getD 0

/-- The checks of `SpaVerifier::verify` before the counter comparison, in order: seal, roster,
signature, tier, time window and source binding. -/
def authenticate (verifier : SpaVerifier) (payload : Bytes) (observedSrcIp : Ipv4Addr)
    (nowMs : UInt64) : Except SpaVerifyError (SpaPacket × AuthorizedClient) :=
  match SpaPacket.openWire crypto payload verifier.serverStaticPrivate with
  | .error error => .error (.parse error)
  | .ok packet =>
    match verifier.clients.lookup packet.keyId with
    | none => .error (.unknownKey (Keys.keyIdHex packet.keyId))
    | some client =>
      match packet.verify crypto client.publicKey verifier.serverStaticPubkey with
      | .error error => .error (.parse error)
      | .ok () =>
        if client.tier ≠ .full then .error (.unauthorizedTier client.name)
        else if absDiff nowMs packet.timestampMs > verifier.timeWindowMs then
          .error .timestampOutsideWindow
        else if !packet.usePacketSource ∧ packet.allowIp ≠ observedSrcIp then
          .error .sourceIpMismatch
        else .ok (packet, client)

/-- `SpaVerifier::persist_counters`. -/
def persistCounters (verifier : SpaVerifier) (files : FileSystem) (fault : Option SaveFault) :
    FileSystem × Except SpaVerifyError Unit :=
  match verifier.counterStatePath with
  | none => (files, .ok ())
  | some path =>
    let saved := saveCounterState toml files path verifier.highestCounters fault
    (saved.1, saved.2.mapError .persist)

/-- The verifier with a new high-water mark in memory. -/
def recordCounter (verifier : SpaVerifier) (packet : SpaPacket) : SpaVerifier :=
  { verifier with highestCounters := verifier.highestCounters.insert packet.keyId packet.counter }

/-- The `SpaAccept` that `verify` returns. -/
def acceptOf (packet : SpaPacket) (client : AuthorizedClient) : SpaAccept where
  keyId := packet.keyId
  clientId := client.clientId
  clientName := client.name
  noisePublicKey := client.noisePublicKey
  mode := packet.mode
  counter := packet.counter
  maxConcurrentSessions := client.maxConcurrentSessions

/-- The state and result of one `verify` call. -/
structure Outcome where
  verifier : SpaVerifier
  files : FileSystem
  result : Except SpaVerifyError SpaAccept

/-- `SpaVerifier::verify`, with the files it runs on and the fault of its persist attempt. -/
def verify (verifier : SpaVerifier) (files : FileSystem) (payload : Bytes)
    (observedSrcIp : Ipv4Addr) (nowMs : UInt64) (fault : Option SaveFault) : Outcome :=
  match verifier.authenticate crypto payload observedSrcIp nowMs with
  | .error error => ⟨verifier, files, .error error⟩
  | .ok (packet, client) =>
    if packet.counter ≤ verifier.highestCounter packet.keyId then
      ⟨verifier, files, .error .replayedCounter⟩
    else
      let verifier := verifier.recordCounter packet
      let persisted := verifier.persistCounters toml files fault
      ⟨verifier, persisted.1,
        match persisted.2 with
        | .error error => .error error
        | .ok () => .ok (acceptOf packet client)⟩

/-! ### What an authenticated packet is -/

variable {crypto toml}

theorem authenticate_ok {verifier : SpaVerifier} {payload : Bytes} {source : Ipv4Addr}
    {nowMs : UInt64} {packet : SpaPacket} {client : AuthorizedClient}
    (h : verifier.authenticate crypto payload source nowMs = .ok (packet, client)) :
    SpaPacket.openWire crypto payload verifier.serverStaticPrivate = .ok packet ∧
      verifier.clients.lookup packet.keyId = some client ∧
      packet.verify crypto client.publicKey verifier.serverStaticPubkey = .ok () ∧
      client.tier = .full ∧
      absDiff nowMs packet.timestampMs ≤ verifier.timeWindowMs ∧
      (packet.usePacketSource = false → packet.allowIp = source) := by
  unfold authenticate at h
  split at h
  · cases h
  rename_i opened hopen
  split at h
  · cases h
  rename_i record hrecord
  split at h
  · cases h
  rename_i hverify
  split_ifs at h with htier hwindow hsource
  obtain ⟨rfl, rfl⟩ : opened = packet ∧ record = client := by simpa using h
  refine ⟨hopen, hrecord, hverify, by simpa using htier, by grind, fun hbound ↦ ?_⟩
  simpa [hbound] using hsource

/-- The authentication checks do not read the counter table. -/
theorem authenticate_congr {verifier verifier' : SpaVerifier}
    (hclients : verifier'.clients = verifier.clients)
    (hprivate : verifier'.serverStaticPrivate = verifier.serverStaticPrivate)
    (hpublic : verifier'.serverStaticPubkey = verifier.serverStaticPubkey)
    (hwindow : verifier'.timeWindowMs = verifier.timeWindowMs)
    (payload : Bytes) (source : Ipv4Addr) (nowMs : UInt64) :
    verifier'.authenticate crypto payload source nowMs =
      verifier.authenticate crypto payload source nowMs := by
  unfold authenticate
  rw [hclients, hprivate, hpublic, hwindow]

/-! ### The three ways a call ends -/

/-- Nothing changes and the call is refused; or an authenticated packet above the high-water mark
is recorded in memory, and its persist attempt fails or leads to the accept. -/
theorem verify_cases (crypto : Crypto) (toml : Toml) (verifier : SpaVerifier)
    (files : FileSystem) (payload : Bytes) (source : Ipv4Addr) (nowMs : UInt64)
    (fault : Option SaveFault) :
    (∃ error, verifier.verify crypto toml files payload source nowMs fault =
      ⟨verifier, files, .error error⟩) ∨
    ∃ packet client, verifier.authenticate crypto payload source nowMs = .ok (packet, client) ∧
      verifier.highestCounter packet.keyId < packet.counter ∧
      let persisted := (verifier.recordCounter packet).persistCounters toml files fault
      ((∃ error, persisted.2 = .error error ∧
        verifier.verify crypto toml files payload source nowMs fault =
          ⟨verifier.recordCounter packet, persisted.1, .error error⟩) ∨
      persisted.2 = .ok () ∧ verifier.verify crypto toml files payload source nowMs fault =
          ⟨verifier.recordCounter packet, persisted.1, .ok (acceptOf packet client)⟩) := by
  unfold verify
  cases hauth : verifier.authenticate crypto payload source nowMs with
  | error error => exact .inl ⟨error, rfl⟩
  | ok authenticated =>
    obtain ⟨packet, client⟩ := authenticated
    dsimp only
    split_ifs with hcounter
    · exact .inl ⟨_, rfl⟩
    · refine .inr ⟨packet, client, rfl, by grind, ?_⟩
      cases hpersist : ((verifier.recordCounter packet).persistCounters toml files fault).2 with
      | error error => exact .inl ⟨error, rfl, rfl⟩
      | ok _ => exact .inr ⟨rfl, rfl⟩

theorem highestCounter_recordCounter (verifier : SpaVerifier) (packet : SpaPacket)
    (keyId : KeyId) :
    (verifier.recordCounter packet).highestCounter keyId =
      if keyId = packet.keyId then packet.counter else verifier.highestCounter keyId := by
  unfold highestCounter recordCounter
  rw [HashMap.lookup_insert_ite]
  split_ifs <;> rfl

end SpaVerifier

/-! ### A concrete server and its clients -/

namespace Sample

def serverPrivate : Octets 32 := Vector.replicate 32 9

def source : Ipv4Addr := #v[203, 0, 113, 7]

/-- A roster record for a signing key under `Crypto.transparent`. -/
def client (name : String) (clientId : UInt16) (signingKey : Octets 32) :
    AuthorizedClient where
  name := name
  publicKey := Crypto.transparent.verifyingKey signingKey
  noisePublicKey := Vector.replicate 32 1
  keyId := SpaPacket.keyIdForPublicKey Crypto.transparent
    (Crypto.transparent.verifyingKey signingKey)
  clientId := clientId
  tier := .full
  maxConcurrentSessions := none

/-- A UDP packet for the sample server, stamped at time zero. -/
def payload (signingKey : Octets 32) (counter : UInt64) : Bytes :=
  SpaPacket.buildWithPadding Crypto.transparent signingKey .udp 0 counter .packetSource []
    serverPrivate (Vector.replicate 32 3)

/-- The record that the payload opens to. -/
def packet (signingKey : Octets 32) (counter : UInt64) : SpaPacket :=
  let keyId := SpaPacket.keyIdForPublicKey Crypto.transparent
    (Crypto.transparent.verifyingKey signingKey)
  let ephemeralPub : Octets 32 := Vector.replicate 32 3
  { mode := .udp
    usePacketSource := true
    keyId := keyId
    timestampMs := 0
    counter := counter
    allowIp := Vector.replicate 4 0
    signature := Crypto.transparent.ed25519Sign signingKey
      (SpaPacket.signedMessage (SpaPacket.signedRegion spaFlagUsePacketSource keyId 0 counter
        (Vector.replicate 4 0)) ephemeralPub serverPrivate)
    ephemeralPub := ephemeralPub }

def alice : Octets 32 := Vector.replicate 32 5

def bob : Octets 32 := Vector.replicate 32 6

/-- The documented location of the counter file. -/
def defaultPath : Path := ⟨["", "var", "lib", "ghostbro"], "spa-counters.toml"⟩

end Sample

end Ghostbro
