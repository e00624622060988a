import Ghostbro.Foundation.Machine
import Ghostbro.Server.SpaVerifier
import Ghostbro.Xdp.Program

/-!
# The daemon

The state of the running server: the kernel maps, the mirror of allowed sources that the proxy
reads, the SPA verifier with its files, the position of the `run_spa` task and the open proxy
connections.  The kernel, `run_spa` and the connections interleave at every point where one of
them could be interrupted by another: `allow_source` is three steps, a reap or purge selects,
locks and removes one address at a time, and a connection waits between the messages of its
handshake.  While `run_spa` holds the mirror's write lock, no connection can look up its source.
Hash maps are iterated in any order.

The main loop may take its branches in any order here, and a connection gets its messages whether
the XDP program passes the peer's segments or not; both allow more runs than the source.  A frame
is one step: a lookup of `is_allowed` that a write of `run_spa` overtakes is an eviction here, and
has steps of its own in `Ghostbro.Server.Lookups`.
`Effect` states once what each step can do to the parts that the later modules speak about.
-/

namespace Ghostbro

open Machine

/-- `AllowedSource`. -/
structure AllowedSource where
  entry : AllowEntry
  noisePublicKey : Octets 32
  maxConcurrentSessions : Option UInt16
  deriving DecidableEq

/-- `HttpsSpaCandidate`. -/
structure HttpsSpaCandidate where
  srcIp : UInt32
  payload : Bytes
  deriving DecidableEq

/-- `SpaEvent`. -/
structure SpaEvent where
  srcIp : UInt32
  srcPort : UInt16
  payloadLen : UInt16
  payload : Octets 176

/-- `parse_spa_event` on a host of the given byte order. -/
def parseSpaEvent (host : Endian) (bytes : Bytes) : Option SpaEvent :=
  if bytes.length ≠ 184 then none
  else
    some
      { srcIp := UInt32.ofNat (host.neNat (bytes.take 4))
        srcPort := UInt16.ofNat (host.neNat ((bytes.drop 4).take 2))
        payloadLen := UInt16.ofNat (host.neNat ((bytes.drop 6).take 2))
        payload := readArray 176 bytes 8 }

/-- `expired_sources`. -/
def expiredSources (sources : HashMap UInt32 AllowedSource) (nowNs : UInt64) : List UInt32 :=
  HashMap.keysWhere sources fun _ source ↦ decide (source.entry.expiryNs ≤ nowNs)

/-- The selection of `purge_key_id`. -/
def sourcesOfKey (sources : HashMap UInt32 AllowedSource) (keyId : KeyId) : List UInt32 :=
  HashMap.keysWhere sources fun _ source ↦ decide (source.entry.keyId = keyId)

/-! ### Sessions -/

/-- `acquire_session`: the counts and whether a slot was granted. -/
def acquireSession (sessions : HashMap KeyId UInt32) (keyId : KeyId) (max : Option UInt16) :
    HashMap KeyId UInt32 × Bool :=
  let count := (sessions.lookup keyId).getD 0
  if max.any fun max ↦ decide (max > 0 ∧ count ≥ max.toUInt32) then
    (sessions.insert keyId count, false)
  else (sessions.insert keyId (count + 1), true)

/-- `SessionSlot::drop`. -/
def dropSession (sessions : HashMap KeyId UInt32) (keyId : KeyId) : HashMap KeyId UInt32 :=
  match sessions.lookup keyId with
  | none => sessions
  | some count =>
    if count ≤ 1 then sessions.erase keyId else sessions.insert keyId (count - 1)

/-- `verify_client_noise_static`. -/
def verifyClientNoiseStatic (remoteStatic : Option Bytes) (expected : Octets 32) : Bool :=
  match remoteStatic with
  | none => false
  | some remoteStatic => decide (remoteStatic = expected.toList)

namespace Daemon

/-- An accepted SPA packet: the address it was observed from, the accept, and the Noise key that
the roster held for the key at that time. -/
structure Admission where
  srcIp : UInt32
  payload : Bytes
  accept : SpaAccept
  enrolled : Option (Octets 32)
  deriving DecidableEq

/-- Which call removes sources. -/
inductive Removal
  | purge (keyId : KeyId)
  | reap
  deriving DecidableEq

/-- The position of `run_spa`. -/
inductive Task
  | idle
  /-- In `allow_source`, before its clock read. -/
  | accepted (admission : Admission)
  /-- In `allow_source`, before the kernel insert. -/
  | stamped (admission : Admission) (entry : AllowEntry)
  /-- In `allow_source`, before the mirror insert. -/
  | kernelWritten (admission : Admission) (entry : AllowEntry)
  /-- In a reload, before `purge_key_id` of the first of the keys. -/
  | purging (keyIds : List KeyId)
  /-- In `reap_expired_sources`, after its clock read. -/
  | reaping (nowNs : UInt64)
  /-- The sources are selected, the write lock is not yet taken. -/
  | selected (removal : Removal) (rest : List KeyId) (sources : List UInt32)
  /-- The write lock is held and `remaining` is still to be removed. -/
  | removing (removal : Removal) (rest : List KeyId) (sources remaining : List UInt32)
  /-- `run_spa` returned an error, which ends the process. -/
  | exited
  deriving DecidableEq

/-- The task goes on with the keys that are still to be purged. -/
def Task.resume : List KeyId → Task
  | [] => .idle
  | keyIds => .purging keyIds

/-- The addresses that a reap or purge has selected and not yet removed. -/
def Task.pending : Task → List UInt32
  | .selected _ _ sources => sources
  | .removing _ _ _ remaining => remaining
  | _ => []

/-- The position of `handle_connection` after its mirror lookup. -/
inductive Stage
  | readMsg1
  | writeMsg2
  | readMsg3
  /-- The static key of the peer has been compared. -/
  | verified (remoteStatic : Bytes)
  | session
  deriving DecidableEq

/-- A proxy connection with the copy of the mirror entry it made at `lookupNs`. -/
structure Connection where
  srcIp : UInt32
  source : AllowedSource
  lookupNs : UInt64
  stage : Stage
  deriving DecidableEq

/-- The state of the server process and of the kernel maps. -/
structure State where
  /-- `CLOCK_MONOTONIC` in nanoseconds. -/
  now : UInt64
  maps : Xdp.Maps
  mirror : HashMap UInt32 AllowedSource
  verifier : SpaVerifier
  files : FileSystem
  httpsSpa : List HttpsSpaCandidate
  task : Task
  connections : HashMap ℕ Connection
  sessions : HashMap KeyId UInt32
  deriving DecidableEq

inductive Event
  | tick (now : UInt64)
  /-- The XDP program handles a frame. -/
  | frame (context : Xdp.Context) (frame : Bytes)
  /-- The kernel evicts an entry of the allow map, or a lookup that has read an older entry of the
  address removes it. -/
  | evict (srcIp : UInt32)
  /-- The decoy server queues a candidate. -/
  | httpsReceive (candidate : HttpsSpaCandidate)
  | ringNext (nowMs : UInt64) (fault : Option SaveFault)
  | httpsNext (nowMs : UInt64) (fault : Option SaveFault)
  | stamp
  | kernelInsert (succeeds : Bool)
  | mirrorInsert
  /-- A hot reload that read these clients; the removed keys come in the given order. -/
  | reload (clients : List AuthorizedClient) (removed : List KeyId)
  | purgeSelect (sources : List UInt32)
  | reapClock
  | reapSelect (sources : List UInt32)
  | lockMirror
  | removeNext
  | finishRemoval
  /-- `handle_connection` starts and looks up its peer. -/
  | connect (id : ℕ) (peer : Ipv4Addr)
  /-- Message 1 has been read, or message 2 has been written. -/
  | handshake (id : ℕ)
  | readMsg3 (id : ℕ) (remoteStatic : Option Bytes)
  | acquire (id : ℕ)
  /-- `handle_connection` returns. -/
  | close (id : ℕ)

inductive Output
  | accepted (admission : Admission)
  /-- `allow_source` read the clock. -/
  | stamped (admission : Admission) (nowNs : UInt64)
  | reloaded (previous : HashMap KeyId AuthorizedClient) (clients : List AuthorizedClient)
      (removed : List KeyId)
  /-- A reap or purge returned `Ok` after removing these sources. -/
  | removed (removal : Removal) (sources : List UInt32)
  /-- A reap or purge returned an error at this source. -/
  | removeFailed (removal : Removal) (srcIp : UInt32)
  /-- `acquire_session` granted a slot. -/
  | granted (srcIp : UInt32) (keyId : KeyId) (lookupNs : UInt64) (remoteStatic : Bytes)
  deriving DecidableEq

variable (crypto : Crypto) (toml : Toml) (host : Endian) (allowTtlSeconds : UInt64)

/-- The entry that `allow_source` writes when it reads the given time. -/
def entryOf (accept : SpaAccept) (nowNs : UInt64) : AllowEntry where
  expiryNs := saturatingAdd nowNs (saturatingMul allowTtlSeconds 1000000000)
  keyId := accept.keyId
  clientId := accept.clientId
  pad := 0

/-- The mirror entry of an accept. -/
def sourceOf (accept : SpaAccept) (entry : AllowEntry) : AllowedSource :=
  ⟨entry, accept.noisePublicKey, accept.maxConcurrentSessions⟩

/-- `run_spa` on one candidate: verify it, and enter `allow_source` on success. -/
def handleSpa (state : State) (srcIp : UInt32) (payload : Bytes) (nowMs : UInt64)
    (fault : Option SaveFault) : State × Option Output :=
  let outcome := state.verifier.verify crypto toml state.files payload (Ipv4Addr.ofU32 srcIp)
    nowMs fault
  let next := { state with verifier := outcome.verifier, files := outcome.files }
  match outcome.result with
  | .error _ => (next, none)
  | .ok accept =>
    let admission : Admission :=
      { srcIp := srcIp
        payload := payload
        accept := accept
        enrolled := (state.verifier.clients.lookup accept.keyId).map
          AuthorizedClient.noisePublicKey }
    ({ next with task := .accepted admission }, some (.accepted admission))

/-- The steps of `run_spa` that take a candidate from the ring or the queue. -/
def spaStep (state : State) : Event → Option (State × Option Output)
  | .ringNext nowMs fault =>
    match state.task, state.maps.spaRing with
    | .idle, item :: rest =>
      let next := { state with maps := { state.maps with spaRing := rest } }
      match parseSpaEvent host item with
      | none => some (next, none)
      | some event =>
        if event.payloadLen.toNat > 176 then some (next, none)
        else some (handleSpa crypto toml next event.srcIp
          (event.payload.toList.take event.payloadLen.toNat) nowMs fault)
    | _, _ => none
  | .httpsNext nowMs fault =>
    match state.task, state.httpsSpa with
    | .idle, candidate :: rest =>
      some (handleSpa crypto toml { state with httpsSpa := rest } candidate.srcIp
        candidate.payload nowMs fault)
    | _, _ => none
  | _ => none

/-- The steps of `allow_source`. -/
def allowStep (state : State) : Event → Option (State × Option Output)
  | .stamp =>
    match state.task with
    | .accepted admission =>
      some ({ state with
        task := .stamped admission (entryOf allowTtlSeconds admission.accept state.now) },
        some (.stamped admission state.now))
    | _ => none
  | .kernelInsert succeeds =>
    match state.task with
    | .stamped admission entry =>
      if succeeds then
        some ({ state with
          maps := { state.maps with allowMap := state.maps.allowMap.insert admission.srcIp entry }
          task := .kernelWritten admission entry }, none)
      else some ({ state with task := .exited }, none)
    | _ => none
  | .mirrorInsert =>
    match state.task with
    | .kernelWritten admission entry =>
      some ({ state with
        mirror := state.mirror.insert admission.srcIp (sourceOf admission.accept entry)
        task := .idle }, none)
    | _ => none
  | _ => none

/-- A selection of sources; an empty one returns at once. -/
def select (state : State) (removal : Removal) (rest : List KeyId)
    (selection sources : List UInt32) :
    Option (State × Option Output) :=
  if ¬sources.Perm selection then none
  else if sources = [] then
    some ({ state with task := .resume rest }, some (.removed removal []))
  else some ({ state with task := .selected removal rest sources }, none)

/-- The steps of reloads, purges and reaps. -/
def removalStep (state : State) : Event → Option (State × Option Output)
  | .reload clients removed =>
    match state.task with
    | .idle =>
      let reloaded := state.verifier.reloadClients clients
      if removed.Perm reloaded.2 then
        some ({ state with verifier := reloaded.1, task := .resume removed },
          some (.reloaded state.verifier.clients clients removed))
      else none
    | _ => none
  | .purgeSelect sources =>
    match state.task with
    | .purging (keyId :: rest) =>
      select state (.purge keyId) rest (sourcesOfKey state.mirror keyId) sources
    | _ => none
  | .reapClock =>
    match state.task with
    | .idle => some ({ state with task := .reaping state.now }, none)
    | _ => none
  | .reapSelect sources =>
    match state.task with
    | .reaping nowNs => select state .reap [] (expiredSources state.mirror nowNs) sources
    | _ => none
  | .lockMirror =>
    match state.task with
    | .selected removal rest sources =>
      some ({ state with task := .removing removal rest sources sources }, none)
    | _ => none
  | .removeNext =>
    match state.task with
    | .removing removal rest sources (srcIp :: remaining) =>
      -- the kernel refuses to delete an absent key, and the error ends `run_spa`
      if srcIp ∈ state.maps.allowMap then
        some ({ state with
          maps := { state.maps with allowMap := state.maps.allowMap.erase srcIp }
          mirror := state.mirror.erase srcIp
          task := .removing removal rest sources remaining }, none)
      else some ({ state with task := .exited }, some (.removeFailed removal srcIp))
    | _ => none
  | .finishRemoval =>
    match state.task with
    | .removing removal rest sources [] =>
      some ({ state with task := .resume rest }, some (.removed removal sources))
    | _ => none
  | _ => none

/-- The connection with a new stage. -/
def setStage (state : State) (id : ℕ) (connection : Connection) (stage : Stage) : State :=
  { state with connections := state.connections.insert id { connection with stage := stage } }

/-- The steps of `handle_connection`. -/
def connectionStep (state : State) : Event → Option (State × Option Output)
  | .connect id peer =>
    match state.task with
    | .removing _ _ _ _ => none
    | _ =>
      if id ∈ state.connections then none
      else
        let srcIp := Ipv4Addr.toU32 peer
        match state.mirror.lookup srcIp with
        | none => some (state, none)
        | some source =>
          if source.entry.expiryNs ≤ state.now then
            some ({ state with mirror := state.mirror.erase srcIp }, none)
          else
            some ({ state with
              connections := state.connections.insert id ⟨srcIp, source, state.now, .readMsg1⟩ },
              none)
  | .handshake id =>
    (state.connections.lookup id).bind fun connection ↦
      match connection.stage with
      | .readMsg1 => some (setStage state id connection .writeMsg2, none)
      | .writeMsg2 => some (setStage state id connection .readMsg3, none)
      | _ => none
  | .readMsg3 id remoteStatic =>
    (state.connections.lookup id).bind fun connection ↦
      match connection.stage with
      | .readMsg3 =>
        if verifyClientNoiseStatic remoteStatic connection.source.noisePublicKey then
          some (setStage state id connection (.verified (remoteStatic.getD [])), none)
        else some ({ state with connections := state.connections.erase id }, none)
      | _ => none
  | .acquire id =>
    (state.connections.lookup id).bind fun connection ↦
      match connection.stage with
      | .verified remoteStatic =>
        let keyId := connection.source.entry.keyId
        let acquired := acquireSession state.sessions keyId
          connection.source.maxConcurrentSessions
        if acquired.2 then
          some ({ setStage state id connection .session with sessions := acquired.1 },
            some (.granted connection.srcIp keyId connection.lookupNs remoteStatic))
        else
          some ({ state with
            connections := state.connections.erase id, sessions := acquired.1 }, none)
      | _ => none
  | .close id =>
    (state.connections.lookup id).map fun connection ↦
      ({ state with
        connections := state.connections.erase id
        sessions := match connection.stage with
          | .session => dropSession state.sessions connection.source.entry.keyId
          | _ => state.sessions }, none)
  | _ => none

/-- The steps of the clock, the kernel and the decoy server. -/
def environmentStep (state : State) : Event → Option (State × Option Output)
  | .tick now => if state.now ≤ now then some ({ state with now := now }, none) else none
  | .frame context frame =>
    if context.now = state.now ∧ context.endian = host then
      some ({ state with maps := (Xdp.ghostbroXdp context state.maps frame).1 }, none)
    else none
  | .evict srcIp =>
    some ({ state with
      maps := { state.maps with allowMap := state.maps.allowMap.erase srcIp } }, none)
  | .httpsReceive candidate =>
    if state.httpsSpa.length < 1024 then
      some ({ state with httpsSpa := state.httpsSpa ++ [candidate] }, none)
    else none
  | _ => none

/-- One event of a running process. -/
def step : Step State Event Output := fun state event ↦
  if state.task = .exited then none
  else
    match event with
    | .tick _ | .frame _ _ | .evict _ | .httpsReceive _ => environmentStep host state event
    | .ringNext _ _ | .httpsNext _ _ => spaStep crypto toml host state event
    | .stamp | .kernelInsert _ | .mirrorInsert => allowStep allowTtlSeconds state event
    | .reload _ _ | .purgeSelect _ | .reapClock | .reapSelect _ | .lockMirror | .removeNext
    | .finishRemoval => removalStep state event
    | .connect _ _ | .handshake _ | .readMsg3 _ _ | .acquire _ | .close _ =>
      connectionStep state event

/-- The process after `load_and_attach`: nothing is allowed and nobody is connected. -/
def start (now : UInt64) (config : Option BpfConfig) (verifier : SpaVerifier)
    (files : FileSystem) : State where
  now := now
  maps := ⟨config, ∅, ∅, some ⟨0, 0⟩, []⟩
  mirror := ∅
  verifier := verifier
  files := files
  httpsSpa := []
  task := .idle
  connections := ∅
  sessions := ∅

/-! ### A sample server

One client is admitted through the HTTPS queue at time 1000 for four hours. -/

namespace Sample

open Ghostbro.Sample

/-- The step function of the sample server. -/
abbrev sampleStep : Step State Event Output := step Crypto.transparent Toml.plain .little 14400

/-- 203.0.113.7. -/
def srcIp : UInt32 := 0xcb007107

def keyId : KeyId := Vector.replicate 8 5

def verifier : SpaVerifier :=
  SpaVerifier.fromCounters Crypto.transparent [client "alice" 1 alice] 30 ∅ (some defaultPath)
    serverPrivate

def admission : Admission where
  srcIp := srcIp
  payload := payload alice 5
  accept :=
    { keyId := keyId, clientId := 1, clientName := "alice",
      noisePublicKey := Vector.replicate 32 1, mode := .udp, counter := 5,
      maxConcurrentSessions := none }
  enrolled := some (Vector.replicate 32 1)

def entry : AllowEntry := ⟨14400000001000, keyId, 1, 0⟩

def started : State := start 1000 none verifier ∅

def queued : State := { started with httpsSpa := [⟨srcIp, payload alice 5⟩] }

def verified : State :=
  { started with
    verifier := { verifier with highestCounters := AList.insert keyId 5 ∅ }
    files := AList.insert defaultPath "[counters]\n0505050505050505 = 5\n" ∅
    task := .accepted admission }

def written : State :=
  { verified with
    maps := { started.maps with allowMap := AList.insert srcIp entry ∅ }
    task := .kernelWritten admission entry }

/-- The client may connect. -/
def admitted : State :=
  { written with mirror := AList.insert srcIp (sourceOf admission.accept entry) ∅, task := .idle }

def admittedEvents : List Event :=
  [.httpsReceive ⟨srcIp, payload alice 5⟩, .httpsNext 0 none, .stamp, .kernelInsert true,
    .mirrorInsert]

theorem run_written (guard : State → Event → Prop)
    (hreceive : guard started (.httpsReceive ⟨srcIp, payload alice 5⟩))
    (hverify : guard queued (.httpsNext 0 none)) (hstamp : guard verified .stamp)
    (hkernel : guard { verified with task := .stamped admission entry } (.kernelInsert true)) :
    Run sampleStep guard started
      [.httpsReceive ⟨srcIp, payload alice 5⟩, .httpsNext 0 none, .stamp, .kernelInsert true]
      [.accepted admission, .stamped admission 1000] written := by
  have hstep₁ : sampleStep started (.httpsReceive ⟨srcIp, payload alice 5⟩) =
      some (queued, none) := rfl
  have hstep₂ : sampleStep queued (.httpsNext 0 none) =
      some (verified, some (.accepted admission)) := by decide +kernel
  have hstep₃ : sampleStep verified .stamp =
      some ({ verified with task := .stamped admission entry },
        some (.stamped admission 1000)) := rfl
  have hstep₄ : sampleStep { verified with task := .stamped admission entry }
      (.kernelInsert true) = some (written, none) := rfl
  have hnil : Run sampleStep guard started [] [] started := .nil
  exact (((hnil.snoc hreceive hstep₁).snoc hverify hstep₂).snoc hstamp hstep₃).snoc hkernel hstep₄

theorem run_admitted (guard : State → Event → Prop)
    (hreceive : guard started (.httpsReceive ⟨srcIp, payload alice 5⟩))
    (hverify : guard queued (.httpsNext 0 none)) (hstamp : guard verified .stamp)
    (hkernel : guard { verified with task := .stamped admission entry } (.kernelInsert true))
    (hmirror : guard written .mirrorInsert) :
    Run sampleStep guard started admittedEvents
      [.accepted admission, .stamped admission 1000] admitted := by
  have hstep : sampleStep written .mirrorInsert = some (admitted, none) := rfl
  exact (run_written guard hreceive hverify hstamp hkernel).snoc hmirror hstep

/-- The client is connected and has reached the given stage. -/
def connecting (stage : Stage) : State :=
  { admitted with
    connections := AList.insert 0 ⟨srcIp, sourceOf admission.accept entry, 1000, stage⟩ ∅ }

def connectingEvents : List Event := [.connect 0 source, .handshake 0, .handshake 0]

theorem run_connecting (guard : State → Event → Prop)
    (hconnect : guard admitted (.connect 0 source))
    (hmsg1 : guard (connecting .readMsg1) (.handshake 0))
    (hmsg2 : guard (connecting .writeMsg2) (.handshake 0)) :
    Run sampleStep guard admitted connectingEvents [] (connecting .readMsg3) := by
  have hstep₁ : sampleStep admitted (.connect 0 source) =
      some (connecting .readMsg1, none) := rfl
  have hstep₂ : sampleStep (connecting .readMsg1) (.handshake 0) =
      some (connecting .writeMsg2, none) := rfl
  have hstep₃ : sampleStep (connecting .writeMsg2) (.handshake 0) =
      some (connecting .readMsg3, none) := rfl
  have hnil : Run sampleStep guard admitted [] [] admitted := .nil
  exact ((hnil.snoc hconnect hstep₁).snoc hmsg1 hstep₂).snoc hmsg2 hstep₃

/-- The client's key has been removed from the roster, and its entries are being purged. -/
def revoking (task : Task) : State :=
  { connecting .readMsg3 with
    verifier := { (connecting .readMsg3).verifier with clients := ∅ }, task := task }

/-- The purge has removed the client's entries; the connection is still open. -/
def revoked (task : Task) : State :=
  { revoking task with maps := started.maps, mirror := ∅ }

def revokedEvents : List Event :=
  [.reload [] [keyId], .purgeSelect [srcIp], .lockMirror, .removeNext, .finishRemoval]

def revokedOutputs : List Output :=
  [.reloaded verifier.clients [] [keyId], .removed (.purge keyId) [srcIp]]

theorem run_revoked :
    Run sampleStep unrestricted (connecting .readMsg3) revokedEvents revokedOutputs
      (revoked .idle) := by
  let selected : Task := .selected (.purge keyId) [] [srcIp]
  let removing : List UInt32 → Task := .removing (.purge keyId) [] [srcIp]
  have hstep₁ : sampleStep (connecting .readMsg3) (.reload [] [keyId]) =
      some (revoking (.purging [keyId]),
        some (.reloaded verifier.clients [] [keyId])) := by decide +kernel
  have hstep₂ : sampleStep (revoking (.purging [keyId])) (.purgeSelect [srcIp]) =
      some (revoking selected, none) := rfl
  have hstep₃ : sampleStep (revoking selected) .lockMirror =
      some (revoking (removing [srcIp]), none) := rfl
  have hstep₄ : sampleStep (revoking (removing [srcIp])) .removeNext =
      some (revoked (removing []), none) := rfl
  have hstep₅ : sampleStep (revoked (removing [])) .finishRemoval =
      some (revoked .idle, some (.removed (.purge keyId) [srcIp])) := by decide +kernel
  have hnil : Run sampleStep unrestricted (connecting .readMsg3) [] [] (connecting .readMsg3) :=
    .nil
  exact ((((hnil.snoc trivial hstep₁).snoc trivial hstep₂).snoc trivial hstep₃).snoc trivial
    hstep₄).snoc trivial hstep₅

end Sample

end Daemon

end Ghostbro
