import Ghostbro.Server.Continuity
import Ghostbro.Server.ForwardedFor

/-!
# SPA over HTTPS

`telemetry` queues the body of a request as an SPA candidate, with the address that the request is
taken to come from, and answers every request alike; it does not wait for room in the queue.
Behind a reverse proxy the candidate has to carry the address of the client, because the client
connects to the proxy port itself afterwards.
-/

namespace Ghostbro.Telemetry

open Machine ForwardedFor Daemon
open Relay (IpAddr SocketAddr utf8)

/-- `DecoyState` without its webroot; there is a sender if the SPA mode includes HTTPS. -/
structure DecoyState (IpNet : Type) where
  spaTx : Bool
  responseStatus : UInt16
  trustedProxyCidrs : List IpNet

structure Response where
  server : String
  date : String
  requestId : String
  status : UInt16
  deriving DecidableEq

section

variable {IpNet : Type} (contains : IpNet → IpAddr → Bool)

/-- `telemetry`: what it hands to the queue and what it answers. -/
def telemetry (decoy : DecoyState IpNet) (peer : SocketAddr) (headers : HeaderMap) (body : Bytes)
    (date requestId : String) : Option HttpsSpaCandidate × Response :=
  let source := httpsSpaSourceIp contains peer headers decoy.trustedProxyCidrs
  let candidate := if decoy.spaTx then source.map fun ip ↦ ⟨ip.toU32, body⟩ else none
  (candidate, ⟨"nginx/1.26.0", date, requestId, decoy.responseStatus⟩)

/-- `try_send` on the queue of the server. -/
def trySend (candidate : HttpsSpaCandidate) (state : State) : State :=
  if state.httpsSpa.length < 1024 then { state with httpsSpa := state.httpsSpa ++ [candidate] }
  else state

/-- How the request of a client reaches the decoy: directly, or over a trusted proxy that appends
the address it sees. -/
inductive ComesFrom (trustedProxyCidrs : List IpNet) (peer : SocketAddr) (headers : HeaderMap) :
    Ipv4Addr → Prop
  | direct {ip : Ipv4Addr} (untrusted : trusted contains trustedProxyCidrs peer = false)
      (source : peerIpv4 peer = some ip) : ComesFrom trustedProxyCidrs peer headers ip
  | proxied {ip : Ipv4Addr} (spaces : ℕ) (trusted : trusted contains trustedProxyCidrs peer = true)
      (header : headers.get "x-forwarded-for" = some (ForwardedFor.proxied none spaces ip)) :
      ComesFrom trustedProxyCidrs peer headers ip

variable {contains} {trustedProxyCidrs : List IpNet} {peer : SocketAddr} {headers : HeaderMap}
  {ip : Ipv4Addr}

theorem ComesFrom.httpsSpaSourceIp_eq (h : ComesFrom contains trustedProxyCidrs peer headers ip) :
    httpsSpaSourceIp contains peer headers trustedProxyCidrs = some ip := by
  cases h with
  | direct huntrusted hsource => rw [httpsSpaSourceIp, if_neg (by simp [huntrusted]), hsource]
  | proxied spaces htrusted hheader =>
    have hfirst : forwardedForFirstIpv4 headers = some ip := by
      simp [forwardedForFirstIpv4, hheader, firstIpv4_proxied_none]
    rw [httpsSpaSourceIp, if_pos htrusted, hfirst]

theorem ComesFrom.telemetry_eq {decoy : DecoyState IpNet}
    (h : ComesFrom contains decoy.trustedProxyCidrs peer headers ip) (hmode : decoy.spaTx = true)
    (body : Bytes) (date requestId : String) :
    telemetry contains decoy peer headers body date requestId =
      (some ⟨ip.toU32, body⟩, ⟨"nginx/1.26.0", date, requestId, decoy.responseStatus⟩) := by
  simp [telemetry, h.httpsSpaSourceIp_eq, hmode]

end

variable {crypto : Crypto} {toml : Toml} {host : Endian} {allowTtlSeconds : UInt64}

/-- The server receives what `try_send` puts into a queue that is not full. -/
theorem step_httpsReceive {state : State} (halive : state.task ≠ .exited)
    (hroom : state.httpsSpa.length < 1024) (candidate : HttpsSpaCandidate) :
    step crypto toml host allowTtlSeconds state (.httpsReceive candidate) =
      some (trySend candidate state, none) := by
  rw [step, if_neg halive]
  simp only [environmentStep, trySend, if_pos hroom]

/-- The HTTPS request of an honest client reaches an idle server, directly or over a trusted proxy
that appends the address of the client, and the server welcomes the packet from that address; no
lookup that has read an older entry of the address is in flight.  Then the server admits this
address, not that of the proxy, and serves the client until the deadline in every run in which the
kernel does not evict its entry and nothing displaces it. -/
theorem honest_https_client_served (hcorrect : crypto.Correct) {IpNet : Type}
    (contains : IpNet → IpAddr → Bool) (decoy : DecoyState IpNet) (peer : SocketAddr)
    (headers : HeaderMap) (ip : Ipv4Addr) (date requestId : String) (toml : Toml) (host : Endian)
    (allowTtlSeconds : UInt64) (signingKey : Octets 32) (mode : SpaMode)
    (timestampMs counter : UInt64) (allowIp : SpaAllowIp) (padding : Bytes)
    (hpadding : padding.length ≤ 33) (serverPrivate ephemeralSecret : Octets 32)
    (state : LookupState) (client : AuthorizedClient) (nowMs : UInt64) (fault : Option SaveFault)
    (hmode : decoy.spaTx = true)
    (hfrom : ComesFrom contains decoy.trustedProxyCidrs peer headers ip)
    (hidle : state.daemon.task = .idle) (hempty : state.daemon.httpsSpa = [])
    (hserves : state.daemon.verifier.Serves crypto serverPrivate)
    (hwelcomes : Welcomes crypto state.daemon.verifier client signingKey
      (SpaPacket.honestPacket crypto signingKey mode timestampMs counter allowIp
        (crypto.x25519Public serverPrivate) ephemeralSecret) ip nowMs)
    (hpersist : ((state.daemon.verifier.recordCounter
      (SpaPacket.honestPacket crypto signingKey mode timestampMs counter allowIp
        (crypto.x25519Public serverPrivate) ephemeralSecret)).persistCounters toml
          state.daemon.files fault).2 = .ok ())
    (hstale : NoStaleLookup ip.toU32 (deadline allowTtlSeconds state.daemon.now) state) :
    ∃ candidate admission inserted,
      (telemetry contains decoy peer headers
        (SpaPacket.buildWithPadding crypto signingKey mode timestampMs counter allowIp padding
          (crypto.x25519Public serverPrivate) ephemeralSecret) date requestId).1 = some candidate ∧
      Run (lookupStep crypto toml host allowTtlSeconds) unrestricted state
        [.daemon (.httpsReceive candidate), .daemon (.httpsNext nowMs fault), .daemon .stamp,
          .daemon (.kernelInsert true), .daemon .mirrorInsert]
        [.accepted admission, .stamped admission state.daemon.now] inserted ∧
      admission.srcIp = ip.toU32 ∧
      admission.accept.keyId =
        SpaPacket.keyIdForPublicKey crypto (crypto.verifyingKey signingKey) ∧
      admission.accept.noisePublicKey = client.noisePublicKey ∧
      ServedUntil crypto toml host allowTtlSeconds admission
        (deadline allowTtlSeconds state.daemon.now) inserted := by
  obtain ⟨-, -, hopen⟩ := SpaPacket.openWire_buildWithPadding hcorrect signingKey mode
    timestampMs counter allowIp hpadding serverPrivate ephemeralSecret
  have hverify := SpaPacket.verify_honestPacket hcorrect signingKey mode timestampMs counter
    allowIp (crypto.x25519Public serverPrivate) ephemeralSecret
  have haccept := verify_of_welcomes hserves hopen hverify hwelcomes hpersist
  set wire := SpaPacket.buildWithPadding crypto signingKey mode timestampMs counter allowIp padding
    (crypto.x25519Public serverPrivate) ephemeralSecret
  obtain ⟨after, admission, hhandled, htask, hnow, hsource, hadmission⟩ :=
    @handleSpa_of_ok crypto toml { state.daemon with httpsSpa := [] } ip.toU32 wire nowMs fault _
      (by rw [Ipv4Addr.ofU32_toU32]; exact haccept)
  let queued : State := { state.daemon with httpsSpa := [⟨ip.toU32, wire⟩] }
  have halive : state.daemon.task ≠ .exited := by simp [hidle]
  have hreceive : step crypto toml host allowTtlSeconds state.daemon
      (.httpsReceive ⟨ip.toU32, wire⟩) = some (queued, none) := by
    have hroom : state.daemon.httpsSpa.length < 1024 := by simp [hempty]
    rw [step_httpsReceive halive hroom, trySend, if_pos hroom, hempty]
    rfl
  have hnext : step crypto toml host allowTtlSeconds queued (.httpsNext nowMs fault) =
      some (after, some (.accepted admission)) := by
    rw [step, if_neg (show queued.task ≠ .exited from halive)]
    simp only [spaStep, queued, hidle] at hhandled ⊢
    rw [hhandled]
  have hstale' : NoStaleLookup admission.srcIp (deadline allowTtlSeconds queued.now)
      ⟨queued, state.lookups⟩ := by
    rw [hsource]
    exact hstale
  obtain ⟨inserted, hrun, hserved⟩ := served_of_accepted hnext htask hnow hstale'
  have hwhole := run_lookups state.lookups ((Run.nil.snoc trivial hreceive).append hrun)
  refine ⟨_, admission, ⟨inserted, state.lookups⟩,
    congrArg Prod.fst (hfrom.telemetry_eq hmode wire date requestId), hwhole, hsource, ?_, ?_,
    hserved⟩
  · rw [hadmission]
    rfl
  · rw [hadmission]
    rfl

/-! ### A sample request -/

namespace Sample

def client : Ipv4Addr := #v[203, 0, 113, 5]

/-- A decoy behind a local proxy. -/
def decoy : DecoyState IpAddr := ⟨true, 204, [localProxy.ip]⟩

def headers : HeaderMap :=
  [("content-type", utf8 "application/octet-stream"), ("x-forwarded-for", proxied none 1 client)]

theorem comesFrom_client :
    ComesFrom sameAddress decoy.trustedProxyCidrs localProxy headers client :=
  .proxied 1 (by decide) rfl

def wire : Bytes :=
  SpaPacket.buildWithPadding Crypto.transparent Ghostbro.Sample.alice .https 1000 7 .packetSource []
    (Crypto.transparent.x25519Public Ghostbro.Sample.serverPrivate) (Vector.replicate 32 3)

theorem welcomes_honestPacket :
    Welcomes Crypto.transparent Daemon.Sample.waiting.verifier
      (Ghostbro.Sample.client "alice" 1 Ghostbro.Sample.alice) Ghostbro.Sample.alice
      (SpaPacket.honestPacket Crypto.transparent Ghostbro.Sample.alice .https 1000 7 .packetSource
        (Crypto.transparent.x25519Public Ghostbro.Sample.serverPrivate) (Vector.replicate 32 3))
      client 2000 where
  enrolled := by decide +kernel
  publicKey := by decide +kernel
  tier := by decide +kernel
  window := by decide +kernel
  source := by decide +kernel
  fresh := by decide +kernel

end Sample

theorem honest_https_client_served_sample :
    ∃ candidate admission inserted,
      (telemetry sameAddress Sample.decoy localProxy Sample.headers Sample.wire "" "").1 =
        some candidate ∧
      Run Daemon.Sample.sampleLookupStep unrestricted
        ⟨Daemon.Sample.waiting, [(0, Daemon.Sample.entry)]⟩
        [.daemon (.httpsReceive candidate), .daemon (.httpsNext 2000 none), .daemon .stamp,
          .daemon (.kernelInsert true), .daemon .mirrorInsert]
        [.accepted admission, .stamped admission 1000] inserted ∧
      admission.srcIp = Sample.client.toU32 ∧
      ServedUntil Crypto.transparent Toml.plain .little 14400 admission (deadline 14400 1000)
        inserted := by
  have hclient : Sample.client.toU32 ≠ 0 := by decide +kernel
  have hstale : NoStaleLookup Sample.client.toU32 (deadline 14400 1000)
      ⟨Daemon.Sample.waiting, [(0, Daemon.Sample.entry)]⟩ := by
    simp [NoStaleLookup, hclient]
  obtain ⟨candidate, admission, inserted, hcandidate, hrun, hsource, -, -, hserved⟩ :=
    honest_https_client_served Crypto.transparent_correct sameAddress Sample.decoy localProxy
      Sample.headers Sample.client "" "" Toml.plain .little 14400 Ghostbro.Sample.alice .https 1000
      7 .packetSource [] (by decide) Ghostbro.Sample.serverPrivate (Vector.replicate 32 3)
      ⟨Daemon.Sample.waiting, [(0, Daemon.Sample.entry)]⟩
      (Ghostbro.Sample.client "alice" 1 Ghostbro.Sample.alice) 2000 none rfl
      Sample.comesFrom_client rfl rfl (SpaVerifier.serves_fromCounters _ _ _ _ _ _)
      Sample.welcomes_honestPacket rfl hstale
  exact ⟨candidate, admission, inserted, hcandidate, hrun, hsource, hserved⟩

end Ghostbro.Telemetry
