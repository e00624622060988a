import Ghostbro.Server.Reload
import Ghostbro.Server.Telemetry
import Ghostbro.Server.Tunnel

/-!
# From the wire to a session

The configuration names the transports for SPA: `main` gives the XDP program the mode bits and the
decoy router a sender if the bits include HTTPS.  Every session that the proxy grants goes back to
octets that arrived on such a transport: a UDP datagram to the SPA port from the address of the
session, or the body of a request that `telemetry` took to come from it.  They open under the key
of the server to a packet with the identifier of the session, signed with an enrolled key.
-/

namespace Ghostbro.Origins

open Machine ForwardedFor Daemon Telemetry
open Relay (IpAddr SocketAddr)

/-! ### The configuration -/

inductive SpaModeConfig
  | udp
  | https
  | both
  deriving DecidableEq

def spaModeHttps : UInt32 := 2

def spaModeBoth : UInt32 := spaModeUdp ||| spaModeHttps

structure SpaCommonSection where
  allowTtl : UInt64

structure SpaUdpSection where
  port : UInt16
  rateLimit : Option UInt32

structure SpaHttpsSection where
  responseStatus : Option UInt16
  trustedProxyCidrs : List String

structure SpaSection where
  mode : SpaModeConfig
  common : Option SpaCommonSection
  udp : Option SpaUdpSection
  https : Option SpaHttpsSection

namespace SpaSection

variable (spa : SpaSection)

def bpfMode : UInt32 :=
  match spa.mode with
  | .udp => spaModeUdp
  | .https => spaModeHttps
  | .both => spaModeBoth

def httpsResponseStatus : UInt16 := (spa.https.bind SpaHttpsSection.responseStatus).getD 204

def trustedProxyCidrs : List String := (spa.https.map SpaHttpsSection.trustedProxyCidrs).getD []

def allowTtlSeconds : UInt64 := (spa.common.map SpaCommonSection.allowTtl).getD 14400

def udpPort : UInt16 := (spa.udp.map SpaUdpSection.port).getD defaultSpaPort

def udpRateLimit : UInt32 := (spa.udp.bind SpaUdpSection.rateLimit).getD defaultRateLimitPerMinute

/-- The `BpfConfig` that `main` writes. -/
def bpfConfig (proxyPort : UInt16) : BpfConfig :=
  ⟨spa.udpPort, proxyPort, spa.udpRateLimit, spa.bpfMode⟩

/-- `router`, with the parser of CIDRs. -/
def router {IpNet : Type} (parse : String → Option IpNet) : Option (DecoyState IpNet) := do
  let status := spa.httpsResponseStatus
  if status < 100 ∨ 1000 ≤ status then none
  else
    let cidrs ← spa.trustedProxyCidrs.mapM parse
    some ⟨decide (spa.bpfMode &&& spaModeHttps ≠ 0), status, cidrs⟩

variable {spa}

theorem mode_ne_https (h : spa.bpfMode &&& spaModeUdp ≠ 0) : spa.mode ≠ .https := by
  intro hmode
  rw [bpfMode, hmode] at h
  exact h (by decide)

theorem mode_ne_udp_of_router {IpNet : Type} {parse : String → Option IpNet}
    {decoy : DecoyState IpNet} (h : spa.router parse = some decoy) (hsender : decoy.spaTx = true) :
    spa.mode ≠ .udp := by
  intro hmode
  simp only [router] at h
  split at h
  · cases h
  · obtain ⟨cidrs, -, hdecoy⟩ := Option.bind_eq_some_iff.mp h
    rw [← Option.some.inj hdecoy, decide_eq_true_iff, bpfMode, hmode] at hsender
    exact hsender (by decide)

end SpaSection

/-! ### Arrivals -/

section

variable {IpNet : Type} (contains : IpNet → IpAddr → Bool) (decoy : DecoyState IpNet)
  (spa : SpaSection)

/-- Every queued candidate is that of a request. -/
def Receives (_ : State) : Event → Prop
  | .httpsReceive candidate => ∃ peer headers body date requestId,
      (telemetry contains decoy peer headers body date requestId).1 = some candidate
  | _ => True

/-- The octets arrived from the address, on a transport of the configuration. -/
inductive Arrives (events : List Event) : UInt32 → Bytes → Prop
  | datagram {context : Xdp.Context} {frame : Bytes} {ihl udpLen : ℕ}
      (event : .frame context frame ∈ events) (mode : spa.mode ≠ .https)
      (carries : Xdp.CarriesSpa spa.udpPort frame ihl udpLen) :
      Arrives events (Xdp.sourceAddr frame).toU32 (Xdp.udpPayload frame ihl udpLen)
  | request {peer : SocketAddr} {headers : HeaderMap} {ip : Ipv4Addr} {body : Bytes}
      (event : .httpsReceive ⟨ip.toU32, body⟩ ∈ events) (mode : spa.mode ≠ .udp)
      (source : httpsSpaSourceIp contains peer headers decoy.trustedProxyCidrs = some ip) :
      Arrives events ip.toU32 body

/-- The client has the identifier in the first roster or in one that was loaded. -/
def Enrolled (verifier : SpaVerifier) (events : List Event) (keyId : KeyId)
    (client : AuthorizedClient) : Prop :=
  verifier.clients.lookup keyId = some client ∨
    ∃ clients removed, .reload clients removed ∈ events ∧ client ∈ clients ∧ client.keyId = keyId

/-- The octets are a packet with this identifier that the client, enrolled under it, has signed. -/
def SignedBy (crypto : Crypto) (verifier : SpaVerifier) (events : List Event) (payload : Bytes)
    (keyId : KeyId) (client : AuthorizedClient) : Prop :=
  ∃ packet, SpaPacket.openWire crypto payload verifier.serverStaticPrivate = .ok packet ∧
    packet.keyId = keyId ∧ Enrolled verifier events keyId client ∧
    packet.verify crypto client.publicKey verifier.serverStaticPubkey = .ok ()

/-- What the ring, the queue, the roster and the history hold has arrived. -/
structure Traced (crypto : Crypto) (host : Endian) (proxyPort : UInt16) (verifier : SpaVerifier)
    (events : List Event) (history : List Output) (state : State) : Prop where
  config : state.maps.config = some (spa.bpfConfig proxyPort)
  keys : state.verifier.serverStaticPrivate = verifier.serverStaticPrivate ∧
    state.verifier.serverStaticPubkey = verifier.serverStaticPubkey
  roster : ∀ keyId client, state.verifier.clients.lookup keyId = some client →
    Enrolled verifier events keyId client
  ring : ∀ item ∈ state.maps.spaRing, ∃ memory srcIp srcPort payload,
    item = Xdp.ringEvent host memory srcIp srcPort payload ∧ payload.length ≤ 176 ∧
      Arrives contains decoy spa events srcIp payload
  queue : ∀ candidate ∈ state.httpsSpa,
    Arrives contains decoy spa events candidate.srcIp candidate.payload
  accepted : ∀ admission, .accepted admission ∈ history →
    Arrives contains decoy spa events admission.srcIp admission.payload ∧ ∃ client,
      SignedBy crypto verifier events admission.payload admission.accept.keyId client ∧
        admission.enrolled = some client.noisePublicKey

end

/-! ### Steps that take nothing in -/

/-- The step leaves alone what arrives and what is accepted. -/
structure TakesNothing (state next : State) (emitted : Option Output) : Prop where
  config : next.maps.config = state.maps.config
  ring : next.maps.spaRing = state.maps.spaRing
  queue : next.httpsSpa = state.httpsSpa
  emitted : ∀ admission, emitted ≠ some (.accepted admission)

variable {crypto : Crypto} {toml : Toml} {host : Endian} {allowTtlSeconds : UInt64}
  {state next : State} {event : Event} {emitted : Option Output}

theorem takesNothing_of_allowStep
    (h : allowStep allowTtlSeconds state event = some (next, emitted)) :
    TakesNothing state next emitted := by
  cases event <;> simp only [allowStep] at h <;> grind [TakesNothing]

theorem takesNothing_of_removalStep (h : removalStep state event = some (next, emitted)) :
    TakesNothing state next emitted := by
  cases event <;> simp only [removalStep, select] at h <;> grind [TakesNothing]

theorem takesNothing_of_connectionStep (h : connectionStep state event = some (next, emitted)) :
    TakesNothing state next emitted := by
  cases event with
  | connect id peer =>
    simp only [connectionStep] at h
    grind [TakesNothing]
  | handshake id =>
    obtain ⟨connection, -, h⟩ := Option.bind_eq_some_iff.mp h
    unfold setStage at h
    grind [TakesNothing]
  | readMsg3 id remoteStatic =>
    obtain ⟨connection, -, h⟩ := Option.bind_eq_some_iff.mp h
    unfold setStage at h
    grind [TakesNothing]
  | acquire id =>
    obtain ⟨connection, -, h⟩ := Option.bind_eq_some_iff.mp h
    unfold setStage at h
    grind [TakesNothing]
  | close id =>
    obtain ⟨connection, -, h⟩ := Option.map_eq_some_iff.mp h
    grind [TakesNothing]
  | _ => simp [connectionStep] at h

/-! ### Steps keep what is traced -/

section

variable {IpNet : Type} {contains : IpNet → IpAddr → Bool} {decoy : DecoyState IpNet}
  {spa : SpaSection} {proxyPort : UInt16} {verifier : SpaVerifier} {events : List Event}
  {history : List Output}

theorem mem_append_toList {output : Output} (h : output ∈ history ++ emitted.toList) :
    output ∈ history ∨ emitted = some output := by
  rw [List.mem_append, Option.mem_toList] at h
  exact h

theorem Traced.takesNothing
    (h : Traced contains decoy spa crypto host proxyPort verifier events history state)
    (hstep : TakesNothing state next emitted)
    (hkeys : next.verifier.serverStaticPrivate = state.verifier.serverStaticPrivate ∧
      next.verifier.serverStaticPubkey = state.verifier.serverStaticPubkey)
    (hroster : ∀ keyId client, next.verifier.clients.lookup keyId = some client →
      Enrolled verifier events keyId client) :
    Traced contains decoy spa crypto host proxyPort verifier events (history ++ emitted.toList)
      next where
  config := hstep.config.trans h.config
  keys := ⟨hkeys.1.trans h.keys.1, hkeys.2.trans h.keys.2⟩
  roster := hroster
  ring := by
    rw [hstep.ring]
    exact h.ring
  queue := by
    rw [hstep.queue]
    exact h.queue
  accepted admission haccepted := by
    rcases mem_append_toList haccepted with hbefore | hemitted
    · exact h.accepted admission hbefore
    · exact absurd hemitted (hstep.emitted admission)

theorem Traced.quiet
    (h : Traced contains decoy spa crypto host proxyPort verifier events history state)
    (hstep : TakesNothing state next emitted) (hverifier : next.verifier = state.verifier) :
    Traced contains decoy spa crypto host proxyPort verifier events (history ++ emitted.toList)
      next := by
  refine h.takesNothing hstep ⟨by rw [hverifier], by rw [hverifier]⟩ ?_
  rw [hverifier]
  exact h.roster

theorem Traced.handleSpa (toml : Toml)
    (h : Traced contains decoy spa crypto host proxyPort verifier events history state)
    {srcIp : UInt32} {payload : Bytes} (harrives : Arrives contains decoy spa events srcIp payload)
    (nowMs : UInt64) (fault : Option SaveFault) :
    let handled := handleSpa crypto toml state srcIp payload nowMs fault
    Traced contains decoy spa crypto host proxyPort verifier events
      (history ++ handled.2.toList) handled.1 := by
  intro handled
  have hhandled : handled = Daemon.handleSpa crypto toml state srcIp payload nowMs fault := rfl
  rcases SpaVerifier.verify_cases crypto toml state.verifier state.files payload
    (Ipv4Addr.ofU32 srcIp) nowMs fault with
    ⟨error, heq⟩ | ⟨packet, client, hauth, _, ⟨error, _, heq⟩ | ⟨_, heq⟩⟩
  · simp only [Daemon.handleSpa, heq] at hhandled
    rw [hhandled]
    exact h.takesNothing ⟨rfl, rfl, rfl, by simp⟩ ⟨rfl, rfl⟩ h.roster
  · simp only [Daemon.handleSpa, heq] at hhandled
    rw [hhandled]
    exact h.takesNothing ⟨rfl, rfl, rfl, by simp⟩ ⟨rfl, rfl⟩ h.roster
  · simp only [Daemon.handleSpa, heq] at hhandled
    obtain ⟨hopen, hclient, hverify, -⟩ := SpaVerifier.authenticate_ok hauth
    rw [h.keys.1] at hopen
    rw [h.keys.2] at hverify
    rw [hhandled]
    refine ⟨h.config, h.keys, h.roster, h.ring, h.queue, fun admission haccepted ↦ ?_⟩
    rcases mem_append_toList haccepted with hbefore | hemitted
    · exact h.accepted admission hbefore
    · cases hemitted
      refine ⟨harrives, client, ⟨packet, hopen, rfl, h.roster _ _ hclient, hverify⟩, ?_⟩
      simp [SpaVerifier.acceptOf, hclient]

theorem Traced.frame
    (h : Traced contains decoy spa crypto host proxyPort verifier events history state)
    {context : Xdp.Context} {frame : Bytes} (hevent : .frame context frame ∈ events)
    (hendian : context.endian = host) :
    Traced contains decoy spa crypto host proxyPort verifier events history
      { state with maps := (Xdp.ghostbroXdp context state.maps frame).1 } where
  config := (Xdp.ghostbroXdp_maps context state.maps frame).config.trans h.config
  keys := h.keys
  roster := h.roster
  ring item hitem := by
    by_cases hsubmitted : ∃ ihl udpLen, Xdp.Submitted context state.maps frame ihl udpLen
    · obtain ⟨ihl, udpLen, hsubmitted⟩ := hsubmitted
      obtain ⟨memory, srcPort, hring⟩ := Xdp.spaRing_of_submitted hsubmitted
      rw [hring, List.mem_append, List.mem_singleton] at hitem
      rcases hitem with hbefore | rfl
      · exact h.ring item hbefore
      · have hconfig : Xdp.loadConfig state.maps = spa.bpfConfig proxyPort := by
          rw [Xdp.loadConfig, h.config]
          rfl
        have hcarries := hsubmitted.carries
        have hmode := hsubmitted.udpMode
        rw [hconfig] at hcarries hmode
        refine ⟨memory, _, srcPort, _, by rw [hendian], ?_,
          .datagram hevent (SpaSection.mode_ne_https hmode) hcarries⟩
        exact (List.length_take_le _ _).trans hcarries.window.2
    · push Not at hsubmitted
      rw [Xdp.spaRing_of_not_submitted hsubmitted] at hitem
      exact h.ring item hitem
  queue := h.queue
  accepted := h.accepted

theorem Traced.environmentStep
    (h : Traced contains decoy spa crypto host proxyPort verifier events history state)
    (hmode : decoy.spaTx = true → spa.mode ≠ .udp) (hevent : event ∈ events)
    (hreceives : Receives contains decoy state event)
    (hstep : environmentStep host state event = some (next, emitted)) :
    Traced contains decoy spa crypto host proxyPort verifier events (history ++ emitted.toList)
      next := by
  cases event with
  | tick now =>
    simp only [Daemon.environmentStep] at hstep
    split_ifs at hstep
    obtain ⟨rfl, rfl⟩ := Prod.mk.inj (Option.some.inj hstep)
    exact h.takesNothing ⟨rfl, rfl, rfl, by simp⟩ ⟨rfl, rfl⟩ h.roster
  | frame context frame =>
    simp only [Daemon.environmentStep] at hstep
    split_ifs at hstep with hcontext
    obtain ⟨rfl, rfl⟩ := Prod.mk.inj (Option.some.inj hstep)
    rw [Option.toList_none, List.append_nil]
    exact h.frame hevent hcontext.2
  | evict srcIp =>
    obtain ⟨rfl, rfl⟩ := Prod.mk.inj (Option.some.inj hstep)
    exact h.takesNothing ⟨rfl, rfl, rfl, by simp⟩ ⟨rfl, rfl⟩ h.roster
  | httpsReceive candidate =>
    simp only [Daemon.environmentStep] at hstep
    split_ifs at hstep
    obtain ⟨rfl, rfl⟩ := Prod.mk.inj (Option.some.inj hstep)
    rw [Option.toList_none, List.append_nil]
    refine ⟨h.config, h.keys, h.roster, h.ring, fun received hreceived ↦ ?_, h.accepted⟩
    rcases List.mem_append.mp hreceived with hbefore | hlast
    · exact h.queue received hbefore
    · obtain rfl := List.mem_singleton.mp hlast
      obtain ⟨peer, headers, body, date, requestId, htelemetry⟩ := hreceives
      simp only [telemetry] at htelemetry
      split_ifs at htelemetry with hsender
      obtain ⟨ip, hsource, rfl⟩ := Option.map_eq_some_iff.mp htelemetry
      exact .request hevent (hmode hsender) hsource
  | _ => simp [Daemon.environmentStep] at hstep

theorem Traced.spaStep
    (h : Traced contains decoy spa crypto host proxyPort verifier events history state)
    (hstep : spaStep crypto toml host state event = some (next, emitted)) :
    Traced contains decoy spa crypto host proxyPort verifier events (history ++ emitted.toList)
      next := by
  cases event with
  | ringNext nowMs fault =>
    cases hring : state.maps.spaRing with
    | nil => simp [Daemon.spaStep, hring] at hstep
    | cons item rest =>
      obtain ⟨memory, srcIp, srcPort, payload, hitem, hlength, harrives⟩ :=
        h.ring item (hring ▸ List.mem_cons_self)
      by_cases hidle : state.task = .idle
      · rw [hitem] at hring
        rw [spaStep_ringEvent crypto toml host memory srcIp srcPort hlength hidle hring] at hstep
        have htaken : Traced contains decoy spa crypto host proxyPort verifier events history
            { state with maps := { state.maps with spaRing := rest } } := by
          refine ⟨h.config, h.keys, h.roster, fun later hlater ↦ ?_, h.queue, h.accepted⟩
          exact h.ring later (hring ▸ List.mem_cons_of_mem _ hlater)
        have hhandled := htaken.handleSpa toml harrives nowMs fault
        rw [Option.some.inj hstep] at hhandled
        exact hhandled
      · cases htask : state.task <;> simp_all [Daemon.spaStep]
  | httpsNext nowMs fault =>
    simp only [Daemon.spaStep] at hstep
    split at hstep
    case h_1 candidate rest _ hqueue =>
      have htaken : Traced contains decoy spa crypto host proxyPort verifier events history
          { state with httpsSpa := rest } := by
        refine ⟨h.config, h.keys, h.roster, h.ring, fun later hlater ↦ ?_, h.accepted⟩
        exact h.queue later (hqueue ▸ List.mem_cons_of_mem _ hlater)
      have hhandled := htaken.handleSpa toml
        (h.queue candidate (hqueue ▸ List.mem_cons_self)) nowMs fault
      rw [Option.some.inj hstep] at hhandled
      exact hhandled
    case h_2 => cases hstep
  | _ => simp [Daemon.spaStep] at hstep

theorem Traced.removalStep
    (h : Traced contains decoy spa crypto host proxyPort verifier events history state)
    (hevent : event ∈ events) (hstep : removalStep state event = some (next, emitted)) :
    Traced contains decoy spa crypto host proxyPort verifier events (history ++ emitted.toList)
      next := by
  have hnothing := takesNothing_of_removalStep hstep
  by_cases hreload : ∃ clients removed, event = .reload clients removed
  · obtain ⟨clients, removed, rfl⟩ := hreload
    simp only [Daemon.removalStep] at hstep
    split at hstep
    case h_1 =>
      split_ifs at hstep
      obtain ⟨rfl, rfl⟩ := Prod.mk.inj (Option.some.inj hstep)
      refine h.takesNothing hnothing ⟨rfl, rfl⟩ fun keyId client hclient ↦ ?_
      obtain ⟨other, hmem, heq⟩ := List.mem_map.mp (HashMap.mem_of_lookup_collect hclient)
      obtain ⟨hkey, rfl⟩ := Prod.mk.inj heq
      exact .inr ⟨clients, removed, hevent, hmem, hkey⟩
    case h_2 => cases hstep
  · apply h.quiet hnothing
    exact (quiet_of_removalStep hstep).verifier fun clients removed heq ↦
      hreload ⟨clients, removed, heq⟩

theorem Traced.step
    (h : Traced contains decoy spa crypto host proxyPort verifier events history state)
    (hmode : decoy.spaTx = true → spa.mode ≠ .udp) (hevent : event ∈ events)
    (hreceives : Receives contains decoy state event)
    (hstep : step crypto toml host allowTtlSeconds state event = some (next, emitted)) :
    Traced contains decoy spa crypto host proxyPort verifier events (history ++ emitted.toList)
      next := by
  unfold Daemon.step at hstep
  split_ifs at hstep
  split at hstep
  all_goals first
    | exact h.environmentStep hmode hevent hreceives hstep
    | exact h.spaStep hstep
    | exact h.quiet (takesNothing_of_allowStep hstep)
        ((quiet_of_allowStep hstep).verifier (by simp))
    | exact h.removalStep hevent hstep
    | exact h.quiet (takesNothing_of_connectionStep hstep) (verifier_of_connectionStep hstep).1

theorem traced_start (now : UInt64) (verifier : SpaVerifier) (files : FileSystem) :
    Traced contains decoy spa crypto host proxyPort verifier events []
      (start now (some (spa.bpfConfig proxyPort)) verifier files) where
  config := rfl
  keys := ⟨rfl, rfl⟩
  roster _ _ := .inl
  ring item h := by cases h
  queue candidate h := by cases h
  accepted admission h := by cases h

end

/-- When the proxy grants a session, octets have arrived from the address of the session on a
transport of the configuration, and they are a packet that the client of the session signed: it
was enrolled under the identifier with the key of the signature and with the Noise key that the
peer has proved. -/
theorem session_from_wire {IpNet : Type} (crypto : Crypto) (toml : Toml) (host : Endian)
    (contains : IpNet → IpAddr → Bool) (parse : String → Option IpNet) (spa : SpaSection)
    (proxyPort : UInt16) (decoy : DecoyState IpNet) (now : UInt64) (verifier : SpaVerifier)
    (files : FileSystem) (events : List Event) (outputs : List Output) (state next : State)
    (event : Event) (srcIp : UInt32) (keyId : KeyId) (lookupNs : UInt64) (remoteStatic : Bytes)
    (hdecoy : spa.router parse = some decoy)
    (hrun : Run (step crypto toml host spa.allowTtlSeconds) (Receives contains decoy)
      (start now (some (spa.bpfConfig proxyPort)) verifier files) events outputs state)
    (hgrant : step crypto toml host spa.allowTtlSeconds state event =
      some (next, some (.granted srcIp keyId lookupNs remoteStatic))) :
    ∃ payload client, Arrives contains decoy spa events srcIp payload ∧
      SignedBy crypto verifier events payload keyId client ∧
      remoteStatic = client.noisePublicKey.toList := by
  have htraced : Traced contains decoy spa crypto host proxyPort verifier events outputs state :=
    (hrun.restrict fun _ hevent ↦ hevent).invariant
      (Traced contains decoy spa crypto host proxyPort verifier events)
      (traced_start now verifier files)
      fun _ _ _ _ _ h hguard hstep ↦
        h.step (SpaSection.mode_ne_udp_of_router hdecoy) hguard.2 hguard.1 hstep
  have hchain : Chain spa.allowTtlSeconds outputs state.gate :=
    hrun.invariant (fun history state ↦ Chain spa.allowTtlSeconds history state.gate)
      (chain_start now _ verifier files) fun _ _ _ _ _ h _ hstep ↦ h.effect (effect_of_step hstep)
  obtain ⟨admission, nowNs, hsublist, rfl, rfl, -, -, hproved⟩ :=
    hchain.authenticated (effect_of_step hgrant) srcIp keyId lookupNs remoteStatic rfl
  have haccepted : .accepted admission ∈ outputs := hsublist.subset List.mem_cons_self
  obtain ⟨harrives, client, hsigned, henrolled⟩ := htraced.accepted admission haccepted
  rw [henrolled, Option.map_some] at hproved
  exact ⟨admission.payload, client, harrives, hsigned, (Option.some.inj hproved).symm⟩

/-! ### A sample session -/

namespace Sample

open Daemon.Sample
open Ghostbro.Sample (source)

/-- A server for SPA over HTTPS, with the defaults otherwise. -/
def spa : SpaSection := ⟨.https, none, none, none⟩

def decoy : DecoyState IpAddr := ⟨true, 204, []⟩

/-- A state of the sample server, with the configuration written. -/
def configured (state : State) : State :=
  { state with maps := { state.maps with config := some (spa.bpfConfig 8443) } }

def stamped : State := { verified with task := .stamped admission entry }

/-- The candidate is that of a request from the client itself. -/
theorem receives_candidate :
    Receives sameAddress decoy (configured started)
      (.httpsReceive ⟨srcIp, Ghostbro.Sample.payload Ghostbro.Sample.alice 5⟩) :=
  ⟨⟨.v4 source, 50000⟩, [], Ghostbro.Sample.payload Ghostbro.Sample.alice 5, "", "", rfl⟩

theorem run_connected :
    Run (step Crypto.transparent Toml.plain .little spa.allowTtlSeconds)
      (Receives sameAddress decoy)
      (start 1000 (some (spa.bpfConfig 8443)) Daemon.Sample.verifier ∅)
      (admittedEvents ++ (connectingEvents ++ [.readMsg3 0 (some remoteStatic)]))
      [.accepted admission, .stamped admission 1000]
      (configured (connecting (.verified remoteStatic))) := by
  have hstep₁ : sampleStep (configured started)
      (.httpsReceive ⟨srcIp, Ghostbro.Sample.payload Ghostbro.Sample.alice 5⟩) =
        some (configured queued, none) := rfl
  have hstep₂ : sampleStep (configured queued) (.httpsNext 0 none) =
      some (configured verified, some (.accepted admission)) := by decide +kernel
  have hstep₃ : sampleStep (configured verified) .stamp =
      some (configured stamped, some (.stamped admission 1000)) := rfl
  have hstep₄ : sampleStep (configured stamped) (.kernelInsert true) =
      some (configured written, none) := rfl
  have hstep₅ : sampleStep (configured written) .mirrorInsert =
      some (configured admitted, none) := rfl
  have hstep₆ : sampleStep (configured admitted) (.connect 0 source) =
      some (configured (connecting .readMsg1), none) := rfl
  have hstep₇ : sampleStep (configured (connecting .readMsg1)) (.handshake 0) =
      some (configured (connecting .writeMsg2), none) := rfl
  have hstep₈ : sampleStep (configured (connecting .writeMsg2)) (.handshake 0) =
      some (configured (connecting .readMsg3), none) := rfl
  have hstep₉ : sampleStep (configured (connecting .readMsg3)) (.readMsg3 0 (some remoteStatic)) =
      some (configured (connecting (.verified remoteStatic)), none) := by decide +kernel
  have hnil : Run sampleStep (Receives sameAddress decoy) (configured started) [] []
      (configured started) := .nil
  have hadmitted := ((((hnil.snoc receives_candidate hstep₁).snoc (by trivial) hstep₂).snoc
    (by trivial) hstep₃).snoc (by trivial) hstep₄).snoc (by trivial) hstep₅
  exact (((hadmitted.snoc (by trivial) hstep₆).snoc (by trivial) hstep₇).snoc (by trivial)
    hstep₈).snoc (by trivial) hstep₉

end Sample

/-- The session of the sample client goes back to its request. -/
theorem session_from_wire_sample :
    ∃ payload, ∃ client : AuthorizedClient,
      Arrives sameAddress Sample.decoy Sample.spa (Daemon.Sample.admittedEvents ++
        (Daemon.Sample.connectingEvents ++ [.readMsg3 0 (some Daemon.Sample.remoteStatic)]))
        Daemon.Sample.srcIp payload ∧
      Daemon.Sample.remoteStatic = client.noisePublicKey.toList := by
  have hgrant : Daemon.Sample.sampleStep
      (Sample.configured (Daemon.Sample.connecting (.verified Daemon.Sample.remoteStatic)))
      (.acquire 0) =
        some (Sample.configured Daemon.Sample.tunnel, some Daemon.Sample.grantedOutput) := by
    decide +kernel
  obtain ⟨payload, client, harrives, -, hproved⟩ :=
    session_from_wire Crypto.transparent Toml.plain .little sameAddress (fun _ ↦ none) Sample.spa
      8443 Sample.decoy 1000 Daemon.Sample.verifier ∅ _ _ _ _ (.acquire 0) _ _ _ _ rfl
      Sample.run_connected hgrant
  exact ⟨payload, client, harrives, hproved⟩

end Ghostbro.Origins
