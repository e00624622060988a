import Ghostbro.Server.Handoff
import Ghostbro.Server.Reload
import Ghostbro.Server.Sessions
import Ghostbro.Server.Tunnel

/-!
# Handshakes come to their end

`handle_connection` copies the mirror entry of its peer and then works on the copy, so no other
task can stop a handshake in the server: while packets, reaps, purges, reloads and other
connections interleave with it, its remaining messages lead to a session, unless as many sessions
of the client are open as the copy allows.  The frames of the peer still have to pass the XDP
program, which they do as long as the kernel has an entry of the address in force.
-/

namespace Ghostbro.Daemon

open Machine

/-- The connection whose task takes the step. -/
def Event.connection : Event → Option ℕ
  | .connect id _ | .handshake id | .readMsg3 id _ | .acquire id | .close id => some id
  | _ => none

/-- The step of `handle_connection` at a stage, if its peer proves the key. -/
def Stage.ownStep (id : ℕ) (key : Bytes) : Stage → Option Event
  | .readMsg1 | .writeMsg2 => some (.handshake id)
  | .readMsg3 => some (.readMsg3 id (some key))
  | .verified _ | .session => none

/-- The rest of a handshake; `segment` brings the message of the peer that a stage reads. -/
def Stage.remaining (id : ℕ) (key : Bytes) (segment : Stage → Event) : Stage → List Event
  | .readMsg1 =>
    [segment .readMsg1, .handshake id, .handshake id, segment .readMsg3, .readMsg3 id (some key)]
  | .writeMsg2 => [.handshake id, segment .readMsg3, .readMsg3 id (some key)]
  | .readMsg3 => [segment .readMsg3, .readMsg3 id (some key)]
  | .verified _ | .session => []

/-- The stage after the next message. -/
def Stage.advance (key : Bytes) : Stage → Stage
  | .readMsg1 => .writeMsg2
  | .writeMsg2 => .readMsg3
  | .readMsg3 | .verified _ | .session => .verified key

/-- The connection only goes on with its handshake: no read or write of its messages fails, and
its peer proves the key. -/
def KeepsTo (id : ℕ) (key : Bytes) (state : State) (event : Event) : Prop :=
  event.connection = some id → ∃ connection, state.connections.lookup id = some connection ∧
    connection.stage.ownStep id key = some event

/-- The connection is in its handshake with its copy, or has compared the key. -/
def Handshakes (id : ℕ) (copied : Connection) (key : Bytes) (state : State) : Prop :=
  ∃ stage, state.connections.lookup id = some { copied with stage := stage } ∧
    stage ≠ .session ∧ ∀ remoteStatic, stage = .verified remoteStatic → remoteStatic = key

/-- A TCP segment of the peer to the proxy port reaches the XDP program. -/
def Arrives (host : Endian) (state : State) (peer : Ipv4Addr) (event : Event) : Prop :=
  ∃ context frame ihl, event = .frame context frame ∧ context.now = state.now ∧
    context.endian = host ∧ Xdp.CarriesTcp (Xdp.loadConfig state.maps).proxyPort frame ihl ∧
    Xdp.sourceAddr frame = peer

/-- The XDP program does not drop the frame. -/
def Passes (state : State) : Event → Prop
  | .frame context frame => (Xdp.ghostbroXdp context state.maps frame).2 = .pass
  | _ => True

/-- The kernel has an entry of the peer in force. -/
def Lets (state : State) (peer : Ipv4Addr) : Prop :=
  ∃ entry, state.maps.allowMap.lookup peer.toU32 = some entry ∧ state.now < entry.expiryNs

/-- As many sessions of the client are open as its copy allows. -/
def Full (state : State) (source : AllowedSource) : Prop :=
  ∃ limit, source.maxConcurrentSessions = some limit ∧ 0 < limit ∧
    limit.toNat ≤ state.holders source.entry.keyId

variable {crypto : Crypto} {toml : Toml} {host : Endian} {allowTtlSeconds : UInt64}
  {state next : State} {event : Event} {emitted : Option Output} {id : ℕ} {key : Bytes}
  {copied connection : Connection}

/-! ### Other tasks -/

/-- A connection changes only in its own steps. -/
theorem lookup_of_connectionStep (hother : event.connection ≠ some id)
    (h : connectionStep state event = some (next, emitted)) :
    next.connections.lookup id = state.connections.lookup id := by
  cases event with
  | connect id' peer =>
    have hne : id ≠ id' := fun heq ↦ hother (congrArg some heq.symm)
    simp only [connectionStep] at h
    grind [HashMap.lookup_insert_ite]
  | handshake id' =>
    have hne : id ≠ id' := fun heq ↦ hother (congrArg some heq.symm)
    obtain ⟨connection, -, h⟩ := Option.bind_eq_some_iff.mp h
    unfold setStage at h
    grind [HashMap.lookup_insert_ite]
  | readMsg3 id' remoteStatic =>
    have hne : id ≠ id' := fun heq ↦ hother (congrArg some heq.symm)
    obtain ⟨connection, -, h⟩ := Option.bind_eq_some_iff.mp h
    unfold setStage at h
    grind [HashMap.lookup_insert_ite, HashMap.lookup_erase_ite]
  | acquire id' =>
    have hne : id ≠ id' := fun heq ↦ hother (congrArg some heq.symm)
    obtain ⟨connection, -, h⟩ := Option.bind_eq_some_iff.mp h
    unfold setStage at h
    grind [HashMap.lookup_insert_ite, HashMap.lookup_erase_ite]
  | close id' =>
    have hne : id ≠ id' := fun heq ↦ hother (congrArg some heq.symm)
    obtain ⟨connection, -, h⟩ := Option.map_eq_some_iff.mp h
    grind [HashMap.lookup_erase_ite]
  | _ => simp [connectionStep] at h

theorem lookup_of_step (hother : event.connection ≠ some id)
    (h : step crypto toml host allowTtlSeconds state event = some (next, emitted)) :
    next.connections.lookup id = state.connections.lookup id := by
  have hsame (hequal : next.accounts = state.accounts) :
      next.connections.lookup id = state.connections.lookup id := by
    rw [(Prod.mk.inj hequal).2]
  unfold step at h
  split_ifs at h
  cases event with
  | tick | frame | evict | httpsReceive => exact hsame (quiet_of_environmentStep h).accounts
  | ringNext | httpsNext => exact hsame (accounts_of_spaStep h)
  | stamp | kernelInsert | mirrorInsert => exact hsame (quiet_of_allowStep h).accounts
  | reload | purgeSelect | reapClock | reapSelect | lockMirror | removeNext | finishRemoval =>
    exact hsame (quiet_of_removalStep h).accounts
  | connect | handshake | readMsg3 | acquire | close => exact lookup_of_connectionStep hother h

/-! ### The connection's own steps -/

/-- The next step advances the handshake, whatever else the state holds. -/
theorem step_of_ownStep (halive : state.task ≠ .exited)
    (hlookup : state.connections.lookup id = some connection)
    (hkey : key = connection.source.noisePublicKey.toList)
    (hown : connection.stage.ownStep id key = some event) :
    step crypto toml host allowTtlSeconds state event =
      some (setStage state id connection (connection.stage.advance key), none) := by
  unfold step
  rw [if_neg halive]
  cases hstage : connection.stage with
  | readMsg1 =>
    rw [hstage] at hown
    cases hown
    simp [connectionStep, hlookup, hstage, Stage.advance]
  | writeMsg2 =>
    rw [hstage] at hown
    cases hown
    simp [connectionStep, hlookup, hstage, Stage.advance]
  | readMsg3 =>
    rw [hstage] at hown
    cases hown
    simp [connectionStep, hlookup, hstage, Stage.advance, verifyClientNoiseStatic, hkey]
  | verified remoteStatic =>
    rw [hstage] at hown
    cases hown
  | session =>
    rw [hstage] at hown
    cases hown

theorem advance_ne_session (key : Bytes) (stage : Stage) : stage.advance key ≠ .session := by
  cases stage <;> simp [Stage.advance]

theorem eq_of_advance {stage : Stage} {remoteStatic : Bytes}
    (h : stage.advance key = .verified remoteStatic) : remoteStatic = key := by
  cases stage <;> simp_all [Stage.advance]

theorem Handshakes.setStage (stage : Stage) :
    Handshakes id connection key
      (setStage state id connection (stage.advance key)) :=
  ⟨stage.advance key, AList.lookup_insert _, advance_ne_session key stage, fun _ ↦ eq_of_advance⟩

/-- Every step keeps the handshake. -/
theorem Handshakes.step (h : Handshakes id copied key state)
    (hkey : key = copied.source.noisePublicKey.toList) (hkeeps : KeepsTo id key state event)
    (hstep : step crypto toml host allowTtlSeconds state event = some (next, emitted)) :
    Handshakes id copied key next := by
  obtain ⟨stage, hlookup, hsession, hverified⟩ := h
  by_cases hown : event.connection = some id
  · obtain ⟨connection, hconnection, hownStep⟩ := hkeeps hown
    rw [hlookup] at hconnection
    obtain rfl := Option.some.inj hconnection
    have halive : state.task ≠ .exited := by
      intro hexited
      unfold Daemon.step at hstep
      rw [if_pos hexited] at hstep
      cases hstep
    rw [step_of_ownStep halive hlookup hkey hownStep] at hstep
    obtain ⟨rfl, -⟩ := Prod.mk.inj (Option.some.inj hstep)
    exact Handshakes.setStage stage
  · exact ⟨stage, (lookup_of_step hown hstep).trans hlookup, hsession, hverified⟩

/-! ### The messages of the peer -/

/-- While the kernel has an entry of the peer, its segments pass and change nothing. -/
theorem step_of_arrives {peer : Ipv4Addr} (halive : state.task ≠ .exited)
    (hlets : Lets state peer) (harrives : Arrives host state peer event) :
    Passes state event ∧
      step crypto toml host allowTtlSeconds state event = some (state, none) := by
  obtain ⟨entry, hlookup, hlive⟩ := hlets
  obtain ⟨context, frame, ihl, rfl, hnow, hendian, hcarries, hsource⟩ := harrives
  have hallowed : Xdp.isAllowed state.maps context.now (Xdp.sourceAddr frame).toU32 =
      (state.maps, true) := by
    rw [hsource, hnow, Xdp.isAllowed, hlookup]
    simp only [UInt64.not_le.mpr hlive, if_false]
  have hxdp : Xdp.ghostbroXdp context state.maps frame = (state.maps, .pass) := by
    rw [Xdp.ghostbroXdp_of_carriesTcp hcarries, hallowed]
    rfl
  refine ⟨congrArg Prod.snd hxdp, ?_⟩
  unfold step
  rw [if_neg halive]
  simp only [environmentStep]
  rw [if_pos ⟨hnow, hendian⟩, hxdp]

/-- The connection has compared the key; the counts of sessions are those of the state before. -/
structure Compared (id : ℕ) (copied : Connection) (key : Bytes) (state ready : State) : Prop where
  lookup : ready.connections.lookup id = some { copied with stage := .verified key }
  sessions : ready.sessions = state.sessions
  holders : ready.holders = state.holders
  task : ready.task = state.task

variable {peer : Ipv4Addr} {segment : Stage → Event}

/-- A handshake goes on after one step of its own. -/
theorem run_ownStep {stage : Stage} {rest : List Event} {ready : State}
    (halive : state.task ≠ .exited)
    (hlookup : state.connections.lookup id = some { copied with stage := stage })
    (hkey : key = copied.source.noisePublicKey.toList) (hown : stage.ownStep id key = some event)
    (hrest : Run (Daemon.step crypto toml host allowTtlSeconds) Passes
      (Daemon.setStage state id { copied with stage := stage } (stage.advance key)) rest [] ready)
    (hcompared : Compared id copied key
      (Daemon.setStage state id { copied with stage := stage } (stage.advance key)) ready) :
    Run (Daemon.step crypto toml host allowTtlSeconds) Passes state (event :: rest) [] ready ∧
      Compared id copied key state ready := by
  have hstep := @step_of_ownStep crypto toml host allowTtlSeconds _ _ _ _ _ halive hlookup hkey hown
  have hsession : stage ≠ .session := by
    rintro rfl
    cases hown
  have hpasses : Passes state event := by
    cases stage <;> cases hown <;> trivial
  have hholders := holders_setStage hlookup hsession (advance_ne_session key stage)
  exact ⟨(Run.nil.snoc hpasses hstep).append hrest, hcompared.lookup, hcompared.sessions,
    hcompared.holders.trans hholders, hcompared.task⟩

theorem run_readMsg3 (halive : state.task ≠ .exited) (hlets : Lets state peer)
    (harrives : ∀ stage, Arrives host state peer (segment stage))
    (hkey : key = copied.source.noisePublicKey.toList)
    (hlookup : state.connections.lookup id = some { copied with stage := .readMsg3 }) :
    ∃ ready, Run (Daemon.step crypto toml host allowTtlSeconds) Passes state
        (Stage.readMsg3.remaining id key segment) [] ready ∧
      Compared id copied key state ready := by
  obtain ⟨hpasses, hsegment⟩ := step_of_arrives halive hlets (harrives .readMsg3)
  obtain ⟨hrun, hcompared⟩ := run_ownStep halive hlookup hkey rfl .nil
    ⟨AList.lookup_insert _, rfl, rfl, rfl⟩
  exact ⟨_, (Run.nil.snoc hpasses hsegment).append hrun, hcompared⟩

theorem run_writeMsg2 (halive : state.task ≠ .exited) (hlets : Lets state peer)
    (harrives : ∀ stage, Arrives host state peer (segment stage))
    (hkey : key = copied.source.noisePublicKey.toList)
    (hlookup : state.connections.lookup id = some { copied with stage := .writeMsg2 }) :
    ∃ ready, Run (Daemon.step crypto toml host allowTtlSeconds) Passes state
        (Stage.writeMsg2.remaining id key segment) [] ready ∧
      Compared id copied key state ready := by
  let written := Daemon.setStage state id { copied with stage := .writeMsg2 } .readMsg3
  have hwritten : written.connections.lookup id = some { copied with stage := .readMsg3 } :=
    AList.lookup_insert _
  obtain ⟨ready, hrest, hcompared⟩ :=
    run_readMsg3 (show written.task ≠ .exited from halive) hlets harrives hkey hwritten
  exact ⟨ready, run_ownStep halive hlookup hkey rfl hrest hcompared⟩

theorem run_readMsg1 (halive : state.task ≠ .exited) (hlets : Lets state peer)
    (harrives : ∀ stage, Arrives host state peer (segment stage))
    (hkey : key = copied.source.noisePublicKey.toList)
    (hlookup : state.connections.lookup id = some { copied with stage := .readMsg1 }) :
    ∃ ready, Run (Daemon.step crypto toml host allowTtlSeconds) Passes state
        (Stage.readMsg1.remaining id key segment) [] ready ∧
      Compared id copied key state ready := by
  let read := Daemon.setStage state id { copied with stage := .readMsg1 } .writeMsg2
  have hread : read.connections.lookup id = some { copied with stage := .writeMsg2 } :=
    AList.lookup_insert _
  obtain ⟨hpasses, hsegment⟩ := step_of_arrives halive hlets (harrives .readMsg1)
  obtain ⟨ready, hrest, hcompared⟩ :=
    run_writeMsg2 (show read.task ≠ .exited from halive) hlets harrives hkey hread
  obtain ⟨hrun, hcompared⟩ := run_ownStep halive hlookup hkey rfl hrest hcompared
  exact ⟨ready, (Run.nil.snoc hpasses hsegment).append hrun, hcompared⟩

/-- The rest of a handshake runs to the comparison of the key. -/
theorem run_remaining {stage : Stage} (halive : state.task ≠ .exited) (hlets : Lets state peer)
    (harrives : ∀ stage, Arrives host state peer (segment stage))
    (hkey : key = copied.source.noisePublicKey.toList)
    (hlookup : state.connections.lookup id = some { copied with stage := stage })
    (hsession : stage ≠ .session)
    (hverified : ∀ remoteStatic, stage = .verified remoteStatic → remoteStatic = key) :
    ∃ ready, Run (Daemon.step crypto toml host allowTtlSeconds) Passes state
        (stage.remaining id key segment) [] ready ∧ Compared id copied key state ready := by
  cases stage with
  | readMsg1 => exact run_readMsg1 halive hlets harrives hkey hlookup
  | writeMsg2 => exact run_writeMsg2 halive hlets harrives hkey hlookup
  | readMsg3 => exact run_readMsg3 halive hlets harrives hkey hlookup
  | verified remoteStatic =>
    obtain rfl := hverified remoteStatic rfl
    exact ⟨state, .nil, hlookup, rfl, rfl, rfl⟩
  | session => exact absurd rfl hsession

/-! ### The whole handshake -/

/-- A connection starts its handshake with the copy of a mirror entry that is in force. -/
theorem connect_eq {source : AllowedSource} {peer : Ipv4Addr}
    (hsource : state.mirror.lookup peer.toU32 = some source)
    (hforce : state.now < source.entry.expiryNs)
    (h : step crypto toml host allowTtlSeconds state (.connect id peer) = some (next, emitted)) :
    id ∉ state.connections ∧ next =
      { state with connections :=
          state.connections.insert id ⟨peer.toU32, source, state.now, .readMsg1⟩ } := by
  unfold step at h
  split_ifs at h
  simp only [connectionStep, hsource, if_neg (UInt64.not_le.mpr hforce)] at h
  split at h
  · cases h
  · split_ifs at h with hid
    exact ⟨hid, (congrArg Prod.fst (Option.some.inj h)).symm⟩

/-- A compared connection gets a session unless the limit of its copy is reached. -/
theorem step_acquire (halive : state.task ≠ .exited)
    (hlookup : state.connections.lookup id = some { copied with stage := .verified key })
    (haccounts : Accounts state.sessions state.holders) :
    ∃ next result,
      step crypto toml host allowTtlSeconds state (.acquire id) = some (next, result) ∧
      (result = some (.granted copied.srcIp copied.source.entry.keyId copied.lookupNs key) ∧
          ¬Full state copied.source ∨
        result = none ∧ Full state copied.source) := by
  have hrefused :=
    haccounts.refused_iff copied.source.entry.keyId copied.source.maxConcurrentSessions
  unfold step
  rw [if_neg halive]
  simp only [connectionStep, hlookup, Option.bind_some]
  split_ifs with hgranted
  · refine ⟨_, _, rfl, .inl ⟨rfl, fun hfull ↦ ?_⟩⟩
    rw [hrefused.mpr hfull] at hgranted
    cases hgranted
  · exact ⟨_, _, rfl, .inr ⟨rfl, hrefused.mp (Bool.eq_false_of_not_eq_true hgranted)⟩⟩

/-- Once `handle_connection` has copied a mirror entry in force, no other task can stop its
handshake with a peer that proves the key of the entry.  Whatever packets, reaps, purges, reloads
and other connections do after the copy, in any order: as long as the kernel has an entry of the
peer in force, the segments of the peer pass the XDP program, and the remaining messages lead to a
session of that key, or to a refusal exactly when as many sessions of the key are open as the copy
allows. -/
theorem handshake_completes {now : UInt64} {config : Option BpfConfig} {verifier : SpaVerifier}
    {files : FileSystem} {before events : List Event} {outputs emitted : List Output}
    {state connected last : State} {id : ℕ} {peer : Ipv4Addr} {source : AllowedSource}
    {opened : Option Output} {segment : Stage → Event}
    (hrun : Run (step crypto toml host allowTtlSeconds) FewHolders
      (start now config verifier files) before outputs state)
    (hsource : state.mirror.lookup peer.toU32 = some source)
    (hforce : state.now < source.entry.expiryNs)
    (hfew : FewHolders state (.connect id peer))
    (hconnect : step crypto toml host allowTtlSeconds state (.connect id peer) =
      some (connected, opened))
    (hlater : Run (step crypto toml host allowTtlSeconds)
      (fun state event ↦ FewHolders state event ∧
        KeepsTo id source.noisePublicKey.toList state event) connected events emitted last)
    (halive : last.task ≠ .exited) (hlets : Lets last peer)
    (harrives : ∀ stage, Arrives host last peer (segment stage)) :
    ∃ connection ready next result, last.connections.lookup id = some connection ∧
      Run (step crypto toml host allowTtlSeconds) Passes last
        (connection.stage.remaining id source.noisePublicKey.toList segment) [] ready ∧
      step crypto toml host allowTtlSeconds ready (.acquire id) = some (next, result) ∧
      (result = some (.granted peer.toU32 source.entry.keyId state.now
          source.noisePublicKey.toList) ∧ ¬Full last source ∨
        result = none ∧ Full last source) := by
  let copied : Connection := ⟨peer.toU32, source, state.now, .readMsg1⟩
  have hinv := hlater.invariant
    (fun _ state ↦ Accounts state.sessions state.holders ∧
      Handshakes id copied source.noisePublicKey.toList state)
    ⟨accounts_step (run_accounts hrun) hfew hconnect, .readMsg1, by
      rw [(connect_eq hsource hforce hconnect).2]
      exact AList.lookup_insert _, by simp, by simp⟩
    fun _ _ _ _ _ h hguard hstep ↦
      ⟨accounts_step h.1 hguard.1 hstep, h.2.step rfl hguard.2 hstep⟩
  obtain ⟨haccounts, stage, hlookup, hsession, hverified⟩ := hinv
  obtain ⟨ready, hrest, hcompared⟩ :=
    @run_remaining crypto toml host allowTtlSeconds last id _ copied peer segment stage halive
      hlets harrives rfl hlookup hsession hverified
  rw [← hcompared.sessions, ← hcompared.holders] at haccounts
  obtain ⟨next, result, hstep, hresult⟩ :=
    @step_acquire crypto toml host allowTtlSeconds ready id _ copied (hcompared.task ▸ halive)
      hcompared.lookup haccounts
  have hfull : Full ready source ↔ Full last source := by
    rw [Full, Full, hcompared.holders]
  refine ⟨_, ready, next, result, hlookup, hrest, hstep, ?_⟩
  rwa [← hfull]

namespace Sample

theorem fewHolders_connecting {stage : Stage} (hstage : stage ≠ .session) (event : Event) :
    FewHolders (connecting stage) event := by
  have hholders : (connecting stage).holders = admitted.holders := holders_connect rfl hstage
  rw [FewHolders, hholders]
  intro keyId
  exact Nat.one_lt_two_pow (by decide)

/-- A segment of the client to the proxy port. -/
def peerSegment : Event :=
  .frame ⟨.little, 1000, 0, none⟩
    (Xdp.tcpSegment Ghostbro.Sample.source (Xdp.loadConfig admitted.maps).proxyPort)

theorem arrives_peerSegment (task : Task) :
    Arrives .little (revoking task) Ghostbro.Sample.source peerSegment :=
  ⟨_, _, 5, rfl, rfl, rfl, Xdp.carriesTcp_tcpSegment _ _, Xdp.sourceAddr_tcpSegment _ _⟩

end Sample

/-- A reload has removed the key of the client during its handshake; until the purge the handshake
can still be finished. -/
theorem handshake_completes_sample :
    ∃ ready next, Run Sample.sampleStep Passes (Sample.revoking (.purging [Sample.keyId]))
        [Sample.peerSegment, .readMsg3 0 (some (List.replicate 32 1))] [] ready ∧
      Sample.sampleStep ready (.acquire 0) = some (next, some Sample.grantedOutput) := by
  have hempty {state : State} (hconnections : state.connections = ∅) (event : Event) :
      FewHolders state event := by
    intro keyId
    rw [State.holders, hconnections]
    exact Nat.one_lt_two_pow (by decide)
  have hrun := Sample.run_admitted FewHolders (hempty rfl _) (hempty rfl _) (hempty rfl _)
    (hempty rfl _) (hempty rfl _)
  have hconnect : Sample.sampleStep Sample.admitted (.connect 0 Ghostbro.Sample.source) =
      some (Sample.connecting .readMsg1, none) := rfl
  have hmsg1 : Sample.sampleStep (Sample.connecting .readMsg1) (.handshake 0) =
      some (Sample.connecting .writeMsg2, none) := rfl
  have hmsg2 : Sample.sampleStep (Sample.connecting .writeMsg2) (.handshake 0) =
      some (Sample.connecting .readMsg3, none) := rfl
  have hreload : Sample.sampleStep (Sample.connecting .readMsg3) (.reload [] [Sample.keyId]) =
      some (Sample.revoking (.purging [Sample.keyId]),
        some (.reloaded Sample.verifier.clients [] [Sample.keyId])) := by decide +kernel
  let source := sourceOf Sample.admission.accept Sample.entry
  have hlater : Run Sample.sampleStep
      (fun state event ↦ FewHolders state event ∧
        KeepsTo 0 source.noisePublicKey.toList state event)
      (Sample.connecting .readMsg1) [.handshake 0, .handshake 0, .reload [] [Sample.keyId]]
      [.reloaded Sample.verifier.clients [] [Sample.keyId]]
      (Sample.revoking (.purging [Sample.keyId])) :=
    ((Run.nil.snoc ⟨Sample.fewHolders_connecting (by decide) _, fun _ ↦ ⟨_, rfl, rfl⟩⟩ hmsg1).snoc
      ⟨Sample.fewHolders_connecting (by decide) _, fun _ ↦ ⟨_, rfl, rfl⟩⟩ hmsg2).snoc
      ⟨Sample.fewHolders_connecting (by decide) _, by intro h; cases h⟩ hreload
  obtain ⟨connection, ready, next, result, hlookup, hrest, hstep, hresult⟩ :=
    handshake_completes hrun rfl (by decide) (hempty rfl _) hconnect hlater
      (by simp [Sample.revoking]) ⟨Sample.entry, rfl, by decide⟩
      fun _ ↦ Sample.arrives_peerSegment (.purging [Sample.keyId])
  cases hlookup
  rcases hresult with ⟨hgranted, -⟩ | ⟨-, limit, hlimit, -⟩
  · exact ⟨ready, next, hrest, hgranted ▸ hstep⟩
  · cases hlimit

end Ghostbro.Daemon
