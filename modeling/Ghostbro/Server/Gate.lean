import Ghostbro.Server.Daemon

/-!
# The gate

The gate is what decides who may connect: the clock, the two copies of the allow list, the
position of the task that maintains them, and the connections that were let in.  Every step of the
daemon is one of the transitions below or leaves the gate alone; the verifier, its files, the rate
limits and the session counts no longer occur.  Invariants of the daemon are proved over these
transitions.
-/

namespace Ghostbro.Daemon

open Machine

/-- The part of the state that decides who may connect. -/
structure Gate where
  now : UInt64
  allowMap : HashMap UInt32 AllowEntry
  mirror : HashMap UInt32 AllowedSource
  task : Task
  connections : HashMap ℕ Connection

def State.gate (state : State) : Gate where
  now := state.now
  allowMap := state.maps.allowMap
  mirror := state.mirror
  task := state.task
  connections := state.connections

/-- `Selects gate event removal rest selection sources`: the event selects `selection` from the
mirror, in the order `sources`. -/
inductive Selects (gate : Gate) :
    Event → Removal → List KeyId → List UInt32 → List UInt32 → Prop
  | purge {keyId : KeyId} {rest : List KeyId} {sources : List UInt32} :
      gate.task = .purging (keyId :: rest) →
      Selects gate (.purgeSelect sources) (.purge keyId) rest (sourcesOfKey gate.mirror keyId)
        sources
  | reap {nowNs : UInt64} {sources : List UInt32} :
      gate.task = .reaping nowNs →
      Selects gate (.reapSelect sources) .reap [] (expiredSources gate.mirror nowNs) sources

/-- The transitions of the gate. -/
inductive Effect (allowTtlSeconds : UInt64) (gate : Gate) : Event → Gate → Option Output → Prop
  | quiet {event : Event} : Effect allowTtlSeconds gate event gate none
  | tick {now : UInt64} : gate.now ≤ now →
      Effect allowTtlSeconds gate (.tick now) { gate with now := now } none
  /-- The XDP program deletes an expired entry. -/
  | lazyDelete {context : Xdp.Context} {frame : Bytes} {srcIp : UInt32} {entry : AllowEntry} :
      gate.allowMap.lookup srcIp = some entry → entry.expiryNs ≤ gate.now →
      Effect allowTtlSeconds gate (.frame context frame)
        { gate with allowMap := gate.allowMap.erase srcIp } none
  | evict {srcIp : UInt32} :
      Effect allowTtlSeconds gate (.evict srcIp)
        { gate with allowMap := gate.allowMap.erase srcIp } none
  | accepted {event : Event} {admission : Admission} : gate.task = .idle →
      admission.enrolled = some admission.accept.noisePublicKey →
      Effect allowTtlSeconds gate event { gate with task := .accepted admission }
        (some (.accepted admission))
  | stamp {admission : Admission} : gate.task = .accepted admission →
      Effect allowTtlSeconds gate .stamp
        { gate with
          task := .stamped admission (entryOf allowTtlSeconds admission.accept gate.now) }
        (some (.stamped admission gate.now))
  | kernelInsert {admission : Admission} {entry : AllowEntry} :
      gate.task = .stamped admission entry →
      Effect allowTtlSeconds gate (.kernelInsert true)
        { gate with
          allowMap := gate.allowMap.insert admission.srcIp entry
          task := .kernelWritten admission entry } none
  | insertFailed {admission : Admission} {entry : AllowEntry} :
      gate.task = .stamped admission entry →
      Effect allowTtlSeconds gate (.kernelInsert false) { gate with task := .exited } none
  | mirrorInsert {admission : Admission} {entry : AllowEntry} :
      gate.task = .kernelWritten admission entry →
      Effect allowTtlSeconds gate .mirrorInsert
        { gate with
          mirror := gate.mirror.insert admission.srcIp (sourceOf admission.accept entry)
          task := .idle } none
  | reload {clients : List AuthorizedClient} {removed : List KeyId}
      {previous : HashMap KeyId AuthorizedClient} : gate.task = .idle →
      (∀ keyId, keyId ∈ removed ↔
        keyId ∈ previous ∧ ∀ client ∈ clients, client.keyId ≠ keyId) →
      Effect allowTtlSeconds gate (.reload clients removed) { gate with task := .resume removed }
        (some (.reloaded previous clients removed))
  | reapClock : gate.task = .idle →
      Effect allowTtlSeconds gate .reapClock { gate with task := .reaping gate.now } none
  | selectNone {event : Event} {removal : Removal} {rest : List KeyId}
      {selection : List UInt32} : Selects gate event removal rest selection [] →
      selection = [] →
      Effect allowTtlSeconds gate event { gate with task := .resume rest }
        (some (.removed removal []))
  | select {event : Event} {removal : Removal} {rest : List KeyId}
      {selection sources : List UInt32} : Selects gate event removal rest selection sources →
      sources.Perm selection →
      Effect allowTtlSeconds gate event { gate with task := .selected removal rest sources } none
  | lockMirror {removal : Removal} {rest : List KeyId} {sources : List UInt32} :
      gate.task = .selected removal rest sources →
      Effect allowTtlSeconds gate .lockMirror
        { gate with task := .removing removal rest sources sources } none
  | removeNext {removal : Removal} {rest : List KeyId} {sources remaining : List UInt32}
      {srcIp : UInt32} : gate.task = .removing removal rest sources (srcIp :: remaining) →
      srcIp ∈ gate.allowMap →
      Effect allowTtlSeconds gate .removeNext
        { gate with
          allowMap := gate.allowMap.erase srcIp
          mirror := gate.mirror.erase srcIp
          task := .removing removal rest sources remaining } none
  | removeFailed {removal : Removal} {rest : List KeyId} {sources remaining : List UInt32}
      {srcIp : UInt32} : gate.task = .removing removal rest sources (srcIp :: remaining) →
      srcIp ∉ gate.allowMap →
      Effect allowTtlSeconds gate .removeNext { gate with task := .exited }
        (some (.removeFailed removal srcIp))
  | finishRemoval {removal : Removal} {rest : List KeyId} {sources : List UInt32} :
      gate.task = .removing removal rest sources [] →
      Effect allowTtlSeconds gate .finishRemoval { gate with task := .resume rest }
        (some (.removed removal sources))
  /-- A lookup finds an expired mirror entry. -/
  | lookupExpired {id : ℕ} {peer : Ipv4Addr} {source : AllowedSource} :
      gate.mirror.lookup (Ipv4Addr.toU32 peer) = some source →
      source.entry.expiryNs ≤ gate.now →
      Effect allowTtlSeconds gate (.connect id peer)
        { gate with mirror := gate.mirror.erase (Ipv4Addr.toU32 peer) } none
  | connect {id : ℕ} {peer : Ipv4Addr} {source : AllowedSource} :
      gate.mirror.lookup (Ipv4Addr.toU32 peer) = some source →
      gate.now < source.entry.expiryNs →
      Effect allowTtlSeconds gate (.connect id peer)
        { gate with
          connections := gate.connections.insert id
            ⟨Ipv4Addr.toU32 peer, source, gate.now, .readMsg1⟩ } none
  /-- The handshake goes on; the static key is compared before it is called verified. -/
  | progress {event : Event} {id : ℕ} {connection : Connection} {stage : Stage} :
      gate.connections.lookup id = some connection → connection.stage ≠ .session →
      (∀ remoteStatic, stage = .verified remoteStatic →
        remoteStatic = connection.source.noisePublicKey.toList) →
      Effect allowTtlSeconds gate event
        { gate with
          connections := gate.connections.insert id { connection with stage := stage } } none
  | granted {id : ℕ} {connection : Connection} {remoteStatic : Bytes} :
      gate.connections.lookup id = some connection →
      connection.stage = .verified remoteStatic →
      Effect allowTtlSeconds gate (.acquire id)
        { gate with
          connections := gate.connections.insert id { connection with stage := .session } }
        (some (.granted connection.srcIp connection.source.entry.keyId connection.lookupNs
          remoteStatic))
  | dropped {event : Event} {id : ℕ} :
      Effect allowTtlSeconds gate event
        { gate with connections := gate.connections.erase id } none

variable {crypto : Crypto} {toml : Toml} {host : Endian} {allowTtlSeconds : UInt64}

/-! ### Every step of the daemon is a transition of the gate -/

theorem effect_of_environmentStep {state next : State} {event : Event} {emitted : Option Output}
    (h : environmentStep host state event = some (next, emitted)) :
    Effect allowTtlSeconds state.gate event next.gate emitted := by
  cases event with
  | tick now =>
    simp only [environmentStep] at h
    split_ifs at h with hnow
    obtain ⟨rfl, rfl⟩ := Prod.mk.inj (Option.some.inj h)
    exact .tick hnow
  | frame context frame =>
    simp only [environmentStep] at h
    split_ifs at h with hcontext
    obtain ⟨rfl, rfl⟩ := Prod.mk.inj (Option.some.inj h)
    have hmaps := (Xdp.ghostbroXdp_maps context state.maps frame).allowMap
    rcases hmaps with hsame | ⟨srcIp, entry, hlookup, hexpired, herase⟩
    · unfold State.gate
      rw [hsame]
      exact .quiet
    · unfold State.gate
      rw [herase]
      rw [hcontext.1] at hexpired
      exact .lazyDelete hlookup hexpired
  | evict srcIp =>
    obtain ⟨rfl, rfl⟩ := Prod.mk.inj (Option.some.inj h)
    exact .evict
  | httpsReceive candidate =>
    simp only [environmentStep] at h
    split_ifs at h
    obtain ⟨rfl, rfl⟩ := Prod.mk.inj (Option.some.inj h)
    exact .quiet
  | _ => simp [environmentStep] at h

/-- An accepted candidate carries the Noise key of the roster. -/
theorem effect_of_handleSpa (crypto : Crypto) (toml : Toml) (allowTtlSeconds : UInt64)
    {state : State} (htask : state.task = .idle) (event : Event) (srcIp : UInt32)
    (payload : Bytes) (nowMs : UInt64) (fault : Option SaveFault) :
    let handled := handleSpa crypto toml state srcIp payload nowMs fault
    Effect allowTtlSeconds state.gate event handled.1.gate handled.2 := by
  rcases SpaVerifier.verify_cases crypto toml state.verifier state.files payload
    (Ipv4Addr.ofU32 srcIp) nowMs fault with
    ⟨error, heq⟩ | ⟨packet, client, hauth, _, ⟨error, _, heq⟩ | ⟨_, heq⟩⟩
  · simp only [handleSpa, heq]
    exact .quiet
  · simp only [handleSpa, heq]
    exact .quiet
  · simp only [handleSpa, heq]
    have hclient := (SpaVerifier.authenticate_ok hauth).2.1
    refine .accepted htask ?_
    simp [SpaVerifier.acceptOf, hclient]

theorem effect_of_spaStep {state next : State} {event : Event} {emitted : Option Output}
    (h : spaStep crypto toml host state event = some (next, emitted)) :
    Effect allowTtlSeconds state.gate event next.gate emitted := by
  cases event with
  | ringNext nowMs fault =>
    simp only [spaStep] at h
    split at h
    case h_1 item rest htask _ =>
      let taken : State := { state with maps := { state.maps with spaRing := rest } }
      split at h
      case h_1 =>
        obtain ⟨rfl, rfl⟩ := Prod.mk.inj (Option.some.inj h)
        exact .quiet
      case h_2 event _ =>
        split_ifs at h
        · obtain ⟨rfl, rfl⟩ := Prod.mk.inj (Option.some.inj h)
          exact .quiet
        · have heffect := effect_of_handleSpa crypto toml allowTtlSeconds
            (show taken.task = .idle from htask) (.ringNext nowMs fault) event.srcIp
            (event.payload.toList.take event.payloadLen.toNat) nowMs fault
          rw [Option.some.inj h] at heffect
          exact heffect
    case h_2 => cases h
  | httpsNext nowMs fault =>
    simp only [spaStep] at h
    split at h
    case h_1 candidate rest htask _ =>
      let taken : State := { state with httpsSpa := rest }
      have heffect := effect_of_handleSpa crypto toml allowTtlSeconds
        (show taken.task = .idle from htask) (.httpsNext nowMs fault) candidate.srcIp
        candidate.payload nowMs fault
      rw [Option.some.inj h] at heffect
      exact heffect
    case h_2 => cases h
  | _ => simp [spaStep] at h

theorem effect_of_allowStep {state next : State} {event : Event} {emitted : Option Output}
    (h : allowStep allowTtlSeconds state event = some (next, emitted)) :
    Effect allowTtlSeconds state.gate event next.gate emitted := by
  cases event with
  | stamp =>
    simp only [allowStep] at h
    split at h
    · rename_i htask
      obtain ⟨rfl, rfl⟩ := Prod.mk.inj (Option.some.inj h)
      exact .stamp htask
    · cases h
  | kernelInsert succeeds =>
    simp only [allowStep] at h
    split at h
    · rename_i htask
      split at h
      · rename_i hsucceeds
        obtain ⟨rfl, rfl⟩ := Prod.mk.inj (Option.some.inj h)
        rw [hsucceeds]
        exact .kernelInsert htask
      · rename_i hfails
        obtain ⟨rfl, rfl⟩ := Prod.mk.inj (Option.some.inj h)
        rw [Bool.not_eq_true] at hfails
        rw [hfails]
        exact .insertFailed htask
    · cases h
  | mirrorInsert =>
    simp only [allowStep] at h
    split at h
    · rename_i htask
      obtain ⟨rfl, rfl⟩ := Prod.mk.inj (Option.some.inj h)
      exact .mirrorInsert htask
    · cases h
  | _ => simp [allowStep] at h

theorem effect_of_select {state next : State} {event : Event} {removal : Removal}
    {rest : List KeyId} {selection sources : List UInt32} {emitted : Option Output}
    (hselects : Selects state.gate event removal rest selection sources)
    (h : select state removal rest selection sources = some (next, emitted)) :
    Effect allowTtlSeconds state.gate event next.gate emitted := by
  unfold select at h
  split_ifs at h with hperm hempty
  · subst hempty
    obtain ⟨rfl, rfl⟩ := Prod.mk.inj (Option.some.inj h)
    exact .selectNone hselects (List.nil_perm.mp hperm)
  · obtain ⟨rfl, rfl⟩ := Prod.mk.inj (Option.some.inj h)
    exact .select hselects hperm

/-- The removed keys are those of the old roster that no new record carries. -/
theorem mem_reloadClients {verifier : SpaVerifier} {clients : List AuthorizedClient}
    {keyId : KeyId} :
    keyId ∈ (verifier.reloadClients clients).2 ↔
      keyId ∈ verifier.clients ∧ ∀ client ∈ clients, client.keyId ≠ keyId := by
  have hroster : keyId ∈ SpaVerifier.rosterOf clients ↔
      ∃ client ∈ clients, client.keyId = keyId := by
    rw [SpaVerifier.rosterOf, HashMap.mem_collect]
    simp
  unfold SpaVerifier.reloadClients
  rw [List.mem_filter, ← AList.mem_keys, decide_eq_true_eq, hroster]
  push Not
  rfl

theorem effect_of_removalStep {state next : State} {event : Event} {emitted : Option Output}
    (h : removalStep state event = some (next, emitted)) :
    Effect allowTtlSeconds state.gate event next.gate emitted := by
  cases event with
  | reload clients removed =>
    simp only [removalStep] at h
    split at h
    case h_1 htask =>
      split_ifs at h with hperm
      obtain ⟨rfl, rfl⟩ := Prod.mk.inj (Option.some.inj h)
      exact .reload htask fun keyId ↦ hperm.mem_iff.trans mem_reloadClients
    case h_2 => cases h
  | purgeSelect sources =>
    simp only [removalStep] at h
    split at h
    case h_1 htask => exact effect_of_select (.purge htask) h
    case h_2 => cases h
  | reapClock =>
    simp only [removalStep] at h
    split at h
    case h_1 htask =>
      obtain ⟨rfl, rfl⟩ := Prod.mk.inj (Option.some.inj h)
      exact .reapClock htask
    case h_2 => cases h
  | reapSelect sources =>
    simp only [removalStep] at h
    split at h
    case h_1 htask => exact effect_of_select (.reap htask) h
    case h_2 => cases h
  | lockMirror =>
    simp only [removalStep] at h
    split at h
    case h_1 htask =>
      obtain ⟨rfl, rfl⟩ := Prod.mk.inj (Option.some.inj h)
      exact .lockMirror htask
    case h_2 => cases h
  | removeNext =>
    simp only [removalStep] at h
    split at h
    case h_1 htask =>
      split_ifs at h with hmem
      · obtain ⟨rfl, rfl⟩ := Prod.mk.inj (Option.some.inj h)
        exact .removeNext htask hmem
      · obtain ⟨rfl, rfl⟩ := Prod.mk.inj (Option.some.inj h)
        exact .removeFailed htask hmem
    case h_2 => cases h
  | finishRemoval =>
    simp only [removalStep] at h
    split at h
    case h_1 htask =>
      obtain ⟨rfl, rfl⟩ := Prod.mk.inj (Option.some.inj h)
      exact .finishRemoval htask
    case h_2 => cases h
  | _ => simp [removalStep] at h

theorem effect_of_connect {state next : State} {id : ℕ} {peer : Ipv4Addr}
    {emitted : Option Output}
    (h : connectionStep state (.connect id peer) = some (next, emitted)) :
    Effect allowTtlSeconds state.gate (.connect id peer) next.gate emitted := by
  simp only [connectionStep] at h
  split at h
  case h_1 => cases h
  case h_2 =>
    split_ifs at h
    split at h
    case h_1 =>
      obtain ⟨rfl, rfl⟩ := Prod.mk.inj (Option.some.inj h)
      exact .quiet
    case h_2 source hlookup =>
      split_ifs at h with hexpired
      · obtain ⟨rfl, rfl⟩ := Prod.mk.inj (Option.some.inj h)
        exact .lookupExpired hlookup hexpired
      · obtain ⟨rfl, rfl⟩ := Prod.mk.inj (Option.some.inj h)
        exact .connect hlookup (UInt64.not_le.mp hexpired)

theorem effect_of_connectionStep {state next : State} {event : Event} {emitted : Option Output}
    (h : connectionStep state event = some (next, emitted)) :
    Effect allowTtlSeconds state.gate event next.gate emitted := by
  cases event with
  | connect id peer => exact effect_of_connect h
  | handshake id =>
    obtain ⟨connection, hlookup, h⟩ := Option.bind_eq_some_iff.mp h
    split at h
    case h_1 hstage =>
      obtain ⟨rfl, rfl⟩ := Prod.mk.inj (Option.some.inj h)
      exact .progress hlookup (by simp [hstage]) (by simp)
    case h_2 hstage =>
      obtain ⟨rfl, rfl⟩ := Prod.mk.inj (Option.some.inj h)
      exact .progress hlookup (by simp [hstage]) (by simp)
    case h_3 => cases h
  | readMsg3 id remoteStatic =>
    obtain ⟨connection, hlookup, h⟩ := Option.bind_eq_some_iff.mp h
    split at h
    case h_1 hstage =>
      split_ifs at h with hverify
      · obtain ⟨rfl, rfl⟩ := Prod.mk.inj (Option.some.inj h)
        refine .progress hlookup (by simp [hstage]) ?_
        rintro _ ⟨⟩
        cases remoteStatic with
        | none => simp [verifyClientNoiseStatic] at hverify
        | some remoteStatic => simpa [verifyClientNoiseStatic] using hverify
      · obtain ⟨rfl, rfl⟩ := Prod.mk.inj (Option.some.inj h)
        exact .dropped
    case h_2 => cases h
  | acquire id =>
    obtain ⟨connection, hlookup, h⟩ := Option.bind_eq_some_iff.mp h
    split at h
    case h_1 remoteStatic hstage =>
      dsimp only at h
      split_ifs at h
      · obtain ⟨rfl, rfl⟩ := Prod.mk.inj (Option.some.inj h)
        exact .granted hlookup hstage
      · obtain ⟨rfl, rfl⟩ := Prod.mk.inj (Option.some.inj h)
        exact .dropped
    case h_2 => cases h
  | close id =>
    obtain ⟨connection, _, h⟩ := Option.map_eq_some_iff.mp h
    obtain ⟨rfl, rfl⟩ := Prod.mk.inj h
    exact .dropped
  | _ => simp [connectionStep] at h

/-- Every step of the daemon is a transition of the gate. -/
theorem effect_of_step {state next : State} {event : Event} {emitted : Option Output}
    (h : step crypto toml host allowTtlSeconds state event = some (next, emitted)) :
    Effect allowTtlSeconds state.gate event next.gate emitted := by
  unfold step at h
  split_ifs at h
  split at h
  all_goals first
    | exact effect_of_environmentStep h
    | exact effect_of_spaStep h
    | exact effect_of_allowStep h
    | exact effect_of_removalStep h
    | exact effect_of_connectionStep h

/-! ### What the steps leave alone -/

/-- The step accepts no candidate, leaves the sessions alone, and the verifier as well unless it is
a reload. -/
structure Quiet (state : State) (event : Event) (next : State) (emitted : Option Output) :
    Prop where
  sessions : next.sessions = state.sessions
  connections : next.connections = state.connections
  verifier : (∀ clients removed, event ≠ .reload clients removed) → next.verifier = state.verifier
  emitted : ∀ admission, emitted ≠ some (.accepted admission)

theorem quiet_of_environmentStep {state next : State} {event : Event} {emitted : Option Output}
    (h : environmentStep host state event = some (next, emitted)) :
    Quiet state event next emitted := by
  cases event <;> simp only [environmentStep] at h <;> grind [Quiet]

theorem quiet_of_allowStep {state next : State} {event : Event} {emitted : Option Output}
    (h : allowStep allowTtlSeconds state event = some (next, emitted)) :
    Quiet state event next emitted := by
  cases event <;> simp only [allowStep] at h <;> grind [Quiet]

theorem quiet_of_removalStep {state next : State} {event : Event} {emitted : Option Output}
    (h : removalStep state event = some (next, emitted)) : Quiet state event next emitted := by
  cases event with
  | reload clients removed =>
    simp only [removalStep] at h
    split at h
    case h_1 htask =>
      split_ifs at h with hperm
      obtain ⟨rfl, rfl⟩ := Prod.mk.inj (Option.some.inj h)
      exact ⟨rfl, rfl, fun hreload ↦ absurd rfl (hreload clients removed), nofun⟩
    case h_2 => cases h
  | _ =>
    simp only [removalStep, select] at h
    grind [Quiet]

end Ghostbro.Daemon
