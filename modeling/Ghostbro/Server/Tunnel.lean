import Ghostbro.Server.Gate

/-!
# Admission of tunnels

A tunnel is admitted when `acquire_session` grants a slot to a connection that has finished its
handshake.  The first part follows the authentication chain backwards, from the grant over the copy
of the mirror entry to the clock read of `allow_source` and the accept before it; it holds in every
run.  The second part asks whether the entry is still in force at the grant.  The connection never
looks again, so this needs the entry to stay in force for as long as the handshake lasts.
-/

namespace Ghostbro.Daemon

open Machine

/-! ### The authentication chain -/

/-- The history holds an accept from this address and then the clock read, at most `bound`, of the
`allow_source` call that made this mirror entry. -/
def Vouched (allowTtlSeconds : UInt64) (history : List Output) (srcIp : UInt32)
    (source : AllowedSource) (bound : UInt64) : Prop :=
  ∃ admission nowNs, [Output.accepted admission, .stamped admission nowNs].Sublist history ∧
    admission.srcIp = srcIp ∧ admission.enrolled = some admission.accept.noisePublicKey ∧
    source = sourceOf admission.accept (entryOf allowTtlSeconds admission.accept nowNs) ∧
    nowNs ≤ bound

theorem Vouched.mono {allowTtlSeconds : UInt64} {history history' : List Output} {srcIp : UInt32}
    {source : AllowedSource} {bound bound' : UInt64}
    (h : Vouched allowTtlSeconds history srcIp source bound) (hhistory : history.Sublist history')
    (hbound : bound ≤ bound') : Vouched allowTtlSeconds history' srcIp source bound' := by
  obtain ⟨admission, nowNs, hsublist, hsrcIp, henrolled, hsource, hle⟩ := h
  exact ⟨admission, nowNs, hsublist.trans hhistory, hsrcIp, henrolled, hsource,
    UInt64.le_trans hle hbound⟩

/-- A connection copied a vouched entry before it expired. -/
structure Connection.Chained (allowTtlSeconds : UInt64) (history : List Output)
    (connection : Connection) : Prop where
  vouched : Vouched allowTtlSeconds history connection.srcIp connection.source connection.lookupNs
  unexpired : connection.lookupNs < connection.source.entry.expiryNs
  proved : ∀ remoteStatic, connection.stage = .verified remoteStatic →
    remoteStatic = connection.source.noisePublicKey.toList

/-- What the position of the task says about the history. -/
def Task.Chained (allowTtlSeconds : UInt64) (history : List Output) (now : UInt64) : Task → Prop
  | .accepted admission => .accepted admission ∈ history ∧
      admission.enrolled = some admission.accept.noisePublicKey
  | .stamped admission entry =>
    Vouched allowTtlSeconds history admission.srcIp (sourceOf admission.accept entry) now
  | .kernelWritten admission entry =>
    Vouched allowTtlSeconds history admission.srcIp (sourceOf admission.accept entry) now
  | _ => True

structure Chain (allowTtlSeconds : UInt64) (history : List Output) (gate : Gate) : Prop where
  task : gate.task.Chained allowTtlSeconds history gate.now
  mirror : ∀ srcIp source, gate.mirror.lookup srcIp = some source →
    Vouched allowTtlSeconds history srcIp source gate.now
  connections : ∀ id connection, gate.connections.lookup id = some connection →
    connection.Chained allowTtlSeconds history

variable {crypto : Crypto} {toml : Toml} {host : Endian} {allowTtlSeconds : UInt64}

theorem Task.Chained.mono {history history' : List Output} {now now' : UInt64} {task : Task}
    (h : task.Chained allowTtlSeconds history now) (hhistory : history.Sublist history')
    (hnow : now ≤ now') : task.Chained allowTtlSeconds history' now' := by
  cases task with
  | accepted admission => exact ⟨hhistory.subset h.1, h.2⟩
  | stamped admission entry => exact Vouched.mono h hhistory hnow
  | kernelWritten admission entry => exact Vouched.mono h hhistory hnow
  | _ => trivial

theorem Task.chained_resume (history : List Output) (now : UInt64) (keyIds : List KeyId) :
    (Task.resume keyIds).Chained allowTtlSeconds history now := by
  cases keyIds <;> trivial

theorem Connection.Chained.mono {history history' : List Output} {connection : Connection}
    (h : connection.Chained allowTtlSeconds history) (hhistory : history.Sublist history') :
    connection.Chained allowTtlSeconds history' :=
  ⟨h.vouched.mono hhistory (UInt64.le_refl _), h.unexpired, h.proved⟩

/-- A longer history and a later clock. -/
theorem Chain.mono {history history' : List Output} {gate : Gate} {now : UInt64}
    (h : Chain allowTtlSeconds history gate) (hhistory : history.Sublist history')
    (hnow : gate.now ≤ now) : Chain allowTtlSeconds history' { gate with now := now } where
  task := h.task.mono hhistory hnow
  mirror srcIp source hlookup := (h.mirror srcIp source hlookup).mono hhistory hnow
  connections id connection hlookup := (h.connections id connection hlookup).mono hhistory

theorem Chain.setTask {history : List Output} {gate : Gate}
    (h : Chain allowTtlSeconds history gate) {task : Task}
    (htask : task.Chained allowTtlSeconds history gate.now) :
    Chain allowTtlSeconds history { gate with task := task } :=
  ⟨htask, h.mirror, h.connections⟩

theorem Chain.eraseMirror {history : List Output} {gate : Gate}
    (h : Chain allowTtlSeconds history gate) (srcIp : UInt32) :
    Chain allowTtlSeconds history { gate with mirror := gate.mirror.erase srcIp } where
  task := h.task
  mirror srcIp' source hlookup :=
    h.mirror srcIp' source (HashMap.lookup_of_lookup_erase hlookup).2
  connections := h.connections

theorem Chain.insertConnection {history : List Output} {gate : Gate}
    (h : Chain allowTtlSeconds history gate) (id : ℕ) {connection : Connection}
    (hconnection : connection.Chained allowTtlSeconds history) :
    Chain allowTtlSeconds history
      { gate with connections := gate.connections.insert id connection } where
  task := h.task
  mirror := h.mirror
  connections id' connection' hlookup := by
    rw [HashMap.lookup_insert_ite] at hlookup
    split_ifs at hlookup
    · obtain rfl := Option.some.inj hlookup
      exact hconnection
    · exact h.connections id' connection' hlookup

/-- Every transition extends the chain by what it emits. -/
theorem Chain.effect {history : List Output} {gate next : Gate} {event : Event}
    {emitted : Option Output} (hchain : Chain allowTtlSeconds history gate)
    (h : Effect allowTtlSeconds gate event next emitted) :
    Chain allowTtlSeconds (history ++ emitted.toList) next := by
  have hhistory : history.Sublist (history ++ emitted.toList) := List.sublist_append_left _ _
  have hlonger : Chain allowTtlSeconds (history ++ emitted.toList) gate :=
    hchain.mono hhistory (UInt64.le_refl _)
  cases h with
  | quiet => exact hlonger
  | tick hnow => exact hchain.mono hhistory hnow
  | lazyDelete _ _ => exact ⟨hlonger.task, hlonger.mirror, hlonger.connections⟩
  | evict => exact ⟨hlonger.task, hlonger.mirror, hlonger.connections⟩
  | accepted _ henrolled => exact hlonger.setTask ⟨by simp, henrolled⟩
  | @stamp admission htask =>
    have htaskChained := hchain.task
    rw [htask] at htaskChained
    refine hlonger.setTask ⟨admission, gate.now, ?_, rfl, htaskChained.2, rfl, UInt64.le_refl _⟩
    exact (List.singleton_sublist.mpr htaskChained.1).append (List.Sublist.refl _)
  | kernelInsert htask =>
    have htaskChained := hlonger.task
    rw [htask] at htaskChained
    exact ⟨htaskChained, hlonger.mirror, hlonger.connections⟩
  | insertFailed _ => exact hlonger.setTask trivial
  | @mirrorInsert admission entry htask =>
    have htaskChained := hlonger.task
    rw [htask] at htaskChained
    refine ⟨trivial, fun srcIp source hlookup ↦ ?_, hlonger.connections⟩
    rw [HashMap.lookup_insert_ite] at hlookup
    split_ifs at hlookup with hsrcIp
    · obtain rfl := Option.some.inj hlookup
      rw [hsrcIp]
      exact htaskChained
    · exact hlonger.mirror srcIp source hlookup
  | reload _ _ => exact hlonger.setTask (Task.chained_resume _ _ _)
  | reapClock _ => exact hlonger.setTask trivial
  | selectNone _ _ => exact hlonger.setTask (Task.chained_resume _ _ _)
  | select _ _ => exact hlonger.setTask trivial
  | lockMirror _ => exact hlonger.setTask trivial
  | removeNext _ _ => exact ⟨trivial, (hlonger.eraseMirror _).mirror, hlonger.connections⟩
  | removeFailed _ _ => exact hlonger.setTask trivial
  | finishRemoval _ => exact hlonger.setTask (Task.chained_resume _ _ _)
  | lookupExpired _ _ => exact hlonger.eraseMirror _
  | connect hlookup hunexpired =>
    exact hlonger.insertConnection _ ⟨hlonger.mirror _ _ hlookup, hunexpired, by simp⟩
  | progress hlookup _ hproved =>
    have hconnection := hlonger.connections _ _ hlookup
    exact hlonger.insertConnection _ ⟨hconnection.vouched, hconnection.unexpired, hproved⟩
  | granted hlookup _ =>
    have hconnection := hlonger.connections _ _ hlookup
    exact hlonger.insertConnection _ ⟨hconnection.vouched, hconnection.unexpired, by simp⟩
  | dropped =>
    refine ⟨hlonger.task, hlonger.mirror, fun id connection hlookup ↦ ?_⟩
    exact hlonger.connections id connection (HashMap.lookup_of_lookup_erase hlookup).2

/-- The grant rests on an earlier accept from the same address: its `allow_source` read the clock
less than the lifetime before the lookup, and the peer proved the Noise key that was enrolled. -/
def Authenticated (allowTtlSeconds : UInt64) (before : List Output) (output : Output) : Prop :=
  ∀ srcIp keyId lookupNs remoteStatic, output = .granted srcIp keyId lookupNs remoteStatic →
    ∃ admission nowNs, [Output.accepted admission, .stamped admission nowNs].Sublist before ∧
      admission.srcIp = srcIp ∧ admission.accept.keyId = keyId ∧
      nowNs ≤ lookupNs ∧
      lookupNs.toNat - nowNs.toNat < allowTtlSeconds.toNat * 1000000000 ∧
      admission.enrolled.map Vector.toList = some remoteStatic

/-- Saturation only shortens the lifetime of an entry. -/
theorem sub_lt_of_lt_expiryNs {accept : SpaAccept} {nowNs lookupNs : UInt64}
    (hle : nowNs ≤ lookupNs)
    (h : lookupNs < (entryOf allowTtlSeconds accept nowNs).expiryNs) :
    lookupNs.toNat - nowNs.toNat < allowTtlSeconds.toNat * 1000000000 := by
  have hle' := UInt64.le_iff_toNat_le.mp hle
  have hlt := UInt64.lt_iff_toNat_lt.mp h
  have hbillion : (1000000000 : UInt64).toNat = 1000000000 := rfl
  rw [entryOf, toNat_saturatingAdd, toNat_saturatingMul, hbillion] at hlt
  omega

theorem Chain.authenticated {history : List Output} {gate next : Gate} {event : Event}
    {output : Output} (hchain : Chain allowTtlSeconds history gate)
    (h : Effect allowTtlSeconds gate event next (some output)) :
    Authenticated allowTtlSeconds history output := by
  rintro srcIp keyId lookupNs remoteStatic rfl
  cases h with
  | granted hlookup hstage =>
    have hconnection := hchain.connections _ _ hlookup
    obtain ⟨admission, nowNs, hsublist, hsrcIp, henrolled, hsource, hle⟩ := hconnection.vouched
    have hunexpired := hconnection.unexpired
    have hproved := hconnection.proved _ hstage
    rw [hsource] at hunexpired hproved
    refine ⟨admission, nowNs, hsublist, hsrcIp, by rw [hsource]; rfl, hle,
      sub_lt_of_lt_expiryNs hle hunexpired, ?_⟩
    rw [henrolled, hproved]
    rfl

theorem chain_start (now : UInt64) (config : Option BpfConfig) (verifier : SpaVerifier)
    (files : FileSystem) : Chain allowTtlSeconds [] (start now config verifier files).gate where
  task := trivial
  mirror srcIp source h := by cases h
  connections id connection h := by cases h

/-- Every granted session rests on an accepted SPA packet, in every run. -/
theorem granted_authenticated (crypto : Crypto) (toml : Toml) (host : Endian)
    (allowTtlSeconds now : UInt64) (config : Option BpfConfig) (verifier : SpaVerifier)
    (files : FileSystem) (events : List Event) (outputs : List Output) (state : State)
    (hrun : Run (step crypto toml host allowTtlSeconds) unrestricted
      (start now config verifier files) events outputs state) :
    EachAfter (Authenticated allowTtlSeconds) outputs :=
  Run.history (fun history state ↦ Chain allowTtlSeconds history state.gate)
    (chain_start now config verifier files)
    (fun _ _ _ _ _ hchain _ hstep ↦ hchain.effect (effect_of_step hstep))
    (fun _ _ _ _ _ hchain _ hstep ↦ hchain.authenticated (effect_of_step hstep)) hrun

/-! ### Entries in force during a handshake -/

/-- A connection from the address, let in for the key, has not yet been granted its session. -/
def Gate.Handshaking (gate : Gate) (srcIp : UInt32) (keyId : KeyId) : Prop :=
  ∃ id connection, gate.connections.lookup id = some connection ∧ connection.stage ≠ .session ∧
    connection.srcIp = srcIp ∧ connection.source.entry.keyId = keyId

/-- The mirror holds an unexpired entry of the key for the address. -/
def Gate.InForce (gate : Gate) (srcIp : UInt32) (keyId : KeyId) : Prop :=
  ∃ source, gate.mirror.lookup srcIp = some source ∧ source.entry.keyId = keyId ∧
    gate.now < source.entry.expiryNs

/-- While a connection is in its handshake, its mirror entry does not expire, is not removed, and
is replaced only by an unexpired entry of the same key. -/
def KeepsHandshakes (state : State) : Event → Prop
  | .tick now => ∀ srcIp keyId, state.gate.Handshaking srcIp keyId →
      ∀ source, state.mirror.lookup srcIp = some source → now < source.entry.expiryNs
  | .removeNext => ∀ srcIp remaining, state.task.pending = srcIp :: remaining →
      ∀ keyId, ¬state.gate.Handshaking srcIp keyId
  | .mirrorInsert => ∀ admission entry, state.task = .kernelWritten admission entry →
      ∀ keyId, state.gate.Handshaking admission.srcIp keyId →
        entry.keyId = keyId ∧ state.now < entry.expiryNs
  | _ => True

/-- Every connection in its handshake has its entry in force. -/
def AllInForce (gate : Gate) : Prop :=
  ∀ srcIp keyId, gate.Handshaking srcIp keyId → gate.InForce srcIp keyId

/-- Connections that are inserted come from the old ones or have their entry in force. -/
theorem AllInForce.insertConnection {gate : Gate} (h : AllInForce gate) (id : ℕ)
    {connection : Connection} (hconnection : connection.stage ≠ .session →
      gate.InForce connection.srcIp connection.source.entry.keyId) :
    AllInForce { gate with connections := gate.connections.insert id connection } := by
  rintro srcIp keyId ⟨id', connection', hlookup, hstage, rfl, rfl⟩
  rw [HashMap.lookup_insert_ite] at hlookup
  split_ifs at hlookup
  · obtain rfl := Option.some.inj hlookup
    exact hconnection hstage
  · exact h _ _ ⟨id', connection', hlookup, hstage, rfl, rfl⟩

/-- Transitions that touch neither the clock, the mirror nor the connections. -/
theorem AllInForce.congr {gate next : Gate} (h : AllInForce gate) (hnow : next.now = gate.now)
    (hmirror : next.mirror = gate.mirror) (hconnections : next.connections = gate.connections) :
    AllInForce next := by
  intro srcIp keyId hhandshaking
  unfold Gate.Handshaking at hhandshaking
  unfold Gate.InForce
  rw [hconnections] at hhandshaking
  rw [hnow, hmirror]
  exact h srcIp keyId hhandshaking

/-- Removing the mirror entry of an address without a handshake. -/
theorem AllInForce.eraseMirror {gate next : Gate} (h : AllInForce gate) {srcIp : UInt32}
    (hsrcIp : ∀ keyId, ¬gate.Handshaking srcIp keyId) (hnow : next.now = gate.now)
    (hmirror : next.mirror = gate.mirror.erase srcIp)
    (hconnections : next.connections = gate.connections) : AllInForce next := by
  intro srcIp' keyId hhandshaking
  have hbefore : gate.Handshaking srcIp' keyId := by
    unfold Gate.Handshaking at hhandshaking ⊢
    rwa [hconnections] at hhandshaking
  obtain ⟨source, hlookup, hkey, hlive⟩ := h srcIp' keyId hbefore
  have hne : srcIp' ≠ srcIp := fun heq ↦ hsrcIp keyId (heq ▸ hbefore)
  refine ⟨source, ?_, hkey, by rwa [hnow]⟩
  rw [hmirror, HashMap.lookup_erase_ite, if_neg hne]
  exact hlookup

theorem AllInForce.mirrorInsert {gate : Gate} (h : AllInForce gate) {admission : Admission}
    {entry : AllowEntry} (hguard : ∀ keyId, gate.Handshaking admission.srcIp keyId →
      entry.keyId = keyId ∧ gate.now < entry.expiryNs) :
    AllInForce { gate with
      mirror := gate.mirror.insert admission.srcIp (sourceOf admission.accept entry)
      task := .idle } := by
  intro srcIp keyId hhandshaking
  have hbefore : gate.Handshaking srcIp keyId := hhandshaking
  by_cases hsrcIp : srcIp = admission.srcIp
  · obtain ⟨hkey, hlive⟩ := hguard keyId (hsrcIp ▸ hbefore)
    refine ⟨sourceOf admission.accept entry, ?_, hkey, hlive⟩
    rw [HashMap.lookup_insert_ite, if_pos hsrcIp]
  · obtain ⟨source, hlookup, hkey, hlive⟩ := h srcIp keyId hbefore
    refine ⟨source, ?_, hkey, hlive⟩
    rw [HashMap.lookup_insert_ite, if_neg hsrcIp]
    exact hlookup

/-- One step under the guard. -/
theorem AllInForce.step {state next : State} {event : Event} {emitted : Option Output}
    (h : AllInForce state.gate) (hguard : KeepsHandshakes state event)
    (hstep : step crypto toml host allowTtlSeconds state event = some (next, emitted)) :
    AllInForce next.gate := by
  have heffect := effect_of_step hstep
  generalize hnext : next.gate = gate' at heffect ⊢
  clear hnext hstep
  cases heffect with
  | quiet => exact h
  | tick _ =>
    intro srcIp keyId hhandshaking
    obtain ⟨source, hlookup, hkey, _⟩ := h srcIp keyId hhandshaking
    exact ⟨source, hlookup, hkey, hguard srcIp keyId hhandshaking source hlookup⟩
  | lazyDelete _ _ => exact h.congr rfl rfl rfl
  | evict => exact h.congr rfl rfl rfl
  | accepted _ _ => exact h.congr rfl rfl rfl
  | stamp _ => exact h.congr rfl rfl rfl
  | kernelInsert _ => exact h.congr rfl rfl rfl
  | insertFailed _ => exact h.congr rfl rfl rfl
  | mirrorInsert htask => exact h.mirrorInsert (hguard _ _ htask)
  | reload _ _ => exact h.congr rfl rfl rfl
  | reapClock _ => exact h.congr rfl rfl rfl
  | selectNone _ _ => exact h.congr rfl rfl rfl
  | select _ _ => exact h.congr rfl rfl rfl
  | lockMirror _ => exact h.congr rfl rfl rfl
  | @removeNext removal rest sources remaining srcIp htask _ =>
    have hpending : state.task.pending = srcIp :: remaining := by
      have htask' : state.task = .removing removal rest sources (srcIp :: remaining) := htask
      rw [htask']
      rfl
    exact h.eraseMirror (hguard srcIp remaining hpending) rfl rfl rfl
  | removeFailed _ _ => exact h.congr rfl rfl rfl
  | finishRemoval _ => exact h.congr rfl rfl rfl
  | @lookupExpired id peer source hlookup hexpired =>
    -- an address with a handshake has an unexpired entry, so it is not this one
    refine h.eraseMirror (fun keyId hhandshaking ↦ ?_) rfl rfl rfl
    obtain ⟨source', hlookup', _, hlive⟩ := h _ keyId hhandshaking
    obtain rfl := Option.some.inj (hlookup.symm.trans hlookup')
    exact UInt64.not_lt.mpr hexpired hlive
  | connect hlookup hunexpired =>
    exact h.insertConnection _ fun _ ↦ ⟨_, hlookup, rfl, hunexpired⟩
  | progress hlookup hstage _ =>
    exact h.insertConnection _ fun _ ↦ h _ _ ⟨_, _, hlookup, hstage, rfl, rfl⟩
  | granted _ _ => exact h.insertConnection _ fun hstage ↦ absurd rfl hstage
  | dropped =>
    rintro srcIp keyId ⟨id, connection, hlookup, hconnection⟩
    exact h srcIp keyId ⟨id, connection, (HashMap.lookup_of_lookup_erase hlookup).2, hconnection⟩

/-- In every run that keeps the entries of handshakes, a session is granted only while the mirror
holds an unexpired entry of its key for its address. -/
theorem grant_in_force (crypto : Crypto) (toml : Toml) (host : Endian)
    (allowTtlSeconds now : UInt64) (config : Option BpfConfig) (verifier : SpaVerifier)
    (files : FileSystem) (events : List Event) (outputs : List Output) (state next : State)
    (event : Event) (srcIp : UInt32) (keyId : KeyId) (lookupNs : UInt64) (remoteStatic : Bytes)
    (hrun : Run (step crypto toml host allowTtlSeconds) KeepsHandshakes
      (start now config verifier files) events outputs state)
    (hgrant : step crypto toml host allowTtlSeconds state event =
      some (next, some (.granted srcIp keyId lookupNs remoteStatic))) :
    ∃ source, state.mirror.lookup srcIp = some source ∧ source.entry.keyId = keyId ∧
      state.now < source.entry.expiryNs := by
  have hstart : AllInForce (start now config verifier files).gate := by
    rintro srcIp keyId ⟨id, connection, hlookup, _⟩
    cases hlookup
  have hinForce : AllInForce state.gate :=
    Run.invariant (fun _ state ↦ AllInForce state.gate) hstart
      (fun _ _ _ _ _ h hguard hstep ↦ h.step hguard hstep) hrun
  have heffect := effect_of_step hgrant
  generalize next.gate = gate' at heffect
  cases heffect with
  | granted hlookup hstage =>
    exact hinForce _ _ ⟨_, _, hlookup, by simp [hstage], rfl, rfl⟩

/-! ### The sample client connects -/

namespace Sample

def remoteStatic : Bytes := List.replicate 32 1

def grantedOutput : Output := .granted srcIp keyId 1000 remoteStatic

theorem step_readMsg3 : sampleStep (connecting .readMsg3) (.readMsg3 0 (some remoteStatic)) =
    some (connecting (.verified remoteStatic), none) := by decide +kernel

def tunnel : State :=
  { connecting .session with sessions := AList.insert keyId 1 ∅ }

theorem step_acquire : sampleStep (connecting (.verified remoteStatic)) (.acquire 0) =
    some (tunnel, some grantedOutput) := by decide +kernel

end Sample

theorem granted_authenticated_sample :
    Authenticated 14400 [.accepted Sample.admission, .stamped Sample.admission 1000]
      Sample.grantedOutput := by
  have hrun := (((Sample.run_admitted unrestricted trivial trivial trivial trivial trivial).append
    (Sample.run_connecting unrestricted trivial trivial trivial)).snoc trivial
    Sample.step_readMsg3).snoc trivial Sample.step_acquire
  exact granted_authenticated Crypto.transparent Toml.plain .little 14400 1000 none
    Sample.verifier ∅ _ _ _ hrun _ _ [] rfl

theorem grant_in_force_sample :
    let state := Sample.connecting (.verified Sample.remoteStatic)
    ∃ source, state.mirror.lookup Sample.srcIp = some source ∧
      source.entry.keyId = Sample.keyId ∧ state.now < source.entry.expiryNs := by
  have hmirror : KeepsHandshakes Sample.written .mirrorInsert := by
    rintro admission entry _ keyId ⟨id, connection, hlookup, _⟩
    cases hlookup
  have hrun := ((Sample.run_admitted KeepsHandshakes trivial trivial trivial trivial
    hmirror).append (Sample.run_connecting KeepsHandshakes trivial trivial trivial)).snoc
    (by trivial) Sample.step_readMsg3
  exact grant_in_force Crypto.transparent Toml.plain .little 14400 1000 none Sample.verifier ∅ _ _
    _ _ (.acquire 0) _ _ 1000 Sample.remoteStatic hrun Sample.step_acquire

/-- The key of the client is removed and its entries are purged while it waits to send its last
handshake message; the session is granted all the same. -/
theorem granted_after_purge :
    ∃ events outputs state next,
      Run Sample.sampleStep unrestricted Sample.started events outputs state ∧
      Sample.sampleStep state (.acquire 0) = some (next, some Sample.grantedOutput) ∧
      state.mirror.lookup Sample.srcIp = none ∧ Sample.keyId ∉ state.verifier.clients := by
  let purged (stage : Stage) : State :=
    { Sample.revoked .idle with connections := (Sample.connecting stage).connections }
  have hmsg3 : Sample.sampleStep (Sample.revoked .idle)
      (.readMsg3 0 (some Sample.remoteStatic)) =
        some (purged (.verified Sample.remoteStatic), none) := by decide +kernel
  have hacquire : Sample.sampleStep (purged (.verified Sample.remoteStatic)) (.acquire 0) =
      some ({ purged .session with sessions := AList.insert Sample.keyId 1 ∅ },
        some Sample.grantedOutput) := by decide +kernel
  have hrun := (((Sample.run_admitted unrestricted trivial trivial trivial trivial
    trivial).append (Sample.run_connecting unrestricted trivial trivial trivial)).append
    Sample.run_revoked).snoc trivial hmsg3
  exact ⟨_, _, _, _, hrun, hacquire, rfl, by decide +kernel⟩

end Ghostbro.Daemon
