import Ghostbro.Server.Coherence

/-!
# Hot reloads

The rights of a client are copied from the roster into its allow entries when a packet of it is
accepted.  A reload replaces the roster and purges the entries of the keys that are gone; it does
not compare the records of the keys that stay.  The copies agree with the roster for as long as no
reload changes the record of a client with an unexpired entry, and no longer.
-/

namespace Ghostbro.Daemon

open Machine

/-- The record of the key grants these rights. -/
def Grants (roster : HashMap KeyId AuthorizedClient) (keyId : KeyId) (noisePublicKey : Octets 32)
    (maxConcurrentSessions : Option UInt16) : Prop :=
  ∃ client, roster.lookup keyId = some client ∧ client.tier = .full ∧
    noisePublicKey = client.noisePublicKey ∧
    maxConcurrentSessions = client.maxConcurrentSessions

/-- The task removes the entry of the address before it is idle again, or never is. -/
def Task.Dooms : Task → UInt32 → KeyId → Prop
  | .purging keyIds, _, keyId => keyId ∈ keyIds
  | .selected _ rest sources, srcIp, keyId => srcIp ∈ sources ∨ keyId ∈ rest
  | .removing _ rest _ remaining, srcIp, keyId => srcIp ∈ remaining ∨ keyId ∈ rest
  | .exited, _, _ => True
  | _, _, _ => False

@[simp]
theorem Task.dooms_resume (keyIds : List KeyId) (srcIp : UInt32) (keyId : KeyId) :
    (Task.resume keyIds).Dooms srcIp keyId ↔ keyId ∈ keyIds := by
  cases keyIds with
  | nil => simp [Task.resume, Task.Dooms]
  | cons first rest => rfl

/-- Every unexpired mirror entry is granted by the roster or about to be removed, and so is the
admission that becomes the next one. -/
structure Faithful (roster : HashMap KeyId AuthorizedClient) (gate : Gate) : Prop where
  mirrored : ∀ srcIp source, gate.mirror.lookup srcIp = some source →
    gate.now < source.entry.expiryNs →
    Grants roster source.entry.keyId source.noisePublicKey source.maxConcurrentSessions ∨
      gate.task.Dooms srcIp source.entry.keyId
  admitted : ∀ admission, gate.task.admission = some admission →
    Grants roster admission.accept.keyId admission.accept.noisePublicKey
      admission.accept.maxConcurrentSessions
  stamped : ∀ admission entry,
    gate.task = .stamped admission entry ∨ gate.task = .kernelWritten admission entry →
    entry.keyId = admission.accept.keyId

/-! ### One transition -/

section Transitions

variable {roster : HashMap KeyId AuthorizedClient} {gate next : Gate}

/-- Transitions that at most remove mirror entries and keep the task. -/
theorem Faithful.shrink (hfaithful : Faithful roster gate) (hnow : gate.now ≤ next.now)
    (htask : next.task = gate.task)
    (hmirror : ∀ srcIp source, next.mirror.lookup srcIp = some source →
      gate.mirror.lookup srcIp = some source) : Faithful roster next where
  mirrored srcIp source h hlive := by
    rw [htask]
    apply hfaithful.mirrored srcIp source (hmirror srcIp source h)
    exact UInt64.lt_of_le_of_lt hnow hlive
  admitted admission h := hfaithful.admitted admission (htask ▸ h)
  stamped admission entry h := hfaithful.stamped admission entry (htask ▸ h)

/-- Transitions of the task alone, to a position that admits nobody. -/
theorem Faithful.setTask (hfaithful : Faithful roster gate) {task : Task}
    (hadmission : task.admission = none)
    (hdooms : ∀ srcIp source, gate.mirror.lookup srcIp = some source →
      gate.task.Dooms srcIp source.entry.keyId → task.Dooms srcIp source.entry.keyId) :
    Faithful roster { gate with task := task } where
  mirrored srcIp source h hlive :=
    (hfaithful.mirrored srcIp source h hlive).imp_right (hdooms srcIp source h)
  admitted admission h := by simp [hadmission] at h
  stamped admission entry h := by
    have htask : task = .stamped admission entry ∨ task = .kernelWritten admission entry := h
    rcases htask with rfl | rfl
    · cases hadmission
    · cases hadmission

/-- The steps of `allow_source` before the mirror insert. -/
theorem Faithful.advance (hfaithful : Faithful roster gate) {task : Task} {admission : Admission}
    {allowMap : HashMap UInt32 AllowEntry} (hbefore : gate.task.admission = some admission)
    (hafter : task.admission = some admission)
    (hstamped : ∀ entry, task = .stamped admission entry ∨ task = .kernelWritten admission entry →
      entry.keyId = admission.accept.keyId) :
    Faithful roster { gate with allowMap := allowMap, task := task } where
  mirrored srcIp source h hlive := by
    rcases hfaithful.mirrored srcIp source h hlive with hgrants | hdoomed
    · exact .inl hgrants
    · cases htask : gate.task with
      | accepted _ | stamped _ _ | kernelWritten _ _ => simp [htask, Task.Dooms] at hdoomed
      | _ => simp [htask, Task.admission] at hbefore
  admitted admission' h := by
    obtain rfl : admission = admission' := Option.some.inj (hafter.symm.trans h)
    exact hfaithful.admitted admission hbefore
  stamped admission' entry h := by
    have hadmission : task.admission = some admission' := by
      have htask : task = .stamped admission' entry ∨ task = .kernelWritten admission' entry := h
      rcases htask with rfl | rfl <;> rfl
    obtain rfl : admission = admission' := Option.some.inj (hafter.symm.trans hadmission)
    exact hstamped entry h

theorem Faithful.mirrorInsert (hfaithful : Faithful roster gate) {admission : Admission}
    {entry : AllowEntry} (htask : gate.task = .kernelWritten admission entry) :
    Faithful roster { gate with
      mirror := gate.mirror.insert admission.srcIp (sourceOf admission.accept entry)
      task := .idle } where
  mirrored srcIp source h hlive := by
    have hlookup : (gate.mirror.insert admission.srcIp (sourceOf admission.accept entry)).lookup
        srcIp = some source := h
    rw [HashMap.lookup_insert_ite] at hlookup
    split_ifs at hlookup with hip
    · obtain rfl := Option.some.inj hlookup
      have hgrants := hfaithful.admitted admission (by rw [htask]; rfl)
      rw [← hfaithful.stamped admission entry (.inr htask)] at hgrants
      exact .inl hgrants
    · have hbefore := hfaithful.mirrored srcIp source hlookup hlive
      rw [htask] at hbefore
      exact .inl (hbefore.resolve_right id)
  admitted admission' h := by cases h
  stamped admission' entry' h := by simp at h

/-- What a selection does not find is not removed by it. -/
theorem Selects.dooms {event : Event} {removal : Removal} {rest : List KeyId}
    {selection sources : List UInt32} (h : Selects gate event removal rest selection sources)
    {srcIp : UInt32} {source : AllowedSource} (hlookup : gate.mirror.lookup srcIp = some source)
    (hdooms : gate.task.Dooms srcIp source.entry.keyId) :
    srcIp ∈ selection ∨ source.entry.keyId ∈ rest := by
  cases h with
  | purge htask =>
    rw [htask] at hdooms
    rcases List.mem_cons.mp hdooms with hkey | hrest
    · exact .inl (HashMap.mem_keysWhere.mpr ⟨source, hlookup, by simpa using hkey⟩)
    · exact .inr hrest
  | reap htask =>
    rw [htask] at hdooms
    exact hdooms.elim

theorem Faithful.removeNext (hfaithful : Faithful roster gate) {removal : Removal}
    {rest : List KeyId} {sources remaining : List UInt32} {srcIp : UInt32}
    (htask : gate.task = .removing removal rest sources (srcIp :: remaining)) :
    Faithful roster { gate with
      allowMap := gate.allowMap.erase srcIp
      mirror := gate.mirror.erase srcIp
      task := .removing removal rest sources remaining } where
  mirrored srcIp' source h hlive := by
    obtain ⟨hip, hlookup⟩ := HashMap.lookup_of_lookup_erase h
    rcases hfaithful.mirrored srcIp' source hlookup hlive with hgrants | hdoomed
    · exact .inl hgrants
    · rw [htask] at hdoomed
      apply Or.inr
      rcases hdoomed with hmem | hrest
      · exact .inl ((List.mem_cons.mp hmem).resolve_left hip)
      · exact .inr hrest
  admitted admission h := by cases h
  stamped admission entry h := by simp at h

variable {allowTtlSeconds : UInt64}

/-- Every transition other than a reload keeps the copies faithful. -/
theorem Faithful.effect {event : Event} {emitted : Option Output}
    (hfaithful : Faithful roster gate) (h : Effect allowTtlSeconds gate event next emitted)
    (hreload : ∀ clients removed, event ≠ .reload clients removed)
    (haccepted : ∀ admission, emitted = some (.accepted admission) →
      Grants roster admission.accept.keyId admission.accept.noisePublicKey
        admission.accept.maxConcurrentSessions) : Faithful roster next := by
  cases h with
  | quiet => exact hfaithful
  | tick hnow => exact hfaithful.shrink hnow rfl fun _ _ h ↦ h
  | lazyDelete _ _ => exact hfaithful.shrink (UInt64.le_refl _) rfl fun _ _ h ↦ h
  | evict => exact hfaithful.shrink (UInt64.le_refl _) rfl fun _ _ h ↦ h
  | @accepted _ admission htask _ =>
    refine ⟨fun srcIp source h hlive ↦ ?_, fun admission' h ↦ ?_, fun _ _ h ↦ by simp at h⟩
    · have hbefore := hfaithful.mirrored srcIp source h hlive
      rw [htask] at hbefore
      exact .inl (hbefore.resolve_right id)
    · obtain rfl : admission = admission' := Option.some.inj h
      exact haccepted admission rfl
  | @stamp admission htask =>
    apply hfaithful.advance (by rw [htask]; rfl) rfl
    rintro entry (h | h)
    · cases h
      rfl
    · cases h
  | @kernelInsert admission entry htask =>
    apply hfaithful.advance (by rw [htask]; rfl) rfl
    rintro entry' (h | h)
    · cases h
    · cases h
      exact hfaithful.stamped admission entry (.inl htask)
  | insertFailed htask => exact hfaithful.setTask rfl fun _ _ _ _ ↦ trivial
  | mirrorInsert htask => exact hfaithful.mirrorInsert htask
  | reload _ _ => exact absurd rfl (hreload _ _)
  | reapClock htask =>
    apply hfaithful.setTask rfl
    intro srcIp source _ hdooms
    rw [htask] at hdooms
    exact hdooms.elim
  | selectNone hselects hempty =>
    apply hfaithful.setTask (by simp)
    intro srcIp source hlookup hdooms
    rw [Task.dooms_resume]
    subst hempty
    exact (hselects.dooms hlookup hdooms).resolve_left List.not_mem_nil
  | select hselects hperm =>
    apply hfaithful.setTask rfl
    intro srcIp source hlookup hdooms
    exact (hselects.dooms hlookup hdooms).imp_left hperm.mem_iff.mpr
  | lockMirror htask =>
    apply hfaithful.setTask rfl
    intro srcIp source _ hdooms
    rwa [htask] at hdooms
  | removeNext htask _ => exact hfaithful.removeNext htask
  | removeFailed htask _ => exact hfaithful.setTask rfl fun _ _ _ _ ↦ trivial
  | finishRemoval htask =>
    apply hfaithful.setTask (by simp)
    intro srcIp source _ hdooms
    rw [htask] at hdooms
    rw [Task.dooms_resume]
    exact hdooms.resolve_left List.not_mem_nil
  | lookupExpired _ _ =>
    exact hfaithful.shrink (UInt64.le_refl _) rfl fun _ _ h ↦ (HashMap.lookup_of_lookup_erase h).2
  | connect _ _ => exact hfaithful.shrink (UInt64.le_refl _) rfl fun _ _ h ↦ h
  | progress _ _ _ => exact hfaithful.shrink (UInt64.le_refl _) rfl fun _ _ h ↦ h
  | granted _ _ => exact hfaithful.shrink (UInt64.le_refl _) rfl fun _ _ h ↦ h
  | dropped => exact hfaithful.shrink (UInt64.le_refl _) rfl fun _ _ h ↦ h

end Transitions

/-! ### The roster -/

section Roster

variable {crypto : Crypto} {toml : Toml} {host : Endian} {allowTtlSeconds : UInt64}
  {state next : State} {event : Event} {emitted : Option Output}

theorem verifier_of_connectionStep (h : connectionStep state event = some (next, emitted)) :
    next.verifier = state.verifier ∧ ∀ admission, emitted ≠ some (.accepted admission) := by
  cases event with
  | connect id peer =>
    unfold connectionStep at h
    grind
  | handshake id =>
    obtain ⟨connection, -, h⟩ := Option.bind_eq_some_iff.mp h
    unfold setStage at h
    grind
  | readMsg3 id remoteStatic =>
    obtain ⟨connection, -, h⟩ := Option.bind_eq_some_iff.mp h
    unfold setStage at h
    grind
  | acquire id =>
    obtain ⟨connection, -, h⟩ := Option.bind_eq_some_iff.mp h
    unfold setStage at h
    grind
  | close id =>
    obtain ⟨connection, -, h⟩ := Option.map_eq_some_iff.mp h
    grind
  | _ => simp [connectionStep] at h

/-- The roster stays, and a candidate is accepted only with the rights of its record. -/
structure AdmitsByRoster (state next : State) (emitted : Option Output) : Prop where
  clients : next.verifier.clients = state.verifier.clients
  accepted : ∀ admission, emitted = some (.accepted admission) →
    Grants state.verifier.clients admission.accept.keyId admission.accept.noisePublicKey
      admission.accept.maxConcurrentSessions

theorem AdmitsByRoster.of_not_accepted (hclients : next.verifier.clients = state.verifier.clients)
    (hemitted : ∀ admission, emitted ≠ some (.accepted admission)) :
    AdmitsByRoster state next emitted where
  clients := hclients
  accepted admission haccepted := absurd haccepted (hemitted admission)

theorem admitsByRoster_of_handleSpa (crypto : Crypto) (toml : Toml) (state : State)
    (srcIp : UInt32) (payload : Bytes) (nowMs : UInt64) (fault : Option SaveFault) :
    AdmitsByRoster state (handleSpa crypto toml state srcIp payload nowMs fault).1
      (handleSpa crypto toml state srcIp payload nowMs fault).2 := by
  rcases SpaVerifier.verify_cases crypto toml state.verifier state.files payload
    (Ipv4Addr.ofU32 srcIp) nowMs fault with
    ⟨error, heq⟩ | ⟨packet, client, hauth, _, ⟨error, _, heq⟩ | ⟨_, heq⟩⟩
  · unfold handleSpa
    rw [heq]
    exact .of_not_accepted rfl (by simp)
  · unfold handleSpa
    rw [heq]
    exact .of_not_accepted rfl (by simp)
  · unfold handleSpa
    rw [heq]
    obtain ⟨-, hclient, -, htier, -⟩ := SpaVerifier.authenticate_ok hauth
    refine ⟨rfl, fun admission haccepted ↦ ?_⟩
    cases haccepted
    exact ⟨client, hclient, htier, rfl, rfl⟩

theorem admitsByRoster_of_spaStep
    (h : spaStep crypto toml host state event = some (next, emitted)) :
    AdmitsByRoster state next emitted := by
  cases event with
  | ringNext nowMs fault =>
    simp only [spaStep] at h
    split at h
    case h_1 item rest _ _ =>
      split at h
      case h_1 =>
        cases h
        exact .of_not_accepted rfl (by simp)
      case h_2 received _ =>
        split_ifs at h
        · cases h
          exact .of_not_accepted rfl (by simp)
        · have hhandled := admitsByRoster_of_handleSpa crypto toml
            { state with maps := { state.maps with spaRing := rest } } received.srcIp
            (received.payload.toList.take received.payloadLen.toNat) nowMs fault
          rw [Option.some.inj h] at hhandled
          exact ⟨hhandled.clients, hhandled.accepted⟩
    case h_2 => cases h
  | httpsNext nowMs fault =>
    simp only [spaStep] at h
    split at h
    case h_1 candidate rest _ _ =>
      have hhandled := admitsByRoster_of_handleSpa crypto toml { state with httpsSpa := rest }
        candidate.srcIp candidate.payload nowMs fault
      rw [Option.some.inj h] at hhandled
      exact ⟨hhandled.clients, hhandled.accepted⟩
    case h_2 => cases h
  | _ => simp [spaStep] at h

/-- Only a reload changes the roster. -/
theorem admitsByRoster_of_step
    (h : step crypto toml host allowTtlSeconds state event = some (next, emitted))
    (hreload : ∀ clients removed, event ≠ .reload clients removed) :
    AdmitsByRoster state next emitted := by
  have hquiet (hstep : Quiet state event next emitted) : AdmitsByRoster state next emitted :=
    .of_not_accepted (congrArg SpaVerifier.clients (hstep.verifier hreload)) hstep.emitted
  have hconnection (hstep : connectionStep state event = some (next, emitted)) :
      AdmitsByRoster state next emitted := by
    obtain ⟨hverifier, hemitted⟩ := verifier_of_connectionStep hstep
    exact .of_not_accepted (congrArg SpaVerifier.clients hverifier) hemitted
  unfold step at h
  split_ifs at h
  split at h
  all_goals first
    | exact hquiet (quiet_of_environmentStep h)
    | exact admitsByRoster_of_spaStep h
    | exact hquiet (quiet_of_allowStep h)
    | exact hquiet (quiet_of_removalStep h)
    | exact hconnection h

/-- A reload of an idle task replaces the roster and goes on to the purges. -/
theorem step_reload {clients : List AuthorizedClient} {removed : List KeyId}
    (h : step crypto toml host allowTtlSeconds state (.reload clients removed) =
      some (next, emitted)) :
    state.task = .idle ∧ removed.Perm (state.verifier.reloadClients clients).2 ∧
      next = { state with
        verifier := { state.verifier with clients := SpaVerifier.rosterOf clients }
        task := .resume removed } := by
  unfold step at h
  split_ifs at h
  simp only [removalStep] at h
  split at h
  case h_1 htask =>
    split_ifs at h with hperm
    obtain ⟨rfl, -⟩ := Prod.mk.inj (Option.some.inj h)
    exact ⟨htask, hperm, rfl⟩
  case h_2 => cases h

end Roster

/-! ### What a reload should achieve -/

/-- Every unexpired entry with the key of a record of the roster belongs to a client that may
connect, and the mirror has the rights of this record. -/
structure Effective (state : State) : Prop where
  kernel : ∀ srcIp entry, state.maps.allowMap.lookup srcIp = some entry →
    state.now < entry.expiryNs → ∀ client, state.verifier.clients.lookup entry.keyId = some client →
    client.tier = .full
  mirror : ∀ srcIp source, state.mirror.lookup srcIp = some source →
    state.now < source.entry.expiryNs →
    ∀ client, state.verifier.clients.lookup source.entry.keyId = some client →
    client.tier = .full ∧ source.noisePublicKey = client.noisePublicKey ∧
      source.maxConcurrentSessions = client.maxConcurrentSessions

/-- The new record of a client has the rights of the old one. -/
structure SameRights (previous current : AuthorizedClient) : Prop where
  tier : current.tier = previous.tier
  noisePublicKey : current.noisePublicKey = previous.noisePublicKey
  maxConcurrentSessions : current.maxConcurrentSessions = previous.maxConcurrentSessions

/-- The reload changes no rights of a client that has an unexpired entry and stays enrolled. -/
def KeepsOpenAccess (state : State) (clients : List AuthorizedClient) : Prop :=
  ∀ srcIp source, state.mirror.lookup srcIp = some source → state.now < source.entry.expiryNs →
    ∀ previous current, state.verifier.clients.lookup source.entry.keyId = some previous →
      (SpaVerifier.rosterOf clients).lookup source.entry.keyId = some current →
      SameRights previous current

/-- The reloads of a run keep open access. -/
def KeepsRights (state : State) : Event → Prop
  | .reload clients _ => KeepsOpenAccess state clients
  | _ => True

instance (previous current : AuthorizedClient) : Decidable (SameRights previous current) :=
  decidable_of_iff (current.tier = previous.tier ∧
    current.noisePublicKey = previous.noisePublicKey ∧
      current.maxConcurrentSessions = previous.maxConcurrentSessions)
    ⟨fun ⟨htier, hnoise, hmax⟩ ↦ ⟨htier, hnoise, hmax⟩,
      fun ⟨htier, hnoise, hmax⟩ ↦ ⟨htier, hnoise, hmax⟩⟩

theorem keepsOpenAccess_iff_forall_mem {state : State} {clients : List AuthorizedClient} :
    KeepsOpenAccess state clients ↔
      ∀ mirrored ∈ state.mirror.entries, state.now < mirrored.2.entry.expiryNs →
        ∀ previous ∈ state.verifier.clients.lookup mirrored.2.entry.keyId,
          ∀ current ∈ (SpaVerifier.rosterOf clients).lookup mirrored.2.entry.keyId,
            SameRights previous current := by
  constructor
  · intro hkeeps ⟨srcIp, source⟩ hmem hlive previous hprevious current hcurrent
    exact hkeeps srcIp source (HashMap.mem_entries_iff.mp hmem) hlive previous current hprevious
      hcurrent
  · intro hkeeps srcIp source hlookup hlive previous current hprevious hcurrent
    exact hkeeps ⟨srcIp, source⟩ (HashMap.mem_entries_iff.mpr hlookup) hlive previous hprevious
      current hcurrent

instance (state : State) (clients : List AuthorizedClient) :
    Decidable (KeepsOpenAccess state clients) :=
  decidable_of_iff _ keepsOpenAccess_iff_forall_mem.symm

instance (state : State) (event : Event) : Decidable (KeepsRights state event) := by
  cases event with
  | reload clients _ => exact inferInstanceAs (Decidable (KeepsOpenAccess state clients))
  | _ => exact isTrue trivial

/-- The steps of the purges after a reload. -/
def IsPurgeStep : Event → Prop
  | .purgeSelect _ | .lockMirror | .removeNext | .finishRemoval => True
  | _ => False

instance (event : Event) : Decidable (IsPurgeStep event) := by
  cases event with
  | purgeSelect _ | lockMirror | removeNext | finishRemoval => exact isTrue trivial
  | _ => exact isFalse id

section Reloads

variable {crypto : Crypto} {toml : Toml} {host : Endian} {allowTtlSeconds now : UInt64}
  {config : Option BpfConfig} {verifier : SpaVerifier} {files : FileSystem}
  {state next reloaded after : State} {event : Event} {emitted : Option Output}
  {clients : List AuthorizedClient} {removed : List KeyId} {events : List Event}
  {outputs : List Output}

/-- Copies that are faithful once no purge is under way have the rights of the roster. -/
theorem Faithful.effective (hfaithful : Faithful state.verifier.clients state.gate)
    (hcoherent : Coherent state.gate) (htask : state.task = .idle) : Effective state := by
  have hgrants (srcIp : UInt32) (source : AllowedSource)
      (hlookup : state.mirror.lookup srcIp = some source)
      (hlive : state.now < source.entry.expiryNs) :
      Grants state.verifier.clients source.entry.keyId source.noisePublicKey
        source.maxConcurrentSessions := by
    have hmirrored := hfaithful.mirrored srcIp source hlookup hlive
    have hidle : state.gate.task = .idle := htask
    rw [hidle] at hmirrored
    exact hmirrored.resolve_right id
  constructor
  · intro srcIp entry hlookup hlive client hclient
    have hmirrors := hcoherent.mirrored srcIp entry ⟨hlookup, hlive⟩
    have hidle : state.gate.task.unmirrored = none := by
      change state.task.unmirrored = none
      rw [htask]
      rfl
    rw [hidle] at hmirrors
    obtain ⟨source, hmirror, rfl⟩ := hmirrors.resolve_right nofun
    obtain ⟨record, hrecord, htier, -⟩ := hgrants srcIp source hmirror hlive
    rwa [← Option.some.inj (hrecord.symm.trans hclient)]
  · intro srcIp source hlookup hlive client hclient
    obtain ⟨record, hrecord, hrights⟩ := hgrants srcIp source hlookup hlive
    rwa [← Option.some.inj (hrecord.symm.trans hclient)]

/-- A reload that keeps open access keeps the copies faithful to its roster. -/
theorem Faithful.reload (hfaithful : Faithful state.verifier.clients state.gate)
    (hkeeps : KeepsOpenAccess state clients)
    (h : step crypto toml host allowTtlSeconds state (.reload clients removed) =
      some (next, emitted)) : Faithful next.verifier.clients next.gate := by
  obtain ⟨htask, hperm, rfl⟩ := step_reload h
  refine ⟨fun srcIp source hlookup hlive ↦ ?_, fun admission hadmission ↦ ?_,
    fun admission entry hstamped ↦ ?_⟩
  · have hmirrored := hfaithful.mirrored srcIp source hlookup hlive
    have hidle : state.gate.task = .idle := htask
    rw [hidle] at hmirrored
    obtain ⟨previous, hprevious, htier, hnoise, hmax⟩ := hmirrored.resolve_right id
    change Grants (SpaVerifier.rosterOf clients) _ _ _ ∨ (Task.resume removed).Dooms _ _
    rw [Task.dooms_resume, hperm.mem_iff]
    cases hcurrent : (SpaVerifier.rosterOf clients).lookup source.entry.keyId with
    | some current =>
      have hsame := hkeeps srcIp source hlookup hlive previous current hprevious hcurrent
      exact .inl ⟨current, hcurrent, hsame.tier.trans htier, hnoise.trans hsame.noisePublicKey.symm,
        hmax.trans hsame.maxConcurrentSessions.symm⟩
    | none =>
      apply Or.inr
      have henrolled : source.entry.keyId ∈ state.verifier.clients := by
        rw [← AList.lookup_isSome, hprevious]
        rfl
      have hgone : source.entry.keyId ∉ SpaVerifier.rosterOf clients :=
        AList.lookup_eq_none.mp hcurrent
      rw [SpaVerifier.reloadClients, List.mem_filter]
      exact ⟨henrolled, decide_eq_true hgone⟩
  · have hnone : (Task.resume removed).admission = some admission := hadmission
    simp at hnone
  · have hresume : Task.resume removed = .stamped admission entry ∨
        Task.resume removed = .kernelWritten admission entry := hstamped
    cases removed with
    | nil => simp [Task.resume] at hresume
    | cons first rest => simp [Task.resume] at hresume

theorem Faithful.step (hfaithful : Faithful state.verifier.clients state.gate)
    (hkeeps : KeepsRights state event)
    (h : step crypto toml host allowTtlSeconds state event = some (next, emitted)) :
    Faithful next.verifier.clients next.gate := by
  by_cases hreload : ∃ clients removed, event = .reload clients removed
  · obtain ⟨clients, removed, rfl⟩ := hreload
    exact hfaithful.reload hkeeps h
  · push Not at hreload
    have hadmits := admitsByRoster_of_step h hreload
    rw [hadmits.clients]
    exact hfaithful.effect (effect_of_step h) hreload hadmits.accepted

theorem faithful_start (now : UInt64) (config : Option BpfConfig) (verifier : SpaVerifier)
    (files : FileSystem) :
    Faithful verifier.clients (start now config verifier files).gate where
  mirrored srcIp source h := by cases h
  admitted admission h := by cases h
  stamped admission entry h := by simp [start, State.gate] at h

theorem faithful_of_run
    (hrun : Run (Daemon.step crypto toml host allowTtlSeconds) KeepsRights
      (start now config verifier files) events outputs state) :
    Faithful state.verifier.clients state.gate :=
  Run.invariant (fun _ state ↦ Faithful state.verifier.clients state.gate)
    (faithful_start now config verifier files)
    (fun _ _ _ _ _ hfaithful hkeeps hstep ↦ hfaithful.step hkeeps hstep) hrun

theorem IsPurgeStep.keepsRights (h : IsPurgeStep event) (state : State) :
    KeepsRights state event := by
  cases event with
  | reload clients removed => exact h.elim
  | _ => trivial

/-! ### What the purges leave -/

/-- The purges that are still to come do not remove the mirror entry of the address. -/
structure Spared (now : UInt64) (srcIp : UInt32) (source : AllowedSource) (gate : Gate) : Prop where
  now : gate.now = now
  mirror : gate.mirror.lookup srcIp = some source
  task : gate.task = .exited ∨ ¬gate.task.Dooms srcIp source.entry.keyId

theorem Spared.setTask {gate : Gate} {srcIp : UInt32} {source : AllowedSource}
    (hspared : Spared now srcIp source gate) {task : Task}
    (htask : task = .exited ∨ ¬task.Dooms srcIp source.entry.keyId) :
    Spared now srcIp source { gate with task := task } :=
  ⟨hspared.now, hspared.mirror, htask⟩

/-- A selection of another key or of expired sources does not find the entry. -/
theorem Selects.not_dooms {gate : Gate} {removal : Removal} {rest : List KeyId}
    {selection sources : List UInt32} (h : Selects gate event removal rest selection sources)
    (hpurge : IsPurgeStep event) {srcIp : UInt32} {source : AllowedSource}
    (hspared : Spared now srcIp source gate) :
    srcIp ∉ selection ∧ source.entry.keyId ∉ rest := by
  cases h with
  | @purge keyId rest sources htask =>
    have hsafe := hspared.task.resolve_left (by rw [htask]; nofun)
    rw [htask] at hsafe
    refine ⟨fun hmem ↦ ?_, fun hmem ↦ hsafe (List.mem_cons_of_mem _ hmem)⟩
    obtain ⟨found, hlookup, hkey⟩ := HashMap.mem_keysWhere.mp hmem
    obtain rfl : source = found := Option.some.inj (hspared.mirror.symm.trans hlookup)
    have hkey' : source.entry.keyId = keyId := by simpa using hkey
    exact hsafe (hkey' ▸ List.mem_cons_self)
  | reap _ => exact hpurge.elim

theorem Spared.effect {gate gate' : Gate} {srcIp : UInt32} {source : AllowedSource}
    (hspared : Spared now srcIp source gate) (hpurge : IsPurgeStep event)
    (h : Effect allowTtlSeconds gate event gate' emitted) : Spared now srcIp source gate' := by
  cases h with
  | quiet => exact hspared
  | accepted _ _ => exact hspared.setTask (.inr id)
  | selectNone hselects _ =>
    apply hspared.setTask (.inr _)
    rw [Task.dooms_resume]
    exact (hselects.not_dooms hpurge hspared).2
  | select hselects hperm =>
    obtain ⟨hselection, hrest⟩ := hselects.not_dooms hpurge hspared
    apply hspared.setTask (.inr _)
    rintro (hmem | hmem)
    · exact hselection (hperm.mem_iff.mp hmem)
    · exact hrest hmem
  | lockMirror htask =>
    apply hspared.setTask (.inr _)
    have hsafe := hspared.task.resolve_left (by rw [htask]; nofun)
    rwa [htask] at hsafe
  | @removeNext removal rest sources remaining removedIp htask _ =>
    have hsafe := hspared.task.resolve_left (by rw [htask]; nofun)
    rw [htask] at hsafe
    have hother : srcIp ≠ removedIp := by
      rintro rfl
      exact hsafe (.inl List.mem_cons_self)
    refine ⟨hspared.now, (AList.lookup_erase_ne hother).trans hspared.mirror, .inr ?_⟩
    rintro (hmem | hmem)
    · exact hsafe (.inl (List.mem_cons_of_mem _ hmem))
    · exact hsafe (.inr hmem)
  | removeFailed _ _ => exact hspared.setTask (.inl rfl)
  | finishRemoval htask =>
    apply hspared.setTask (.inr _)
    have hsafe := hspared.task.resolve_left (by rw [htask]; nofun)
    rw [htask] at hsafe
    rw [Task.dooms_resume]
    exact fun hmem ↦ hsafe (.inr hmem)
  | progress _ _ _ => exact ⟨hspared.now, hspared.mirror, hspared.task⟩
  | dropped => exact ⟨hspared.now, hspared.mirror, hspared.task⟩
  | _ => exact hpurge.elim

/-- After the purges of a reload the copies have the rights of the new roster only if the reload
has kept open access. -/
theorem keepsOpenAccess_of_effective (hfaithful : Faithful state.verifier.clients state.gate)
    (hreload : Daemon.step crypto toml host allowTtlSeconds state (.reload clients removed) =
      some (reloaded, emitted))
    (hpurges : Run (Daemon.step crypto toml host allowTtlSeconds) (fun _ ↦ IsPurgeStep) reloaded
      events outputs after)
    (heffective : Effective after) : KeepsOpenAccess state clients := by
  intro srcIp source hlookup hlive previous current hprevious hcurrent
  obtain ⟨htask, hperm, hnext⟩ := step_reload hreload
  have hstart : Spared state.now srcIp source reloaded.gate := by
    subst hnext
    refine ⟨rfl, hlookup, .inr ?_⟩
    change ¬(Task.resume removed).Dooms srcIp source.entry.keyId
    rw [Task.dooms_resume, hperm.mem_iff, SpaVerifier.reloadClients, List.mem_filter]
    rintro ⟨-, hgone⟩
    have hnone := AList.lookup_eq_none.mpr (of_decide_eq_true hgone)
    rw [hcurrent] at hnone
    cases hnone
  have hafter : Spared state.now srcIp source after.gate ∧
      after.verifier.clients = SpaVerifier.rosterOf clients := by
    apply Run.invariant (fun _ state' ↦ Spared state.now srcIp source state'.gate ∧
      state'.verifier.clients = SpaVerifier.rosterOf clients) _ _ hpurges
    · exact ⟨hstart, by rw [hnext]⟩
    · rintro _ before event next emitted ⟨hspared, hroster⟩ hpurge hstep
      have hnotReload : ∀ clients removed, event ≠ .reload clients removed := by
        rintro clients removed rfl
        exact hpurge
      exact ⟨hspared.effect hpurge (effect_of_step hstep),
        (admitsByRoster_of_step hstep hnotReload).clients.trans hroster⟩
  obtain ⟨hspared, hroster⟩ := hafter
  have hlive' : after.now < source.entry.expiryNs := by
    have hnow : after.now = state.now := hspared.now
    rwa [hnow]
  obtain ⟨htier, hnoise, hmax⟩ := heffective.mirror srcIp source hspared.mirror hlive' current
    (hroster ▸ hcurrent)
  have hgrants := hfaithful.mirrored srcIp source hlookup hlive
  have hidle : state.gate.task = .idle := htask
  rw [hidle] at hgrants
  obtain ⟨record, hrecord, htier', hnoise', hmax'⟩ := hgrants.resolve_right id
  obtain rfl : record = previous := Option.some.inj (hrecord.symm.trans hprevious)
  exact ⟨htier.trans htier'.symm, hnoise.symm.trans hnoise', hmax.symm.trans hmax'⟩

end Reloads

/-- In every run whose reloads keep open access, the entries have the rights of the current roster
whenever the task is idle; and a reload at the end of such a run reaches this with its purges
exactly if it keeps open access, too. -/
theorem reload_effective (crypto : Crypto) (toml : Toml) (host : Endian)
    (allowTtlSeconds now : UInt64) (config : Option BpfConfig) (verifier : SpaVerifier)
    (files : FileSystem) (events : List Event) (outputs : List Output) (state : State)
    (hrun : Run (step crypto toml host allowTtlSeconds) KeepsRights
      (start now config verifier files) events outputs state) :
    (state.task = .idle → Effective state) ∧
    ∀ clients removed reloaded emitted,
      step crypto toml host allowTtlSeconds state (.reload clients removed) =
        some (reloaded, emitted) →
      ∀ purges purged after, Run (step crypto toml host allowTtlSeconds) (fun _ ↦ IsPurgeStep)
        reloaded purges purged after → after.task = .idle →
        (Effective after ↔ KeepsOpenAccess state clients) := by
  have hfaithful := faithful_of_run hrun
  have hcoherent : Coherent state.gate :=
    Run.invariant (fun _ state ↦ Coherent state.gate) (coherent_start now config verifier files)
      (fun _ _ _ _ _ hcoherent _ hstep ↦ hcoherent.effect (effect_of_step hstep)) hrun
  refine ⟨hfaithful.effective hcoherent, ?_⟩
  intro clients removed reloaded emitted hreload purges purged after hpurges hidle
  constructor
  · exact keepsOpenAccess_of_effective hfaithful hreload hpurges
  · intro hkeeps
    have hafter : Faithful after.verifier.clients after.gate ∧ Coherent after.gate := by
      apply Run.invariant (fun _ state ↦ Faithful state.verifier.clients state.gate ∧
        Coherent state.gate) _ _ hpurges
      · exact ⟨hfaithful.reload hkeeps hreload, hcoherent.effect (effect_of_step hreload)⟩
      · intro _ before event next emitted hbefore hpurge hstep
        exact ⟨hbefore.1.step (hpurge.keepsRights before) hstep,
          hbefore.2.effect (effect_of_step hstep)⟩
    exact hafter.1.effective hafter.2 hidle

namespace Sample

open Ghostbro.Sample

/-- The record of the sample client in the tier without access. -/
def decoyed : AuthorizedClient := { client "alice" 1 alice with tier := .decoy }

/-- The client has been moved to that tier after it was admitted. -/
def demoted : State :=
  { admitted with
    verifier := { admitted.verifier with clients := SpaVerifier.rosterOf [decoyed] } }

theorem step_demoted : sampleStep admitted (.reload [decoyed] []) =
    some (demoted, some (.reloaded admitted.verifier.clients [decoyed] [])) := by
  decide +kernel

/-- The record with another name and number and the same rights. -/
def renamed : AuthorizedClient := client "alice's laptop" 3 alice

/-- 203.0.113.8. -/
def bobIp : UInt32 := 0xcb007108

def bobKeyId : KeyId := Vector.replicate 8 6

def twoVerifier : SpaVerifier :=
  SpaVerifier.fromCounters Crypto.transparent [client "alice" 1 alice, client "bob" 2 bob] 30 ∅
    (some defaultPath) serverPrivate

def twoStarted : State := start 1000 none twoVerifier ∅

def twoAdmittedEvents : List Event :=
  [.httpsReceive ⟨srcIp, payload alice 5⟩, .httpsReceive ⟨bobIp, payload bob 5⟩,
    .httpsNext 0 none, .stamp, .kernelInsert true, .mirrorInsert,
    .httpsNext 0 none, .stamp, .kernelInsert true, .mirrorInsert]

/-- The purge of one key with one entry. -/
def purgeEvents : List Event := [.purgeSelect [bobIp], .lockMirror, .removeNext, .finishRemoval]

end Sample

/-- Two clients are admitted; a reload renames one and removes the other, whose entry is purged.
The rights are then those of the new roster, and a second reload that moves the client to the tier
without access does not reach that. -/
theorem reload_effective_sample :
    ∃ outputs state, Run Sample.sampleStep KeepsRights Sample.twoStarted
      (Sample.twoAdmittedEvents ++ .reload [Sample.renamed] [Sample.bobKeyId] ::
        Sample.purgeEvents) outputs state ∧
      state.mirror.keys = [Sample.srcIp] ∧ Effective state ∧
      ∃ reloaded emitted, Sample.sampleStep state (.reload [Sample.decoyed] []) =
        some (reloaded, emitted) ∧ reloaded.task = .idle ∧ ¬Effective reloaded := by
  have hexec : (exec Sample.sampleStep KeepsRights Sample.twoStarted
      (Sample.twoAdmittedEvents ++ .reload [Sample.renamed] [Sample.bobKeyId] ::
        Sample.purgeEvents)).any fun last ↦
          decide (last.1.task = .idle ∧ last.1.mirror.keys = [Sample.srcIp] ∧
            ¬KeepsOpenAccess last.1 [Sample.decoyed]) &&
          (Sample.sampleStep last.1 (.reload [Sample.decoyed] [])).any
            fun reloaded ↦ decide (reloaded.1.task = .idle) := by decide +kernel
  obtain ⟨outputs, state, hrun, hlast⟩ := exists_run_of_exec hexec
  obtain ⟨hstate, hany⟩ := Bool.and_eq_true_iff.mp hlast
  obtain ⟨hidle, hkeys, hstale⟩ := of_decide_eq_true hstate
  obtain ⟨⟨reloaded, emitted⟩, hreload, hreloaded⟩ := (Option.any_eq_true _ _).mp hany
  have hidle' : reloaded.task = .idle := of_decide_eq_true hreloaded
  have heffective := reload_effective Crypto.transparent Toml.plain .little 14400 1000 none
    Sample.twoVerifier ∅ _ outputs state hrun
  have hiff := heffective.2 _ _ _ _ hreload [] [] reloaded .nil hidle'
  exact ⟨outputs, state, hrun, hkeys, heffective.1 hidle, reloaded, emitted, hreload, hidle',
    fun hafter ↦ hstale (hiff.mp hafter)⟩

/-- A client that a reload moves to the tier without access keeps its entries in both lists. -/
theorem reload_keeps_stale_rights :
    ¬∀ events outputs state,
      Run Sample.sampleStep unrestricted Sample.started events outputs state →
      ∀ clients removed reloaded emitted,
        Sample.sampleStep state (.reload clients removed) = some (reloaded, emitted) →
        ∀ purges purged after,
          Run Sample.sampleStep (fun _ ↦ IsPurgeStep) reloaded purges purged after →
          after.task = .idle → Effective after := by
  intro hclaim
  have hrun := Sample.run_admitted unrestricted trivial trivial trivial trivial trivial
  have heffective := hclaim _ _ _ hrun _ _ _ _ Sample.step_demoted [] [] _ .nil rfl
  have hlookup : Sample.demoted.maps.allowMap.lookup Sample.srcIp = some Sample.entry := by
    decide +kernel
  have hclient : Sample.demoted.verifier.clients.lookup Sample.entry.keyId =
      some Sample.decoyed := by decide +kernel
  have hlive : Sample.demoted.now < Sample.entry.expiryNs := by decide
  have htier := heffective.kernel _ _ hlookup hlive _ hclient
  cases htier

end Ghostbro.Daemon
