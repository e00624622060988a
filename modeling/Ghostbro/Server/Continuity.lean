import Ghostbro.Server.Acceptance
import Ghostbro.Server.Lookups
import Ghostbro.Server.Handoff

/-!
# Access until the deadline

`allow_source` stamps an accepted client with a deadline.  From the moment both entries are written
until that deadline the client stays admitted: reaps, lazy deletions and lookups only take what has
expired, and purges only what was revoked.  Four things end the access early: the kernel evicts
the entry, the key leaves the roster, a packet of another client, or of the same client under
another Noise key, is accepted from the same address, and `is_allowed` removes the new entry after
it has read the old one.  The last cannot happen once no such lookup is in flight.
-/

namespace Ghostbro.Daemon

open Machine

/-- The deadline that `allow_source` sets when it reads the given time. -/
def deadline (allowTtlSeconds nowNs : UInt64) : UInt64 :=
  saturatingAdd nowNs (saturatingMul allowTtlSeconds 1000000000)

theorem deadline_mono (allowTtlSeconds : UInt64) {nowNs nowNs' : UInt64} (h : nowNs ≤ nowNs') :
    deadline allowTtlSeconds nowNs ≤ deadline allowTtlSeconds nowNs' := by
  rw [UInt64.le_iff_toNat_le] at h ⊢
  rw [deadline, deadline, toNat_saturatingAdd, toNat_saturatingAdd]
  omega

/-- The admission is for the same client under the same Noise key. -/
def Admission.SameClient (admission other : Admission) : Prop :=
  other.accept.keyId = admission.accept.keyId ∧
    other.accept.noisePublicKey = admission.accept.noisePublicKey

/-- An entry of the client that lasts until the deadline. -/
structure Lasts (admission : Admission) (limit : UInt64) (entry : AllowEntry) : Prop where
  keyId : entry.keyId = admission.accept.keyId
  expiry : limit ≤ entry.expiryNs

/-- The output reports what ends the access of the client early. -/
def Displaces (admission : Admission) : Output → Prop
  | .accepted other => other.srcIp = admission.srcIp ∧ ¬admission.SameClient other
  | .reloaded _ _ removed => admission.accept.keyId ∈ removed
  | _ => False

variable {crypto : Crypto} {toml : Toml} {host : Endian} {allowTtlSeconds limit : UInt64}
  {admission : Admission} {gate next : Gate} {event : Event} {emitted : Option Output}

/-! ### What the task is about to do -/

/-- Nothing that the task is about to do ends the access. -/
inductive Spares (admission : Admission) (limit : UInt64) : Task → Prop
  | idle : Spares admission limit .idle
  | exited : Spares admission limit .exited
  | accepted {other : Admission} :
      (other.srcIp = admission.srcIp → admission.SameClient other) →
      Spares admission limit (.accepted other)
  | stamped {other : Admission} {entry : AllowEntry} :
      (other.srcIp = admission.srcIp →
        admission.SameClient other ∧ Lasts admission limit entry) →
      Spares admission limit (.stamped other entry)
  | kernelWritten {other : Admission} {entry : AllowEntry} :
      (other.srcIp = admission.srcIp →
        admission.SameClient other ∧ Lasts admission limit entry) →
      Spares admission limit (.kernelWritten other entry)
  | purging {keyIds : List KeyId} : admission.accept.keyId ∉ keyIds →
      Spares admission limit (.purging keyIds)
  | reaping {nowNs : UInt64} : nowNs < limit → Spares admission limit (.reaping nowNs)
  | selected {removal : Removal} {rest : List KeyId} {sources : List UInt32} :
      admission.accept.keyId ∉ rest → admission.srcIp ∉ sources →
      Spares admission limit (.selected removal rest sources)
  | removing {removal : Removal} {rest : List KeyId} {sources remaining : List UInt32} :
      admission.accept.keyId ∉ rest → admission.srcIp ∉ remaining →
      Spares admission limit (.removing removal rest sources remaining)

theorem spares_resume {keyIds : List KeyId} (h : admission.accept.keyId ∉ keyIds) :
    Spares admission limit (.resume keyIds) := by
  cases keyIds with
  | nil => exact .idle
  | cons keyId rest => exact .purging h

/-- The kernel map has an entry that lasts. -/
def Gate.Passes (gate : Gate) (admission : Admission) (limit : UInt64) : Prop :=
  ∃ entry, gate.allowMap.lookup admission.srcIp = some entry ∧ Lasts admission limit entry

/-- The mirror has an entry that lasts, with the Noise key of the client. -/
def Gate.Connects (gate : Gate) (admission : Admission) (limit : UInt64) : Prop :=
  ∃ source, gate.mirror.lookup admission.srcIp = some source ∧
    Lasts admission limit source.entry ∧
    source.noisePublicKey = admission.accept.noisePublicKey

/-- The client is admitted, and stays so. -/
structure Admitted (admission : Admission) (limit : UInt64) (gate : Gate) : Prop where
  passes : gate.Passes admission limit
  connects : gate.Connects admission limit
  spares : Spares admission limit gate.task

/-! ### One transition -/

theorem Gate.Passes.insert (h : gate.Passes admission limit) {srcIp : UInt32}
    {entry : AllowEntry} (hentry : srcIp = admission.srcIp → Lasts admission limit entry)
    (hmap : next.allowMap = gate.allowMap.insert srcIp entry) : next.Passes admission limit := by
  obtain ⟨found, hlookup, hlasts⟩ := h
  by_cases heq : srcIp = admission.srcIp
  · exact ⟨entry, by rw [hmap, HashMap.lookup_insert_ite, if_pos heq.symm], hentry heq⟩
  · refine ⟨found, ?_, hlasts⟩
    rw [hmap, HashMap.lookup_insert_ite, if_neg (Ne.symm heq), hlookup]

theorem Gate.Passes.erase (h : gate.Passes admission limit) {srcIp : UInt32}
    (hne : srcIp ≠ admission.srcIp) (hmap : next.allowMap = gate.allowMap.erase srcIp) :
    next.Passes admission limit := by
  obtain ⟨found, hlookup, hlasts⟩ := h
  refine ⟨found, ?_, hlasts⟩
  rw [hmap, HashMap.lookup_erase_ite, if_neg hne.symm, hlookup]

theorem Gate.Passes.congr (h : gate.Passes admission limit)
    (hmap : next.allowMap = gate.allowMap) : next.Passes admission limit := by
  rw [Passes, hmap]
  exact h

theorem Gate.Connects.insert (h : gate.Connects admission limit) {srcIp : UInt32}
    {source : AllowedSource}
    (hsource : srcIp = admission.srcIp → Lasts admission limit source.entry ∧
      source.noisePublicKey = admission.accept.noisePublicKey)
    (hmap : next.mirror = gate.mirror.insert srcIp source) :
    next.Connects admission limit := by
  obtain ⟨found, hlookup, hlasts⟩ := h
  by_cases heq : srcIp = admission.srcIp
  · exact ⟨source, by rw [hmap, HashMap.lookup_insert_ite, if_pos heq.symm], hsource heq⟩
  · refine ⟨found, ?_, hlasts⟩
    rw [hmap, HashMap.lookup_insert_ite, if_neg (Ne.symm heq), hlookup]

theorem Gate.Connects.erase (h : gate.Connects admission limit) {srcIp : UInt32}
    (hne : srcIp ≠ admission.srcIp) (hmap : next.mirror = gate.mirror.erase srcIp) :
    next.Connects admission limit := by
  obtain ⟨found, hlookup, hlasts⟩ := h
  refine ⟨found, ?_, hlasts⟩
  rw [hmap, HashMap.lookup_erase_ite, if_neg hne.symm, hlookup]

theorem Gate.Connects.congr (h : gate.Connects admission limit)
    (hmap : next.mirror = gate.mirror) : next.Connects admission limit := by
  rw [Connects, hmap]
  exact h

/-- Before the deadline nothing of the client has expired. -/
theorem Gate.Passes.ne_of_expired (h : gate.Passes admission limit) (hbefore : gate.now < limit)
    {srcIp : UInt32} {entry : AllowEntry} (hlookup : gate.allowMap.lookup srcIp = some entry)
    (hexpired : entry.expiryNs ≤ gate.now) : srcIp ≠ admission.srcIp := by
  rintro rfl
  obtain ⟨found, hfound, hlasts⟩ := h
  rw [hlookup] at hfound
  obtain rfl := Option.some.inj hfound
  exact UInt64.not_lt.mpr (UInt64.le_trans hlasts.expiry hexpired) hbefore

theorem Gate.Connects.ne_of_expired (h : gate.Connects admission limit)
    (hbefore : gate.now < limit) {srcIp : UInt32} {source : AllowedSource}
    (hlookup : gate.mirror.lookup srcIp = some source)
    (hexpired : source.entry.expiryNs ≤ gate.now) : srcIp ≠ admission.srcIp := by
  rintro rfl
  obtain ⟨found, hfound, hlasts, -⟩ := h
  rw [hlookup] at hfound
  obtain rfl := Option.some.inj hfound
  exact UInt64.not_lt.mpr (UInt64.le_trans hlasts.expiry hexpired) hbefore

/-- A purge of another key and a reap that read its clock before the deadline do not select the
client. -/
theorem Gate.Connects.not_mem_selection (h : gate.Connects admission limit)
    (hspares : Spares admission limit gate.task) {removal : Removal} {rest : List KeyId}
    {selection sources : List UInt32}
    (hselects : Selects gate event removal rest selection sources) :
    admission.srcIp ∉ selection ∧ admission.accept.keyId ∉ rest := by
  obtain ⟨found, hfound, hlasts, -⟩ := h
  cases hselects with
  | purge htask =>
    rw [htask] at hspares
    cases hspares with
    | purging hkeys =>
      rw [List.mem_cons, not_or] at hkeys
      refine ⟨fun hmem ↦ ?_, hkeys.2⟩
      obtain ⟨source, hlookup, hkey⟩ := HashMap.mem_keysWhere.mp hmem
      rw [hfound] at hlookup
      obtain rfl := Option.some.inj hlookup
      rw [decide_eq_true_eq, hlasts.keyId] at hkey
      exact hkeys.1 hkey
  | reap htask =>
    rw [htask] at hspares
    cases hspares with
    | reaping hclock =>
      refine ⟨fun hmem ↦ ?_, List.not_mem_nil⟩
      obtain ⟨source, hlookup, hexpired⟩ := HashMap.mem_keysWhere.mp hmem
      rw [hfound] at hlookup
      obtain rfl := Option.some.inj hlookup
      rw [decide_eq_true_eq] at hexpired
      exact UInt64.not_lt.mpr (UInt64.le_trans hlasts.expiry hexpired) hclock

theorem now_le_of_effect (h : Effect allowTtlSeconds gate event next emitted) :
    gate.now ≤ next.now := by
  cases h with
  | tick hnow => exact hnow
  | _ => exact UInt64.le_refl _

/-- The task goes on sparing the client. -/
theorem Admitted.spares_effect (h : Admitted admission limit gate) (hbefore : gate.now < limit)
    (hlimit : limit ≤ deadline allowTtlSeconds gate.now)
    (heffect : Effect allowTtlSeconds gate event next emitted)
    (hkept : ∀ output ∈ emitted, ¬Displaces admission output) :
    Spares admission limit next.task := by
  have hspares := h.spares
  cases heffect with
  | quiet | tick _ | lazyDelete _ _ | evict | lookupExpired _ _ | connect _ _ | progress _ _ _
  | granted _ _ | dropped => exact hspares
  | @accepted _ other _ _ =>
    apply Spares.accepted
    intro hsource
    by_contra hother
    exact hkept _ rfl ⟨hsource, hother⟩
  | stamp htask =>
    rw [htask] at hspares
    cases hspares with
    | accepted hsame =>
      apply Spares.stamped
      intro hsource
      exact ⟨hsame hsource, (hsame hsource).1, hlimit⟩
  | kernelInsert htask =>
    rw [htask] at hspares
    cases hspares with
    | stamped hlasts => exact .kernelWritten hlasts
  | insertFailed _ | removeFailed _ _ => exact .exited
  | mirrorInsert _ => exact .idle
  | reload _ _ => exact spares_resume (hkept _ rfl)
  | reapClock _ => exact .reaping hbefore
  | selectNone hselects _ => exact spares_resume (h.connects.not_mem_selection hspares hselects).2
  | select hselects hperm =>
    obtain ⟨hselection, hrest⟩ := h.connects.not_mem_selection hspares hselects
    exact .selected hrest (mt hperm.mem_iff.mp hselection)
  | lockMirror htask =>
    rw [htask] at hspares
    cases hspares with
    | selected hrest hsources => exact .removing hrest hsources
  | removeNext htask _ =>
    rw [htask] at hspares
    cases hspares with
    | removing hrest hsources => exact .removing hrest (mt (List.mem_cons_of_mem _) hsources)
  | finishRemoval htask =>
    rw [htask] at hspares
    cases hspares with
    | removing hrest _ => exact spares_resume hrest

theorem Admitted.passes_effect (h : Admitted admission limit gate) (hbefore : gate.now < limit)
    (heffect : Effect allowTtlSeconds gate event next emitted)
    (hevict : event ≠ .evict admission.srcIp) : next.Passes admission limit := by
  have hspares := h.spares
  cases heffect with
  | lazyDelete hlookup hexpired =>
    exact h.passes.erase (h.passes.ne_of_expired hbefore hlookup hexpired) rfl
  | evict => exact h.passes.erase (fun heq ↦ hevict (heq ▸ rfl)) rfl
  | kernelInsert htask =>
    rw [htask] at hspares
    cases hspares with
    | stamped hlasts => exact h.passes.insert (fun hsource ↦ (hlasts hsource).2) rfl
  | removeNext htask _ =>
    rw [htask] at hspares
    cases hspares with
    | removing _ hsources =>
      rw [List.mem_cons, not_or] at hsources
      exact h.passes.erase (Ne.symm hsources.1) rfl
  | _ => exact h.passes

theorem Admitted.connects_effect (h : Admitted admission limit gate) (hbefore : gate.now < limit)
    (heffect : Effect allowTtlSeconds gate event next emitted) :
    next.Connects admission limit := by
  have hspares := h.spares
  cases heffect with
  | mirrorInsert htask =>
    rw [htask] at hspares
    cases hspares with
    | kernelWritten hlasts =>
      exact h.connects.insert (fun hsource ↦ ⟨(hlasts hsource).2, (hlasts hsource).1.2⟩) rfl
  | removeNext htask _ =>
    rw [htask] at hspares
    cases hspares with
    | removing _ hsources =>
      rw [List.mem_cons, not_or] at hsources
      exact h.connects.erase (Ne.symm hsources.1) rfl
  | lookupExpired hlookup hexpired =>
    exact h.connects.erase (h.connects.ne_of_expired hbefore hlookup hexpired) rfl
  | _ => exact h.connects

/-- One step keeps the access until the deadline. -/
theorem Admitted.effect (h : Admitted admission limit gate) (hbefore : gate.now < limit)
    (hlimit : limit ≤ deadline allowTtlSeconds gate.now)
    (heffect : Effect allowTtlSeconds gate event next emitted)
    (hevict : event ≠ .evict admission.srcIp)
    (hkept : ∀ output ∈ emitted, ¬Displaces admission output) : Admitted admission limit next where
  passes := h.passes_effect hbefore heffect hevict
  connects := h.connects_effect hbefore heffect
  spares := h.spares_effect hbefore hlimit heffect hkept

/-! ### Whole runs -/

variable {events : List Event} {outputs : List Output} {state last : State}

theorem now_le_of_run {guard : State → Event → Prop}
    (hrun : Run (step crypto toml host allowTtlSeconds) guard state events outputs last) :
    state.now ≤ last.now := by
  refine hrun.invariant (fun _ last ↦ state.now ≤ last.now) (UInt64.le_refl _) ?_
  intro _ before event after emitted hle _ hstep
  exact UInt64.le_trans hle (now_le_of_effect (effect_of_step hstep))

/-- The lookups of the address that are in flight have read entries that last until the limit. -/
def NoStaleLookup (srcIp : UInt32) (limit : UInt64) (state : LookupState) : Prop :=
  ∀ entry, (srcIp, entry) ∈ state.lookups → limit ≤ entry.expiryNs

/-- One step of the server and the XDP programs keeps the access until the deadline. -/
theorem Admitted.lookupStep {looking after : LookupState} {lookup : LookupEvent}
    (h : Admitted admission limit looking.daemon.gate) (hbefore : looking.daemon.now < limit)
    (hlimit : limit ≤ deadline allowTtlSeconds looking.daemon.now)
    (hstale : NoStaleLookup admission.srcIp limit looking)
    (hevict : lookup ≠ .daemon (.evict admission.srcIp))
    (hstep : lookupStep crypto toml host allowTtlSeconds looking lookup = some (after, emitted))
    (hkept : ∀ output ∈ emitted, ¬Displaces admission output) :
    Admitted admission limit after.daemon.gate ∧ NoStaleLookup admission.srcIp limit after := by
  cases lookupStepped_of_lookupStep hstep with
  | daemon hdaemon =>
    refine ⟨h.effect hbefore hlimit (effect_of_step hdaemon) ?_ hkept, hstale⟩
    rintro rfl
    exact hevict rfl
  | @get srcIp entry hlookup =>
    refine ⟨h, fun entry' hmem ↦ ?_⟩
    rcases List.mem_cons.mp hmem with hnew | hold
    · -- what the lookup reads now is the entry in force
      obtain ⟨rfl, rfl⟩ := Prod.mk.inj hnew
      obtain ⟨found, hfound, hlasts⟩ := h.passes
      obtain rfl := Option.some.inj (hfound.symm.trans hlookup)
      exact hlasts.expiry
    · exact hstale entry' hold
  | @remove srcIp entry _ hlookup hexpired hdaemon =>
    refine ⟨h.effect hbefore hlimit (effect_of_step hdaemon) ?_ hkept,
      fun entry' hmem ↦ hstale entry' (List.mem_of_mem_erase hmem)⟩
    intro heq
    obtain rfl := Event.evict.inj heq
    have hlasts := UInt64.le_trans (hstale entry hlookup) hexpired
    exact UInt64.not_lt.mpr hlasts hbefore
  | allow _ _ => exact ⟨h, fun entry' hmem ↦ hstale entry' (List.mem_of_mem_erase hmem)⟩

/-- An admitted client stays admitted until its deadline. -/
theorem admitted_of_run {looking final : LookupState} {steps : List LookupEvent}
    (hadmitted : Admitted admission limit looking.daemon.gate)
    (hlimit : limit ≤ deadline allowTtlSeconds looking.daemon.now)
    (hstale : NoStaleLookup admission.srcIp limit looking)
    (hrun : Run (Daemon.lookupStep crypto toml host allowTtlSeconds)
      (fun _ event ↦ event ≠ .daemon (.evict admission.srcIp)) looking steps outputs final)
    (hkept : ∀ output ∈ outputs, ¬Displaces admission output) (hbefore : final.daemon.now < limit) :
    Admitted admission limit final.daemon.gate ∧ NoStaleLookup admission.srcIp limit final := by
  induction hrun with
  | nil => exact ⟨hadmitted, hstale⟩
  | @snoc steps outputs before after lookup emitted hrun hevict hstep ih =>
    have hone : Run (Daemon.lookupStep crypto toml host allowTtlSeconds) unrestricted before
        [lookup] emitted.toList after := Run.nil.snoc trivial hstep
    have hlater := UInt64.lt_of_le_of_lt (now_le_of_run (run_daemon hone)) hbefore
    have hstart := now_le_of_run (run_daemon hrun)
    obtain ⟨hmiddle, hfresh⟩ :=
      ih (fun output hmem ↦ hkept output (List.mem_append_left _ hmem)) hlater
    refine hmiddle.lookupStep hlater
      (UInt64.le_trans hlimit (deadline_mono allowTtlSeconds hstart)) hfresh hevict hstep ?_
    intro output hmem
    exact hkept output (List.mem_append_right _ (Option.mem_toList.mpr hmem))

/-- An entry on its way into the maps carries the key of its client and a deadline that was set in
the past. -/
def StampedInTime (allowTtlSeconds : UInt64) (gate : Gate) : Prop :=
  ∀ admission entry, gate.task = .stamped admission entry ∨
    gate.task = .kernelWritten admission entry →
      entry.keyId = admission.accept.keyId ∧ entry.expiryNs ≤ deadline allowTtlSeconds gate.now

theorem StampedInTime.effect (h : StampedInTime allowTtlSeconds gate)
    (heffect : Effect allowTtlSeconds gate event next emitted) :
    StampedInTime allowTtlSeconds next := by
  intro admission entry htask
  have hkeep (hsame : next.task = gate.task) :
      entry.keyId = admission.accept.keyId ∧
        entry.expiryNs ≤ deadline allowTtlSeconds next.now := by
    rw [hsame] at htask
    obtain ⟨hkey, hexpiry⟩ := h admission entry htask
    exact ⟨hkey, UInt64.le_trans hexpiry
      (deadline_mono allowTtlSeconds (now_le_of_effect heffect))⟩
  cases heffect with
  | quiet | tick _ | lazyDelete _ _ | evict | lookupExpired _ _ | connect _ _ | progress _ _ _
  | granted _ _ | dropped => exact hkeep rfl
  | stamp _ =>
    rcases htask with htask | htask
    · obtain ⟨rfl, rfl⟩ := Task.stamped.inj htask
      exact ⟨rfl, UInt64.le_refl _⟩
    · cases htask
  | kernelInsert hstamped =>
    rcases htask with htask | htask
    · cases htask
    · obtain ⟨rfl, rfl⟩ := Task.kernelWritten.inj htask
      exact h _ _ (.inl hstamped)
  | @reload _ removed _ _ _ | @finishRemoval _ removed _ _ | @selectNone _ _ removed _ _ _ =>
    cases removed <;> rcases htask with htask | htask <;> cases htask
  | accepted _ _ | insertFailed _ | mirrorInsert _ | reapClock _ | select _ _ | lockMirror _
  | removeNext _ _ | removeFailed _ _ => rcases htask with htask | htask <;> cases htask

/-- What the client gets while it is admitted: its connection requests pass the kernel, and the
server takes the connection up with the Noise key of the client. -/
structure Serves (crypto : Crypto) (toml : Toml) (host : Endian) (allowTtlSeconds : UInt64)
    (admission : Admission) (state : State) : Prop where
  passes : ∀ context frame ihl, context.now = state.now →
    Xdp.CarriesTcp (Xdp.loadConfig state.maps).proxyPort frame ihl →
    (Xdp.sourceAddr frame).toU32 = admission.srcIp →
    (Xdp.ghostbroXdp context state.maps frame).2 = .pass
  connects : ∃ source, source.entry.keyId = admission.accept.keyId ∧
    source.noisePublicKey = admission.accept.noisePublicKey ∧
    ∀ id peer, Ipv4Addr.toU32 peer = admission.srcIp → id ∉ state.connections →
      (∀ removal rest sources remaining, state.task ≠ .removing removal rest sources remaining) →
      step crypto toml host allowTtlSeconds state (.connect id peer) =
        some ({ state with
          connections := state.connections.insert id
            ⟨admission.srcIp, source, state.now, .readMsg1⟩ }, none)

theorem Admitted.serves (h : Admitted admission limit state.gate) (hbefore : state.now < limit)
    (halive : state.task ≠ .exited) : Serves crypto toml host allowTtlSeconds admission state where
  passes context frame ihl hnow hcarries hsource := by
    obtain ⟨entry, hlookup, hlasts⟩ := h.passes
    have hlookup' : state.maps.allowMap.lookup admission.srcIp = some entry := hlookup
    have hlive : ¬entry.expiryNs ≤ state.now :=
      UInt64.not_le.mpr (UInt64.lt_of_lt_of_le hbefore hlasts.expiry)
    rw [Xdp.ghostbroXdp_of_carriesTcp hcarries, hsource, hnow, Xdp.isAllowed, hlookup']
    simp only [hlive, if_false, if_true]
  connects := by
    obtain ⟨source, hlookup, hlasts, hnoise⟩ := h.connects
    refine ⟨source, hlasts.keyId, hnoise, fun id peer hpeer hid hlock ↦ ?_⟩
    have hlookup' : state.mirror.lookup (Ipv4Addr.toU32 peer) = some source := by
      rw [hpeer]
      exact hlookup
    have hlive : ¬source.entry.expiryNs ≤ state.now :=
      UInt64.not_le.mpr (UInt64.lt_of_lt_of_le hbefore hlasts.expiry)
    rw [step, if_neg halive]
    simp only [connectionStep, hid, if_false, hlookup', hlive]
    rw [hpeer]

theorem mirrorInsert_eq
    (hstep : step crypto toml host allowTtlSeconds state .mirrorInsert = some (after, emitted)) :
    ∃ other entry, state.task = .kernelWritten other entry ∧ emitted = none ∧
      after = { state with
        mirror := state.mirror.insert other.srcIp (sourceOf other.accept entry)
        task := .idle } := by
  unfold step at hstep
  split_ifs at hstep
  simp only [allowStep] at hstep
  split at hstep
  · next other entry htask =>
    obtain ⟨rfl, rfl⟩ := Prod.mk.inj (Option.some.inj hstep)
    exact ⟨other, entry, htask, rfl, rfl⟩
  · cases hstep

/-- `allow_source` has written both entries. -/
theorem admitted_of_mirrorInsert {inserted : State} {entry : AllowEntry}
    (hkey : entry.keyId = admission.accept.keyId)
    (hexpiry : entry.expiryNs ≤ deadline allowTtlSeconds state.now)
    (htask : state.task = .kernelWritten admission entry)
    (hkernel : state.maps.allowMap.lookup admission.srcIp = some entry)
    (hinsert : step crypto toml host allowTtlSeconds state .mirrorInsert = some (inserted, none)) :
    Admitted admission entry.expiryNs inserted.gate ∧
      entry.expiryNs ≤ deadline allowTtlSeconds inserted.now := by
  simp only [step, htask, allowStep, reduceCtorEq, if_false, Option.some.injEq,
    Prod.mk.injEq] at hinsert
  rw [← hinsert.1]
  refine ⟨⟨⟨entry, hkernel, hkey, UInt64.le_refl _⟩, ?_, .idle⟩, hexpiry⟩
  refine ⟨sourceOf admission.accept entry, ?_, ⟨hkey, UInt64.le_refl _⟩, rfl⟩
  exact (HashMap.lookup_insert_ite _ _ _ _).trans (if_pos rfl)

/-- In every later run in which the kernel does not evict the entry of the client and nothing
displaces the client, it is served until the limit. -/
def ServedUntil (crypto : Crypto) (toml : Toml) (host : Endian) (allowTtlSeconds : UInt64)
    (admission : Admission) (limit : UInt64) (state : LookupState) : Prop :=
  ∀ later emitted last, Run (lookupStep crypto toml host allowTtlSeconds)
      (fun _ event ↦ event ≠ .daemon (.evict admission.srcIp)) state later emitted last →
    (∀ output ∈ emitted, ¬Displaces admission output) → last.daemon.now < limit →
    last.daemon.task ≠ .exited → Serves crypto toml host allowTtlSeconds admission last.daemon

theorem Admitted.servedUntil {looking : LookupState}
    (h : Admitted admission limit looking.daemon.gate)
    (hlimit : limit ≤ deadline allowTtlSeconds looking.daemon.now)
    (hstale : NoStaleLookup admission.srcIp limit looking) :
    ServedUntil crypto toml host allowTtlSeconds admission limit looking := by
  intro later emitted last hlater hkept hbefore halive
  exact (admitted_of_run h hlimit hstale hlater hkept hbefore).1.serves hbefore halive

namespace Sample

open Ghostbro.Sample

/-- The sample server with its lookups. -/
abbrev sampleLookupStep : Step LookupState LookupEvent Output :=
  lookupStep Crypto.transparent Toml.plain .little 14400

end Sample

/-- The frame brings a wire to an idle server: it is submitted to an empty ring. -/
structure Brings (host : Endian) (state : State) (context : Xdp.Context) (frame : Bytes) (ihl : ℕ)
    (wire : Bytes) : Prop where
  idle : state.task = .idle
  empty : state.maps.spaRing = []
  clock : context.now = state.now
  endian : context.endian = host
  submitted : Xdp.Submitted context state.maps frame ihl (Xdp.udpHdrLen + wire.length)
  payload : Xdp.udpPayload frame ihl (Xdp.udpHdrLen + wire.length) = wire

/-- The roster, the clock and the counters of a verifier let the packet of a client in. -/
structure Welcomes (crypto : Crypto) (verifier : SpaVerifier) (client : AuthorizedClient)
    (signingKey : Octets 32) (packet : SpaPacket) (source : Ipv4Addr) (nowMs : UInt64) : Prop where
  enrolled : verifier.clients.lookup packet.keyId = some client
  publicKey : client.publicKey = crypto.verifyingKey signingKey
  tier : client.tier = .full
  window : absDiff nowMs packet.timestampMs ≤ verifier.timeWindowMs
  source : packet.usePacketSource = false → packet.allowIp = source
  fresh : verifier.highestCounter packet.keyId < packet.counter

theorem step_frame {context : Xdp.Context} {frame : Bytes} {ihl : ℕ} {wire : Bytes}
    (h : Brings host state context frame ihl wire) :
    ∃ memory srcPort, (Xdp.ghostbroXdp context state.maps frame).1.spaRing =
        [Xdp.ringEvent host memory (Xdp.sourceAddr frame).toU32 srcPort wire] ∧
      step crypto toml host allowTtlSeconds state (.frame context frame) =
        some ({ state with maps := (Xdp.ghostbroXdp context state.maps frame).1 }, none) := by
  obtain ⟨memory, srcPort, hring⟩ := Xdp.spaRing_of_submitted h.submitted
  refine ⟨memory, srcPort, ?_, ?_⟩
  · rw [hring, h.empty, h.payload, h.endian, List.nil_append]
  · have halive : state.task ≠ .exited := by simp [h.idle]
    rw [step, if_neg halive]
    simp only [environmentStep]
    rw [if_pos ⟨h.clock, h.endian⟩]

/-- A packet that the verifier welcomes is accepted. -/
theorem verify_of_welcomes {verifier : SpaVerifier} {client : AuthorizedClient}
    {signingKey serverPrivate : Octets 32} {packet : SpaPacket} {source : Ipv4Addr}
    {nowMs : UInt64} {wire : Bytes} {files : FileSystem} {fault : Option SaveFault}
    (hserves : verifier.Serves crypto serverPrivate)
    (hopen : SpaPacket.openWire crypto wire serverPrivate = .ok packet)
    (hverify : packet.verify crypto (crypto.verifyingKey signingKey)
      (crypto.x25519Public serverPrivate) = .ok ())
    (h : Welcomes crypto verifier client signingKey packet source nowMs)
    (hpersist : ((verifier.recordCounter packet).persistCounters toml files fault).2 = .ok ()) :
    (verifier.verify crypto toml files wire source nowMs fault).result =
      .ok (SpaVerifier.acceptOf packet client) := by
  have hauthenticate : verifier.authenticate crypto wire source nowMs = .ok (packet, client) := by
    apply SpaVerifier.authenticate_of_checks
    · rw [hserves.1, hopen]
    · exact h.enrolled
    · rw [h.publicKey, hserves.2, hverify]
    · exact h.tier
    · exact h.window
    · exact h.source
  have hfresh : ¬packet.counter ≤ verifier.highestCounter packet.keyId := UInt64.not_le.mpr h.fresh
  simp only [SpaVerifier.verify, hauthenticate]
  rw [if_neg hfresh, hpersist]

theorem handleSpa_of_ok {srcIp : UInt32} {payload : Bytes} {nowMs : UInt64}
    {fault : Option SaveFault} {accept : SpaAccept}
    (h : (state.verifier.verify crypto toml state.files payload (Ipv4Addr.ofU32 srcIp) nowMs
      fault).result = .ok accept) :
    ∃ after admission, handleSpa crypto toml state srcIp payload nowMs fault =
        (after, some (.accepted admission)) ∧ after.task = .accepted admission ∧
      after.now = state.now ∧ admission.srcIp = srcIp ∧ admission.accept = accept := by
  simp only [handleSpa, h]
  exact ⟨_, _, rfl, rfl, rfl, rfl, rfl⟩

/-- `allow_source` without interruption. -/
theorem run_allowSource (htask : state.task = .accepted admission) :
    ∃ inserted, Run (step crypto toml host allowTtlSeconds) unrestricted state
        [.stamp, .kernelInsert true, .mirrorInsert] [.stamped admission state.now] inserted ∧
      Admitted admission (deadline allowTtlSeconds state.now) inserted.gate ∧
      inserted.now = state.now := by
  let entry := entryOf allowTtlSeconds admission.accept state.now
  let stamped : State := { state with task := .stamped admission entry }
  let written : State := { state with
    maps := { state.maps with allowMap := state.maps.allowMap.insert admission.srcIp entry }
    task := .kernelWritten admission entry }
  let inserted : State := { written with
    mirror := state.mirror.insert admission.srcIp (sourceOf admission.accept entry), task := .idle }
  have hstamp : step crypto toml host allowTtlSeconds state .stamp =
      some (stamped, some (.stamped admission state.now)) := by
    simp only [step, htask, allowStep, reduceCtorEq, if_false, stamped, entry]
  have hkernel : step crypto toml host allowTtlSeconds stamped (.kernelInsert true) =
      some (written, none) := by
    simp only [step, allowStep, reduceCtorEq, if_false, if_true, stamped, written]
  have hmirror : step crypto toml host allowTtlSeconds written .mirrorInsert =
      some (inserted, none) := by
    simp only [step, allowStep, reduceCtorEq, if_false, written, inserted]
  refine ⟨inserted, ((Run.nil.snoc trivial hstamp).snoc trivial hkernel).snoc trivial hmirror,
    ?_, rfl⟩
  have hlookup : written.maps.allowMap.lookup admission.srcIp = some entry :=
    (HashMap.lookup_insert_ite _ _ _ _).trans (if_pos rfl)
  exact (admitted_of_mirrorInsert rfl (UInt64.le_refl _) rfl hlookup hmirror).1

/-- A candidate that is accepted is let in without interruption, and served from then on. -/
theorem served_of_accepted {event : Event} {after : State}
    {lookups : List (UInt32 × AllowEntry)}
    (hstep : step crypto toml host allowTtlSeconds state event =
      some (after, some (.accepted admission)))
    (htask : after.task = .accepted admission) (hnow : after.now = state.now)
    (hstale : NoStaleLookup admission.srcIp (deadline allowTtlSeconds state.now)
      ⟨state, lookups⟩) :
    ∃ inserted, Run (step crypto toml host allowTtlSeconds) unrestricted state
        [event, .stamp, .kernelInsert true, .mirrorInsert]
        [.accepted admission, .stamped admission state.now] inserted ∧
      ServedUntil crypto toml host allowTtlSeconds admission (deadline allowTtlSeconds state.now)
        ⟨inserted, lookups⟩ := by
  obtain ⟨inserted, hallow, hadmitted, hlast⟩ :=
    @run_allowSource crypto toml host allowTtlSeconds _ _ htask
  rw [hnow] at hallow hadmitted hlast
  refine ⟨inserted, (Run.nil.snoc trivial hstep).append hallow, ?_⟩
  apply Admitted.servedUntil hadmitted
  · rw [hlast]
    exact UInt64.le_refl _
  · exact hstale

/-- The UDP packet of an honest client reaches an idle server whose roster, clock and counters
welcome it; the counters can be saved, and no lookup that has read an older entry of the client's
address is in flight.  Then the server admits the client, and serves it until the deadline in every
run in which the kernel does not evict its entry and nothing displaces it. -/
theorem honest_client_served (hcorrect : crypto.Correct) (toml : Toml) (host : Endian)
    (allowTtlSeconds : UInt64) (signingKey : Octets 32) (mode : SpaMode)
    (timestampMs counter : UInt64) (allowIp : SpaAllowIp) (padding : Bytes)
    (hpadding : padding.length ≤ 33) (serverPrivate ephemeralSecret : Octets 32)
    (state : LookupState) (context : Xdp.Context) (frame : Bytes) (ihl : ℕ)
    (client : AuthorizedClient) (nowMs : UInt64) (fault : Option SaveFault)
    (hserves : state.daemon.verifier.Serves crypto serverPrivate)
    (hbrings : Brings host state.daemon context frame ihl
      (SpaPacket.buildWithPadding crypto signingKey mode timestampMs counter allowIp padding
        (crypto.x25519Public serverPrivate) ephemeralSecret))
    (hwelcomes : Welcomes crypto state.daemon.verifier client signingKey
      (SpaPacket.honestPacket crypto signingKey mode timestampMs counter allowIp
        (crypto.x25519Public serverPrivate) ephemeralSecret) (Xdp.sourceAddr frame) nowMs)
    (hpersist : ((state.daemon.verifier.recordCounter
      (SpaPacket.honestPacket crypto signingKey mode timestampMs counter allowIp
        (crypto.x25519Public serverPrivate) ephemeralSecret)).persistCounters toml
          state.daemon.files fault).2 = .ok ())
    (hstale : NoStaleLookup (Xdp.sourceAddr frame).toU32
      (deadline allowTtlSeconds state.daemon.now) state) :
    ∃ admission inserted,
      Run (lookupStep crypto toml host allowTtlSeconds) unrestricted state
        [.daemon (.frame context frame), .daemon (.ringNext nowMs fault), .daemon .stamp,
          .daemon (.kernelInsert true), .daemon .mirrorInsert]
        [.accepted admission, .stamped admission state.daemon.now] inserted ∧
      admission.srcIp = (Xdp.sourceAddr frame).toU32 ∧
      admission.accept.keyId =
        SpaPacket.keyIdForPublicKey crypto (crypto.verifyingKey signingKey) ∧
      admission.accept.noisePublicKey = client.noisePublicKey ∧
      ServedUntil crypto toml host allowTtlSeconds admission
        (deadline allowTtlSeconds state.daemon.now) inserted := by
  obtain ⟨-, hmax, hopen⟩ := SpaPacket.openWire_buildWithPadding hcorrect signingKey mode
    timestampMs counter allowIp hpadding serverPrivate ephemeralSecret
  have hverify := SpaPacket.verify_honestPacket hcorrect signingKey mode timestampMs counter
    allowIp (crypto.x25519Public serverPrivate) ephemeralSecret
  have haccept := verify_of_welcomes hserves hopen hverify hwelcomes hpersist
  obtain ⟨memory, srcPort, hring, hframe⟩ :=
    @step_frame crypto toml host allowTtlSeconds _ _ _ _ _ hbrings
  set wire := SpaPacket.buildWithPadding crypto signingKey mode timestampMs counter allowIp padding
    (crypto.x25519Public serverPrivate) ephemeralSecret
  set framed : State := { state.daemon with
    maps := (Xdp.ghostbroXdp context state.daemon.maps frame).1 }
  have htaken := spaStep_ringEvent crypto toml host memory (Xdp.sourceAddr frame).toU32 srcPort hmax
    (show framed.task = .idle from hbrings.idle) hring nowMs fault
  obtain ⟨after, admission, hhandled, htask, hnow, hsource, hadmission⟩ :=
    @handleSpa_of_ok crypto toml { framed with maps := { framed.maps with spaRing := [] } }
      (Xdp.sourceAddr frame).toU32 wire nowMs fault _ (by rw [Ipv4Addr.ofU32_toU32]; exact haccept)
  rw [hhandled] at htaken
  have halive : framed.task ≠ .exited := by
    rw [show framed.task = .idle from hbrings.idle]
    simp
  have hring : step crypto toml host allowTtlSeconds framed (.ringNext nowMs fault) =
      some (after, some (.accepted admission)) := by
    rw [step, if_neg halive]
    exact htaken
  have hstale' : NoStaleLookup admission.srcIp (deadline allowTtlSeconds framed.now)
      ⟨framed, state.lookups⟩ := by
    rw [hsource]
    exact hstale
  obtain ⟨inserted, hrun, hserved⟩ := served_of_accepted hring htask hnow hstale'
  refine ⟨admission, ⟨inserted, state.lookups⟩,
    run_lookups state.lookups ((Run.nil.snoc trivial hframe).append hrun), hsource, ?_, ?_, hserved⟩
  · rw [hadmission]
    rfl
  · rw [hadmission]
    rfl

namespace Sample

open Ghostbro.Sample

/-- The packet of the sample client for the address it is sent from. -/
def honestWire : Bytes :=
  SpaPacket.buildWithPadding Crypto.transparent alice .udp 1000 7 .packetSource []
    (Crypto.transparent.x25519Public serverPrivate) (Vector.replicate 32 3)

def honestFrame : Bytes := spaFrame.take 46 ++ honestWire

/-- A server for SPA over UDP before its first packet. -/
def waiting : State :=
  start 1000 (some ⟨53, 8443, 5, 1⟩)
    (SpaVerifier.fromCounters Crypto.transparent [client "alice" 1 alice] 30 ∅ none serverPrivate) ∅

theorem brings_honestFrame : Brings .little waiting spaContext honestFrame 6 honestWire where
  idle := rfl
  empty := rfl
  clock := rfl
  endian := rfl
  submitted :=
    { carries :=
        { ethertype := by decide +kernel
          header := ⟨0x46, by decide +kernel, by decide⟩
          minHeader := by decide
          protocol := by decide +kernel
          port := by decide +kernel
          length := ⟨151, by decide +kernel, by decide +kernel⟩
          window := by decide +kernel
          present := by decide +kernel }
      udpMode := by decide
      rates := ⟨by decide +kernel, by decide +kernel⟩
      room := rfl }
  payload := by decide +kernel

theorem welcomes_honestPacket :
    Welcomes Crypto.transparent waiting.verifier (client "alice" 1 alice) alice
      (SpaPacket.honestPacket Crypto.transparent alice .udp 1000 7 .packetSource
        (Crypto.transparent.x25519Public serverPrivate) (Vector.replicate 32 3))
      (Xdp.sourceAddr honestFrame) 2000 where
  enrolled := by decide +kernel
  publicKey := by decide +kernel
  tier := by decide +kernel
  window := by decide +kernel
  source := by decide +kernel
  fresh := by decide +kernel

end Sample

/-- A lookup of another client's entry is in flight. -/
theorem honest_client_served_sample :
    ∃ admission inserted,
      Run Sample.sampleLookupStep unrestricted ⟨Sample.waiting, [(0, Sample.entry)]⟩
        [.daemon (.frame Sample.spaContext Sample.honestFrame), .daemon (.ringNext 2000 none),
          .daemon .stamp, .daemon (.kernelInsert true), .daemon .mirrorInsert]
        [.accepted admission, .stamped admission 1000] inserted ∧
      admission.srcIp = Sample.srcIp ∧
      ServedUntil Crypto.transparent Toml.plain .little 14400 admission (deadline 14400 1000)
        inserted := by
  have hsource : (Xdp.sourceAddr Sample.honestFrame).toU32 = Sample.srcIp := by decide +kernel
  have hstale : NoStaleLookup (Xdp.sourceAddr Sample.honestFrame).toU32 (deadline 14400 1000)
      ⟨Sample.waiting, [(0, Sample.entry)]⟩ := by
    rw [hsource]
    simp [NoStaleLookup, Sample.srcIp]
  obtain ⟨admission, inserted, hrun, hadmitted, -, -, hserved⟩ :=
    honest_client_served Crypto.transparent_correct Toml.plain .little 14400
      Ghostbro.Sample.alice .udp 1000 7 .packetSource [] (by decide)
      Ghostbro.Sample.serverPrivate (Vector.replicate 32 3) ⟨Sample.waiting, [(0, Sample.entry)]⟩
      Sample.spaContext Sample.honestFrame 6
      (Ghostbro.Sample.client "alice" 1 Ghostbro.Sample.alice) 2000 none
      (SpaVerifier.serves_fromCounters _ _ _ _ _ _) Sample.brings_honestFrame
      Sample.welcomes_honestPacket rfl hstale
  exact ⟨admission, inserted, hrun, hadmitted.trans hsource, hserved⟩

end Ghostbro.Daemon
