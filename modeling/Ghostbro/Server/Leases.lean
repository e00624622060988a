import Ghostbro.Server.Continuity

/-!
# Leases

A lease follows one client at one address through what the server reports: the time that
`allow_source` last read for it, once both entries are written.  Refreshes renew the lease at any
time, also after it has run out; the packet of another client, a reload that removes the key and
the loss of the kernel entry, by an eviction or by a lookup that has read an older entry, end it.
Whatever else the server does, while the lease is in force and its deadline is not reached it serves
the client.

The client refreshes its packet at half the allow TTL, so that one refresh may be lost.
-/

namespace Ghostbro.Daemon

open Machine

/-- The times that `allow_source` read for the entries in force, and for those it is writing. -/
structure Lease where
  inForce : Option UInt64
  pending : Option UInt64
  deriving DecidableEq

namespace Lease

def none : Lease := ⟨.none, .none⟩

instance (admission other : Admission) : Decidable (admission.SameClient other) :=
  inferInstanceAs (Decidable (_ ∧ _))

/-- The kernel loses the entry of an address; what is still to be written is not lost. -/
def dropped (admission : Admission) (task : Task) (lease : Lease) (srcIp : UInt32) : Lease :=
  if srcIp = admission.srcIp then
    match task with
    | .kernelWritten _ _ => none
    | _ => ⟨.none, lease.pending⟩
  else lease

/-- Writing the mirror entry puts the pending time in force, and a failed write of the kernel entry
gives it up. -/
def afterEvent (admission : Admission) (task : Task) (lease : Lease) : Event → Lease
  | .evict srcIp => lease.dropped admission task srcIp
  | .kernelInsert false => ⟨lease.inForce, .none⟩
  | .mirrorInsert => ⟨lease.pending.or lease.inForce, .none⟩
  | _ => lease

def afterOutput (admission : Admission) (lease : Lease) : Option Output → Lease
  | some (.accepted other) =>
    if other.srcIp = admission.srcIp ∧ ¬admission.SameClient other then none
    else ⟨lease.inForce, .none⟩
  | some (.stamped other nowNs) =>
    if other.srcIp = admission.srcIp ∧ admission.SameClient other then ⟨lease.inForce, some nowNs⟩
    else lease
  | some (.reloaded _ _ removed) => if admission.accept.keyId ∈ removed then none else lease
  | _ => lease

/-- The lease after a step of the daemon in a state with the task. -/
def next (admission : Admission) (task : Task) (lease : Lease) (event : Event)
    (emitted : Option Output) : Lease :=
  (lease.afterEvent admission task event).afterOutput admission emitted

end Lease

/-- The server and its lookups together with the lease of a client. -/
def leased (crypto : Crypto) (toml : Toml) (host : Endian) (allowTtlSeconds : UInt64)
    (admission : Admission) : Step (LookupState × Lease) LookupEvent Output :=
  fun (state, lease) event ↦
    (lookupStep crypto toml host allowTtlSeconds state event).map fun (next, emitted) ↦
      let noticed := event.noticed.elim lease fun event ↦
        lease.next admission state.daemon.task event emitted
      ((next, noticed), emitted)

variable {crypto : Crypto} {toml : Toml} {host : Endian} {allowTtlSeconds since : UInt64}
  {admission : Admission} {gate next : Gate} {event : Event} {emitted : Option Output}
  {lease : Lease}

theorem leased_of_lookupStep {looking after : LookupState} {lookup : LookupEvent} (lease : Lease)
    (hstep : lookupStep crypto toml host allowTtlSeconds looking lookup = some (after, emitted)) :
    leased crypto toml host allowTtlSeconds admission (looking, lease) lookup =
      some ((after, lookup.noticed.elim lease fun event ↦
        lease.next admission looking.daemon.task event emitted), emitted) := by
  unfold leased
  simp only [hstep, Option.map_some]

/-- Every run has its lease. -/
theorem run_leased {guard : LookupState → LookupEvent → Prop} {state last : LookupState}
    {events : List LookupEvent} {outputs : List Output} (admission : Admission) (lease : Lease)
    (hrun : Run (lookupStep crypto toml host allowTtlSeconds) guard state events outputs last) :
    ∃ final, Run (leased crypto toml host allowTtlSeconds admission)
      (fun leased event ↦ guard leased.1 event) (state, lease) events outputs (last, final) := by
  induction hrun with
  | nil => exact ⟨lease, .nil⟩
  | @snoc events outputs before after event emitted _ hguard hstep ih =>
    obtain ⟨final, hleased⟩ := ih
    exact ⟨_, hleased.snoc hguard (leased_of_lookupStep final hstep)⟩

/-! ### What a lease stands for -/

/-- `allow_source` is writing the entries of the client that it stamped at this time; the kernel
has its entry once it is written, unless it has expired again. -/
inductive Renews (allowTtlSeconds : UInt64) (admission : Admission) (since : UInt64)
    (gate : Gate) : Prop
  | stamped {other : Admission} (source : other.srcIp = admission.srcIp)
      (client : admission.SameClient other)
      (task : gate.task = .stamped other (entryOf allowTtlSeconds other.accept since))
      (past : since ≤ gate.now) : Renews allowTtlSeconds admission since gate
  | kernelWritten {other : Admission} (source : other.srcIp = admission.srcIp)
      (client : admission.SameClient other)
      (task : gate.task = .kernelWritten other (entryOf allowTtlSeconds other.accept since))
      (past : since ≤ gate.now)
      (written : gate.now < deadline allowTtlSeconds since →
        gate.allowMap.lookup admission.srcIp =
          some (entryOf allowTtlSeconds other.accept since)) :
      Renews allowTtlSeconds admission since gate

/-- The entries in force have not been taken back. -/
structure Holds (allowTtlSeconds : UInt64) (admission : Admission) (lease : Lease) (gate : Gate) :
    Prop where
  past : ∀ since, lease.inForce = some since → since ≤ gate.now
  admitted : ∀ since, lease.inForce = some since → gate.now < deadline allowTtlSeconds since →
    Admitted admission (deadline allowTtlSeconds since) gate
  pending : ∀ since, lease.pending = some since → Renews allowTtlSeconds admission since gate

/-- What a lease stands for while `allow_source` writes nothing for the client. -/
theorem holds_of_inForce {inForce : Option UInt64}
    (h : ∀ since, inForce = some since → since ≤ gate.now ∧
      (gate.now < deadline allowTtlSeconds since →
        Admitted admission (deadline allowTtlSeconds since) gate)) :
    Holds allowTtlSeconds admission ⟨inForce, none⟩ gate where
  past since hforce := (h since hforce).1
  admitted since hforce := (h since hforce).2
  pending since hpending := by cases hpending

theorem holds_none : Holds allowTtlSeconds admission .none gate := by
  apply holds_of_inForce
  intro since hforce
  cases hforce

/-! ### One step -/

/-- What is in force after an output was in force before, and the output does not end it. -/
theorem inForce_of_afterOutput (h : (lease.afterOutput admission emitted).inForce = some since) :
    lease.inForce = some since ∧ ∀ output ∈ emitted, ¬Displaces admission output := by
  cases emitted with
  | none => exact ⟨h, by simp⟩
  | some output =>
    cases output with
    | accepted other =>
      simp only [Lease.afterOutput] at h
      split at h
      · cases h
      · next hkept => exact ⟨h, by simpa [Displaces] using hkept⟩
    | stamped other nowNs =>
      simp only [Lease.afterOutput] at h
      split at h <;> exact ⟨h, by simp [Displaces]⟩
    | reloaded previous clients removed =>
      simp only [Lease.afterOutput] at h
      split at h
      · cases h
      · next hkept => exact ⟨h, by simpa [Displaces] using hkept⟩
    | removed removal sources => exact ⟨h, by simp [Displaces]⟩
    | removeFailed removal srcIp => exact ⟨h, by simp [Displaces]⟩
    | granted srcIp keyId lookupNs remoteStatic => exact ⟨h, by simp [Displaces]⟩

/-- What is pending after an output was stamped by it, or was pending before and the output accepts
nothing. -/
theorem pending_of_afterOutput (h : (lease.afterOutput admission emitted).pending = some since) :
    (∃ other, emitted = some (.stamped other since) ∧ other.srcIp = admission.srcIp ∧
        admission.SameClient other) ∨
      lease.pending = some since := by
  cases emitted with
  | none => exact .inr h
  | some output =>
    cases output with
    | accepted other =>
      simp only [Lease.afterOutput] at h
      split at h <;> cases h
    | stamped other nowNs =>
      simp only [Lease.afterOutput] at h
      split at h
      · next hown =>
        obtain rfl : nowNs = since := Option.some.inj h
        exact .inl ⟨other, rfl, hown⟩
      · exact .inr h
    | reloaded previous clients removed =>
      simp only [Lease.afterOutput] at h
      split at h
      · cases h
      · exact .inr h
    | removed removal sources => exact .inr h
    | removeFailed removal srcIp => exact .inr h
    | granted srcIp keyId lookupNs remoteStatic => exact .inr h

/-- A step that leaves the task alone, and what has not expired of the kernel entry. -/
theorem Renews.keep (h : Renews allowTtlSeconds admission since gate)
    (htask : next.task = gate.task) (hnow : gate.now ≤ next.now)
    (hmap : ∀ entry, gate.allowMap.lookup admission.srcIp = some entry →
      gate.now < entry.expiryNs → next.allowMap.lookup admission.srcIp = some entry) :
    Renews allowTtlSeconds admission since next := by
  cases h with
  | stamped hsource hclient hstamped hpast =>
    exact .stamped hsource hclient (htask.trans hstamped) (UInt64.le_trans hpast hnow)
  | kernelWritten hsource hclient hwritten hpast hentry =>
    refine .kernelWritten hsource hclient (htask.trans hwritten) (UInt64.le_trans hpast hnow) ?_
    intro hbefore
    have hearlier := UInt64.lt_of_le_of_lt hnow hbefore
    exact hmap _ (hentry hearlier) hearlier

/-- Between the stamp and the mirror entry only the kernel entry is written. -/
theorem Renews.effect (h : Renews allowTtlSeconds admission since gate)
    (heffect : Effect allowTtlSeconds gate event next emitted)
    (hevict : event ≠ .evict admission.srcIp) (hmirror : event ≠ .mirrorInsert)
    (hfailed : event ≠ .kernelInsert false) : Renews allowTtlSeconds admission since next := by
  have hbusy : (∃ other entry, gate.task = .stamped other entry) ∨
      ∃ other entry, gate.task = .kernelWritten other entry := by
    cases h with
    | stamped _ _ htask _ => exact .inl ⟨_, _, htask⟩
    | kernelWritten _ _ htask _ _ => exact .inr ⟨_, _, htask⟩
  cases heffect with
  | quiet | lookupExpired _ _ | connect _ _ | progress _ _ _ | granted _ _ | dropped =>
    exact h.keep rfl (UInt64.le_refl _) fun _ hlookup _ ↦ hlookup
  | tick hnow => exact h.keep rfl hnow fun _ hlookup _ ↦ hlookup
  | @lazyDelete _ _ srcIp expired hexpired hpast =>
    refine h.keep rfl (UInt64.le_refl _) ?_
    intro entry hlookup hlive
    rw [HashMap.lookup_erase_ite]
    split_ifs with hown
    · rw [hown, hexpired] at hlookup
      obtain rfl := Option.some.inj hlookup
      exact absurd hlive (UInt64.not_lt.mpr hpast)
    · exact hlookup
  | @evict srcIp =>
    refine h.keep rfl (UInt64.le_refl _) ?_
    intro entry hlookup _
    rw [HashMap.lookup_erase_ite, if_neg, hlookup]
    rintro rfl
    exact hevict rfl
  | @kernelInsert other entry htask =>
    cases h with
    | stamped hsource hclient hstamped hpast =>
      rw [htask] at hstamped
      obtain ⟨rfl, rfl⟩ := Task.stamped.inj hstamped
      refine .kernelWritten hsource hclient rfl hpast fun _ ↦ ?_
      exact (HashMap.lookup_insert_ite _ _ _ _).trans (if_pos hsource.symm)
    | kernelWritten _ _ hwritten _ _ =>
      rw [htask] at hwritten
      cases hwritten
  | insertFailed _ => exact absurd rfl hfailed
  | mirrorInsert _ => exact absurd rfl hmirror
  | accepted htask _ | stamp htask | reload htask _ | reapClock htask | lockMirror htask
  | removeNext htask _ | removeFailed htask _ | finishRemoval htask =>
    rw [htask] at hbusy
    simp at hbusy
  | selectNone hselects _ | select hselects _ =>
    cases hselects with
    | purge htask | reap htask =>
      rw [htask] at hbusy
      simp at hbusy

/-- The entries in force stay so over a step that neither evicts nor displaces the client. -/
theorem Holds.keeps (h : Holds allowTtlSeconds admission lease gate)
    (heffect : Effect allowTtlSeconds gate event next emitted)
    (hevict : event ≠ .evict admission.srcIp)
    (hkept : ∀ output ∈ emitted, ¬Displaces admission output)
    (hforce : lease.inForce = some since) :
    since ≤ next.now ∧ (next.now < deadline allowTtlSeconds since →
      Admitted admission (deadline allowTtlSeconds since) next) := by
  have hnow := now_le_of_effect heffect
  have hpast := h.past since hforce
  refine ⟨UInt64.le_trans hpast hnow, fun hbefore ↦ ?_⟩
  have hearlier := UInt64.lt_of_le_of_lt hnow hbefore
  exact (h.admitted since hforce hearlier).effect hearlier (deadline_mono allowTtlSeconds hpast)
    heffect hevict hkept

/-- A step that neither evicts the client nor ends `allow_source`. -/
theorem Holds.effect (h : Holds allowTtlSeconds admission lease gate)
    (heffect : Effect allowTtlSeconds gate event next emitted)
    (hevict : event ≠ .evict admission.srcIp) (hmirror : event ≠ .mirrorInsert)
    (hfailed : event ≠ .kernelInsert false) :
    Holds allowTtlSeconds admission (lease.afterOutput admission emitted) next where
  past since hsince := by
    obtain ⟨hforce, hkept⟩ := inForce_of_afterOutput hsince
    exact (h.keeps heffect hevict hkept hforce).1
  admitted since hsince := by
    obtain ⟨hforce, hkept⟩ := inForce_of_afterOutput hsince
    exact (h.keeps heffect hevict hkept hforce).2
  pending since hsince := by
    rcases pending_of_afterOutput hsince with ⟨other, rfl, hsource, hclient⟩ | hpending
    · cases heffect with
      | stamp _ => exact .stamped hsource hclient rfl (UInt64.le_refl _)
    · exact (h.pending since hpending).effect heffect hevict hmirror hfailed

/-! ### One step of the daemon -/

variable {state after last : State}

/-- The mirror entry of a renewal puts it in force. -/
theorem Renews.admitted (h : Renews allowTtlSeconds admission since state.gate)
    (hstep : step crypto toml host allowTtlSeconds state .mirrorInsert = some (after, emitted))
    (hbefore : state.now < deadline allowTtlSeconds since) :
    Admitted admission (deadline allowTtlSeconds since) after.gate := by
  obtain ⟨other, entry, htask, -, rfl⟩ := mirrorInsert_eq hstep
  cases h with
  | stamped _ _ hstamped _ =>
    have hbusy : state.task = .stamped _ _ := hstamped
    rw [htask] at hbusy
    cases hbusy
  | kernelWritten hsource hclient hwritten _ hentry =>
    have hsame : state.task = .kernelWritten _ _ := hwritten
    rw [htask] at hsame
    obtain ⟨rfl, rfl⟩ := Task.kernelWritten.inj hsame
    have hlasts : Lasts admission (deadline allowTtlSeconds since)
        (entryOf allowTtlSeconds other.accept since) := ⟨hclient.1, UInt64.le_refl _⟩
    refine ⟨⟨_, hentry hbefore, hlasts⟩, ⟨sourceOf other.accept _, ?_, hlasts, hclient.2⟩, .idle⟩
    exact (HashMap.lookup_insert_ite _ _ _ _).trans (if_pos hsource.symm)

theorem quiet_of_kernelInsert {succeeds : Bool}
    (hstep : step crypto toml host allowTtlSeconds state (.kernelInsert succeeds) =
      some (after, emitted)) : emitted = none := by
  unfold step at hstep
  split_ifs at hstep
  simp only [allowStep] at hstep
  grind

theorem Holds.mirrorInsert (h : Holds allowTtlSeconds admission lease state.gate)
    (hstep : step crypto toml host allowTtlSeconds state .mirrorInsert = some (after, emitted)) :
    Holds allowTtlSeconds admission ⟨lease.pending.or lease.inForce, none⟩ after.gate := by
  obtain ⟨other, entry, -, hemitted, hafter⟩ := mirrorInsert_eq hstep
  apply holds_of_inForce
  intro since hforce
  rcases Option.or_eq_some_iff.mp hforce with hpending | ⟨-, hforce⟩
  · have hrenews := h.pending since hpending
    have hnow : after.gate.now = state.now := by rw [hafter, State.gate]
    rw [hnow]
    refine ⟨?_, hrenews.admitted hstep⟩
    cases hrenews with
    | stamped _ _ _ hpast | kernelWritten _ _ _ hpast _ => exact hpast
  · exact h.keeps (effect_of_step hstep) (by simp) (by simp [hemitted]) hforce

theorem Holds.insertFailed (h : Holds allowTtlSeconds admission lease state.gate)
    (hstep : step crypto toml host allowTtlSeconds state (.kernelInsert false) =
      some (after, emitted)) :
    Holds allowTtlSeconds admission ⟨lease.inForce, none⟩ after.gate := by
  apply holds_of_inForce
  intro since hforce
  exact h.keeps (effect_of_step hstep) (by simp) (by simp [quiet_of_kernelInsert hstep]) hforce

theorem evict_eq {srcIp : UInt32}
    (hstep : step crypto toml host allowTtlSeconds state (.evict srcIp) = some (after, emitted)) :
    after = { state with
      maps := { state.maps with allowMap := state.maps.allowMap.erase srcIp } } := by
  unfold step at hstep
  split_ifs at hstep
  exact (congrArg Prod.fst (Option.some.inj hstep)).symm

/-- What the kernel loses is not in force; what `allow_source` is about to write is not lost. -/
theorem Holds.dropped {srcIp : UInt32} (h : Holds allowTtlSeconds admission lease state.gate)
    (hstep : step crypto toml host allowTtlSeconds state (.evict srcIp) = some (after, none)) :
    Holds allowTtlSeconds admission (lease.dropped admission state.task srcIp) after.gate := by
  unfold Lease.dropped
  split_ifs with hown
  · have htask : after.gate.task = state.gate.task := by rw [evict_eq hstep, State.gate, State.gate]
    have hnow : after.gate.now = state.gate.now := by rw [evict_eq hstep, State.gate, State.gate]
    have hpending (since : UInt64) (hsince : lease.pending = some since)
        (hbusy : ∀ other entry, state.task ≠ .kernelWritten other entry) :
        Renews allowTtlSeconds admission since after.gate := by
      cases h.pending since hsince with
      | stamped hsource hclient hstamped hpast =>
        exact .stamped hsource hclient (htask.trans hstamped) (hnow ▸ hpast)
      | kernelWritten _ _ hwritten _ _ => exact absurd hwritten (hbusy _ _)
    split
    · exact holds_none
    · rename_i hbusy
      exact ⟨nofun, nofun, fun since hsince ↦ hpending since hsince hbusy⟩
  · have hevict : Event.evict srcIp ≠ .evict admission.srcIp := by simpa using hown
    exact h.effect (effect_of_step hstep) hevict (by simp) (by simp)

theorem Lease.afterEvent_of_ne {task : Task} (hevict : ∀ srcIp, event ≠ .evict srcIp)
    (hmirror : event ≠ .mirrorInsert) (hfailed : event ≠ .kernelInsert false) :
    lease.afterEvent admission task event = lease := by
  cases event with
  | evict srcIp => exact absurd rfl (hevict srcIp)
  | kernelInsert succeeds =>
    cases succeeds with
    | false => exact absurd rfl hfailed
    | true => rfl
  | mirrorInsert => exact absurd rfl hmirror
  | _ => rfl

/-- Every step of the daemon keeps what the lease stands for. -/
theorem Holds.step (h : Holds allowTtlSeconds admission lease state.gate)
    (hstep : step crypto toml host allowTtlSeconds state event = some (after, emitted)) :
    Holds allowTtlSeconds admission (lease.next admission state.task event emitted)
      after.gate := by
  by_cases hmirror : event = .mirrorInsert
  · subst hmirror
    obtain ⟨-, -, -, rfl, -⟩ := mirrorInsert_eq hstep
    exact h.mirrorInsert hstep
  by_cases hevict : ∃ srcIp, event = .evict srcIp
  · obtain ⟨srcIp, rfl⟩ := hevict
    obtain rfl := quiet_of_evict hstep
    exact h.dropped hstep
  by_cases hfailed : event = .kernelInsert false
  · subst hfailed
    obtain rfl := quiet_of_kernelInsert hstep
    exact h.insertFailed hstep
  · push Not at hevict
    rw [Lease.next, Lease.afterEvent_of_ne hevict hmirror hfailed]
    exact h.effect (effect_of_step hstep) (hevict _) hmirror hfailed

/-! ### Whole runs -/

theorem holds_of_run {now : UInt64} {config : Option BpfConfig} {verifier : SpaVerifier}
    {files : FileSystem} {events : List LookupEvent} {outputs : List Output} {final : LookupState}
    (hrun : Run (leased crypto toml host allowTtlSeconds admission) unrestricted
      (⟨start now config verifier files, []⟩, .none) events outputs (final, lease)) :
    Holds allowTtlSeconds admission lease final.daemon.gate := by
  refine hrun.invariant
    (fun _ leased ↦ Holds allowTtlSeconds admission leased.2 leased.1.daemon.gate) holds_none ?_
  rintro _ ⟨state, lease⟩ event _ emitted h - hstep
  obtain ⟨⟨after, emitted⟩, hlookup, hnext⟩ := Option.map_eq_some_iff.mp hstep
  cases hnext
  cases lookupStepped_of_lookupStep hlookup with
  | daemon hdaemon | remove _ _ hdaemon => exact h.step hdaemon
  | get _ | allow _ _ => exact h

/-- In every run of the server and its lookups, a client whose lease is in force is served until the
deadline of the lease, whatever packets, reaps, purges, reloads, connections, lookups and failed
refreshes of the client come in between. -/
theorem lease_serves (crypto : Crypto) (toml : Toml) (host : Endian)
    (allowTtlSeconds now : UInt64) (config : Option BpfConfig) (verifier : SpaVerifier)
    (files : FileSystem) (admission : Admission) (events : List LookupEvent)
    (outputs : List Output) (last : LookupState) (lease : Lease) (since : UInt64)
    (hrun : Run (leased crypto toml host allowTtlSeconds admission) unrestricted
      (⟨start now config verifier files, []⟩, .none) events outputs (last, lease))
    (hforce : lease.inForce = some since)
    (hbefore : last.daemon.now < deadline allowTtlSeconds since)
    (halive : last.daemon.task ≠ .exited) :
    Serves crypto toml host allowTtlSeconds admission last.daemon :=
  ((holds_of_run hrun).admitted since hforce hbefore).serves hbefore halive

namespace Sample

/-- The sample server and its lookups with the lease of the sample client. -/
abbrev leasedStep : Step (LookupState × Lease) LookupEvent Output :=
  leased Crypto.transparent Toml.plain .little 14400 Sample.admission

theorem run_leasedStep :
    Run leasedStep unrestricted (⟨started, []⟩, .none) (admittedEvents.map .daemon)
      [.accepted Sample.admission, .stamped Sample.admission 1000]
      (⟨admitted, []⟩, ⟨some 1000, none⟩) := by
  have hverify : sampleStep queued (.httpsNext 0 none) =
      some (verified, some (.accepted Sample.admission)) := by decide +kernel
  have hstep₁ : leasedStep (⟨started, []⟩, .none)
      (.daemon (.httpsReceive ⟨srcIp, Ghostbro.Sample.payload Ghostbro.Sample.alice 5⟩)) =
        some ((⟨queued, []⟩, .none), none) := rfl
  have hstep₂ : leasedStep (⟨queued, []⟩, .none) (.daemon (.httpsNext 0 none)) =
      some ((⟨verified, []⟩, .none), some (.accepted Sample.admission)) :=
    leased_of_lookupStep .none (lookupStep_daemon [] hverify)
  have hstep₃ : leasedStep (⟨verified, []⟩, .none) (.daemon .stamp) =
      some ((⟨{ verified with task := .stamped Sample.admission entry }, []⟩, ⟨none, some 1000⟩),
        some (.stamped Sample.admission 1000)) := rfl
  have hstep₄ : leasedStep
      (⟨{ verified with task := .stamped Sample.admission entry }, []⟩, ⟨none, some 1000⟩)
      (.daemon (.kernelInsert true)) = some ((⟨written, []⟩, ⟨none, some 1000⟩), none) := rfl
  have hstep₅ : leasedStep (⟨written, []⟩, ⟨none, some 1000⟩) (.daemon .mirrorInsert) =
      some ((⟨admitted, []⟩, ⟨some 1000, none⟩), none) := rfl
  exact ((((Run.nil.snoc trivial hstep₁).snoc trivial hstep₂).snoc trivial hstep₃).snoc trivial
    hstep₄).snoc trivial hstep₅

/-- The lease has run out when the client refreshes it; a lookup of the old entry ends while
`allow_source` is about to write the new one. -/
def lateEvents : List LookupEvent :=
  [.daemon (.tick 14400000002000), .get srcIp,
    .daemon (.httpsReceive ⟨srcIp, Ghostbro.Sample.payload Ghostbro.Sample.alice 6⟩),
    .daemon (.httpsNext 0 none), .daemon .stamp, .remove srcIp entry,
    .daemon (.kernelInsert true), .daemon .mirrorInsert]

end Sample

theorem lease_serves_sample :
    ∃ outputs last, Run Sample.leasedStep unrestricted (⟨Sample.started, []⟩, .none)
        (Sample.admittedEvents.map .daemon ++ Sample.lateEvents) outputs
        (last, ⟨some 14400000002000, none⟩) ∧
      Serves Crypto.transparent Toml.plain .little 14400 Sample.admission last.daemon := by
  have hexec : (exec Sample.leasedStep unrestricted (⟨Sample.admitted, []⟩, ⟨some 1000, none⟩)
      Sample.lateEvents).any fun last ↦ decide (last.1.2 = ⟨some 14400000002000, none⟩ ∧
        last.1.1.daemon.now = 14400000002000 ∧ last.1.1.daemon.task = .idle) := by
    decide +kernel
  obtain ⟨outputs, ⟨last, lease⟩, hlater, hlast⟩ := exists_run_of_exec hexec
  obtain ⟨hlease, hnow, htask⟩ := of_decide_eq_true hlast
  have hrun := Sample.run_leasedStep.append hlater
  have hbefore : last.daemon.now < deadline 14400 14400000002000 := by
    rw [show last.daemon.now = 14400000002000 from hnow]
    decide
  have halive : last.daemon.task ≠ .exited := by
    rw [show last.daemon.task = .idle from htask]
    decide
  obtain rfl : lease = ⟨some 14400000002000, none⟩ := hlease
  exact ⟨_, last, hrun, lease_serves Crypto.transparent Toml.plain .little 14400 1000 none
    Sample.verifier ∅ Sample.admission _ _ last _ 14400000002000 hrun rfl hbefore halive⟩

/-! ### The refresh of the client -/

def refreshInterval (allowTtlSeconds : UInt64) : Option UInt64 :=
  if allowTtlSeconds < 2 then none else some (allowTtlSeconds / 2)

/-- A lease outlasts two refresh intervals, as long as the clock does not run out. -/
theorem lt_deadline_of_refreshInterval {interval now : UInt64}
    (hinterval : refreshInterval allowTtlSeconds = some interval)
    (hnow : now.toNat < since.toNat + 2 * (interval.toNat * 1000000000))
    (hclock : now.toNat < 2 ^ 64 - 1) : now < deadline allowTtlSeconds since := by
  rw [refreshInterval] at hinterval
  split_ifs at hinterval
  obtain rfl := Option.some.inj hinterval
  rw [UInt64.toNat_div] at hnow
  rw [UInt64.lt_iff_toNat_lt, deadline, toNat_saturatingAdd, toNat_saturatingMul]
  have htwo : UInt64.toNat 2 = 2 := rfl
  have hnano : UInt64.toNat 1000000000 = 1000000000 := rfl
  rw [htwo] at hnow
  rw [hnano]
  omega

/-- A client is served as long as not two of its refreshes in a row fail to be admitted in time. -/
theorem refreshed_client_served {now interval : UInt64} {config : Option BpfConfig}
    {verifier : SpaVerifier} {files : FileSystem} {events : List LookupEvent}
    {outputs : List Output} {final : LookupState}
    (hinterval : refreshInterval allowTtlSeconds = some interval)
    (hrun : Run (leased crypto toml host allowTtlSeconds admission) unrestricted
      (⟨start now config verifier files, []⟩, .none) events outputs (final, lease))
    (hforce : lease.inForce = some since)
    (hnow : final.daemon.now.toNat < since.toNat + 2 * (interval.toNat * 1000000000))
    (hclock : final.daemon.now.toNat < 2 ^ 64 - 1) (halive : final.daemon.task ≠ .exited) :
    Serves crypto toml host allowTtlSeconds admission final.daemon := by
  have hbefore := lt_deadline_of_refreshInterval hinterval hnow hclock
  exact ((holds_of_run hrun).admitted since hforce hbefore).serves hbefore halive

end Ghostbro.Daemon
