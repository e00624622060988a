import Ghostbro.Server.Gate

/-!
# Reaping and purging

Both calls select addresses from the mirror and delete each of them from the kernel map, where
deleting an absent address is an error that ends the process.  The kernel deletes entries on its
own, by lazy deletion and by eviction, and the mirror does not learn of it.  As long as the kernel
map still holds what is selected and keeps it until its turn, no call fails and every selected
mirror entry is removed.
-/

namespace Ghostbro.Daemon

open Machine

/-- The kernel map holds every selected address, and no kernel deletion hits an address that a
reap or purge has selected and not yet removed. -/
def KeepsPending (state : State) : Event → Prop
  | .purgeSelect sources => ∀ srcIp ∈ sources, srcIp ∈ state.maps.allowMap
  | .reapSelect sources => ∀ srcIp ∈ sources, srcIp ∈ state.maps.allowMap
  | .frame context frame => ∀ srcIp ∈ state.task.pending, srcIp ∈ state.maps.allowMap →
      srcIp ∈ (Xdp.ghostbroXdp context state.maps frame).1.allowMap
  | .evict srcIp => srcIp ∉ state.task.pending
  | _ => True

/-- Every pending address can be deleted, and those that are done have left the mirror. -/
structure Removable (gate : Gate) : Prop where
  pending : ∀ srcIp ∈ gate.task.pending, srcIp ∈ gate.allowMap
  nodup : gate.task.pending.Nodup
  gone : ∀ removal rest sources remaining,
    gate.task = .removing removal rest sources remaining →
    ∀ srcIp ∈ sources, srcIp ∈ remaining ∨ srcIp ∉ gate.mirror

@[simp]
theorem Task.pending_resume (keyIds : List KeyId) : (Task.resume keyIds).pending = [] := by
  cases keyIds <;> rfl

/-- A gate whose task has nothing selected. -/
theorem removable_of_noRemoval {gate : Gate} (hpending : gate.task.pending = [])
    (htask : ∀ removal rest sources remaining,
      gate.task ≠ .removing removal rest sources remaining) : Removable gate where
  pending srcIp h := by simp [hpending] at h
  nodup := by simp [hpending]
  gone removal rest sources remaining h := absurd h (htask removal rest sources remaining)

theorem Task.resume_ne_removing (keyIds : List KeyId) (removal : Removal) (rest : List KeyId)
    (sources remaining : List UInt32) :
    Task.resume keyIds ≠ .removing removal rest sources remaining := by
  cases keyIds <;> simp [Task.resume]

theorem Selects.nodup {gate : Gate} {event : Event} {removal : Removal} {rest : List KeyId}
    {selection sources : List UInt32} (h : Selects gate event removal rest selection sources) :
    selection.Nodup := by
  cases h with
  | purge _ => exact HashMap.nodup_keysWhere _ _
  | reap _ => exact HashMap.nodup_keysWhere _ _

theorem Removable.removeNext {gate : Gate} (hremovable : Removable gate) {removal : Removal}
    {rest : List KeyId} {sources remaining : List UInt32} {srcIp : UInt32}
    (htask : gate.task = .removing removal rest sources (srcIp :: remaining)) :
    Removable { gate with
      allowMap := gate.allowMap.erase srcIp
      mirror := gate.mirror.erase srcIp
      task := .removing removal rest sources remaining } := by
  have hnodup := hremovable.nodup
  rw [htask] at hnodup
  obtain ⟨hhead, hremaining⟩ := List.nodup_cons.mp hnodup
  refine ⟨fun other hother ↦ ?_, hremaining, ?_⟩
  · have hne : other ≠ srcIp := fun heq ↦ hhead (heq ▸ hother)
    have hmem := hremovable.pending other (by rw [htask]; exact List.mem_cons_of_mem _ hother)
    exact AList.mem_erase.mpr ⟨hne, hmem⟩
  · intro removal' rest' sources' remaining' heq other hother
    obtain ⟨rfl, rfl, rfl, rfl⟩ : removal = removal' ∧ rest = rest' ∧ sources = sources' ∧
        remaining = remaining' := by simpa using heq
    rcases hremovable.gone _ _ _ _ htask other hother with hmem | hmirror
    · rcases List.mem_cons.mp hmem with rfl | hmem
      · exact .inr fun h ↦ (AList.mem_erase.mp h).1 rfl
      · exact .inl hmem
    · exact .inr fun h ↦ hmirror (AList.mem_erase.mp h).2

variable {crypto : Crypto} {toml : Toml} {host : Endian} {allowTtlSeconds : UInt64}

/-- Changing the mirror by an erase, the clock or the connections keeps what is removable. -/
theorem Removable.congr {gate next : Gate} (hremovable : Removable gate)
    (hallowMap : next.allowMap = gate.allowMap) (htask : next.task = gate.task)
    (hmirror : ∀ srcIp, srcIp ∈ next.mirror → srcIp ∈ gate.mirror) : Removable next where
  pending := by rw [htask, hallowMap]; exact hremovable.pending
  nodup := by rw [htask]; exact hremovable.nodup
  gone removal rest sources remaining h srcIp hsrcIp := by
    rw [htask] at h
    rcases hremovable.gone removal rest sources remaining h srcIp hsrcIp with hmem | hgone
    · exact .inl hmem
    · exact .inr fun hnext ↦ hgone (hmirror srcIp hnext)

/-- Every transition other than a lazy deletion. -/
theorem Removable.effect {gate next : Gate} {event : Event} {emitted : Option Output}
    (hremovable : Removable gate) (h : Effect allowTtlSeconds gate event next emitted)
    (hframe : ∀ context frame, event ≠ .frame context frame)
    (hevict : ∀ srcIp, event = .evict srcIp → srcIp ∉ gate.task.pending)
    (hselect : ∀ removal rest selection sources,
      Selects gate event removal rest selection sources →
        ∀ srcIp ∈ sources, srcIp ∈ gate.allowMap) :
    Removable next := by
  cases h with
  | quiet => exact hremovable
  | tick _ => exact hremovable.congr rfl rfl fun _ h ↦ h
  | lazyDelete _ _ => exact absurd rfl (hframe _ _)
  | @evict srcIp =>
    refine ⟨fun other hother ↦ ?_, hremovable.nodup, hremovable.gone⟩
    have hne : other ≠ srcIp := fun heq ↦ hevict srcIp rfl (heq ▸ hother)
    exact AList.mem_erase.mpr ⟨hne, hremovable.pending other hother⟩
  | accepted _ _ => exact removable_of_noRemoval rfl (by simp)
  | stamp _ => exact removable_of_noRemoval rfl (by simp)
  | kernelInsert _ => exact removable_of_noRemoval rfl (by simp)
  | insertFailed _ => exact removable_of_noRemoval rfl (by simp)
  | mirrorInsert _ => exact removable_of_noRemoval rfl (by simp)
  | reload _ _ => exact removable_of_noRemoval (by simp) (Task.resume_ne_removing _)
  | reapClock _ => exact removable_of_noRemoval rfl (by simp)
  | selectNone _ _ => exact removable_of_noRemoval (by simp) (Task.resume_ne_removing _)
  | select hselects hperm =>
    exact ⟨hselect _ _ _ _ hselects, hperm.nodup_iff.mpr hselects.nodup, by simp⟩
  | lockMirror htask =>
    refine ⟨?_, ?_, ?_⟩
    · have hpending := hremovable.pending
      rwa [htask] at hpending
    · have hnodup := hremovable.nodup
      rwa [htask] at hnodup
    · intro removal rest sources remaining heq srcIp hsrcIp
      simp only [Task.removing.injEq] at heq
      rw [← heq.2.2.1, heq.2.2.2] at hsrcIp
      exact .inl hsrcIp
  | removeNext htask _ => exact hremovable.removeNext htask
  | removeFailed _ _ => exact removable_of_noRemoval rfl (by simp)
  | finishRemoval _ => exact removable_of_noRemoval (by simp) (Task.resume_ne_removing _)
  | lookupExpired _ _ =>
    exact hremovable.congr rfl rfl fun srcIp h ↦ (AList.mem_erase.mp h).2
  | connect _ _ => exact hremovable.congr rfl rfl fun _ h ↦ h
  | progress _ _ _ => exact hremovable.congr rfl rfl fun _ h ↦ h
  | granted _ _ => exact hremovable.congr rfl rfl fun _ h ↦ h
  | dropped => exact hremovable.congr rfl rfl fun _ h ↦ h

/-- One step of the daemon under the guard. -/
theorem Removable.step {state next : State} {event : Event} {emitted : Option Output}
    (hremovable : Removable state.gate) (hguard : KeepsPending state event)
    (h : step crypto toml host allowTtlSeconds state event = some (next, emitted)) :
    Removable next.gate := by
  by_cases hframe : ∃ context frame, event = .frame context frame
  · obtain ⟨context, frame, rfl⟩ := hframe
    simp only [Daemon.step, environmentStep] at h
    split_ifs at h
    obtain ⟨rfl, _⟩ := Prod.mk.inj (Option.some.inj h)
    refine ⟨fun srcIp hsrcIp ↦ ?_, hremovable.nodup, hremovable.gone⟩
    exact hguard srcIp hsrcIp (hremovable.pending srcIp hsrcIp)
  · push Not at hframe
    refine hremovable.effect (effect_of_step h) hframe ?_ ?_
    · rintro srcIp rfl
      exact hguard
    · intro removal rest selection sources hselects
      cases hselects with
      | purge _ => exact hguard
      | reap _ => exact hguard

/-- No call fails, and a call that returns has removed what it selected. -/
theorem Removable.emitted {gate next : Gate} {event : Event} {output : Output}
    (hremovable : Removable gate) (h : Effect allowTtlSeconds gate event next (some output)) :
    (∀ removal srcIp, output ≠ .removeFailed removal srcIp) ∧
      ∀ removal sources, output = .removed removal sources →
        ∀ srcIp ∈ sources, srcIp ∉ next.mirror := by
  cases h with
  | removeFailed htask habsent =>
    have hmem := hremovable.pending _ (by rw [htask]; exact List.mem_cons_self)
    exact absurd hmem habsent
  | finishRemoval htask =>
    refine ⟨by simp, fun removal sources heq srcIp hsrcIp ↦ ?_⟩
    obtain ⟨rfl, rfl⟩ : _ = removal ∧ _ = sources := by simpa using heq
    have hgone := hremovable.gone _ _ _ _ htask srcIp hsrcIp
    simpa using hgone
  | selectNone _ _ =>
    refine ⟨by simp, fun removal sources heq srcIp hsrcIp ↦ ?_⟩
    obtain ⟨_, rfl⟩ : _ = removal ∧ [] = sources := by simpa using heq
    cases hsrcIp
  | _ => simp

/-- In every run that keeps pending addresses in the kernel map, no reap or purge returns an
error, and each one that returns has removed every selected mirror entry. -/
theorem maintenance_never_fails (crypto : Crypto) (toml : Toml) (host : Endian)
    (allowTtlSeconds now : UInt64) (config : Option BpfConfig) (verifier : SpaVerifier)
    (files : FileSystem) (events : List Event) (outputs : List Output) (state : State)
    (hrun : Run (step crypto toml host allowTtlSeconds) KeepsPending
      (start now config verifier files) events outputs state) :
    (∀ removal srcIp, .removeFailed removal srcIp ∉ outputs) ∧
      ∀ event next removal sources, KeepsPending state event →
        step crypto toml host allowTtlSeconds state event =
          some (next, some (.removed removal sources)) →
        ∀ srcIp ∈ sources, srcIp ∉ next.mirror := by
  have hstart : Removable (start now config verifier files).gate :=
    removable_of_noRemoval rfl (by simp [start, State.gate])
  have hremovable : Removable state.gate :=
    Run.invariant (fun _ state ↦ Removable state.gate) hstart
      (fun _ _ _ _ _ hremovable hguard hstep ↦ hremovable.step hguard hstep) hrun
  have hhistory := Run.history (fun _ state ↦ Removable state.gate) hstart
    (fun _ _ _ _ _ hremovable hguard hstep ↦ hremovable.step hguard hstep)
    (fun _ _ _ _ output hremovable _ hstep ↦
      (hremovable.emitted (effect_of_step hstep)).1) hrun
  constructor
  · intro removal srcIp hmem
    obtain ⟨before, after, heq⟩ := List.append_of_mem hmem
    exact hhistory before _ after heq removal srcIp rfl
  · intro event next removal sources _ hstep
    exact (hremovable.emitted (effect_of_step hstep)).2 removal sources rfl

/-! ### A kernel entry that expired first -/

/-- A connection request from the sample client to the proxy port. -/
def Sample.synFrame : Bytes :=
  [2, 0, 0, 0, 0, 1, 2, 0, 0, 0, 0, 2, 0x08, 0x00] ++
    [0x45, 0, 0, 0x28, 0x12, 0x34, 0x40, 0, 0x40, 6, 0xb0, 0x89, 203, 0, 113, 7, 203, 0, 113, 10] ++
    [0xc3, 0x50, 0x20, 0xfb, 0, 0, 0, 1, 0, 0, 0, 0, 0x50, 2, 0xff, 0xff, 0x53, 0x83, 0, 0]

/-- The admission of the sample client is over, and the task has reached the given position. -/
def Sample.expired (task : Task) : State :=
  { Sample.admitted with now := 14400000001000, task := task }

/-- The reaper removes the entry of the sample client, and nothing fails. -/
theorem maintenance_never_fails_sample :
    ∃ events outputs state, Run Sample.sampleStep KeepsPending Sample.started events outputs state ∧
      outputs = [.accepted Sample.admission, .stamped Sample.admission 1000,
        .removed .reap [Sample.srcIp]] ∧
      ∀ removal srcIp, .removeFailed removal srcIp ∉ outputs := by
  let removing : List UInt32 → Task := .removing .reap [] [Sample.srcIp]
  let reaped (task : Task) : State :=
    { Sample.expired task with maps := Sample.started.maps, mirror := ∅ }
  have htick : Sample.sampleStep Sample.admitted (.tick 14400000001000) =
      some (Sample.expired .idle, none) := rfl
  have hclock : Sample.sampleStep (Sample.expired .idle) .reapClock =
      some (Sample.expired (.reaping 14400000001000), none) := rfl
  have hselect : Sample.sampleStep (Sample.expired (.reaping 14400000001000))
      (.reapSelect [Sample.srcIp]) =
        some (Sample.expired (.selected .reap [] [Sample.srcIp]), none) := by decide +kernel
  have hlock : Sample.sampleStep (Sample.expired (.selected .reap [] [Sample.srcIp]))
      .lockMirror = some (Sample.expired (removing [Sample.srcIp]), none) := rfl
  have hremove : Sample.sampleStep (Sample.expired (removing [Sample.srcIp])) .removeNext =
      some (reaped (removing []), none) := by decide +kernel
  have hfinish : Sample.sampleStep (reaped (removing [])) .finishRemoval =
      some (reaped .idle, some (.removed .reap [Sample.srcIp])) := rfl
  have hguard : KeepsPending (Sample.expired (.reaping 14400000001000))
      (.reapSelect [Sample.srcIp]) := by
    intro srcIp hsrcIp
    obtain rfl := List.mem_singleton.mp hsrcIp
    decide +kernel
  have hadmitted := Sample.run_admitted KeepsPending trivial trivial trivial trivial trivial
  have hselected := ((hadmitted.snoc (by trivial) htick).snoc (by trivial) hclock).snoc hguard
    hselect
  have hrun := ((hselected.snoc (by trivial) hlock).snoc (by trivial) hremove).snoc (by trivial)
    hfinish
  exact ⟨_, _, _, hrun, rfl, (maintenance_never_fails Crypto.transparent Toml.plain .little 14400
    1000 none Sample.verifier ∅ _ _ _ hrun).1⟩

/-- The client comes back when its admission is over; the kernel deletes the entry, and the next
reap ends the process. -/
theorem reap_fails_after_lazyDelete :
    ∃ events state, Run Sample.sampleStep unrestricted Sample.started events
      [.accepted Sample.admission, .stamped Sample.admission 1000,
        .removeFailed .reap Sample.srcIp] state ∧ state.task = .exited := by
  let context : Xdp.Context := ⟨.little, 14400000001000, 14400000001000, none⟩
  let deleted (task : Task) : State := { Sample.expired task with maps := Sample.started.maps }
  have htick : Sample.sampleStep Sample.admitted (.tick 14400000001000) =
      some (Sample.expired .idle, none) := rfl
  have hframe : Sample.sampleStep (Sample.expired .idle) (.frame context Sample.synFrame) =
      some (deleted .idle, none) := by decide +kernel
  have hclock : Sample.sampleStep (deleted .idle) .reapClock =
      some (deleted (.reaping 14400000001000), none) := rfl
  have hselect : Sample.sampleStep (deleted (.reaping 14400000001000))
      (.reapSelect [Sample.srcIp]) =
        some (deleted (.selected .reap [] [Sample.srcIp]), none) := by decide +kernel
  have hlock : Sample.sampleStep (deleted (.selected .reap [] [Sample.srcIp])) .lockMirror =
      some (deleted (.removing .reap [] [Sample.srcIp] [Sample.srcIp]), none) := by
    decide +kernel
  have hremove : Sample.sampleStep
      (deleted (.removing .reap [] [Sample.srcIp] [Sample.srcIp])) .removeNext =
        some (deleted .exited, some (.removeFailed .reap Sample.srcIp)) := by decide +kernel
  have hrun := ((((((Sample.run_admitted unrestricted trivial trivial trivial trivial
    trivial).snoc trivial htick).snoc trivial hframe).snoc trivial hclock).snoc trivial
    hselect).snoc trivial hlock).snoc trivial hremove
  exact ⟨_, _, hrun, rfl⟩

end Ghostbro.Daemon
