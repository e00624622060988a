import Ghostbro.Server.Gate

/-!
# Coherence of the two allow lists

`purge_key_id` walks the mirror and never the kernel map.  It is complete because every live kernel
entry has its twin in the mirror, except while `allow_source` is between its two inserts.  The
invariant also follows a purge: the live kernel entries of its key are among the addresses that
are still to be removed, so none is left when it returns.
-/

namespace Ghostbro.Daemon

open Machine

/-- The key that the task is purging. -/
def Task.purgedKey : Task → Option KeyId
  | .selected (.purge keyId) _ _ => some keyId
  | .removing (.purge keyId) _ _ _ => some keyId
  | _ => none

/-- The admission whose entry the task is about to write. -/
def Task.admission : Task → Option Admission
  | .accepted admission => some admission
  | .stamped admission _ => some admission
  | .kernelWritten admission _ => some admission
  | _ => none

/-- The entry that is in the kernel map and not yet in the mirror. -/
def Task.unmirrored : Task → Option (UInt32 × AllowEntry)
  | .kernelWritten admission entry => some (admission.srcIp, entry)
  | _ => none

@[simp]
theorem Task.purgedKey_resume (keyIds : List KeyId) : (Task.resume keyIds).purgedKey = none := by
  cases keyIds <;> rfl

@[simp]
theorem Task.admission_resume (keyIds : List KeyId) : (Task.resume keyIds).admission = none := by
  cases keyIds <;> rfl

@[simp]
theorem Task.unmirrored_resume (keyIds : List KeyId) :
    (Task.resume keyIds).unmirrored = none := by
  cases keyIds <;> rfl

/-- The kernel map holds this entry and it has not expired. -/
def Gate.Live (gate : Gate) (srcIp : UInt32) (entry : AllowEntry) : Prop :=
  gate.allowMap.lookup srcIp = some entry ∧ gate.now < entry.expiryNs

/-- The mirror holds this entry. -/
def Gate.Mirrors (gate : Gate) (srcIp : UInt32) (entry : AllowEntry) : Prop :=
  ∃ source, gate.mirror.lookup srcIp = some source ∧ source.entry = entry

structure Coherent (gate : Gate) : Prop where
  mirrored : ∀ srcIp entry, gate.Live srcIp entry →
    gate.Mirrors srcIp entry ∨ gate.task.unmirrored = some (srcIp, entry)
  written : ∀ srcIp entry entry', gate.task.unmirrored = some (srcIp, entry) →
    gate.allowMap.lookup srcIp = some entry' → entry' = entry
  covered : ∀ keyId srcIp entry, gate.task.purgedKey = some keyId → gate.Live srcIp entry →
    entry.keyId = keyId → srcIp ∈ gate.task.pending

/-! ### One transition -/

/-- Transitions that remove kernel entries, move the clock and the task, and keep the mirror. -/
theorem Coherent.shrink {gate next : Gate} (hcoherent : Coherent gate)
    (hlive : ∀ srcIp entry, next.Live srcIp entry → gate.Live srcIp entry)
    (hlookup : ∀ srcIp entry, next.allowMap.lookup srcIp = some entry →
      gate.allowMap.lookup srcIp = some entry)
    (hmirror : next.mirror = gate.mirror) (htask : next.task = gate.task) : Coherent next where
  mirrored srcIp entry h := by
    unfold Gate.Mirrors
    rw [hmirror, htask]
    exact hcoherent.mirrored srcIp entry (hlive srcIp entry h)
  written srcIp entry entry' h h' := by
    rw [htask] at h
    exact hcoherent.written srcIp entry entry' h (hlookup srcIp entry' h')
  covered keyId srcIp entry h h' := by
    rw [htask] at h ⊢
    exact hcoherent.covered keyId srcIp entry h (hlive srcIp entry h')

/-- Transitions of the task alone, between positions that write nothing and purge nothing. -/
theorem Coherent.setTask {gate : Gate} (hcoherent : Coherent gate) {task : Task}
    (hbefore : gate.task.unmirrored = none) (hafter : task.unmirrored = none)
    (hpurged : task.purgedKey = none) : Coherent { gate with task := task } where
  mirrored srcIp entry h := by
    rcases hcoherent.mirrored srcIp entry h with hmirrors | htask
    · exact .inl hmirrors
    · simp [hbefore] at htask
  written srcIp entry entry' h _ := by simp [hafter] at h
  covered keyId srcIp entry h _ _ := by simp [hpurged] at h

/-- Dropping a kernel entry. -/
theorem Coherent.eraseKernel {gate : Gate} (hcoherent : Coherent gate) (srcIp : UInt32) :
    Coherent { gate with allowMap := gate.allowMap.erase srcIp } :=
  hcoherent.shrink (fun _ _ h ↦ ⟨(HashMap.lookup_of_lookup_erase h.1).2, h.2⟩)
    (fun _ _ h ↦ (HashMap.lookup_of_lookup_erase h).2) rfl rfl

/-- The kernel insert of `allow_source`. -/
theorem Coherent.kernelInsert {gate : Gate} (hcoherent : Coherent gate) {admission : Admission}
    {entry : AllowEntry} (htask : gate.task = .stamped admission entry) :
    Coherent { gate with
      allowMap := gate.allowMap.insert admission.srcIp entry
      task := .kernelWritten admission entry } where
  mirrored srcIp entry' h := by
    obtain ⟨hlookup, hlive⟩ := h
    rw [HashMap.lookup_insert_ite] at hlookup
    split_ifs at hlookup with hip
    · obtain rfl := Option.some.inj hlookup
      exact .inr (by rw [hip]; rfl)
    · rcases hcoherent.mirrored srcIp entry' ⟨hlookup, hlive⟩ with hmirrors | hunmirrored
      · exact .inl hmirrors
      · simp [htask, Task.unmirrored] at hunmirrored
  written srcIp entry' entry'' h h' := by
    obtain ⟨rfl, rfl⟩ : admission.srcIp = srcIp ∧ entry = entry' := by
      simpa [Task.unmirrored] using h
    rw [HashMap.lookup_insert_ite, if_pos rfl] at h'
    exact (Option.some.inj h').symm
  covered keyId srcIp entry' h := by cases h

/-- The mirror insert of `allow_source`. -/
theorem Coherent.mirrorInsert {gate : Gate} (hcoherent : Coherent gate) {admission : Admission}
    {entry : AllowEntry} (htask : gate.task = .kernelWritten admission entry) :
    Coherent { gate with
      mirror := gate.mirror.insert admission.srcIp (sourceOf admission.accept entry)
      task := .idle } where
  mirrored srcIp entry' h := by
    have hunmirrored : gate.task.unmirrored = some (admission.srcIp, entry) := by rw [htask]; rfl
    refine .inl ?_
    unfold Gate.Mirrors
    simp only [HashMap.lookup_insert_ite]
    split_ifs with hip
    · subst hip
      have hentry := hcoherent.written _ entry entry' hunmirrored h.1
      exact ⟨_, rfl, hentry.symm⟩
    · rcases hcoherent.mirrored srcIp entry' h with hmirrors | hother
      · exact hmirrors
      · rw [hunmirrored] at hother
        obtain ⟨hsame, _⟩ : admission.srcIp = srcIp ∧ entry = entry' := by simpa using hother
        exact absurd hsame.symm hip
  written srcIp entry' entry'' h := by cases h
  covered keyId srcIp entry' h := by cases h

/-- A lookup drops a mirror entry only after its kernel twin has expired. -/
theorem Coherent.lookupExpired {gate : Gate} (hcoherent : Coherent gate) {srcIp : UInt32}
    {source : AllowedSource} (hlookup : gate.mirror.lookup srcIp = some source)
    (hexpired : source.entry.expiryNs ≤ gate.now) :
    Coherent { gate with mirror := gate.mirror.erase srcIp } where
  mirrored srcIp' entry h := by
    rcases hcoherent.mirrored srcIp' entry h with ⟨source', hmirror, hentry⟩ | hunmirrored
    · refine .inl ⟨source', ?_, hentry⟩
      rw [HashMap.lookup_erase_ite]
      split_ifs with hip
      · rw [hip, hlookup] at hmirror
        obtain rfl := Option.some.inj hmirror
        rw [hentry] at hexpired
        exact absurd h.2 (UInt64.not_lt.mpr hexpired)
      · exact hmirror
    · exact .inr hunmirrored
  written := hcoherent.written
  covered := hcoherent.covered

/-- The selection of a purge finds every live kernel entry of its key. -/
theorem Coherent.mem_selection {gate : Gate} (hcoherent : Coherent gate) {event : Event}
    {keyId : KeyId} {rest : List KeyId} {selection sources : List UInt32}
    (hselects : Selects gate event (.purge keyId) rest selection sources) {srcIp : UInt32}
    {entry : AllowEntry} (hlive : gate.Live srcIp entry) (hkey : entry.keyId = keyId) :
    srcIp ∈ selection := by
  cases hselects with
  | purge htask =>
    rcases hcoherent.mirrored srcIp entry hlive with ⟨source, hmirror, rfl⟩ | hunmirrored
    · exact HashMap.mem_keysWhere.mpr ⟨source, hmirror, by simpa using hkey⟩
    · simp [htask, Task.unmirrored] at hunmirrored

theorem Selects.unmirrored {gate : Gate} {event : Event} {removal : Removal} {rest : List KeyId}
    {selection sources : List UInt32} (h : Selects gate event removal rest selection sources) :
    gate.task.unmirrored = none := by
  cases h with
  | purge htask => rw [htask]; rfl
  | reap htask => rw [htask]; rfl

theorem Coherent.select {gate : Gate} (hcoherent : Coherent gate) {event : Event}
    {removal : Removal} {rest : List KeyId} {selection sources : List UInt32}
    (hselects : Selects gate event removal rest selection sources)
    (hperm : sources.Perm selection) :
    Coherent { gate with task := .selected removal rest sources } where
  mirrored srcIp entry h := by
    rcases hcoherent.mirrored srcIp entry h with hmirrors | hunmirrored
    · exact .inl hmirrors
    · simp [hselects.unmirrored] at hunmirrored
  written srcIp entry entry' h := by cases h
  covered keyId srcIp entry h hlive hkey := by
    cases removal with
    | purge keyId' =>
      obtain rfl : keyId' = keyId := by simpa [Task.purgedKey] using h
      exact hperm.mem_iff.mpr (hcoherent.mem_selection hselects hlive hkey)
    | reap => cases h

theorem Coherent.lockMirror {gate : Gate} (hcoherent : Coherent gate) {removal : Removal}
    {rest : List KeyId} {sources : List UInt32}
    (htask : gate.task = .selected removal rest sources) :
    Coherent { gate with task := .removing removal rest sources sources } where
  mirrored srcIp entry h := by
    rcases hcoherent.mirrored srcIp entry h with hmirrors | hunmirrored
    · exact .inl hmirrors
    · simp [htask, Task.unmirrored] at hunmirrored
  written srcIp entry entry' h := by cases h
  covered keyId srcIp entry h hlive hkey := by
    have hpurged : gate.task.purgedKey = some keyId := by
      rw [htask]
      cases removal <;> exact h
    have hpending := hcoherent.covered keyId srcIp entry hpurged hlive hkey
    rwa [htask] at hpending

theorem Coherent.removeNext {gate : Gate} (hcoherent : Coherent gate) {removal : Removal}
    {rest : List KeyId} {sources remaining : List UInt32} {srcIp : UInt32}
    (htask : gate.task = .removing removal rest sources (srcIp :: remaining)) :
    Coherent { gate with
      allowMap := gate.allowMap.erase srcIp
      mirror := gate.mirror.erase srcIp
      task := .removing removal rest sources remaining } where
  mirrored srcIp' entry h := by
    obtain ⟨hip, hlookup⟩ := HashMap.lookup_of_lookup_erase h.1
    rcases hcoherent.mirrored srcIp' entry ⟨hlookup, h.2⟩ with ⟨source, hmirror, hentry⟩ | htask'
    · refine .inl ⟨source, ?_, hentry⟩
      rw [HashMap.lookup_erase_ite, if_neg hip]
      exact hmirror
    · simp [htask, Task.unmirrored] at htask'
  written srcIp' entry entry' h := by cases h
  covered keyId srcIp' entry h hlive hkey := by
    obtain ⟨hip, hlookup⟩ := HashMap.lookup_of_lookup_erase hlive.1
    have hpurged : gate.task.purgedKey = some keyId := by
      rw [htask]
      cases removal <;> exact h
    have hpending := hcoherent.covered keyId srcIp' entry hpurged ⟨hlookup, hlive.2⟩ hkey
    rw [htask] at hpending
    rcases List.mem_cons.mp hpending with hsame | hremaining
    · exact absurd hsame hip
    · exact hremaining

variable {crypto : Crypto} {toml : Toml} {host : Endian} {allowTtlSeconds : UInt64}

/-- Every transition keeps the two lists coherent. -/
theorem Coherent.effect {gate next : Gate} {event : Event} {emitted : Option Output}
    (hcoherent : Coherent gate) (h : Effect allowTtlSeconds gate event next emitted) :
    Coherent next := by
  cases h with
  | quiet => exact hcoherent
  | tick hnow =>
    refine hcoherent.shrink (fun srcIp entry h ↦ ⟨h.1, ?_⟩) (fun _ _ h ↦ h) rfl rfl
    exact UInt64.lt_of_le_of_lt hnow h.2
  | lazyDelete _ _ => exact hcoherent.eraseKernel _
  | evict => exact hcoherent.eraseKernel _
  | accepted htask _ => exact hcoherent.setTask (by rw [htask]; rfl) rfl rfl
  | stamp htask => exact hcoherent.setTask (by rw [htask]; rfl) rfl rfl
  | kernelInsert htask => exact hcoherent.kernelInsert htask
  | insertFailed htask => exact hcoherent.setTask (by rw [htask]; rfl) rfl rfl
  | mirrorInsert htask => exact hcoherent.mirrorInsert htask
  | reload htask _ => exact hcoherent.setTask (by rw [htask]; rfl) (by simp) (by simp)
  | reapClock htask => exact hcoherent.setTask (by rw [htask]; rfl) rfl rfl
  | selectNone hselects _ => exact hcoherent.setTask hselects.unmirrored (by simp) (by simp)
  | select hselects hperm => exact hcoherent.select hselects hperm
  | lockMirror htask => exact hcoherent.lockMirror htask
  | removeNext htask _ => exact hcoherent.removeNext htask
  | removeFailed htask _ => exact hcoherent.setTask (by rw [htask]; rfl) rfl rfl
  | finishRemoval htask => exact hcoherent.setTask (by rw [htask]; rfl) (by simp) (by simp)
  | lookupExpired hlookup hexpired => exact hcoherent.lookupExpired hlookup hexpired
  | connect _ _ => exact ⟨hcoherent.mirrored, hcoherent.written, hcoherent.covered⟩
  | progress _ _ _ => exact ⟨hcoherent.mirrored, hcoherent.written, hcoherent.covered⟩
  | granted _ _ => exact ⟨hcoherent.mirrored, hcoherent.written, hcoherent.covered⟩
  | dropped => exact ⟨hcoherent.mirrored, hcoherent.written, hcoherent.covered⟩

/-! ### A purged key stays out -/

/-- No kernel entry of the key is live and none is about to be written. -/
structure Shut (keyId : KeyId) (gate : Gate) : Prop where
  expired : ∀ srcIp entry, gate.allowMap.lookup srcIp = some entry → entry.keyId = keyId →
    entry.expiryNs ≤ gate.now
  admission : ∀ admission, gate.task.admission = some admission → admission.accept.keyId ≠ keyId
  stamped : ∀ admission entry, gate.task = .stamped admission entry → entry.keyId ≠ keyId

/-- The transitions of the task alone. -/
theorem Shut.setTask {keyId : KeyId} {gate : Gate} (hshut : Shut keyId gate) {task : Task}
    (hadmission : task.admission = none) : Shut keyId { gate with task := task } where
  expired := hshut.expired
  admission admission h := by simp [hadmission] at h
  stamped admission entry h := by
    have htask : task = .stamped admission entry := h
    simp [htask, Task.admission] at hadmission

/-- Transitions that at most remove kernel entries and keep the task. -/
theorem Shut.shrink {keyId : KeyId} {gate next : Gate} (hshut : Shut keyId gate)
    (hnow : gate.now ≤ next.now) (htask : next.task = gate.task)
    (hlookup : ∀ srcIp entry, next.allowMap.lookup srcIp = some entry →
      gate.allowMap.lookup srcIp = some entry) : Shut keyId next where
  expired srcIp entry h hkey := UInt64.le_trans (hshut.expired srcIp entry (hlookup srcIp entry h)
    hkey) hnow
  admission := by rw [htask]; exact hshut.admission
  stamped := by rw [htask]; exact hshut.stamped

theorem Shut.eraseKernel {keyId : KeyId} {gate : Gate} (hshut : Shut keyId gate)
    (srcIp : UInt32) : Shut keyId { gate with allowMap := gate.allowMap.erase srcIp } :=
  hshut.shrink (UInt64.le_refl _) rfl fun _ _ h ↦ (HashMap.lookup_of_lookup_erase h).2

theorem Shut.stamp {keyId : KeyId} {gate : Gate} (hshut : Shut keyId gate) {admission : Admission}
    (htask : gate.task = .accepted admission) (nowNs : UInt64) :
    Shut keyId { gate with
      task := .stamped admission (entryOf allowTtlSeconds admission.accept nowNs) } := by
  have hkey : admission.accept.keyId ≠ keyId :=
    hshut.admission admission (by rw [htask]; rfl)
  refine ⟨hshut.expired, fun admission' h ↦ ?_, fun admission' entry h ↦ ?_⟩
  · obtain rfl : admission = admission' := by simpa [Task.admission] using h
    exact hkey
  · obtain ⟨_, rfl⟩ : admission = admission' ∧
        entryOf allowTtlSeconds admission.accept nowNs = entry := by simpa using h
    exact hkey

theorem Shut.kernelInsert {keyId : KeyId} {gate : Gate} (hshut : Shut keyId gate)
    {admission : Admission} {entry : AllowEntry} (htask : gate.task = .stamped admission entry) :
    Shut keyId { gate with
      allowMap := gate.allowMap.insert admission.srcIp entry
      task := .kernelWritten admission entry } where
  expired srcIp entry' h hkey := by
    rw [HashMap.lookup_insert_ite] at h
    split_ifs at h
    · obtain rfl := Option.some.inj h
      exact absurd hkey (hshut.stamped admission entry htask)
    · exact hshut.expired srcIp entry' h hkey
  admission admission' h := by
    obtain rfl : admission = admission' := by simpa [Task.admission] using h
    exact hshut.admission admission (by rw [htask]; rfl)
  stamped admission' entry' h := by cases h

/-- A purge that returns leaves its key shut. -/
theorem shut_of_covered {keyId : KeyId} {gate : Gate} (hcoherent : Coherent gate)
    {rest : List KeyId} {sources : List UInt32}
    (htask : gate.task = .removing (.purge keyId) rest sources []) (keyIds : List KeyId) :
    Shut keyId { gate with task := .resume keyIds } where
  expired srcIp entry h hkey := by
    by_contra hlive
    have hpending := hcoherent.covered keyId srcIp entry (by rw [htask]; rfl)
      ⟨h, UInt64.not_le.mp hlive⟩ hkey
    rw [htask] at hpending
    cases hpending
  admission admission h := by simp at h
  stamped admission entry h := by
    have hadmission := Task.admission_resume keyIds
    have htask' : Task.resume keyIds = .stamped admission entry := h
    simp [htask', Task.admission] at hadmission

/-- So does a purge that finds nothing to remove. -/
theorem shut_of_selectNone {keyId : KeyId} {gate : Gate} (hcoherent : Coherent gate)
    {event : Event} {rest : List KeyId}
    (hselects : Selects gate event (.purge keyId) rest [] []) :
    Shut keyId { gate with task := .resume rest } where
  expired srcIp entry h hkey := by
    by_contra hlive
    have hmem := hcoherent.mem_selection hselects ⟨h, UInt64.not_le.mp hlive⟩ hkey
    cases hmem
  admission admission h := by simp at h
  stamped admission entry h := by
    have hadmission := Task.admission_resume rest
    have htask : Task.resume rest = .stamped admission entry := h
    simp [htask, Task.admission] at hadmission

/-- The output reports that a purge of the key returned. -/
def IsPurgeOf (keyId : KeyId) (output : Output) : Prop :=
  ∃ sources, output = .removed (.purge keyId) sources

/-- The output reports an accepted SPA packet of the key. -/
def IsAcceptOf (keyId : KeyId) (output : Output) : Prop :=
  ∃ admission, output = .accepted admission ∧ admission.accept.keyId = keyId

theorem shut_of_isPurgeOf {keyId : KeyId} {gate next : Gate} {event : Event} {output : Output}
    (hcoherent : Coherent gate) (h : Effect allowTtlSeconds gate event next (some output))
    (hpurge : IsPurgeOf keyId output) : Shut keyId next := by
  obtain ⟨sources, rfl⟩ := hpurge
  cases h with
  | selectNone hselects hempty =>
    subst hempty
    exact shut_of_selectNone hcoherent hselects
  | finishRemoval htask => exact shut_of_covered hcoherent htask _

/-- A shut key stays shut until a packet of it is accepted. -/
theorem Shut.effect {keyId : KeyId} {gate next : Gate} {event : Event} {emitted : Option Output}
    (hshut : Shut keyId gate) (h : Effect allowTtlSeconds gate event next emitted)
    (hclosed : ∀ output ∈ emitted, ¬IsAcceptOf keyId output) : Shut keyId next := by
  cases h with
  | quiet => exact hshut
  | tick hnow => exact hshut.shrink hnow rfl fun _ _ h ↦ h
  | lazyDelete _ _ => exact hshut.eraseKernel _
  | evict => exact hshut.eraseKernel _
  | accepted htask _ =>
    refine ⟨hshut.expired, fun admission h ↦ ?_, fun _ _ h ↦ by cases h⟩
    intro hkey
    obtain rfl := Option.some.inj h
    exact hclosed _ rfl ⟨_, rfl, hkey⟩
  | stamp htask => exact hshut.stamp htask _
  | kernelInsert htask => exact hshut.kernelInsert htask
  | insertFailed htask => exact hshut.setTask rfl
  | mirrorInsert htask => exact ⟨hshut.expired, fun _ h ↦ (by cases h), fun _ _ h ↦ (by cases h)⟩
  | reload htask _ => exact hshut.setTask (by simp)
  | reapClock htask => exact hshut.setTask rfl
  | selectNone hselects _ => exact hshut.setTask (by simp)
  | select hselects hperm => exact hshut.setTask rfl
  | lockMirror htask => exact hshut.setTask rfl
  | removeNext htask _ =>
    exact ⟨(hshut.eraseKernel _).expired, fun _ h ↦ (by cases h), fun _ _ h ↦ (by cases h)⟩
  | removeFailed htask _ => exact hshut.setTask rfl
  | finishRemoval htask => exact hshut.setTask (by simp)
  | lookupExpired _ _ => exact ⟨hshut.expired, hshut.admission, hshut.stamped⟩
  | connect _ _ => exact ⟨hshut.expired, hshut.admission, hshut.stamped⟩
  | progress _ _ _ => exact ⟨hshut.expired, hshut.admission, hshut.stamped⟩
  | granted _ _ => exact ⟨hshut.expired, hshut.admission, hshut.stamped⟩
  | dropped => exact ⟨hshut.expired, hshut.admission, hshut.stamped⟩

/-! ### Whole runs -/

theorem coherent_start (now : UInt64) (config : Option BpfConfig) (verifier : SpaVerifier)
    (files : FileSystem) : Coherent (start now config verifier files).gate where
  mirrored srcIp entry h := by cases h.1
  written srcIp entry entry' h := by cases h
  covered keyId srcIp entry h := by cases h

variable {now : UInt64} {config : Option BpfConfig} {verifier : SpaVerifier} {files : FileSystem}
  {events : List Event} {outputs : List Output} {state : State}

theorem coherent_of_run
    (hrun : Run (step crypto toml host allowTtlSeconds) unrestricted
      (start now config verifier files) events outputs state) : Coherent state.gate :=
  Run.invariant (fun _ state ↦ Coherent state.gate) (coherent_start now config verifier files)
    (fun _ _ _ _ _ hcoherent _ hstep ↦ hcoherent.effect (effect_of_step hstep)) hrun

/-- A key stays shut after its purge for as long as no packet of it is accepted. -/
theorem shut_of_run {keyId : KeyId}
    (hrun : Run (step crypto toml host allowTtlSeconds) unrestricted
      (start now config verifier files) events outputs state)
    (hsince : Since (IsPurgeOf keyId) (IsAcceptOf keyId) outputs) : Shut keyId state.gate :=
  Run.since (fun state ↦ Coherent state.gate) (fun state ↦ Shut keyId state.gate)
    (coherent_start now config verifier files)
    (fun _ _ _ _ hcoherent _ hstep ↦ hcoherent.effect (effect_of_step hstep))
    (fun _ _ _ _ hcoherent _ hstep hpurge ↦
      shut_of_isPurgeOf hcoherent (effect_of_step hstep) hpurge)
    (fun _ _ _ _ _ hshut _ hstep hclosed ↦ hshut.effect (effect_of_step hstep) hclosed)
    hrun hsince

theorem reloaded_of_run
    (hrun : Run (step crypto toml host allowTtlSeconds) unrestricted
      (start now config verifier files) events outputs state) :
    EachAfter (fun _ output ↦ ∀ previous clients removed,
      output = .reloaded previous clients removed →
      ∀ keyId, keyId ∈ removed ↔ keyId ∈ previous ∧ ∀ client ∈ clients, client.keyId ≠ keyId)
      outputs := by
  refine Run.history (fun _ _ ↦ True) trivial (fun _ _ _ _ _ _ _ _ ↦ trivial) ?_ hrun
  rintro outputs state event next output _ _ hstep previous clients removed rfl
  have heffect := effect_of_step hstep
  generalize state.gate = gate, next.gate = gate' at heffect
  cases heffect with
  | reload _ hremoved => exact hremoved

/-- In every state between loop steps each live kernel entry has its twin in the mirror; and once
every key that a reload reported has been purged, no source with a removed key passes the gate
before a new packet of that key is accepted. -/
theorem revocation_complete (crypto : Crypto) (toml : Toml) (host : Endian)
    (allowTtlSeconds now : UInt64) (config : Option BpfConfig) (verifier : SpaVerifier)
    (files : FileSystem) (events : List Event) (outputs : List Output) (state : State)
    (hrun : Run (step crypto toml host allowTtlSeconds) unrestricted
      (start now config verifier files) events outputs state) :
    (state.task = .idle → ∀ srcIp entry, state.maps.allowMap.lookup srcIp = some entry →
      state.now < entry.expiryNs →
      ∃ source, state.mirror.lookup srcIp = some source ∧ source.entry = entry) ∧
    ∀ before previous clients removed after,
      outputs = before ++ .reloaded previous clients removed :: after →
      (∀ keyId ∈ removed, ∃ sources, .removed (.purge keyId) sources ∈ after) →
      ∀ keyId ∈ previous, (∀ client ∈ clients, client.keyId ≠ keyId) →
        (∀ admission, .accepted admission ∈ after → admission.accept.keyId ≠ keyId) →
        ∀ srcIp entry, state.maps.allowMap.lookup srcIp = some entry → entry.keyId = keyId →
          (Xdp.isAllowed state.maps state.now srcIp).2 = false := by
  constructor
  · intro htask srcIp entry hlookup hlive
    rcases (coherent_of_run hrun).mirrored srcIp entry ⟨hlookup, hlive⟩ with hmirrors | hunmirrored
    · exact hmirrors
    · have hidle : state.gate.task = .idle := htask
      simp [hidle, Task.unmirrored] at hunmirrored
  · intro before previous clients removed after heq hpurged keyId hprevious hclients haccepts srcIp
      entry hlookup hkey
    have hremoved : keyId ∈ removed :=
      (reloaded_of_run hrun before _ after heq previous clients removed rfl keyId).mpr
        ⟨hprevious, hclients⟩
    obtain ⟨sources, hmem⟩ := hpurged keyId hremoved
    obtain ⟨between, rest, rfl⟩ := List.append_of_mem hmem
    have hsince : Since (IsPurgeOf keyId) (IsAcceptOf keyId) outputs := by
      refine ⟨before ++ .reloaded previous clients removed :: between, _, rest, by simp [heq],
        ⟨sources, rfl⟩, ?_⟩
      rintro later hlater ⟨admission, rfl, hadmission⟩
      exact haccepts admission (by simp [hlater]) hadmission
    have hexpired := (shut_of_run hrun hsince).expired srcIp entry hlookup hkey
    have hlookup' : state.maps.allowMap.lookup srcIp = some entry := hlookup
    have hexpired' : entry.expiryNs ≤ state.now := hexpired
    simp [Xdp.isAllowed, hlookup', hexpired']

/-- After the purge of the sample client its address no longer passes. -/
theorem revocation_complete_sample :
    ∃ events outputs state,
      Run Sample.sampleStep unrestricted Sample.started events outputs state ∧
      .removed (.purge Sample.keyId) [Sample.srcIp] ∈ outputs ∧
      ∀ srcIp entry, state.maps.allowMap.lookup srcIp = some entry → entry.keyId = Sample.keyId →
        (Xdp.isAllowed state.maps state.now srcIp).2 = false := by
  have hrun := ((Sample.run_admitted unrestricted trivial trivial trivial trivial trivial).append
    (Sample.run_connecting unrestricted trivial trivial trivial)).append Sample.run_revoked
  have hmem : Sample.keyId ∈ Sample.verifier.clients := by decide +kernel
  refine ⟨_, _, _, hrun, by simp [Sample.revokedOutputs], ?_⟩
  refine (revocation_complete Crypto.transparent Toml.plain .little 14400 1000 none
    Sample.verifier ∅ _ _ _ hrun).2 _ _ _ _ _ rfl ?_ Sample.keyId hmem (by simp) (by simp)
  intro keyId hkeyId
  obtain rfl := List.mem_singleton.mp hkeyId
  exact ⟨[Sample.srcIp], by simp⟩

end Ghostbro.Daemon
