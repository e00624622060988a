import Ghostbro.Foundation.Machine
import Ghostbro.Foundation.PowerLoss
import Ghostbro.Server.SpaVerifier

/-!
# The counter-state file across a power loss

`save_counter_state` syncs the temporary file before it renames it over the live one, so a power
loss never leaves a part of a table in the live file.  It does not sync the directory, so the
rename itself may be taken back, and with it every save since the directory was last written.
-/

namespace Ghostbro.Saver

open Machine PowerLoss

/-! ### A save, one file operation after the other -/

/-- The file operations of `save_counter_state` after the text of the table. -/
def writeThenRenameOn (device : Device Path String) (path : Path) (contents : String) :
    Option SaveFault → Device Path String
  | some .createDir => device
  | some .createTemp => device
  | some (.writeTemp written) =>
    (device.create (path.withExtension "tmp") "").write (path.withExtension "tmp")
      (String.ofList (contents.toList.take written))
  | some .syncTemp =>
    (device.create (path.withExtension "tmp") "").write (path.withExtension "tmp") contents
  | some .rename =>
    ((device.create (path.withExtension "tmp") "").write (path.withExtension "tmp")
      contents).sync (path.withExtension "tmp")
  | none =>
    (((device.create (path.withExtension "tmp") "").write (path.withExtension "tmp")
      contents).sync (path.withExtension "tmp")).rename (path.withExtension "tmp") path

/-- `save_counter_state`: the device it leaves and its result. -/
def saveCounterStateOn (toml : Toml) (device : Device Path String) (path : Path)
    (counters : HashMap KeyId UInt64) (fault : Option SaveFault) :
    Device Path String × Except String Unit :=
  match toml.toStringPretty (counterStateFile counters) with
  | none => (device, .error "failed to serialize SPA counter state")
  | some contents =>
    (writeThenRenameOn device path contents fault,
      match fault with
      | none => .ok ()
      | some fault => .error (fault.message path))

section Operations

variable {device : Device Path String} {path : Path}

theorem lookup_insert (files : FileSystem) (path : Path) (contents : String) :
    (files.insert path contents).lookup = Function.update files.lookup path (some contents) := by
  funext name
  rw [HashMap.lookup_insert_ite, Function.update_apply]

theorem lookup_erase (files : FileSystem) (path : Path) :
    (files.erase path).lookup = Function.update files.lookup path none := by
  funext name
  rw [HashMap.lookup_erase_ite, Function.update_apply]

/-- The temporary file after its write. -/
structure Written (device : Device Path String) (temp : Path) (contents : String)
    (written : Device Path String) : Prop where
  proper : Proper written
  view : written.view = Function.update device.view temp (some contents)
  entry : ∃ node, written.entry temp = some node ∧
    written.contents node = some ⟨contents, false⟩

theorem written_of_proper (hproper : Proper device) (temp : Path) (contents : String) :
    Written device temp contents ((device.create temp "").write temp contents) := by
  obtain ⟨node, hentry⟩ := exists_entry_create device temp ""
  have hcreated := hproper.create temp ""
  refine ⟨hcreated.write hentry contents, ?_, node, ?_, ?_⟩
  · rw [hcreated.view_write hentry, hproper.view_create, Function.update_idem]
  · rw [entry_write, hentry]
  · rw [contents_write hentry, Function.update_self]

/-- What programs read while a save runs and after it is what `writeThenRename` leaves. -/
theorem view_writeThenRenameOn (hproper : Proper device) {files : FileSystem}
    (hview : device.view = files.lookup) (path : Path) (contents : String)
    (fault : Option SaveFault) :
    (writeThenRenameOn device path contents fault).view =
        (writeThenRename files path contents fault).lookup ∧
      Proper (writeThenRenameOn device path contents fault) := by
  have hwritten := written_of_proper hproper (path.withExtension "tmp")
  obtain ⟨node, hentry, -⟩ := (hwritten contents).entry
  have hsynced := (hwritten contents).proper.view_sync hentry
  cases fault with
  | none =>
    unfold writeThenRenameOn writeThenRename
    rw [lookup_insert, lookup_erase, lookup_insert, ← hview]
    by_cases hpath : path.withExtension "tmp" = path
    · rw [hpath] at hwritten hsynced hentry ⊢
      rw [Device.rename, if_pos rfl, hsynced, (hwritten contents).view, Function.update_idem,
        Function.update_idem]
      exact ⟨rfl, (hwritten contents).proper.sync hentry⟩
    · have hentry' := (congrFun (entry_sync _ (path.withExtension "tmp")) _).trans hentry
      refine ⟨?_, ((hwritten contents).proper.sync hentry).rename hpath hentry'⟩
      rw [view_rename hpath hentry', hsynced, (hwritten contents).view, Function.update_self,
        Function.update_idem, Function.update_comm hpath, Function.update_idem]
      exact Function.update_comm (Ne.symm hpath) _ _ _
  | some fault =>
    cases fault with
    | createDir => exact ⟨hview, hproper⟩
    | createTemp => exact ⟨hview, hproper⟩
    | writeTemp written =>
      refine ⟨?_, (hwritten _).proper⟩
      rw [writeThenRename, lookup_insert, ← hview]
      exact (hwritten _).view
    | syncTemp =>
      refine ⟨?_, (hwritten _).proper⟩
      rw [writeThenRename, lookup_insert, ← hview]
      exact (hwritten _).view
    | rename =>
      refine ⟨?_, (hwritten contents).proper.sync hentry⟩
      rw [writeThenRename, lookup_insert, ← hview]
      exact hsynced.trans (hwritten contents).view

/-- A save on a device does what `saveCounterState` does to the files. -/
theorem view_saveCounterStateOn (toml : Toml) (hproper : Proper device) {files : FileSystem}
    (hview : device.view = files.lookup) (path : Path) (counters : HashMap KeyId UInt64)
    (fault : Option SaveFault) :
    (saveCounterStateOn toml device path counters fault).1.view =
        (saveCounterState toml files path counters fault).1.lookup ∧
      (saveCounterStateOn toml device path counters fault).2 =
        (saveCounterState toml files path counters fault).2 ∧
      Proper (saveCounterStateOn toml device path counters fault).1 := by
  unfold saveCounterStateOn saveCounterState
  cases toml.toStringPretty (counterStateFile counters) with
  | none => exact ⟨hview, rfl, hproper⟩
  | some contents =>
    have hwrite := view_writeThenRenameOn hproper hview path contents fault
    exact ⟨hwrite.1, rfl, hwrite.2⟩

/-- A save leaves the versions of the live file alone, or adds the new table as the newest. -/
theorem versions_writeThenRenameOn {versions : List (Option String)}
    (hpath : path.withExtension "tmp" ≠ path)
    (h : Versions device path (path.withExtension "tmp") versions) (contents : String)
    (fault : Option SaveFault) :
    Versions (writeThenRenameOn device path contents fault) path (path.withExtension "tmp")
      (if fault = none then some contents :: versions else versions) := by
  have hwritten (text : String) :
      Versions ((device.create (path.withExtension "tmp") "").write (path.withExtension "tmp") text)
        path (path.withExtension "tmp") versions := by
    obtain ⟨node, hentry⟩ := exists_entry_create device (path.withExtension "tmp") ""
    exact (h.create hpath "").write hentry text
  obtain ⟨node, hentry, hcontents⟩ :=
    (written_of_proper h.proper (path.withExtension "tmp") contents).entry
  have hsynced := (hwritten contents).sync hentry
  cases fault with
  | none =>
    rw [if_pos rfl]
    apply hsynced.rename hpath
    · rw [entry_sync]
      exact hentry
    · rw [contents_sync hentry, Function.update_self, hcontents]
      rfl
  | some fault =>
    rw [if_neg nofun]
    cases fault with
    | createDir => exact h
    | createTemp => exact h
    | writeTemp written => exact hwritten _
    | syncTemp => exact hwritten contents
    | rename => exact hsynced

end Operations

/-! ### Sequences of saves -/

/-- The counter of a key, zero for a key that has none. -/
def counterOf (counters : HashMap KeyId UInt64) (keyId : KeyId) : UInt64 :=
  (counters.lookup keyId).getD 0

/-- Every counter of one table is at most that of the other one. -/
def AtMost (counters counters' : HashMap KeyId UInt64) : Prop :=
  ∀ keyId, counterOf counters keyId ≤ counterOf counters' keyId

theorem AtMost.refl (counters : HashMap KeyId UInt64) : AtMost counters counters :=
  fun _ ↦ UInt64.le_refl _

theorem AtMost.trans {first second third : HashMap KeyId UInt64} (h : AtMost first second)
    (h' : AtMost second third) : AtMost first third :=
  fun keyId ↦ UInt64.le_trans (h keyId) (h' keyId)

/-- A table that the live file has had: its text, and whether its save has returned `Ok`.  The
first one is the table that was loaded. -/
structure Version where
  text : Option String
  counters : HashMap KeyId UInt64
  returned : Bool

/-- The device, the table of the last save, and the versions of the live file, newest first. -/
structure State where
  device : Device Path String
  latest : HashMap KeyId UInt64
  versions : List Version

inductive Event
  /-- A save; `returned` is false if the power is lost before it returns. -/
  | save (counters : HashMap KeyId UInt64) (fault : Option SaveFault) (returned : Bool)
  /-- The system writes the directory back. -/
  | writeBack

variable (toml : Toml) (path : Path)

/-- One save, or one writeback. -/
def step : Step State Event (Except String Unit)
  | state, .save counters fault returned =>
    let saved := saveCounterStateOn toml state.device path counters fault
    some (⟨saved.1, counters, match saved.2 with
        | .ok () => ⟨toml.toStringPretty (counterStateFile counters), counters, returned⟩ ::
            state.versions
        | .error _ => state.versions⟩, if returned then some saved.2 else none)
  | state, .writeBack => some ({ state with device := state.device.writeBack }, none)

/-- A process that has loaded the file. -/
def start (files : FileSystem) (loaded : HashMap KeyId UInt64) : State :=
  ⟨Device.settled files.lookup, loaded, [⟨files.lookup path, loaded, false⟩]⟩

/-- Every table is at least the one before it. -/
def Grows (state : State) : Event → Prop
  | .save counters _ _ => AtMost state.latest counters
  | .writeBack => True

/-- The last table whose save has returned `Ok`. -/
def State.last (state : State) : Option (HashMap KeyId UInt64) :=
  (state.versions.find? Version.returned).map Version.counters

/-- A file with the text of the version loads as its table; without a file the table is zero. -/
def Version.Loads (version : Version) : Prop :=
  ∀ files : FileSystem, files.lookup path = version.text →
    ∀ allowMissingState, (version.text = none → allowMissingState = true) →
    ∃ loaded, loadCounterState toml files path allowMissingState = .ok loaded ∧
      ∀ keyId, counterOf loaded keyId = counterOf version.counters keyId

/-- The load succeeds with a table that is at least `last`. -/
def Reloads (files : FileSystem) (allowMissing : Bool) (last : HashMap KeyId UInt64) : Prop :=
  ∃ reloaded, loadCounterState toml files path allowMissing = .ok reloaded ∧ AtMost last reloaded

/-- What the live file may hold after a power loss is one of the versions. -/
structure Recorded (state : State) : Prop where
  versions : Versions state.device path (path.withExtension "tmp")
    (state.versions.map Version.text)
  loads : ∀ version ∈ state.versions, version.Loads toml path
  chain : state.versions.Pairwise fun newer older ↦ AtMost older.counters newer.counters
  latest : ∀ version ∈ state.versions, AtMost version.counters state.latest

variable {toml : Toml} {path : Path}

/-- What is loaded depends on the text of the live file only. -/
theorem loadCounterState_congr {files files' : FileSystem}
    (h : files.lookup path = files'.lookup path) (allowMissingState : Bool) :
    loadCounterState toml files path allowMissingState =
      loadCounterState toml files' path allowMissingState := by
  unfold loadCounterState
  rw [h]

theorem loads_of_loadCounterState {files : FileSystem} {loaded : HashMap KeyId UInt64}
    {allowMissingState returned : Bool}
    (h : loadCounterState toml files path allowMissingState = .ok loaded) :
    Version.Loads toml path ⟨files.lookup path, loaded, returned⟩ := by
  intro files' hfiles allow hallow
  refine ⟨loaded, ?_, fun _ ↦ rfl⟩
  rw [loadCounterState_congr hfiles]
  cases hlookup : files.lookup path with
  | none =>
    rw [loadCounterState, hlookup] at h ⊢
    rw [hallow hlookup]
    cases allowMissingState with
    | true => exact h
    | false => cases h
  | some contents =>
    rw [loadCounterState, hlookup] at h ⊢
    exact h

theorem loads_of_text (htoml : toml.RoundTrips) {counters : HashMap KeyId UInt64}
    {contents : String} (htext : toml.toStringPretty (counterStateFile counters) = some contents)
    (returned : Bool) :
    Version.Loads toml path
      ⟨toml.toStringPretty (counterStateFile counters), counters, returned⟩ := by
  intro files hfiles allow _
  obtain ⟨loaded, hload, hlookup⟩ :=
    loadCounterState_of_text htoml htext (hfiles.trans htext) allow
  refine ⟨loaded, hload, fun keyId ↦ ?_⟩
  rw [counterOf, counterOf, hlookup]

theorem recorded_start (hpath : path.withExtension "tmp" ≠ path) {files : FileSystem}
    {loaded : HashMap KeyId UInt64} {allowMissingState : Bool}
    (h : loadCounterState toml files path allowMissingState = .ok loaded) :
    Recorded toml path (start path files loaded) where
  versions := Versions.settled files.lookup hpath
  loads version hversion := by
    rw [List.mem_singleton.mp hversion]
    exact loads_of_loadCounterState h
  chain := List.pairwise_singleton _ _
  latest version hversion := by
    rw [List.mem_singleton.mp hversion]
    exact AtMost.refl loaded

/-- Every save keeps the record. -/
theorem Recorded.step {state next : State} {event : Event} {emitted : Option (Except String Unit)}
    (hrecorded : Recorded toml path state) (htoml : toml.RoundTrips)
    (hpath : path.withExtension "tmp" ≠ path) (hgrows : Grows state event)
    (hstep : step toml path state event = some (next, emitted)) : Recorded toml path next := by
  cases event with
  | writeBack =>
    obtain ⟨rfl, -⟩ := Prod.mk.inj (Option.some.inj hstep)
    exact ⟨hrecorded.versions.writeBack, hrecorded.loads, hrecorded.chain, hrecorded.latest⟩
  | save counters fault returned =>
    obtain ⟨rfl, -⟩ := Prod.mk.inj (Option.some.inj hstep)
    have holder (version : Version) (hversion : version ∈ state.versions) :
        AtMost version.counters counters := (hrecorded.latest version hversion).trans hgrows
    cases htext : toml.toStringPretty (counterStateFile counters) with
    | none =>
      simp only [saveCounterStateOn, htext]
      exact ⟨hrecorded.versions, hrecorded.loads, hrecorded.chain, holder⟩
    | some contents =>
      have hversions := versions_writeThenRenameOn hpath hrecorded.versions contents fault
      cases fault with
      | some fault =>
        simp only [saveCounterStateOn, htext]
        exact ⟨hversions, hrecorded.loads, hrecorded.chain, holder⟩
      | none =>
        simp only [saveCounterStateOn, htext]
        refine ⟨hversions, ?_, List.pairwise_cons.mpr ⟨holder, hrecorded.chain⟩, ?_⟩
        · rw [List.forall_mem_cons, ← htext]
          exact ⟨loads_of_text htoml htext returned, hrecorded.loads⟩
        · rw [List.forall_mem_cons]
          exact ⟨AtMost.refl counters, holder⟩

/-! ### Runs -/

section Runs

variable {files : FileSystem} {loaded : HashMap KeyId UInt64} {allowMissingState : Bool}
  {events : List Event} {outputs : List (Except String Unit)} {state : State}

theorem recorded_of_run (htoml : toml.RoundTrips) (hpath : path.withExtension "tmp" ≠ path)
    (hload : loadCounterState toml files path allowMissingState = .ok loaded)
    (hrun : Run (step toml path) Grows (start path files loaded) events outputs state) :
    Recorded toml path state :=
  Run.invariant (fun _ state ↦ Recorded toml path state) (recorded_start hpath hload)
    (fun _ _ _ _ _ hrecorded hgrows hstep ↦ hrecorded.step htoml hpath hgrows hstep) hrun

/-- The files as programs see them after some saves. -/
def filesAfter (toml : Toml) (path : Path) (files : FileSystem) (events : List Event) :
    FileSystem :=
  events.foldl (fun files event ↦
    match event with
    | .save counters fault _ => (saveCounterState toml files path counters fault).1
    | .writeBack => files) files

/-- Without a power loss the device is what the saves of `saveCounterState` make of the files. -/
theorem view_of_run {guard : State → Event → Prop}
    (hrun : Run (step toml path) guard (start path files loaded) events outputs state) :
    state.device.view = (filesAfter toml path files events).lookup ∧ Proper state.device := by
  induction hrun with
  | nil => exact ⟨funext (view_settled files.lookup), proper_settled files.lookup⟩
  | @snoc events outputs state next event emitted _ _ hstep ih =>
    rw [filesAfter, List.foldl_append]
    cases event with
    | save counters fault returned =>
      obtain ⟨rfl, -⟩ := Prod.mk.inj (Option.some.inj hstep)
      have hsave := view_saveCounterStateOn toml ih.2 ih.1 path counters fault
      exact ⟨hsave.1, hsave.2.2⟩
    | writeBack =>
      obtain ⟨rfl, -⟩ := Prod.mk.inj (Option.some.inj hstep)
      exact ⟨ih.1, ih.2.injective, fun name number hmem ↦ by
        apply ih.2.created_lt name number
        rw [Device.entries, List.mem_singleton.mp hmem]
        exact List.mem_cons_self, ih.2.exists_contents⟩

/-- The version that the power loss restores. -/
theorem Recorded.restored (hrecorded : Recorded toml path state) {lost : Path → ℕ}
    {restored : FileSystem} (hrestores : state.device.Restores lost restored.lookup) :
    ∃ version, state.versions[lost path]? = some version ∧
      restored.lookup path = version.text := by
  obtain ⟨text, htext, hfile⟩ := hrecorded.versions.restores hrestores
  rw [List.getElem?_map, Option.map_eq_some_iff] at htext
  obtain ⟨version, hversion, rfl⟩ := htext
  exact ⟨version, hversion, hfile⟩

/-- The versions that are taken back are at least the one that is restored, and all others at
most. -/
theorem Recorded.split (hrecorded : Recorded toml path state) {index : ℕ} {version : Version}
    (h : state.versions[index]? = some version) :
    (∀ forgotten ∈ state.versions.take index, AtMost version.counters forgotten.counters) ∧
      ∀ kept ∈ state.versions, kept ∉ state.versions.take index →
        AtMost kept.counters version.counters := by
  obtain ⟨hindex, hversion⟩ := List.getElem?_eq_some_iff.mp h
  have hdrop : state.versions.drop index = version :: state.versions.drop (index + 1) := by
    rw [List.drop_eq_getElem_cons hindex, hversion]
  have hsplit := hrecorded.chain
  rw [← List.take_append_drop index state.versions, hdrop, List.pairwise_append] at hsplit
  obtain ⟨-, hkept, hforgotten⟩ := hsplit
  refine ⟨fun forgotten hmem ↦ hforgotten forgotten hmem version List.mem_cons_self,
    fun kept hmem hnot ↦ ?_⟩
  rw [← List.take_append_drop index state.versions, hdrop, List.mem_append] at hmem
  rcases List.mem_cons.mp (hmem.resolve_left hnot) with rfl | holder
  · exact AtMost.refl _
  · exact (List.pairwise_cons.mp hkept).1 kept holder

/-- Every table whose save has returned is at most the last one of them. -/
theorem Recorded.returned_le_last (hrecorded : Recorded toml path state)
    {last : HashMap KeyId UInt64} (hlast : state.last = some last) :
    (∃ version ∈ state.versions, version.returned = true ∧ version.counters = last) ∧
      ∀ version ∈ state.versions, version.returned = true → AtMost version.counters last := by
  obtain ⟨newest, hfind, rfl⟩ := Option.map_eq_some_iff.mp hlast
  obtain ⟨hreturned, newer, older, hsplit, hnewer⟩ := List.find?_eq_some_iff_append.mp hfind
  have hchain := hrecorded.chain
  rw [hsplit, List.pairwise_append] at hchain
  refine ⟨⟨newest, List.mem_of_find?_eq_some hfind, hreturned, rfl⟩, fun version hmem hversion ↦ ?_⟩
  rw [hsplit, List.mem_append] at hmem
  rcases hmem with hmem | hmem
  · have hnot := hnewer version hmem
    rw [hversion] at hnot
    cases hnot
  · rcases List.mem_cons.mp hmem with rfl | holder
    · exact AtMost.refl _
    · exact (List.pairwise_cons.mp hchain.2.1).1 version holder

/-- A power loss keeps the counters of the last save that has returned `Ok`, if and only if every
such save that it takes back has the same counters as the table that comes back. -/
theorem reloads_iff (htoml : toml.RoundTrips) (hpath : path.extension ≠ some "tmp")
    (hload : loadCounterState toml files path allowMissingState = .ok loaded)
    (hrun : Run (step toml path) Grows (start path files loaded) events outputs state)
    {last : HashMap KeyId UInt64} (hlast : state.last = some last) {lost : Path → ℕ}
    {restored : FileSystem} (hrestores : state.device.Restores lost restored.lookup)
    (allowMissing : Bool) :
    Reloads toml path restored allowMissing last ↔
    ∃ version, state.versions[lost path]? = some version ∧
      (version.text = none → allowMissing = true) ∧
      ∀ forgotten ∈ state.versions.take (lost path), forgotten.returned = true →
        ∀ keyId, counterOf forgotten.counters keyId = counterOf version.counters keyId := by
  have hrecorded := recorded_of_run htoml (Path.withExtension_tmp_ne hpath) hload hrun
  obtain ⟨version, hversion, htext⟩ := hrecorded.restored hrestores
  obtain ⟨hforgotten, hkept⟩ := hrecorded.split hversion
  obtain ⟨⟨newest, hnewest, hreturned, rfl⟩, hle⟩ := hrecorded.returned_le_last hlast
  have hloads := hrecorded.loads version (List.mem_of_getElem? hversion) restored htext allowMissing
  constructor
  · rintro ⟨reloaded, hreload, hatMost⟩
    have hallow : version.text = none → allowMissing = true := by
      intro hnone
      rw [loadCounterState, htext, hnone] at hreload
      cases allowMissing with
      | true => rfl
      | false => cases hreload
    obtain ⟨reloaded', hreload', hcounters⟩ := hloads hallow
    obtain rfl : reloaded = reloaded' := Except.ok.inj (hreload.symm.trans hreload')
    refine ⟨version, hversion, hallow, fun forgotten hmem hok keyId ↦ ?_⟩
    apply UInt64.le_antisymm
    · rw [← hcounters]
      exact (hle forgotten (List.mem_of_mem_take hmem) hok).trans hatMost keyId
    · exact hforgotten forgotten hmem keyId
  · rintro ⟨version', hversion', hallow, hsame⟩
    obtain rfl : version = version' := Option.some.inj (hversion.symm.trans hversion')
    obtain ⟨reloaded, hreload, hcounters⟩ := hloads hallow
    refine ⟨reloaded, hreload, fun keyId ↦ ?_⟩
    rw [hcounters]
    by_cases hmem : newest ∈ state.versions.take (lost path)
    · rw [hsame newest hmem hreturned]
      exact UInt64.le_refl _
    · exact hkept newest hnewest hmem keyId

/-- With a live file of extension `tmp` a save writes in place, and a power loss during the write
leaves anything, even if it takes no entry back. -/
theorem restores_any_of_tmp {device : Device Path String} (hproper : Proper device)
    {files : FileSystem} (hview : device.view = files.lookup)
    (hpath : path.withExtension "tmp" = path) (contents : String) (written : ℕ) (text : String) :
    (writeThenRenameOn device path contents (some (.writeTemp written))).Restores (fun _ ↦ 0)
      (files.insert path text).lookup := by
  have hwritten := written_of_proper hproper path (String.ofList (contents.toList.take written))
  obtain ⟨node, hentry, hcontents⟩ := hwritten.entry
  have hafter : writeThenRenameOn device path contents (some (.writeTemp written)) =
      (device.create path "").write path (String.ofList (contents.toList.take written)) := by
    rw [writeThenRenameOn, hpath]
  rw [hafter, lookup_insert, ← hview]
  intro name
  by_cases hname : name = path
  · refine ⟨_, rfl, ?_⟩
    rw [hname, hentry]
    refine ⟨text, Function.update_self _ _ _, fun found hfound hsynced ↦ ?_⟩
    rw [← Option.some.inj (hcontents.symm.trans hfound)] at hsynced
    cases hsynced
  · have hother := hwritten.proper.restores_view name
    rwa [hwritten.view, Function.update_of_ne hname,
      ← Function.update_of_ne hname (some text) device.view] at hother

/-- With a live file of extension `tmp` a power loss during a save may leave an empty table. -/
theorem not_reloads_of_tmp (htoml : toml.RoundTrips) (hpath : path.extension = some "tmp")
    (hrun : Run (step toml path) Grows (start path files loaded) events outputs state)
    {last : HashMap KeyId UInt64} {keyId : KeyId} (hlast : counterOf last keyId ≠ 0)
    {empty : String} (hempty : toml.toStringPretty (counterStateFile ∅) = some empty)
    {counters : HashMap KeyId UInt64} {contents : String}
    (htext : toml.toStringPretty (counterStateFile counters) = some contents) (written : ℕ)
    (allowMissing : Bool) :
    ∃ restored : FileSystem,
      (saveCounterStateOn toml state.device path counters
        (some (.writeTemp written))).1.Restores (fun _ ↦ 0) restored.lookup ∧
      ¬Reloads toml path restored allowMissing last := by
  obtain ⟨hview, hproper⟩ := view_of_run hrun
  refine ⟨(filesAfter toml path files events).insert path empty, ?_, ?_⟩
  · rw [saveCounterStateOn, htext]
    exact restores_any_of_tmp hproper hview (Path.withExtension_tmp_eq hpath) contents written empty
  · rintro ⟨reloaded, hreload, hatMost⟩
    obtain ⟨cleared, hcleared, hcounters⟩ := loadCounterState_of_text htoml hempty
      (AList.lookup_insert _) allowMissing
    obtain rfl := Except.ok.inj (hreload.symm.trans hcleared)
    have hzero : counterOf reloaded keyId = 0 := by
      rw [counterOf, hcounters]
      rfl
    apply hlast
    apply UInt64.le_antisymm
    · exact hzero ▸ hatMost keyId
    · exact UInt64.zero_le

/-- Where a save writes a file of its own, a power loss keeps the counters of the last save that
has returned `Ok` exactly when the saves that it takes back had the same counters as the table that
comes back; where a save writes in place, every save may lose them. -/
theorem counters_after_power_loss (htoml : toml.RoundTrips)
    (hload : loadCounterState toml files path allowMissingState = .ok loaded)
    (hrun : Run (step toml path) Grows (start path files loaded) events outputs state)
    {last : HashMap KeyId UInt64} (hlast : state.last = some last) (allowMissing : Bool) :
    (path.extension ≠ some "tmp" → ∀ (lost : Path → ℕ) (restored : FileSystem),
      state.device.Restores lost restored.lookup →
      (Reloads toml path restored allowMissing last ↔
        ∃ version, state.versions[lost path]? = some version ∧
          (version.text = none → allowMissing = true) ∧
          ∀ forgotten ∈ state.versions.take (lost path), forgotten.returned = true →
            ∀ keyId, counterOf forgotten.counters keyId = counterOf version.counters keyId)) ∧
    (path.extension = some "tmp" → (∃ keyId, counterOf last keyId ≠ 0) →
      ∀ (counters : HashMap KeyId UInt64) (written : ℕ) (contents empty : String),
        toml.toStringPretty (counterStateFile counters) = some contents →
        toml.toStringPretty (counterStateFile ∅) = some empty →
        ∃ restored : FileSystem,
          (saveCounterStateOn toml state.device path counters
            (some (.writeTemp written))).1.Restores (fun _ ↦ 0) restored.lookup ∧
          ¬Reloads toml path restored allowMissing last) := by
  constructor
  · intro hpath lost restored hrestores
    exact reloads_iff htoml hpath hload hrun hlast hrestores allowMissing
  · rintro hpath ⟨keyId, hkey⟩ counters written contents empty htext hempty
    exact not_reloads_of_tmp htoml hpath hrun hkey hempty htext written allowMissing

end Runs

namespace Sample

open Ghostbro.Sample

/-- The table with one counter. -/
def table (counter : UInt64) : HashMap KeyId UInt64 := AList.insert (Vector.replicate 8 5) counter ∅

def text (counter : String) : String := "[counters]\n0505050505050505 = " ++ counter ++ "\n"

/-- The files after a save of counter 5. -/
def files : FileSystem := AList.insert defaultPath (text "5") ∅

theorem load_files : loadCounterState Toml.checked files defaultPath false = .ok (table 5) := by
  decide +kernel

theorem text_table :
    Toml.checked.toStringPretty (counterStateFile (table 6)) = some (text "6") := by
  decide +kernel

/-- A save of counter 6 has returned. -/
def saved : State :=
  ⟨writeThenRenameOn (Device.settled files.lookup) defaultPath (text "6") none, table 6,
    [⟨some (text "6"), table 6, true⟩, ⟨some (text "5"), table 5, false⟩]⟩

theorem run_saved : Run (step Toml.checked defaultPath) Grows
    (start defaultPath files (table 5)) [.save (table 6) none true] [.ok ()] saved := by
  have hgrows : Grows (start defaultPath files (table 5)) (.save (table 6) none true) := by
    intro keyId
    change counterOf (table 5) keyId ≤ counterOf (table 6) keyId
    rw [counterOf, counterOf, table, table, HashMap.lookup_insert_ite, HashMap.lookup_insert_ite]
    split_ifs
    · decide
    · exact UInt64.le_refl _
  have hstep : step Toml.checked defaultPath (start defaultPath files (table 5))
      (.save (table 6) none true) = some (saved, some (.ok ())) := by
    simp only [step, saveCounterStateOn, text_table]
    rfl
  have hnil : Run (step Toml.checked defaultPath) Grows (start defaultPath files (table 5)) [] []
    (start defaultPath files (table 5)) := .nil
  exact hnil.snoc hgrows hstep

/-- The device after the save is what a power loss may leave as it is. -/
theorem view_saved : saved.device.view =
      (writeThenRename files defaultPath (text "6") none).lookup ∧ Proper saved.device :=
  view_writeThenRenameOn (proper_settled files.lookup) (funext (view_settled files.lookup))
    defaultPath (text "6") none

end Sample

/-- A power loss that takes nothing back keeps the counter of the sample. -/
theorem counters_after_power_loss_sample :
    Reloads Toml.checked Ghostbro.Sample.defaultPath
      (writeThenRename Sample.files Ghostbro.Sample.defaultPath (Sample.text "6") none) false
      (Sample.table 6) := by
  have hpath : Ghostbro.Sample.defaultPath.extension ≠ some "tmp" := by decide +kernel
  have hrestores := Sample.view_saved.2.restores_view
  rw [Sample.view_saved.1] at hrestores
  have hkept := (counters_after_power_loss Toml.checked_roundTrips Sample.load_files
    Sample.run_saved rfl false).1 hpath _ _ hrestores
  apply hkept.mpr
  exact ⟨_, rfl, nofun, nofun⟩

/-- A power loss may take back a save that has returned `Ok`, and bring back a lower counter. -/
theorem saved_counter_taken_back :
    ¬∀ (files : FileSystem) (path : Path) (loaded : HashMap KeyId UInt64) (allowMissingState : Bool)
      (events : List Event) (outputs : List (Except String Unit)) (state : State),
      loadCounterState Toml.checked files path allowMissingState = .ok loaded →
      Run (step Toml.checked path) Grows (start path files loaded) events outputs state →
      ∀ last, state.last = some last → ∀ (lost : Path → ℕ) (restored : FileSystem),
        state.device.Restores lost restored.lookup →
        Reloads Toml.checked path restored allowMissingState last := by
  intro hclaim
  have htemp : Ghostbro.Sample.defaultPath.withExtension "tmp" ≠ Ghostbro.Sample.defaultPath := by
    decide +kernel
  have hversions : Versions Sample.saved.device Ghostbro.Sample.defaultPath
      (Ghostbro.Sample.defaultPath.withExtension "tmp")
      [some (Sample.text "6"), some (Sample.text "5")] :=
    versions_writeThenRenameOn htemp (Versions.settled Sample.files.lookup htemp) (Sample.text "6")
      none
  have hentries : 1 < (Sample.saved.device.entries Ghostbro.Sample.defaultPath).length := by
    decide +kernel
  have hrestores := hversions.restores_update hentries rfl
  have hfiles : Function.update Sample.saved.device.view Ghostbro.Sample.defaultPath
      (some (Sample.text "5")) = Sample.files.lookup := by
    have hnone : Function.update Sample.files.lookup
        (Ghostbro.Sample.defaultPath.withExtension "tmp") none = Sample.files.lookup :=
      Function.update_eq_self_iff.mpr (by decide +kernel)
    rw [Sample.view_saved.1, writeThenRename, lookup_insert, lookup_erase, lookup_insert,
      Function.update_idem, Function.update_idem, hnone]
    exact Function.update_eq_self_iff.mpr (by decide +kernel)
  rw [hfiles] at hrestores
  obtain ⟨reloaded, hreload, hatMost⟩ := hclaim _ _ _ _ _ _ _ Sample.load_files Sample.run_saved _
    rfl _ _ hrestores
  obtain rfl := Except.ok.inj (Sample.load_files.symm.trans hreload)
  have hlower := hatMost (Vector.replicate 8 5)
  revert hlower
  decide

end Ghostbro.Saver
