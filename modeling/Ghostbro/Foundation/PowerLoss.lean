import Mathlib.Data.List.Basic
import Mathlib.Logic.Function.Basic

/-!
# File systems that lose power

A directory leads from names to files.  What a program reads is the present state of both, but a
power loss may take a part of it back: a file keeps its data only if they were synced after the
last write, and a name may lead again to where it led before, at any time since its directory was
last written back.

A program that replaces a file by a rename keeps all versions of it whole: `Versions` follows the
entries that a power loss may restore, and the data behind each of them.
-/

namespace Ghostbro.PowerLoss

variable {Name Data : Type*}

/-- A file: one that was there from the beginning, or one that was created since. -/
inductive Node (Name : Type*)
  | original (name : Name)
  | created (number : ℕ)
  deriving DecidableEq

/-- The data of a file, and whether they have been synced since they were written. -/
structure Contents (Data : Type*) where
  data : Data
  synced : Bool
  deriving DecidableEq

/-- The present state of a file system, and the entries that are not yet superseded on the
device, the newest first. -/
structure Device (Name Data : Type*) where
  contents : Node Name → Option (Contents Data)
  fresh : ℕ
  entry : Name → Option (Node Name)
  earlier : Name → List (Option (Node Name))

namespace Device

variable (device : Device Name Data)

/-- Everything is on the device. -/
def settled (files : Name → Option Data) : Device Name Data where
  contents
    | .original name => (files name).map fun data ↦ ⟨data, true⟩
    | .created _ => none
  fresh := 0
  entry name := (files name).map fun _ ↦ .original name
  earlier _ := []

/-- What a program reads. -/
def view (name : Name) : Option Data :=
  (device.entry name).bind fun node ↦ (device.contents node).map Contents.data

/-- The entries that a power loss may restore. -/
def entries (name : Name) : List (Option (Node Name)) := device.entry name :: device.earlier name

/-- The files after a power loss that takes back the last `lost name` changes of each name.  Data
that were not synced may be anything. -/
def Restores (lost : Name → ℕ) (files : Name → Option Data) : Prop :=
  ∀ name, ∃ entry, (device.entries name)[lost name]? = some entry ∧
    match entry with
    | none => files name = none
    | some node => ∃ data, files name = some data ∧
        ∀ contents, device.contents node = some contents → contents.synced = true →
          data = contents.data

/-- The system writes the directories back. -/
def writeBack : Device Name Data := { device with earlier := fun _ ↦ [] }

variable [DecidableEq Name]

/-- Change where a name leads. -/
def link (name : Name) (target : Option (Node Name)) : Device Name Data :=
  { device with
    entry := Function.update device.entry name target
    earlier := Function.update device.earlier name (device.entries name) }

/-- Write the data of a file. -/
def write (name : Name) (data : Data) : Device Name Data :=
  match device.entry name with
  | none => device
  | some node =>
    { device with contents := Function.update device.contents node (some ⟨data, false⟩) }

/-- Create a file, or empty the one that is there. -/
def create (name : Name) (empty : Data) : Device Name Data :=
  match device.entry name with
  | some _ => device.write name empty
  | none =>
    { device.link name (some (.created device.fresh)) with
      contents :=
        Function.update device.contents (.created device.fresh) (some ⟨empty, false⟩)
      fresh := device.fresh + 1 }

/-- Sync the data of a file. -/
def sync (name : Name) : Device Name Data :=
  match device.entry name with
  | none => device
  | some node =>
    { device with
      contents := Function.update device.contents node
        ((device.contents node).map fun contents ↦ { contents with synced := true }) }

/-- Rename a file over another one. -/
def rename (source target : Name) : Device Name Data :=
  if source = target then device
  else match device.entry source with
    | none => device
    | some node => (device.link target (some node)).link source none

end Device

/-- No file has two names, and every name leads to a file that exists. -/
structure Proper (device : Device Name Data) : Prop where
  injective : ∀ name name' node, device.entry name = some node → device.entry name' = some node →
    name = name'
  created_lt : ∀ name number, some (.created number) ∈ device.entries name →
    number < device.fresh
  exists_contents : ∀ name node, device.entry name = some node →
    ∃ contents, device.contents node = some contents

/-- A power loss may take nothing back. -/
theorem Proper.restores_view {device : Device Name Data} (h : Proper device) :
    device.Restores (fun _ ↦ 0) device.view := by
  intro name
  refine ⟨device.entry name, rfl, ?_⟩
  rw [Device.view]
  cases hentry : device.entry name with
  | none => rfl
  | some node =>
    obtain ⟨contents, hcontents⟩ := h.exists_contents name node hentry
    refine ⟨contents.data, by rw [Option.bind_some, hcontents]; rfl, fun found hfound _ ↦ ?_⟩
    rw [Option.some.inj (hcontents.symm.trans hfound)]

theorem view_settled (files : Name → Option Data) (name : Name) :
    (Device.settled files).view name = files name := by
  cases hfile : files name with
  | none => simp [Device.view, Device.settled, hfile]
  | some data => simp [Device.view, Device.settled, hfile]

theorem proper_settled (files : Name → Option Data) : Proper (Device.settled files) where
  injective name name' node h h' := by
    obtain ⟨data, -, rfl⟩ := Option.map_eq_some_iff.mp h
    obtain ⟨data', -, hnode⟩ := Option.map_eq_some_iff.mp h'
    exact (Node.original.inj hnode).symm
  created_lt name number h := by
    have hentry := List.mem_singleton.mp h
    obtain ⟨data, -, hnode⟩ := Option.map_eq_some_iff.mp hentry.symm
    cases hnode
  exists_contents name node h := by
    obtain ⟨data, hfile, rfl⟩ := Option.map_eq_some_iff.mp h
    exact ⟨⟨data, true⟩, by simp [Device.settled, hfile]⟩

/-! ### The versions of a file that is replaced as a whole -/

/-- The entry leads to a file with these data on the device, or to none. -/
def Device.Seals (device : Device Name Data) (entry : Option (Node Name))
    (version : Option Data) : Prop :=
  match entry with
  | none => version = none
  | some node => ∃ data, version = some data ∧ device.contents node = some ⟨data, true⟩

/-- Behind each entry that a power loss may restore for the live file are the data of its version,
and the temporary file is none of them. -/
structure Versions (device : Device Name Data) (live temp : Name)
    (versions : List (Option Data)) : Prop where
  proper : Proper device
  sealed : ∀ (index : ℕ) entry, (device.entries live)[index]? = some entry →
    ∃ version, versions[index]? = some version ∧ device.Seals entry version
  apart : ∀ node, device.entry temp = some node → some node ∉ device.entries live

namespace Versions

variable {device : Device Name Data} {live temp : Name} {versions : List (Option Data)}

theorem settled (files : Name → Option Data) (hne : temp ≠ live) :
    Versions (Device.settled files) live temp [files live] where
  proper := proper_settled files
  sealed index entry h := by
    obtain ⟨hindex, rfl⟩ : index = 0 ∧ (files live).map (fun _ ↦ Node.original live) = entry := by
      simpa [Device.entries, Device.settled, List.getElem?_singleton] using h
    refine ⟨files live, by rw [hindex]; rfl, ?_⟩
    cases hfile : files live with
    | none => rfl
    | some data => exact ⟨data, rfl, by simp [Device.settled, hfile]⟩
  apart node h hmem := by
    obtain ⟨data, -, rfl⟩ := Option.map_eq_some_iff.mp h
    have hlive : some (Node.original temp) = (files live).map fun _ ↦ .original live := by
      simpa [Device.entries, Device.settled] using hmem
    obtain ⟨data', -, hnode⟩ := Option.map_eq_some_iff.mp hlive.symm
    exact hne (Node.original.inj hnode).symm

theorem writeBack (h : Versions device live temp versions) :
    Versions device.writeBack live temp versions where
  proper :=
    { injective := h.proper.injective
      created_lt := fun name number hmem ↦ by
        apply h.proper.created_lt name number
        rw [Device.entries, List.mem_singleton.mp hmem]
        exact List.mem_cons_self
      exists_contents := h.proper.exists_contents }
  sealed index entry hindex := by
    obtain ⟨rfl, rfl⟩ : index = 0 ∧ device.entry live = entry := by
      simpa [Device.entries, Device.writeBack, List.getElem?_singleton] using hindex
    exact h.sealed 0 _ rfl
  apart node htemp hmem := by
    apply h.apart node htemp
    rw [Device.entries, List.mem_singleton.mp hmem]
    exact List.mem_cons_self

/-- A power loss restores one of the versions, and restores it whole. -/
theorem restores (h : Versions device live temp versions) {lost : Name → ℕ}
    {files : Name → Option Data} (hrestores : device.Restores lost files) :
    ∃ version, versions[lost live]? = some version ∧ files live = version := by
  obtain ⟨entry, hentry, hfile⟩ := hrestores live
  obtain ⟨version, hversion, hseals⟩ := h.sealed (lost live) entry hentry
  refine ⟨version, hversion, ?_⟩
  cases entry with
  | none =>
    rw [hseals]
    exact hfile
  | some node =>
    obtain ⟨data, rfl, hcontents⟩ := hseals
    obtain ⟨restored, hfiles, hdata⟩ := hfile
    rw [hfiles, hdata _ hcontents rfl]

end Versions

variable [DecidableEq Name] {device : Device Name Data} {name other : Name} {data empty : Data}
  {node : Node Name}

/-! ### One operation -/

theorem entries_link_self (device : Device Name Data) (name : Name) (target : Option (Node Name)) :
    (device.link name target).entries name = target :: device.entries name := by
  simp [Device.entries, Device.link]

theorem mem_entries_link {entry target : Option (Node Name)}
    (h : entry ∈ (device.link name target).entries other) :
    other = name ∧ entry = target ∨ entry ∈ device.entries other := by
  by_cases hname : other = name
  · subst hname
    rw [entries_link_self, List.mem_cons] at h
    exact h.imp_left fun heq ↦ ⟨rfl, heq⟩
  · simp only [Device.entries, Device.link, Function.update_of_ne hname] at h
    exact .inr h

theorem entries_link_of_ne (h : other ≠ name) (target : Option (Node Name)) :
    (device.link name target).entries other = device.entries other := by
  simp [Device.entries, Device.link, h]

@[simp]
theorem entry_write (device : Device Name Data) (name : Name) (data : Data) :
    (device.write name data).entry = device.entry := by
  unfold Device.write
  split <;> rfl

@[simp]
theorem earlier_write (device : Device Name Data) (name : Name) (data : Data) :
    (device.write name data).earlier = device.earlier := by
  unfold Device.write
  split <;> rfl

@[simp]
theorem fresh_write (device : Device Name Data) (name : Name) (data : Data) :
    (device.write name data).fresh = device.fresh := by
  unfold Device.write
  split <;> rfl

theorem contents_write (h : device.entry name = some node) (data : Data) :
    (device.write name data).contents =
      Function.update device.contents node (some ⟨data, false⟩) := by
  unfold Device.write
  rw [h]

@[simp]
theorem entry_sync (device : Device Name Data) (name : Name) :
    (device.sync name).entry = device.entry := by
  unfold Device.sync
  split <;> rfl

@[simp]
theorem earlier_sync (device : Device Name Data) (name : Name) :
    (device.sync name).earlier = device.earlier := by
  unfold Device.sync
  split <;> rfl

@[simp]
theorem fresh_sync (device : Device Name Data) (name : Name) :
    (device.sync name).fresh = device.fresh := by
  unfold Device.sync
  split <;> rfl

theorem contents_sync (h : device.entry name = some node) :
    (device.sync name).contents = Function.update device.contents node
      ((device.contents node).map fun contents ↦ { contents with synced := true }) := by
  unfold Device.sync
  rw [h]

theorem create_of_some (h : device.entry name = some node) (empty : Data) :
    device.create name empty = device.write name empty := by
  unfold Device.create
  rw [h]

theorem create_of_none (h : device.entry name = none) (empty : Data) :
    device.create name empty =
      { device.link name (some (.created device.fresh)) with
        contents :=
          Function.update device.contents (.created device.fresh) (some ⟨empty, false⟩)
        fresh := device.fresh + 1 } := by
  unfold Device.create
  rw [h]

/-- A created file is there. -/
theorem exists_entry_create (device : Device Name Data) (name : Name) (empty : Data) :
    ∃ node, (device.create name empty).entry name = some node := by
  cases hentry : device.entry name with
  | some node =>
    rw [create_of_some hentry, entry_write]
    exact ⟨node, hentry⟩
  | none =>
    rw [create_of_none hentry]
    exact ⟨_, Function.update_self _ _ _⟩

theorem rename_of_some (hne : name ≠ other) (h : device.entry name = some node) :
    device.rename name other = (device.link other (some node)).link name none := by
  unfold Device.rename
  rw [if_neg hne, h]

theorem entry_rename (hne : name ≠ other) (hentry : device.entry name = some node)
    (name' : Name) : (device.rename name other).entry name' =
      if name' = name then none else if name' = other then some node else device.entry name' := by
  rw [rename_of_some hne hentry]
  simp only [Device.link, Function.update_apply]

theorem view_rename (hne : name ≠ other) (hentry : device.entry name = some node) :
    (device.rename name other).view =
      Function.update (Function.update device.view other (device.view name)) name none := by
  funext name'
  have hcontents : (device.rename name other).contents = device.contents := by
    rw [rename_of_some hne hentry]
    rfl
  rw [Device.view, entry_rename hne hentry, hcontents, Function.update_apply,
    Function.update_apply]
  split_ifs with hname hother
  · rfl
  · rw [Device.view, hentry]
  · rfl

/-! ### Files without a second name -/

namespace Proper

/-- New contents of one file keep the directory proper. -/
theorem setContents (h : Proper device) {device' : Device Name Data} {contents : Contents Data}
    (hentry : device'.entry = device.entry) (hearlier : device'.earlier = device.earlier)
    (hfresh : device'.fresh = device.fresh)
    (hcontents : device'.contents = Function.update device.contents node (some contents)) :
    Proper device' where
  injective := by
    rw [hentry]
    exact h.injective
  created_lt name number hmem := by
    rw [hfresh]
    apply h.created_lt name number
    rwa [Device.entries, hentry, hearlier] at hmem
  exists_contents name node' h' := by
    rw [hentry] at h'
    rw [hcontents]
    by_cases hnode : node' = node
    · subst hnode
      exact ⟨contents, Function.update_self _ _ _⟩
    · rw [Function.update_of_ne hnode]
      exact h.exists_contents name node' h'

theorem write (h : Proper device) (hentry : device.entry name = some node) (data : Data) :
    Proper (device.write name data) :=
  h.setContents (entry_write device name data) (earlier_write device name data)
    (fresh_write device name data) (contents_write hentry data)

theorem sync (h : Proper device) (hentry : device.entry name = some node) :
    Proper (device.sync name) := by
  obtain ⟨contents, hcontents⟩ := h.exists_contents name node hentry
  have hsynced := contents_sync hentry
  rw [hcontents, Option.map_some] at hsynced
  exact h.setContents (entry_sync device name) (earlier_sync device name) (fresh_sync device name)
    hsynced

theorem create (h : Proper device) (name : Name) (empty : Data) :
    Proper (device.create name empty) := by
  cases hentry : device.entry name with
  | some node =>
    rw [create_of_some hentry]
    exact h.write hentry empty
  | none =>
    rw [create_of_none hentry]
    have hold (name' : Name) : device.entry name' ≠ some (.created device.fresh) := by
      intro hname
      have hmem : some (.created device.fresh) ∈ device.entries name' := by
        rw [← hname]
        exact List.mem_cons_self
      exact absurd (h.created_lt name' _ hmem) (Nat.lt_irrefl _)
    have hlookup (name' : Name) (node : Node Name)
        (h' : (device.link name (some (.created device.fresh))).entry name' = some node) :
        name' = name ∧ node = .created device.fresh ∨
          name' ≠ name ∧ device.entry name' = some node := by
      by_cases hname : name' = name
      · subst hname
        have hself : some (Node.created device.fresh) = some node := by
          simpa [Device.link] using h'
        exact .inl ⟨rfl, (Option.some.inj hself).symm⟩
      · exact .inr ⟨hname, by simpa [Device.link, hname] using h'⟩
    refine ⟨fun name₁ name₂ node h₁ h₂ ↦ ?_, fun name' number hmem ↦ ?_, fun name' node h' ↦ ?_⟩
    · rcases hlookup name₁ node h₁ with ⟨rfl, rfl⟩ | ⟨_, hfirst⟩
      · rcases hlookup name₂ _ h₂ with ⟨rfl, -⟩ | ⟨_, hsecond⟩
        · rfl
        · exact absurd hsecond (hold name₂)
      · rcases hlookup name₂ node h₂ with ⟨rfl, rfl⟩ | ⟨_, hsecond⟩
        · exact absurd hfirst (hold name₁)
        · exact h.injective name₁ name₂ node hfirst hsecond
    · change number < device.fresh + 1
      rcases mem_entries_link hmem with ⟨-, hself⟩ | hbefore
      · rw [Node.created.inj (Option.some.inj hself)]
        exact Nat.lt_succ_self _
      · exact Nat.lt_succ_of_lt (h.created_lt name' number hbefore)
    · rcases hlookup name' node h' with ⟨rfl, rfl⟩ | ⟨_, hbefore⟩
      · exact ⟨⟨empty, false⟩, Function.update_self _ _ _⟩
      · have hnode : node ≠ .created device.fresh := fun heq ↦ hold name' (heq ▸ hbefore)
        obtain ⟨contents, hcontents⟩ := h.exists_contents name' node hbefore
        exact ⟨contents, (Function.update_of_ne hnode _ _).trans hcontents⟩

theorem rename (h : Proper device) (hne : name ≠ other) (hentry : device.entry name = some node) :
    Proper (device.rename name other) := by
  have hrename := entry_rename hne hentry
  refine ⟨fun name₁ name₂ node' h₁ h₂ ↦ ?_, fun name' number hmem ↦ ?_, fun name' node' h' ↦ ?_⟩
  · rw [hrename] at h₁ h₂
    grind [h.injective]
  · rw [rename_of_some hne hentry] at hmem ⊢
    change number < device.fresh
    rcases mem_entries_link hmem with ⟨-, hnone⟩ | hlinked
    · cases hnone
    · rcases mem_entries_link hlinked with ⟨-, hmoved⟩ | hbefore
      · apply h.created_lt name number
        rw [hmoved, ← hentry]
        exact List.mem_cons_self
      · exact h.created_lt name' number hbefore
  · rw [hrename] at h'
    rw [rename_of_some hne hentry]
    change ∃ contents, device.contents node' = some contents
    split_ifs at h' with hname hother
    · obtain rfl := Option.some.inj h'
      exact h.exists_contents name node hentry
    · exact h.exists_contents name' node' h'

/-! What a program reads after each operation. -/

theorem view_write (h : Proper device) (hentry : device.entry name = some node) (data : Data) :
    (device.write name data).view = Function.update device.view name (some data) := by
  funext name'
  rw [Device.view, entry_write, contents_write hentry, Function.update_apply]
  split_ifs with hname
  · rw [hname, hentry, Option.bind_some, Function.update_self]
    rfl
  · rw [Device.view]
    cases hentry' : device.entry name' with
    | none => rfl
    | some node' =>
      have hnode : node' ≠ node := by
        rintro rfl
        exact hname (h.injective name' name node' hentry' hentry)
      rw [Option.bind_some, Option.bind_some, Function.update_of_ne hnode]

theorem view_create (h : Proper device) (name : Name) (empty : Data) :
    (device.create name empty).view = Function.update device.view name (some empty) := by
  cases hentry : device.entry name with
  | some node =>
    rw [create_of_some hentry]
    exact h.view_write hentry empty
  | none =>
    rw [create_of_none hentry]
    funext name'
    rw [Function.update_apply]
    simp only [Device.view, Device.link, Function.update_apply]
    split_ifs with hname
    · simp
    · cases hentry' : device.entry name' with
      | none => rfl
      | some node' =>
        have hnode : node' ≠ .created device.fresh := by
          rintro rfl
          have hmem : some (.created device.fresh) ∈ device.entries name' := by
            rw [← hentry']
            exact List.mem_cons_self
          exact Nat.lt_irrefl _ (h.created_lt name' _ hmem)
        simp [hnode]

theorem view_sync (h : Proper device) (hentry : device.entry name = some node) :
    (device.sync name).view = device.view := by
  obtain ⟨contents, hcontents⟩ := h.exists_contents name node hentry
  funext name'
  rw [Device.view, Device.view, entry_sync, contents_sync hentry]
  cases hentry' : device.entry name' with
  | none => rfl
  | some node' =>
    rw [Option.bind_some, Option.bind_some, Function.update_apply]
    split_ifs with hnode
    · rw [hnode, hcontents]
      rfl
    · rfl

end Proper

/-! ### Replacing a file as a whole -/

namespace Versions

variable {live temp : Name} {versions : List (Option Data)}

/-- Operations on the temporary file that keep its name leave the versions alone. -/
theorem setContents (h : Versions device live temp versions) {device' : Device Name Data}
    {contents : Option (Contents Data)} (hproper : Proper device')
    (hentry : device'.entry = device.entry) (hearlier : device'.earlier = device.earlier)
    (htemp : device.entry temp = some node)
    (hcontents : device'.contents = Function.update device.contents node contents) :
    Versions device' live temp versions := by
  have hentries : device'.entries live = device.entries live := by
    rw [Device.entries, Device.entries, hentry, hearlier]
  refine ⟨hproper, fun index entry hindex ↦ ?_, fun node' h' ↦ ?_⟩
  · rw [hentries] at hindex
    obtain ⟨version, hversion, hseals⟩ := h.sealed index entry hindex
    refine ⟨version, hversion, ?_⟩
    cases entry with
    | none => exact hseals
    | some node' =>
      obtain ⟨data, hdata, hnode'⟩ := hseals
      have hnode : node' ≠ node := by
        rintro rfl
        exact h.apart node' htemp (List.mem_of_getElem? hindex)
      exact ⟨data, hdata, by rw [hcontents, Function.update_of_ne hnode, hnode']⟩
  · rw [hentries]
    exact h.apart node' (hentry ▸ h')

theorem write (h : Versions device live temp versions) (htemp : device.entry temp = some node)
    (data : Data) : Versions (device.write temp data) live temp versions :=
  h.setContents (h.proper.write htemp data) (entry_write _ _ _) (earlier_write _ _ _) htemp
    (contents_write htemp data)

theorem sync (h : Versions device live temp versions) (htemp : device.entry temp = some node) :
    Versions (device.sync temp) live temp versions :=
  h.setContents (h.proper.sync htemp) (entry_sync _ _) (earlier_sync _ _) htemp
    (contents_sync htemp)

theorem create (h : Versions device live temp versions) (hne : temp ≠ live) (empty : Data) :
    Versions (device.create temp empty) live temp versions := by
  have hproper := h.proper.create temp empty
  cases htemp : device.entry temp with
  | some node =>
    rw [create_of_some htemp]
    exact h.write htemp empty
  | none =>
    rw [create_of_none htemp] at hproper ⊢
    have hold : some (.created device.fresh) ∉ device.entries live := fun hmem ↦
      Nat.lt_irrefl _ (h.proper.created_lt live _ hmem)
    have hentries (target : Option (Node Name)) :
        (device.link temp target).entries live = device.entries live :=
      entries_link_of_ne hne.symm target
    refine ⟨hproper, fun index entry hindex ↦ ?_, fun node h' ↦ ?_⟩
    · replace hindex : (device.entries live)[index]? = some entry :=
        (congrArg (·[index]?) (hentries _)).symm.trans hindex
      obtain ⟨version, hversion, hseals⟩ := h.sealed index entry hindex
      refine ⟨version, hversion, ?_⟩
      cases entry with
      | none => exact hseals
      | some node' =>
        obtain ⟨data, hdata, hnode'⟩ := hseals
        have hnode : node' ≠ .created device.fresh := by
          rintro rfl
          exact hold (List.mem_of_getElem? hindex)
        exact ⟨data, hdata, (Function.update_of_ne hnode _ _).trans hnode'⟩
    · obtain rfl : Node.created device.fresh = node := by simpa [Device.link] using h'
      intro hmem
      have hmem' : some (Node.created device.fresh) ∈
          (device.link temp (some (.created device.fresh))).entries live := hmem
      rw [hentries] at hmem'
      exact hold hmem'

/-- A rename of the temporary file adds its data as the newest version, if they are synced. -/
theorem rename (h : Versions device live temp versions) (hne : temp ≠ live)
    (htemp : device.entry temp = some node) (hsynced : device.contents node = some ⟨data, true⟩) :
    Versions (device.rename temp live) live temp (some data :: versions) := by
  have hproper := h.proper.rename hne htemp
  rw [rename_of_some hne htemp] at hproper ⊢
  have hentries : ((device.link live (some node)).link temp none).entries live =
      some node :: device.entries live := by
    rw [entries_link_of_ne hne.symm, entries_link_self]
  refine ⟨hproper, fun index entry hindex ↦ ?_, fun node' h' ↦ ?_⟩
  · rw [hentries] at hindex
    cases index with
    | zero =>
      obtain rfl := Option.some.inj hindex
      exact ⟨some data, rfl, data, rfl, hsynced⟩
    | succ index => exact h.sealed index entry hindex
  · simp [Device.link] at h'

/-- Every version that is not superseded on the device may come back. -/
theorem restores_update (h : Versions device live temp versions) {index : ℕ}
    (hindex : index < (device.entries live).length) {version : Option Data}
    (hversion : versions[index]? = some version) :
    device.Restores (Function.update (fun _ ↦ 0) live index)
      (Function.update device.view live version) := by
  intro name
  by_cases hname : name = live
  · subst hname
    refine ⟨(device.entries name)[index], ?_, ?_⟩
    · rw [Function.update_self, List.getElem?_eq_getElem hindex]
    · obtain ⟨version', hversion', hseals⟩ :=
        h.sealed index _ (List.getElem?_eq_getElem hindex)
      obtain rfl : version = version' := Option.some.inj (hversion.symm.trans hversion')
      rw [Function.update_self]
      cases hentry : (device.entries name)[index] with
      | none =>
        rw [hentry] at hseals
        exact hseals
      | some node =>
        rw [hentry] at hseals
        obtain ⟨data, hdata, hcontents⟩ := hseals
        refine ⟨data, hdata, fun found hfound _ ↦ ?_⟩
        rw [← Option.some.inj (hcontents.symm.trans hfound)]
  · rw [Function.update_of_ne hname, Function.update_of_ne hname]
    exact h.proper.restores_view name

end Versions

end Ghostbro.PowerLoss
