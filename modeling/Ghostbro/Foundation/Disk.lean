import Ghostbro.Foundation.HashMap
import Ghostbro.Foundation.Words

/-!
# Programs on files, and the directory they stay in

A file is named by its location, the list of directory names that leads to it; a path is a text
that the system resolves to a location.  A program reads and changes files, and ends with a value
or an error; what the system answers to each operation is a parameter, so every operation may
fail.  Directories are implicit: one without files is as good as none.

`Confined base program` says that a program stays in a directory: it changes no file elsewhere,
and on two stores that hold the same files there it ends with the same result and leaves the same
files there.  The rules below derive this for a whole program from the locations it names.  The
order in which a directory is listed is not determined by its files, so what follows a listing has
to be independent of it.
-/

namespace Ghostbro.Disk

/-- The directory names from the root on, with the name of the file last. -/
abbrev Location := List String

/-- All regular files. -/
abbrev Store := HashMap Location Bytes

/-! ### Paths -/

/-- The names between the slashes of a path. -/
def components (path : String) : List String := (path.toList.splitOn '/').map String.ofList

/-- One name of a path, from a directory on. -/
def enter (location : Location) (name : String) : Location :=
  if name = "" ∨ name = "." then location
  else if name = ".." then location.dropLast
  else location ++ [name]

/-- The location that a path names for a process in the directory `current`. -/
def resolve (current : Location) (path : String) : Location :=
  (components path).foldl enter (if path.toList.head? = some '/' then [] else current)

/-- `Path::join`: an absolute path replaces the base. -/
def join (base path : String) : String :=
  if path.toList.head? = some '/' then path
  else if base = "" ∨ base.toList.getLast? = some '/' then base ++ path
  else base ++ "/" ++ path

/-- A name that leads to an entry of the directory itself. -/
def PlainName (name : String) : Prop :=
  name ≠ "" ∧ name ≠ "." ∧ name ≠ ".." ∧ '/' ∉ name.toList

theorem components_of_plain {name : String} (h : '/' ∉ name.toList) : components name = [name] := by
  unfold components
  rw [List.splitOn_eq_splitOnP, List.splitOnP_eq_singleton]
  · simp
  · intro symbol hsymbol
    have hne : symbol ≠ '/' := fun heq ↦ h (heq ▸ hsymbol)
    simpa using hne

theorem components_append_slash (base name : String) :
    components (base ++ "/" ++ name) = components base ++ components name := by
  have hlist : (base ++ "/" ++ name).toList = base.toList ++ '/' :: name.toList := by simp
  unfold components
  rw [hlist, List.splitOn_eq_splitOnP, List.splitOn_eq_splitOnP, List.splitOn_eq_splitOnP,
    List.splitOnP_append_cons _ _ (by simp), List.map_append]

/-- Text after a non-empty path does not change where the path starts. -/
theorem head?_append {base : String} (hbase : base ≠ "") (text : String) :
    (base ++ text).toList.head? = base.toList.head? := by
  have hlist : base.toList ≠ [] := by simpa using hbase
  rw [String.toList_append]
  exact List.head?_append_of_ne_nil _ hlist

theorem head?_ne_slash {name : String} (h : PlainName name) : name.toList.head? ≠ some '/' := by
  intro hhead
  exact h.2.2.2 (List.mem_of_mem_head? hhead)

/-- A path with a plain name behind it starts where the path does. -/
theorem head?_join {base name : String} (hbase : base ≠ "") (hname : PlainName name) :
    (join base name).toList.head? = base.toList.head? := by
  rw [join, if_neg (head?_ne_slash hname)]
  split
  · exact head?_append hbase name
  · rw [String.append_assoc, head?_append hbase]

/-- A plain name is put behind the components of a path; it takes the place of an empty last one. -/
theorem components_join {base name : String} (hbase : base ≠ "") (hname : PlainName name) :
    components (join base name) = components base ++ [name] ∨
      ∃ stem, components base = stem ++ [""] ∧ components (join base name) = stem ++ [name] := by
  have hslash := hname.2.2.2
  rw [join, if_neg (head?_ne_slash hname)]
  split
  · next hend =>
    obtain ⟨stem, hstem⟩ := List.getLast?_eq_some_iff.mp (hend.resolve_left hbase)
    have hparts : base = String.ofList stem ++ "/" := by
      rw [← String.toList_inj, hstem]
      simp
    have hnone : components "" = [""] := components_of_plain (by simp)
    have hbare : components base = components (String.ofList stem) ++ [""] :=
      calc components base
        _ = components (String.ofList stem ++ "/" ++ "") := by rw [String.append_empty, ← hparts]
        _ = components (String.ofList stem) ++ components "" := components_append_slash _ _
        _ = components (String.ofList stem) ++ [""] := by rw [hnone]
    refine .inr ⟨_, hbare, ?_⟩
    rw [hparts, components_append_slash, components_of_plain hslash]
  · apply Or.inl
    rw [components_append_slash, components_of_plain hslash]

/-- A plain name leads one step down. -/
theorem resolve_join {current : Location} {base name : String} (hname : PlainName name) :
    resolve current (join base name) = resolve current base ++ [name] := by
  have henter (location : Location) : enter location name = location ++ [name] := by
    unfold enter
    rw [if_neg (not_or.mpr ⟨hname.1, hname.2.1⟩), if_neg hname.2.2.1]
  by_cases hbase : base = ""
  · have hjoin : join "" name = name := by
      rw [join, if_neg (head?_ne_slash hname), if_pos (.inl rfl), String.empty_append]
    rw [hbase, hjoin, resolve, if_neg (head?_ne_slash hname), components_of_plain hname.2.2.2,
      List.foldl_cons, henter]
    rfl
  · rw [resolve, resolve, head?_join hbase hname]
    rcases components_join hbase hname with hjoined | ⟨stem, hbare, hjoined⟩
    · rw [hjoined, List.foldl_append, List.foldl_cons, henter]
      rfl
    · rw [hbare, hjoined, List.foldl_append, List.foldl_append, List.foldl_cons, List.foldl_cons,
        henter]
      rfl

/-! ### Programs -/

/-- An operation that the system may refuse. -/
inductive Operation
  | read (location : Location)
  | write (location : Location)
  | rename (source target : Location)
  | remove (location : Location)
  | createDir (location : Location)
  | list (location : Location)

/-- What the system refuses, and what a refused write leaves of a file. -/
structure Faults where
  refuses : Operation → Bool
  leaves : Location → Option ℕ

/-- A program that ends with a value or an error, and with the files as it has left them. -/
def FileM (Value : Type) := Store → Option Value × Store

namespace FileM

variable {Value Value' : Type}

instance : Monad FileM where
  pure value store := (some value, store)
  bind program next store :=
    match program store with
    | (some value, after) => next value after
    | (none, after) => (none, after)

/-- End with an error. -/
def fail : FileM Value := fun store ↦ (none, store)

/-- Go on after an error, as `let _ = ..` does. -/
def ignore (program : FileM Value) : FileM Unit := fun store ↦ (some (), (program store).2)

def ofOption : Option Value → FileM Value
  | none => fail
  | some value => pure value

theorem bind_apply (program : FileM Value) (next : Value → FileM Value') (store : Store) :
    (program >>= next) store =
      match program store with
      | (some value, after) => next value after
      | (none, after) => (none, after) := rfl

theorem bind_of_some {program : FileM Value} {store after : Store} {value : Value}
    (h : program store = (some value, after)) (next : Value → FileM Value') :
    (program >>= next) store = next value after := by
  rw [bind_apply, h]

theorem bind_eq_some_iff {program : FileM Value} {next : Value → FileM Value'}
    {store after : Store} {result : Value'} :
    (program >>= next) store = (some result, after) ↔
      ∃ value middle, program store = (some value, middle) ∧
        next value middle = (some result, after) := by
  rw [bind_apply]
  split
  · next value middle hvalue => simp [hvalue]
  · next middle hnone => simp [hnone]

theorem ofOption_eq_some_iff {option : Option Value} {store after : Store} {value : Value} :
    ofOption option store = (some value, after) ↔ option = some value ∧ store = after := by
  cases option with
  | none => simp [ofOption, fail]
  | some other =>
    change (some other, store) = (some value, after) ↔ _
    rw [Prod.mk_inj]

end FileM

open FileM

variable (faults : Faults)

/-- `fs::read`. -/
def readFile (location : Location) : FileM Bytes := fun store ↦
  if faults.refuses (.read location) then (none, store) else (store.lookup location, store)

/-- `Path::exists` on a file. -/
def fileExists (location : Location) : FileM Bool := fun store ↦
  (some (decide (location ∈ store)), store)

/-- `fs::write`. -/
def writeFile (location : Location) (bytes : Bytes) : FileM Unit := fun store ↦
  if faults.refuses (.write location) then
    (none, match faults.leaves location with
      | none => store
      | some left => store.insert location (bytes.take left))
  else (some (), store.insert location bytes)

/-- `fs::rename`. -/
def renameFile (source target : Location) : FileM Unit := fun store ↦
  if faults.refuses (.rename source target) then (none, store)
  else match store.lookup source with
    | none => (none, store)
    | some bytes => (some (), (store.erase source).insert target bytes)

/-- `fs::remove_file`. -/
def removeFile (location : Location) : FileM Unit := fun store ↦
  if faults.refuses (.remove location) ∨ location ∉ store then (none, store)
  else (some (), store.erase location)

/-- `fs::create_dir_all`. -/
def createDirAll (location : Location) : FileM Unit := fun store ↦
  if faults.refuses (.createDir location) then (none, store) else (some (), store)

/-- The files directly in a directory, with their names. -/
def entriesIn (location : Location) (store : Store) : List (String × Bytes) :=
  store.entries.filterMap fun entry ↦
    if entry.1.dropLast = location then entry.1.getLast?.map fun name ↦ (name, entry.2) else none

/-- `fs::read_dir`, with the contents of the files. -/
def readDir (location : Location) : FileM (List (String × Bytes)) := fun store ↦
  if faults.refuses (.list location) then (none, store)
  else (some (entriesIn location store), store)

/-- `Path::exists` on a directory. -/
def dirExists (location : Location) : FileM Bool := fun store ↦
  (some (decide (entriesIn location store ≠ [])), store)

/-! ### Staying in a directory -/

/-- The two stores hold the same files in a directory. -/
def AgreeUnder (base : Location) (store store' : Store) : Prop :=
  ∀ location, base <+: location → store.lookup location = store'.lookup location

/-- The program stays in a directory. -/
structure Confined {Value : Type} (base : Location) (program : FileM Value) : Prop where
  result : ∀ store store', AgreeUnder base store store' → (program store).1 = (program store').1
  inside : ∀ store store', AgreeUnder base store store' →
    AgreeUnder base (program store).2 (program store').2
  outside : ∀ store location, ¬base <+: location →
    (program store).2.lookup location = store.lookup location

section Rules

variable {Value Value' : Type} {base location : Location} {faults : Faults} {store store' : Store}

theorem AgreeUnder.insert (h : AgreeUnder base store store') (location : Location)
    (bytes : Bytes) : AgreeUnder base (store.insert location bytes)
      (store'.insert location bytes) := by
  intro other hother
  rw [HashMap.lookup_insert_ite, HashMap.lookup_insert_ite, h other hother]

theorem AgreeUnder.erase (h : AgreeUnder base store store') (location : Location) :
    AgreeUnder base (store.erase location) (store'.erase location) := by
  intro other hother
  rw [HashMap.lookup_erase_ite, HashMap.lookup_erase_ite, h other hother]

theorem AgreeUnder.mem_iff (h : AgreeUnder base store store') (hbase : base <+: location) :
    location ∈ store ↔ location ∈ store' := by
  rw [← AList.lookup_isSome, ← AList.lookup_isSome, h location hbase]

theorem mem_entriesIn {name : String} {bytes : Bytes} :
    (name, bytes) ∈ entriesIn location store ↔
      store.lookup (location ++ [name]) = some bytes := by
  rw [entriesIn, List.mem_filterMap, ← HashMap.mem_entries_iff]
  constructor
  · rintro ⟨⟨path, contents⟩, hentry, hname⟩
    split at hname
    · rename_i hparent
      obtain ⟨last, hlast, heq⟩ := Option.map_eq_some_iff.mp hname
      cases heq
      have hpath : path = location ++ [name] := by
        obtain ⟨init, rfl⟩ := List.getLast?_eq_some_iff.mp hlast
        rw [← hparent, List.dropLast_concat]
      rwa [← hpath]
    · cases hname
  · intro hentry
    exact ⟨⟨location ++ [name], bytes⟩, hentry, by simp⟩

theorem nodup_entriesIn : (entriesIn location store).Nodup := by
  refine List.Nodup.filterMap ?_ store.nodupKeys.nodup
  rintro ⟨path, contents⟩ ⟨path', contents'⟩ ⟨name, bytes⟩ hleft hright
  have hinvert {file : Location} {content : Bytes}
      (h : (name, bytes) ∈ (if file.dropLast = location then
        file.getLast?.map fun last ↦ (last, content) else none)) :
      file = location ++ [name] ∧ content = bytes := by
    split at h
    · rename_i hparent
      obtain ⟨last, hlast, heq⟩ := Option.map_eq_some_iff.mp h
      cases heq
      obtain ⟨init, rfl⟩ := List.getLast?_eq_some_iff.mp hlast
      rw [← hparent, List.dropLast_concat]
      exact ⟨rfl, rfl⟩
    · cases h
  obtain ⟨rfl, rfl⟩ := hinvert hleft
  obtain ⟨rfl, rfl⟩ := hinvert hright
  rfl

/-- The listings of two directories with the same files differ at most in their order. -/
theorem AgreeUnder.entriesIn_perm (h : AgreeUnder base store store') (hbase : base <+: location) :
    (entriesIn location store).Perm (entriesIn location store') := by
  rw [List.perm_ext_iff_of_nodup nodup_entriesIn nodup_entriesIn]
  rintro ⟨name, bytes⟩
  rw [mem_entriesIn, mem_entriesIn, h _ (hbase.trans (List.prefix_append _ _))]

/-- Reading all entries of two listings of the same files: whatever succeeds on one succeeds on the
other, with the same values in another order. -/
theorem exists_mapM_of_perm {Entry : Type} {read : Entry → Option Value}
    {entries entries' : List Entry} {values : List Value} (hperm : entries.Perm entries')
    (h : entries.mapM read = some values) :
    ∃ values', entries'.mapM read = some values' ∧ values.Perm values' := by
  induction hperm generalizing values with
  | nil => exact ⟨values, h, .refl _⟩
  | cons entry _ ih =>
    rw [List.mapM_cons] at h ⊢
    obtain ⟨value, hvalue, hrest⟩ := Option.bind_eq_some_iff.mp h
    obtain ⟨rest, hread, heq⟩ := Option.bind_eq_some_iff.mp hrest
    obtain ⟨rest', hread', hperm⟩ := ih hread
    cases heq
    exact ⟨value :: rest', by simp [hvalue, hread'], hperm.cons value⟩
  | swap first second rest =>
    simp only [List.mapM_cons] at h ⊢
    obtain ⟨value, hvalue, hrest⟩ := Option.bind_eq_some_iff.mp h
    obtain ⟨others, hothers, heq⟩ := Option.bind_eq_some_iff.mp hrest
    obtain ⟨value', hvalue', hmore⟩ := Option.bind_eq_some_iff.mp hothers
    obtain ⟨last, hlast, heq'⟩ := Option.bind_eq_some_iff.mp hmore
    cases heq'
    cases heq
    exact ⟨value' :: value :: last, by simp [hvalue, hvalue', hlast], .swap _ _ _⟩
  | trans _ _ ih ih' =>
    obtain ⟨middle, hmiddle, hperm⟩ := ih h
    obtain ⟨last, hlast, hperm'⟩ := ih' hmiddle
    exact ⟨last, hlast, hperm.trans hperm'⟩

/-- Reading all entries for a purpose that does not depend on their order. -/
theorem map_mapM_of_perm {Entry Result : Type} {read : Entry → Option Value}
    {entries entries' : List Entry} {summary : List Value → Result} (hperm : entries.Perm entries')
    (hsummary : ∀ values values', values.Perm values' → summary values = summary values') :
    (entries.mapM read).map summary = (entries'.mapM read).map summary := by
  cases h : entries.mapM read with
  | some values =>
    obtain ⟨values', hread, hvalues⟩ := exists_mapM_of_perm hperm h
    rw [hread, Option.map_some, Option.map_some, hsummary values values' hvalues]
  | none =>
    cases h' : entries'.mapM read with
    | none => rfl
    | some values' =>
      obtain ⟨values, hread, -⟩ := exists_mapM_of_perm hperm.symm h'
      cases h.symm.trans hread

namespace Confined

theorem pure (base : Location) (value : Value) : Confined base (Pure.pure value : FileM Value) where
  result _ _ _ := rfl
  inside _ _ h := h
  outside _ _ _ := rfl

theorem fail (base : Location) : Confined base (FileM.fail : FileM Value) where
  result _ _ _ := rfl
  inside _ _ h := h
  outside _ _ _ := rfl

theorem ofOption (base : Location) (value : Option Value) :
    Confined base (FileM.ofOption value) := by
  cases value with
  | none => exact fail base
  | some value => exact pure base value

theorem ignore {program : FileM Value} (h : Confined base program) :
    Confined base program.ignore where
  result _ _ _ := rfl
  inside := h.inside
  outside := h.outside

theorem bind {program : FileM Value} {next : Value → FileM Value'} (h : Confined base program)
    (hnext : ∀ value, Confined base (next value)) : Confined base (program >>= next) := by
  refine ⟨fun store store' hagree ↦ ?_, fun store store' hagree ↦ ?_,
    fun store location hlocation ↦ ?_⟩
  · have hresult := h.result store store' hagree
    have hinside := h.inside store store' hagree
    rw [bind_apply, bind_apply]
    rcases hleft : program store with ⟨value, after⟩
    rcases hright : program store' with ⟨value', after'⟩
    rw [hleft, hright] at hresult hinside
    obtain rfl : value = value' := hresult
    cases value with
    | none => rfl
    | some value => exact (hnext value).result after after' hinside
  · have hresult := h.result store store' hagree
    have hinside := h.inside store store' hagree
    rw [bind_apply, bind_apply]
    rcases hleft : program store with ⟨value, after⟩
    rcases hright : program store' with ⟨value', after'⟩
    rw [hleft, hright] at hresult hinside
    obtain rfl : value = value' := hresult
    cases value with
    | none => exact hinside
    | some value => exact (hnext value).inside after after' hinside
  · have houtside := h.outside store location hlocation
    rw [bind_apply]
    rcases hleft : program store with ⟨value, after⟩
    rw [hleft] at houtside
    cases value with
    | none => exact houtside
    | some value => exact ((hnext value).outside after location hlocation).trans houtside

theorem readFile (hbase : base <+: location) : Confined base (readFile faults location) := by
  unfold Disk.readFile
  refine ⟨fun store store' hagree ↦ ?_, fun store store' hagree ↦ ?_, fun store other _ ↦ ?_⟩
  · split
    · rfl
    · exact hagree location hbase
  · split
    · exact hagree
    · exact hagree
  · split <;> rfl

theorem fileExists (hbase : base <+: location) : Confined base (fileExists location) where
  result store store' hagree := by
    unfold Disk.fileExists
    simp only [hagree.mem_iff hbase]
  inside _ _ h := h
  outside _ _ _ := rfl

theorem writeFile (hbase : base <+: location) (bytes : Bytes) :
    Confined base (writeFile faults location bytes) := by
  unfold Disk.writeFile
  have hother (store : Store) (other : Location) (hother : ¬base <+: other) (written : Bytes) :
      (store.insert location written).lookup other = store.lookup other := by
    apply AList.lookup_insert_ne
    rintro rfl
    exact hother hbase
  refine ⟨fun store store' hagree ↦ ?_, fun store store' hagree ↦ ?_, fun store other hout ↦ ?_⟩
  · split <;> rfl
  · split
    · dsimp only
      split
      · exact hagree
      · exact hagree.insert _ _
    · exact hagree.insert _ _
  · split
    · dsimp only
      split
      · rfl
      · exact hother store other hout _
    · exact hother store other hout bytes

theorem renameFile {source target : Location} (hsource : base <+: source)
    (htarget : base <+: target) : Confined base (renameFile faults source target) := by
  unfold Disk.renameFile
  refine ⟨fun store store' hagree ↦ ?_, fun store store' hagree ↦ ?_, fun store other hout ↦ ?_⟩
  · split
    · rfl
    · rw [hagree source hsource]
      cases store'.lookup source with
      | none => rfl
      | some bytes => rfl
  · split
    · exact hagree
    · rw [hagree source hsource]
      cases store'.lookup source with
      | none => exact hagree
      | some bytes => exact (hagree.erase source).insert target bytes
  · split
    · rfl
    · split
      · rfl
      · have hne : other ≠ target := by
          rintro rfl
          exact hout htarget
        have hne' : other ≠ source := by
          rintro rfl
          exact hout hsource
        dsimp only
        rw [AList.lookup_insert_ne hne, AList.lookup_erase_ne hne']

theorem removeFile (hbase : base <+: location) : Confined base (removeFile faults location) := by
  unfold Disk.removeFile
  refine ⟨fun store store' hagree ↦ ?_, fun store store' hagree ↦ ?_, fun store other hout ↦ ?_⟩
  · simp only [hagree.mem_iff hbase]
    split <;> rfl
  · simp only [hagree.mem_iff hbase]
    split
    · exact hagree
    · exact hagree.erase location
  · split
    · rfl
    · apply AList.lookup_erase_ne
      rintro rfl
      exact hout hbase

theorem createDirAll (base : Location) : Confined base (createDirAll faults location) := by
  unfold Disk.createDirAll
  refine ⟨fun store store' hagree ↦ ?_, fun store store' hagree ↦ ?_, fun store other _ ↦ ?_⟩
  · split <;> rfl
  · split
    · exact hagree
    · exact hagree
  · split <;> rfl

theorem dirExists (hbase : base <+: location) : Confined base (dirExists location) where
  result store store' hagree := by
    have hperm := hagree.entriesIn_perm hbase
    have hnil : entriesIn location store = [] ↔ entriesIn location store' = [] := by
      constructor
      · intro h
        exact (h ▸ hperm).nil_eq.symm
      · intro h
        exact (h ▸ hperm).eq_nil
    unfold Disk.dirExists
    simp only [ne_eq, hnil]
  inside _ _ h := h
  outside _ _ _ := rfl

/-- What follows a listing may not depend on its order. -/
theorem readDir {next : List (String × Bytes) → FileM Value} (hbase : base <+: location)
    (hnext : ∀ entries, Confined base (next entries))
    (horder : ∀ entries entries', entries.Perm entries' → next entries = next entries') :
    Confined base (readDir faults location >>= next) := by
  have hrun (store : Store) : (Disk.readDir faults location >>= next) store =
      if faults.refuses (.list location) then (none, store)
      else next (entriesIn location store) store := by
    rw [bind_apply]
    unfold Disk.readDir
    cases faults.refuses (.list location) with
    | false => rfl
    | true => rfl
  refine ⟨fun store store' hagree ↦ ?_, fun store store' hagree ↦ ?_,
    fun store other hout ↦ ?_⟩
  · rw [hrun, hrun]
    split
    · rfl
    · rw [horder _ _ (hagree.entriesIn_perm hbase)]
      exact (hnext _).result store store' hagree
  · rw [hrun, hrun]
    split
    · exact hagree
    · rw [horder _ _ (hagree.entriesIn_perm hbase)]
      exact (hnext _).inside store store' hagree
  · rw [hrun]
    split
    · rfl
    · exact (hnext _).outside store other hout

end Confined

end Rules

end Ghostbro.Disk
