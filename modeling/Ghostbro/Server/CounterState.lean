import Ghostbro.Foundation.HashMap
import Ghostbro.Common.Keys

/-!
# The counter-state file

`save_counter_state` writes the whole table of replay counters to a temporary file next to the
live one, syncs it and renames it over the live file; `load_counter_state` reads the live file
back.  Each file operation may fail, and a process may die between any two of them, so a save is
described by the point at which it stops.  The `toml` crate is a parameter.
-/

namespace Ghostbro

/-- A path with a file name. -/
structure Path where
  parent : List String
  fileName : String
  deriving DecidableEq

namespace Path

/-- `file_stem` and `extension`: split at the last dot, unless that dot starts the name. -/
def splitAtDot (fileName : String) : String × Option String :=
  let reversed := fileName.toList.reverse
  let after := reversed.takeWhile (· ≠ '.')
  let before := (reversed.dropWhile (· ≠ '.')).drop 1
  if '.' ∈ fileName.toList ∧ before ≠ [] then
    (String.ofList before.reverse, some (String.ofList after.reverse))
  else (fileName, none)

/-- `Path::extension`. -/
def extension (path : Path) : Option String := (splitAtDot path.fileName).2

/-- `Path::with_extension` for a non-empty extension. -/
def withExtension (path : Path) (extension : String) : Path :=
  { path with fileName := (splitAtDot path.fileName).1 ++ "." ++ extension }

/-- `Path::display`. -/
def display (path : Path) : String := String.intercalate "/" (path.parent ++ [path.fileName])

theorem splitAtDot_append_tmp {stem : String} (hstem : stem ≠ "") :
    splitAtDot (stem ++ "." ++ "tmp") = (stem, some "tmp") := by
  have hlist : (stem ++ "." ++ "tmp").toList = stem.toList ++ ['.', 't', 'm', 'p'] := by
    simp
  have hreverse : (stem ++ "." ++ "tmp").toList.reverse =
      'p' :: 'm' :: 't' :: '.' :: stem.toList.reverse := by simp
  have hnonempty : stem.toList.reverse ≠ [] := by simpa using hstem
  unfold splitAtDot
  rw [hreverse, hlist]
  simp [hnonempty]

/-- The temporary file is another file unless the live file already has the extension `tmp`. -/
theorem withExtension_tmp_ne {path : Path} (h : path.extension ≠ some "tmp") :
    path.withExtension "tmp" ≠ path := by
  intro heq
  have hname : (splitAtDot path.fileName).1 ++ "." ++ "tmp" = path.fileName :=
    congrArg fileName heq
  by_cases hstem : (splitAtDot path.fileName).1 = ""
  · rw [hstem] at hname
    rw [← hname] at hstem
    revert hstem
    decide
  · have hsplit := splitAtDot_append_tmp hstem
    rw [hname] at hsplit
    exact h (by rw [extension, hsplit])

/-- A list with a dot is split at its first dot. -/
theorem takeWhile_append_dot {letters : List Char} (h : '.' ∈ letters) :
    letters.takeWhile (· ≠ '.') ++ '.' :: (letters.dropWhile (· ≠ '.')).drop 1 = letters := by
  induction letters with
  | nil => cases h
  | cons letter rest ih =>
    by_cases hletter : letter = '.'
    · simp [hletter]
    · simp only [List.mem_cons, Ne.symm hletter, false_or] at h
      simpa [hletter] using ih h

/-- A file name with an extension is put together again from its two parts. -/
theorem append_of_splitAtDot {fileName extension : String}
    (h : (splitAtDot fileName).2 = some extension) :
    (splitAtDot fileName).1 ++ "." ++ extension = fileName := by
  simp only [splitAtDot] at h ⊢
  split_ifs at h ⊢ with hdot
  have hletters := takeWhile_append_dot (List.mem_reverse.mpr hdot.1)
  obtain rfl := Option.some.inj h
  rw [← String.toList_inj, ← List.reverse_inj]
  simpa using hletters

/-- The temporary file of a live file with the extension `tmp` is that file. -/
theorem withExtension_tmp_eq {path : Path} (h : path.extension = some "tmp") :
    path.withExtension "tmp" = path := by
  rw [withExtension, append_of_splitAtDot h]

end Path

/-- The regular files of the host, by path. -/
abbrev FileSystem := HashMap Path String

/-- `CounterStateFile`. -/
structure CounterStateFile where
  counters : HashMap String UInt64

/-- The `toml` crate on counter-state files. -/
structure Toml where
  /-- `toml::to_string_pretty`. -/
  toStringPretty : CounterStateFile → Option String
  /-- `toml::from_str`. -/
  fromStr : String → Option CounterStateFile

/-- The text written for a table parses back to the same table. -/
def Toml.RoundTrips (toml : Toml) : Prop :=
  ∀ file text, toml.toStringPretty file = some text →
    ∃ parsed, toml.fromStr text = some parsed ∧
      ∀ key, parsed.counters.lookup key = file.counters.lookup key

/-- `i64::MAX`, the largest integer of the format. -/
def i64Max : UInt64 := 9223372036854775807

/-- A table serializes exactly when each of its counters fits a signed 64-bit integer. -/
def Toml.SerializesUpToI64Max (toml : Toml) : Prop :=
  ∀ file, (toml.toStringPretty file).isSome ↔
    ∀ key counter, file.counters.lookup key = some counter → counter ≤ i64Max

/-! ### The text of a table

One header line and one line for each counter, as the crate writes them for bare keys. -/

namespace Toml

def render (file : CounterStateFile) : String :=
  "[counters]\n" ++ String.join (file.counters.entries.map fun entry ↦
    entry.1 ++ " = " ++ toString entry.2.toNat ++ "\n")

def parseLine (line : List Char) : Option (String × UInt64) :=
  let key := line.takeWhile (· ≠ ' ')
  let rest := line.drop key.length
  let digits := rest.drop 3
  if rest.take 3 = [' ', '=', ' '] ∧ digits ≠ [] ∧ digits.all Char.isDigit then
    some (String.ofList key,
      UInt64.ofNat (digits.foldl (fun value digit ↦ value * 10 + (digit.toNat - 48)) 0))
  else none

def parse (text : String) : Option CounterStateFile :=
  match text.toList.splitOn '\n' with
  | [] => none
  | header :: lines =>
    if header = "[counters]".toList then
      ((lines.filter (· ≠ [])).mapM parseLine).map fun pairs ↦ ⟨HashMap.collect pairs⟩
    else none

/-- The crate on tables with bare keys. -/
def plain : Toml where
  toStringPretty file :=
    if ∀ entry ∈ file.counters.entries, entry.2 ≤ i64Max then some (render file) else none
  fromStr := parse

/-- The same, refusing tables whose text would not parse back. -/
def checked : Toml where
  toStringPretty file := (plain.toStringPretty file).filter fun text ↦
    (parse text).elim false fun parsed ↦
      decide (parsed.counters.entries.Perm file.counters.entries)
  fromStr := parse

theorem plain_serializesUpToI64Max : plain.SerializesUpToI64Max := by
  intro file
  have hentries : (∀ entry ∈ file.counters.entries, entry.2 ≤ i64Max) ↔
      ∀ key counter, file.counters.lookup key = some counter → counter ≤ i64Max := by
    constructor
    · intro h key counter hlookup
      exact h _ (HashMap.mem_entries_iff.mpr hlookup)
    · intro h entry hentry
      exact h entry.1 entry.2 (HashMap.mem_entries_iff.mp hentry)
  rw [← hentries]
  simp only [plain]
  split_ifs with h
  · exact iff_of_true rfl h
  · exact iff_of_false (by simp) h

theorem checked_roundTrips : checked.RoundTrips := by
  intro file text htext
  obtain ⟨_, hparse⟩ := Option.filter_eq_some_iff.mp htext
  cases hparsed : parse text with
  | none => simp [hparsed] at hparse
  | some parsed =>
    have hperm : parsed.counters.entries.Perm file.counters.entries := by
      simpa [hparsed] using hparse
    exact ⟨parsed, hparsed, fun key ↦ AList.perm_lookup hperm⟩

end Toml

/-! ### Saving -/

/-- The file operation of `save_counter_state` that fails, or after which the process dies. -/
inductive SaveFault
  | createDir
  | createTemp
  /-- Only the first `written` characters reached the temporary file. -/
  | writeTemp (written : ℕ)
  | syncTemp
  | rename
  deriving DecidableEq

/-- The error of the failing operation, up to the text of the operating system. -/
def SaveFault.message (path : Path) : SaveFault → String
  | .createDir => "failed to create " ++ String.intercalate "/" path.parent
  | .createTemp => "failed to create " ++ (path.withExtension "tmp").display
  | .writeTemp _ => "failed to write " ++ (path.withExtension "tmp").display
  | .syncTemp => "failed to fsync " ++ (path.withExtension "tmp").display
  | .rename => "failed to rename " ++ (path.withExtension "tmp").display ++ " to " ++ path.display

/-- The serialized form of a counter table. -/
def counterStateFile (counters : HashMap KeyId UInt64) : CounterStateFile :=
  ⟨HashMap.collect (counters.entries.map fun entry ↦ (Keys.keyIdHex entry.1, entry.2))⟩

/-- The files after a save of `contents` that stops at `fault`, or runs to its end. -/
def writeThenRename (files : FileSystem) (path : Path) (contents : String) :
    Option SaveFault → FileSystem
  | some .createDir => files
  | some .createTemp => files
  | some (.writeTemp written) =>
    files.insert (path.withExtension "tmp") (String.ofList (contents.toList.take written))
  | some .syncTemp => files.insert (path.withExtension "tmp") contents
  | some .rename => files.insert (path.withExtension "tmp") contents
  | none =>
    ((files.insert (path.withExtension "tmp") contents).erase
      (path.withExtension "tmp")).insert path contents

/-- `save_counter_state`: the files it leaves and its result. -/
def saveCounterState (toml : Toml) (files : FileSystem) (path : Path)
    (counters : HashMap KeyId UInt64) (fault : Option SaveFault) :
    FileSystem × Except String Unit :=
  match toml.toStringPretty (counterStateFile counters) with
  | none => (files, .error "failed to serialize SPA counter state")
  | some contents =>
    (writeThenRename files path contents fault,
      match fault with
      | none => .ok ()
      | some fault => .error (fault.message path))

/-! ### Loading -/

/-- The loop of `load_counter_state` over the parsed table. -/
def decodeCounters (file : CounterStateFile) : Option (HashMap KeyId UInt64) :=
  (file.counters.entries.mapM fun entry ↦
    (Keys.keyIdFromHex entry.1).map fun keyId ↦ (keyId, entry.2)).map HashMap.collect

/-- `load_counter_state`. -/
def loadCounterState (toml : Toml) (files : FileSystem) (path : Path) (allowMissingState : Bool) :
    Except String (HashMap KeyId UInt64) :=
  match files.lookup path with
  | none =>
    if allowMissingState then .ok ∅
    else .error ("SPA counter-state file " ++ path.display ++
      " is missing; refusing to start with reset replay counters. " ++
      "Set GHOSTBRO_SPA_COUNTER_INIT=1 for an explicit first-run init.")
  | some contents =>
    match toml.fromStr contents with
    | none => .error ("failed to parse " ++ path.display)
    | some file =>
      match decodeCounters file with
      | none => .error ("invalid key_id in " ++ path.display)
      | some counters => .ok counters

/-! ### A saved table loads back -/

theorem lookup_counterStateFile (counters : HashMap KeyId UInt64) (name : String)
    (counter : UInt64) :
    (counterStateFile counters).counters.lookup name = some counter ↔
      ∃ keyId, Keys.keyIdHex keyId = name ∧ counters.lookup keyId = some counter := by
  have hnodup : ((counters.entries.map fun entry ↦
      (Keys.keyIdHex entry.1, entry.2)).map Prod.fst).Nodup := by
    rw [List.map_map]
    have hkeys : counters.entries.map (Prod.fst ∘ fun entry ↦ (Keys.keyIdHex entry.1, entry.2)) =
        counters.keys.map Keys.keyIdHex := by
      simp [AList.keys, List.keys, Function.comp_def]
    rw [hkeys]
    exact counters.keys_nodup.map Keys.keyIdHex_injective
  rw [counterStateFile, HashMap.lookup_collect hnodup, List.mem_map]
  constructor
  · rintro ⟨⟨keyId, stored⟩, hmem, heq⟩
    obtain ⟨rfl, rfl⟩ : Keys.keyIdHex keyId = name ∧ stored = counter := by simpa using heq
    exact ⟨keyId, rfl, HashMap.mem_entries_iff.mp hmem⟩
  · rintro ⟨keyId, rfl, hlookup⟩
    exact ⟨⟨keyId, counter⟩, HashMap.mem_entries_iff.mpr hlookup, rfl⟩

/-- Decoding succeeds on entries that are all written names, and keeps every pair. -/
theorem mapM_decode {entries : List (Σ _ : String, UInt64)}
    (hnames : ∀ entry ∈ entries, ∃ keyId, Keys.keyIdHex keyId = entry.1) :
    ∃ pairs, (entries.mapM fun entry ↦
        (Keys.keyIdFromHex entry.1).map fun keyId ↦ (keyId, entry.2)) = some pairs ∧
      entries = pairs.map fun pair ↦ ⟨Keys.keyIdHex pair.1, pair.2⟩ := by
  induction entries with
  | nil => exact ⟨[], rfl, rfl⟩
  | cons entry rest ih =>
    obtain ⟨pairs, hrest, hmap⟩ := ih fun entry hentry ↦
      hnames entry (List.mem_cons_of_mem _ hentry)
    obtain ⟨keyId, hname⟩ := hnames entry List.mem_cons_self
    refine ⟨(keyId, entry.2) :: pairs, ?_, ?_⟩
    · simp [List.mapM_cons, ← hname, hrest]
    · rw [List.map_cons, ← hmap, hname]

/-- Decoding the serialized form of a table gives the table. -/
theorem decodeCounters_of_lookup {counters : HashMap KeyId UInt64} {file : CounterStateFile}
    (hfile : ∀ name, file.counters.lookup name = (counterStateFile counters).counters.lookup name) :
    ∃ decoded, decodeCounters file = some decoded ∧
      ∀ keyId, decoded.lookup keyId = counters.lookup keyId := by
  have hnames : ∀ entry ∈ file.counters.entries, ∃ keyId, Keys.keyIdHex keyId = entry.1 := by
    intro entry hentry
    have hlookup := HashMap.mem_entries_iff.mp hentry
    rw [hfile, lookup_counterStateFile] at hlookup
    obtain ⟨keyId, hname, _⟩ := hlookup
    exact ⟨keyId, hname⟩
  obtain ⟨pairs, hmapM, hentries⟩ := mapM_decode hnames
  have hnodup : (pairs.map Prod.fst).Nodup := by
    have hkeys : file.counters.keys = (pairs.map Prod.fst).map Keys.keyIdHex := by
      simp [AList.keys, List.keys, hentries, Function.comp_def]
    exact (hkeys ▸ file.counters.keys_nodup).of_map
  refine ⟨HashMap.collect pairs, by rw [decodeCounters, hmapM]; rfl, fun keyId ↦ ?_⟩
  apply Option.ext
  intro counter
  have hpair : (keyId, counter) ∈ pairs ↔
      (⟨Keys.keyIdHex keyId, counter⟩ : Σ _ : String, UInt64) ∈ file.counters.entries := by
    rw [hentries, List.mem_map]
    constructor
    · intro hmem
      exact ⟨_, hmem, rfl⟩
    · rintro ⟨⟨keyId', counter'⟩, hmem, heq⟩
      obtain ⟨hname, rfl⟩ : Keys.keyIdHex keyId' = Keys.keyIdHex keyId ∧ counter' = counter := by
        simpa using heq
      rwa [← Keys.keyIdHex_injective hname]
  rw [HashMap.lookup_collect hnodup, hpair, HashMap.mem_entries_iff, hfile,
    lookup_counterStateFile]
  constructor
  · rintro ⟨keyId', hname, hlookup⟩
    rwa [← Keys.keyIdHex_injective hname]
  · intro hlookup
    exact ⟨keyId, rfl, hlookup⟩

/-- A file that holds the text of a table loads as that table. -/
theorem loadCounterState_of_text {toml : Toml} (htoml : toml.RoundTrips) {files : FileSystem}
    {path : Path} {counters : HashMap KeyId UInt64} {contents : String}
    (htext : toml.toStringPretty (counterStateFile counters) = some contents)
    (hfile : files.lookup path = some contents) (allowMissingState : Bool) :
    ∃ loaded, loadCounterState toml files path allowMissingState = .ok loaded ∧
      ∀ keyId, loaded.lookup keyId = counters.lookup keyId := by
  obtain ⟨parsed, hparse, hlookup⟩ := htoml _ _ htext
  obtain ⟨decoded, hdecode, hdecoded⟩ := decodeCounters_of_lookup hlookup
  exact ⟨decoded, by simp [loadCounterState, hfile, hparse, hdecode], hdecoded⟩

/-! ### What a save does to the live file -/

/-- A completed save leaves the text in the live file. -/
theorem lookup_writeThenRename_none (files : FileSystem) (path : Path) (contents : String) :
    (writeThenRename files path contents none).lookup path = some contents := by
  simp [writeThenRename]

/-- A save that stops early leaves the live file alone, if the temporary file is another one. -/
theorem lookup_writeThenRename_some {path : Path} (hpath : path.withExtension "tmp" ≠ path)
    (files : FileSystem) (contents : String) (fault : SaveFault) :
    (writeThenRename files path contents (some fault)).lookup path = files.lookup path := by
  cases fault <;> simp [writeThenRename, AList.lookup_insert_ne hpath.symm]

end Ghostbro
