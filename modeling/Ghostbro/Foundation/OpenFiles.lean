import Ghostbro.Foundation.HashMap
import Ghostbro.Foundation.Words

/-!
# Files that stay open while their names change

A name leads to a file, and who has opened the file keeps it whatever becomes of the name.  Opening
a name for writing creates its file or truncates the one that is there; a write puts bytes at a
position of the file; a rename gives the file another name and takes that name from the file that
had it.  Two openings of one name between two renames therefore share one file.

No operation gives a file a second name, and the number of a file is never used again.
-/

namespace Ghostbro

/-- Files by number, and the names that lead to them. -/
structure OpenFiles (Name : Type*) [DecidableEq Name] where
  names : HashMap Name ℕ
  contents : HashMap ℕ Bytes
  next : ℕ
  fresh : ∀ name file, names.lookup name = some file → file < next
  apart : ∀ name name' file, names.lookup name = some file → names.lookup name' = some file →
    name = name'

namespace OpenFiles

variable {Name : Type*} [DecidableEq Name]

def empty : OpenFiles Name where
  names := ∅
  contents := ∅
  next := 0
  fresh _ _ h := by cases h
  apart _ _ _ h := by cases h

/-- What is in a file. -/
def text (files : OpenFiles Name) (file : ℕ) : Bytes := (files.contents.lookup file).getD []

/-- What a reader of the name gets. -/
def read (files : OpenFiles Name) (name : Name) : Option Bytes :=
  (files.names.lookup name).map files.text

/-- `bytes` at a position of a text; a gap is filled with zeros. -/
def overwrite (text : Bytes) (position : ℕ) (bytes : Bytes) : Bytes :=
  text.take position ++ List.replicate (position - text.length) 0 ++ bytes ++
    text.drop (position + bytes.length)

def write (files : OpenFiles Name) (file position : ℕ) (bytes : Bytes) : OpenFiles Name :=
  { files with contents := files.contents.insert file (overwrite (files.text file) position bytes) }

/-- A new empty file under a name. -/
def create (files : OpenFiles Name) (name : Name) : OpenFiles Name where
  names := files.names.insert name files.next
  contents := files.contents.insert files.next []
  next := files.next + 1
  fresh other file h := by
    rw [HashMap.lookup_insert_ite] at h
    split_ifs at h with hother
    · cases h
      exact Nat.lt_succ_self _
    · exact Nat.lt_succ_of_lt (files.fresh other file h)
  apart other other' file h h' := by
    rw [HashMap.lookup_insert_ite] at h h'
    split_ifs at h h' with hother hother' hother'
    · rw [hother, hother']
    · cases h
      exact absurd (files.fresh other' _ h') (Nat.lt_irrefl _)
    · cases h'
      exact absurd (files.fresh other _ h) (Nat.lt_irrefl _)
    · exact files.apart other other' file h h'

/-- Open a name for writing, and the file it leads to. -/
def truncate (files : OpenFiles Name) (name : Name) : OpenFiles Name × ℕ :=
  match files.names.lookup name with
  | some file => ({ files with contents := files.contents.insert file [] }, file)
  | none => (files.create name, files.next)

def unlink (files : OpenFiles Name) (name : Name) : OpenFiles Name where
  names := files.names.erase name
  contents := files.contents
  next := files.next
  fresh other file h := files.fresh other file (HashMap.lookup_of_lookup_erase h).2
  apart other other' file h h' :=
    files.apart other other' file (HashMap.lookup_of_lookup_erase h).2
      (HashMap.lookup_of_lookup_erase h').2

/-- Give the file of a name another name. -/
def move (files : OpenFiles Name) (source target : Name) (file : ℕ)
    (hsource : files.names.lookup source = some file) : OpenFiles Name where
  names := (files.names.erase source).insert target file
  contents := files.contents
  next := files.next
  fresh other file' h := by
    rw [HashMap.lookup_insert_ite] at h
    split_ifs at h with hother
    · cases h
      exact files.fresh source file hsource
    · exact files.fresh other file' (HashMap.lookup_of_lookup_erase h).2
  apart other other' file' h h' := by
    rw [HashMap.lookup_insert_ite] at h h'
    split_ifs at h h' with hother hother' hother'
    · rw [hother, hother']
    · cases h
      obtain ⟨hne, hlookup⟩ := HashMap.lookup_of_lookup_erase h'
      exact absurd (files.apart other' source file hlookup hsource) hne
    · cases h'
      obtain ⟨hne, hlookup⟩ := HashMap.lookup_of_lookup_erase h
      exact absurd (files.apart other source file hlookup hsource) hne
    · exact files.apart other other' file' (HashMap.lookup_of_lookup_erase h).2
        (HashMap.lookup_of_lookup_erase h').2

/-- `rename`: an error if the name leads nowhere. -/
def rename (files : OpenFiles Name) (source target : Name) : Option (OpenFiles Name) :=
  match hsource : files.names.lookup source with
  | some file => some (files.move source target file hsource)
  | none => none

/-! ### What the operations change -/

variable {files after : OpenFiles Name} {name other source target : Name} {file position : ℕ}

theorem overwrite_at_end (text bytes : Bytes) :
    overwrite text text.length bytes = text ++ bytes := by
  simp [overwrite]

@[simp]
theorem names_write (bytes : Bytes) : (files.write file position bytes).names = files.names := rfl

theorem text_insert (contents : HashMap ℕ Bytes) (file other : ℕ) (bytes : Bytes) :
    ((contents.insert file bytes).lookup other).getD [] =
      if other = file then bytes else (contents.lookup other).getD [] := by
  rw [HashMap.lookup_insert_ite]
  split <;> rfl

theorem text_write (other : ℕ) (bytes : Bytes) :
    (files.write file position bytes).text other =
      if other = file then overwrite (files.text file) position bytes else files.text other :=
  text_insert _ _ _ _

/-- A file that is truncated loses its text, and all others keep theirs. -/
theorem text_truncate (other : ℕ) :
    (files.truncate name).1.text other =
      if other = (files.truncate name).2 then [] else files.text other := by
  unfold truncate
  split
  all_goals exact text_insert _ _ _ _

theorem lookup_truncate (other : Name) :
    (files.truncate name).1.names.lookup other =
      if other = name then some (files.truncate name).2 else files.names.lookup other := by
  unfold truncate
  split
  · rename_i file hname
    split
    · rename_i hother
      rw [hother]
      exact hname
    · rfl
  · exact HashMap.lookup_insert_ite _ _ _ _

/-- A name that leads to the truncated file is the one that was opened. -/
theorem ne_truncate (hother : files.names.lookup other = some file) (hne : other ≠ name) :
    file ≠ (files.truncate name).2 := by
  rintro rfl
  have hboth : (files.truncate name).1.names.lookup other = some (files.truncate name).2 := by
    rw [lookup_truncate, if_neg hne, hother]
  have hopened : (files.truncate name).1.names.lookup name = some (files.truncate name).2 := by
    rw [lookup_truncate, if_pos rfl]
  exact hne ((files.truncate name).1.apart _ _ _ hboth hopened)

theorem read_truncate_of_ne (hne : other ≠ name) :
    (files.truncate name).1.read other = files.read other := by
  unfold read
  rw [lookup_truncate, if_neg hne]
  cases hother : files.names.lookup other with
  | none => rfl
  | some file =>
    rw [Option.map_some, Option.map_some, text_truncate, if_neg (ne_truncate hother hne)]

theorem read_write_of_ne (hname : files.names.lookup name = some file) (hne : other ≠ name)
    (bytes : Bytes) : (files.write file position bytes).read other = files.read other := by
  unfold read
  rw [names_write]
  cases hother : files.names.lookup other with
  | none => rfl
  | some file' =>
    have hfile : file' ≠ file := by
      rintro rfl
      exact hne (files.apart other name file' hother hname)
    rw [Option.map_some, Option.map_some, text_write, if_neg hfile]

theorem lookup_unlink (other : Name) :
    (files.unlink name).names.lookup other =
      if other = name then none else files.names.lookup other :=
  HashMap.lookup_erase_ite _ _ _

theorem read_unlink (other : Name) :
    (files.unlink name).read other = if other = name then none else files.read other := by
  unfold read
  rw [lookup_unlink]
  split <;> rfl

@[simp]
theorem text_unlink (file : ℕ) : (files.unlink name).text file = files.text file := rfl

/-- A rename moves the file with its text. -/
theorem rename_eq_some (h : files.rename source target = some after) :
    ∃ file, files.names.lookup source = some file ∧ after.contents = files.contents ∧
      ∀ other, after.names.lookup other =
        if other = target then some file
        else if other = source then none else files.names.lookup other := by
  unfold rename at h
  split at h
  · rename_i file hsource
    cases h
    refine ⟨file, hsource, rfl, fun other ↦ ?_⟩
    change ((files.names.erase source).insert target file).lookup other = _
    rw [HashMap.lookup_insert_ite, HashMap.lookup_erase_ite]
  · cases h

theorem rename_isSome (h : files.names.lookup source = some file) :
    ∃ after, files.rename source target = some after := by
  unfold rename
  split
  · exact ⟨_, rfl⟩
  · rename_i hnone
    rw [h] at hnone
    cases hnone

end OpenFiles

end Ghostbro
