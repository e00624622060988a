import Ghostbro.Foundation.Disk

/-!
# Paths and symbolic links

The components of a path are what `Path::components` gives; two paths are compared by them.  A file
system has directories, files and symbolic links.  A path is resolved name by name from the root or
from the current directory, and a link puts the names of its target in front of those that are left.
`canonicalize` ends at a location that is reached without a link, so its result resolves to itself.
-/

namespace Ghostbro.Links

open Disk

/-! ### Components -/

/-- `Component`. -/
inductive Component
  | rootDir
  | curDir
  | parentDir
  | normal (part : String)
  deriving DecidableEq

/-- The component of a name between slashes; empty names and dots are skipped. -/
def component (name : String) : Option Component :=
  if name = "" ∨ name = "." then none
  else if name = ".." then some .parentDir
  else some (.normal name)

/-- `Path::is_absolute`. -/
def isAbsolute (path : String) : Bool := path.toList.head? = some '/'

/-- `Path::components`.  A dot counts as the first name of a relative path only. -/
def pathComponents (path : String) : List Component :=
  let names := components path
  let start :=
    if isAbsolute path then [.rootDir] else if names.head? = some "." then [.curDir] else []
  start ++ names.filterMap component

/-- `Path::starts_with`. -/
def startsWith (path base : String) : Bool := (pathComponents base).isPrefixOf (pathComponents path)

theorem startsWith_iff {path base : String} :
    startsWith path base = true ↔ pathComponents base <+: pathComponents path :=
  List.isPrefixOf_iff_prefix

/-- The parts that a separator leaves do not have it. -/
theorem not_mem_of_mem_splitOn {α : Type} [DecidableEq α] {separator : α} {text part : List α}
    (h : part ∈ text.splitOn separator) : separator ∉ part := by
  induction text generalizing part with
  | nil =>
    rw [List.splitOn_nil, List.mem_singleton] at h
    exact h ▸ List.not_mem_nil
  | cons symbol text ih =>
    rw [List.splitOn_cons_eq_if_modifyHead] at h
    split at h
    · rcases List.mem_cons.mp h with rfl | hrest
      · exact List.not_mem_nil
      · exact ih hrest
    · next hsymbol =>
      have hne : separator ≠ symbol := by
        intro heq
        exact hsymbol (by simp [heq])
      cases hparts : text.splitOn separator with
      | nil => exact absurd hparts (List.splitOn_ne_nil separator text)
      | cons first others =>
        rw [hparts] at h ih
        rcases List.mem_cons.mp h with rfl | hothers
        · rw [List.mem_cons, not_or]
          exact ⟨hne, ih List.mem_cons_self⟩
        · exact ih (List.mem_cons_of_mem _ hothers)

theorem plainName_of_kept {name : String} (hsame : ¬(name = "" ∨ name = ".")) (hup : name ≠ "..")
    (hslash : '/' ∉ name.toList) : PlainName name := by
  rw [not_or] at hsame
  exact ⟨hsame.1, hsame.2, hup, hslash⟩

/-- Names in a path have no slash. -/
theorem not_mem_of_mem_components {path name : String} (h : name ∈ components path) :
    '/' ∉ name.toList := by
  obtain ⟨part, hpart, rfl⟩ := List.mem_map.mp h
  rw [String.toList_ofList]
  exact not_mem_of_mem_splitOn hpart

theorem component_of_plain {name : String} (h : PlainName name) :
    component name = some (.normal name) := by
  obtain ⟨hempty, hdot, hdots, -⟩ := h
  rw [component, if_neg (by tauto), if_neg hdots]

theorem filterMap_component {names : List String} (h : ∀ name ∈ names, PlainName name) :
    names.filterMap component = names.map .normal := by
  rw [List.filterMap_congr fun name hname ↦ component_of_plain (h name hname),
    List.filterMap_eq_map']

/-- Without a parent directory the names that count are all normal. -/
theorem filterMap_component_of_not_mem {names : List String} (h : ".." ∉ names) :
    names.filterMap component =
      (names.filter fun name ↦ name ≠ "" ∧ name ≠ ".").map .normal := by
  induction names with
  | nil => rfl
  | cons name names ih =>
    rw [List.mem_cons, not_or] at h
    by_cases hsame : name = "" ∨ name = "."
    · have hblank : component name = none := if_pos hsame
      rw [List.filterMap_cons_none hblank, ih h.2, List.filter_cons_of_neg (by simp; tauto)]
    · have hnormal : component name = some (.normal name) := by
        rw [component, if_neg hsame, if_neg (Ne.symm h.1)]
      rw [List.filterMap_cons_some hnormal, ih h.2, List.filter_cons_of_pos (by simp; tauto)]
      rfl

theorem ne_empty_of_isAbsolute {path : String} (h : isAbsolute path = true) : path ≠ "" := by
  rintro rfl
  exact absurd h (by decide)

theorem isAbsolute_join {base name : String} (hbase : isAbsolute base = true)
    (hname : PlainName name) : isAbsolute (join base name) = true := by
  rw [isAbsolute, head?_join (ne_empty_of_isAbsolute hbase) hname]
  exact hbase

/-- Joining a plain name puts a name behind those of the path; a slash at the end adds none. -/
theorem filterMap_components_join {base name : String} (hbase : base ≠ "")
    (hname : PlainName name) : (components (join base name)).filterMap component =
      (components base).filterMap component ++ [.normal name] := by
  have hlast : [name].filterMap component = [.normal name] := by
    rw [List.filterMap_cons_some (component_of_plain hname)]
    rfl
  have hblank : [""].filterMap component = [] := by simp [component]
  rcases components_join hbase hname with hjoined | ⟨stem, hbare, hjoined⟩
  · rw [hjoined, List.filterMap_append, hlast]
  · rw [hbare, hjoined, List.filterMap_append, List.filterMap_append, hlast, hblank,
      List.append_nil]

/-- Pushing a plain name adds one component. -/
theorem pathComponents_join {base name : String} (hbase : isAbsolute base = true)
    (hname : PlainName name) :
    pathComponents (join base name) = pathComponents base ++ [.normal name] := by
  have hempty := ne_empty_of_isAbsolute hbase
  simp only [pathComponents, hbase, isAbsolute_join hbase hname, if_true,
    filterMap_components_join hempty hname, List.append_assoc]

/-- Pushing plain names adds their components, in order. -/
theorem pathComponents_foldl_join {base : String} {names : List String}
    (hbase : isAbsolute base = true) (hnames : ∀ name ∈ names, PlainName name) :
    pathComponents (names.foldl join base) = pathComponents base ++ names.map .normal := by
  induction names generalizing base with
  | nil => exact (List.append_nil _).symm
  | cons name names ih =>
    rw [List.forall_mem_cons] at hnames
    rw [List.foldl_cons, ih (isAbsolute_join hbase hnames.1) hnames.2,
      pathComponents_join hbase hnames.1, List.append_assoc]
    rfl

/-! ### File systems -/

/-- What is at a location. -/
inductive Node
  | dir
  | file (contents : Bytes)
  | link (target : String)
  deriving DecidableEq

/-- A file system with a root directory.  A lookup may follow `maxLinks` links. -/
structure FileTree where
  node : Location → Option Node
  readable : Location → Bool
  maxLinks : ℕ
  node_root : node [] = some .dir

namespace FileTree

/-- The location that the names lead to. -/
def walk (fs : FileTree) (links : ℕ) (location : Location) : List String → Option Location
  | [] => some location
  | name :: rest =>
    if fs.node location ≠ some .dir then none
    else if name = "" ∨ name = "." then walk fs links location rest
    else if name = ".." then walk fs links location.dropLast rest
    else match fs.node (location ++ [name]) with
      | none => none
      | some .dir | some (.file _) => walk fs links (location ++ [name]) rest
      | some (.link target) =>
        match links with
        | 0 => none
        | links + 1 =>
          walk fs links (if isAbsolute target then [] else location) (components target ++ rest)
termination_by names => (links, names.length)

/-- The lookup of a path. -/
def lookup (fs : FileTree) (current : Location) (path : String) : Option Location :=
  if path = "" then none
  else walk fs fs.maxLinks (if isAbsolute path then [] else current) (components path)

/-- The absolute path to a location. -/
def render (location : Location) : String := "/" ++ String.intercalate "/" location

/-- `fs::canonicalize`. -/
def canonicalize (fs : FileTree) (current : Location) (path : String) : Option String :=
  (fs.lookup current path).map render

/-- `fs::read`. -/
def read (fs : FileTree) (current : Location) (path : String) : Option Bytes :=
  (fs.lookup current path).bind fun location ↦
    match fs.node location with
    | some (.file contents) => if fs.readable location then some contents else none
    | _ => none

/-! ### Locations without links -/

/-- A location that is reached through directories only. -/
inductive Real (fs : FileTree) : Location → Prop
  | root : Real fs []
  | entry {location : Location} {name : String} {node : Node} :
    Real fs location → fs.node location = some .dir → PlainName name →
    fs.node (location ++ [name]) = some node → (∀ target, node ≠ .link target) →
    Real fs (location ++ [name])

variable {fs : FileTree} {location : Location} {names : List String}

theorem Real.dropLast (h : Real fs location) : Real fs location.dropLast := by
  cases h with
  | root => exact .root
  | entry hreal _ _ _ _ => rwa [List.dropLast_concat]

/-- A lookup ends at a real location. -/
theorem Real.walk {links : ℕ} {target : Location} (hreal : Real fs location)
    (hnames : ∀ name ∈ names, '/' ∉ name.toList)
    (h : fs.walk links location names = some target) : Real fs target := by
  fun_induction FileTree.walk fs links location names with
  | case1 links location => exact Option.some.inj h ▸ hreal
  | case2 => contradiction
  | case3 links location name rest hdir hsame ih =>
    rw [List.forall_mem_cons] at hnames
    exact ih hreal hnames.2 h
  | case4 links location rest hdir hsame ih =>
    rw [List.forall_mem_cons] at hnames
    exact ih hreal.dropLast hnames.2 h
  | case5 => contradiction
  | case6 links location name rest hdir hsame hup hnode ih =>
    rw [List.forall_mem_cons] at hnames
    have hplain := plainName_of_kept hsame hup hnames.1
    exact ih (hreal.entry (not_not.mp hdir) hplain hnode (by simp)) hnames.2 h
  | case7 links location name rest hdir hsame hup contents hnode ih =>
    rw [List.forall_mem_cons] at hnames
    have hplain := plainName_of_kept hsame hup hnames.1
    exact ih (hreal.entry (not_not.mp hdir) hplain hnode (by simp)) hnames.2 h
  | case8 => contradiction
  | case9 location name rest hdir hsame hup target hnode links ih =>
    -- The names of the target are read from the root or from where the link is.
    rw [List.forall_mem_cons] at hnames
    apply ih ?_ ?_ h
    · split
      · exact .root
      · exact hreal
    · intro next hnext
      rcases List.mem_append.mp hnext with hlink | hrest
      · exact not_mem_of_mem_components hlink
      · exact hnames.2 next hrest

/-- On the way to a real location every name is plain and leads on from a directory. -/
theorem Real.of_append {before after : Location} {name : String}
    (h : Real fs (before ++ name :: after)) :
    fs.node before = some .dir ∧ PlainName name ∧
      ∃ node, fs.node (before ++ [name]) = some node ∧ ∀ target, node ≠ .link target := by
  generalize hlocation : before ++ name :: after = location at h
  induction h generalizing after with
  | root => simp at hlocation
  | entry hreal hdir hplain hnode hlink ih =>
    rcases List.eq_nil_or_concat after with rfl | ⟨others, last, rfl⟩
    · obtain ⟨rfl, hlast⟩ := List.append_inj' hlocation rfl
      obtain rfl := List.singleton_inj.mp hlast
      exact ⟨hdir, hplain, _, hnode, hlink⟩
    · rw [List.concat_eq_append, ← List.cons_append, ← List.append_assoc] at hlocation
      exact ih (List.append_inj' hlocation rfl).1

/-- A real location is found by its own names. -/
theorem Real.walk_append {links : ℕ} (hreal : Real fs (location ++ names)) :
    fs.walk links location names = some (location ++ names) := by
  induction names generalizing location with
  | nil => rw [FileTree.walk, List.append_nil]
  | cons name rest ih =>
    obtain ⟨hdir, hplain, node, hnode, hlink⟩ := hreal.of_append
    have hrest : fs.walk links (location ++ [name]) rest = some (location ++ name :: rest) := by
      rw [ih (by rwa [List.append_assoc]), List.append_assoc]
      rfl
    have hsame : ¬(name = "" ∨ name = ".") := not_or.mpr ⟨hplain.1, hplain.2.1⟩
    rw [FileTree.walk, if_neg (not_not_intro hdir), if_neg hsame, if_neg hplain.2.2.1, hnode]
    cases node with
    | dir => exact hrest
    | file contents => exact hrest
    | link target => exact absurd rfl (hlink target)

theorem Real.plainName {name : String} (h : Real fs location) (hname : name ∈ location) :
    PlainName name := by
  obtain ⟨before, after, rfl⟩ := List.append_of_mem hname
  exact h.of_append.2.1

/-- Every directory on the way to a real location is real. -/
theorem Real.of_front {base : Location} (h : Real fs location) (hfront : base <+: location) :
    Real fs base := by
  obtain ⟨after, rfl⟩ := hfront
  induction after using List.reverseRecOn with
  | nil => rwa [List.append_nil] at h
  | append_singleton after last ih =>
    apply ih
    have hup := h.dropLast
    rwa [← List.append_assoc, List.dropLast_concat] at hup

/-! ### Canonical paths -/

theorem isAbsolute_render : isAbsolute (render location) = true := by
  simp [isAbsolute, render]

theorem components_render_nil : components (render []) = ["", ""] := by
  have hnone : components "" = [""] := components_of_plain (by simp)
  have hroot : render [] = "" ++ "/" ++ "" := by simp [render]
  rw [hroot, components_append_slash, hnone]
  rfl

theorem components_render (h : ∀ name ∈ location, '/' ∉ name.toList) (hne : location ≠ []) :
    components (render location) = "" :: location := by
  have hlist : (render location).toList =
      '/' :: ['/'].intercalate (location.map String.toList) := by
    rw [render, String.toList_append, String.toList_intercalate]
    rfl
  have hparts : ∀ part ∈ location.map String.toList, '/' ∉ part := by
    intro part hpart
    obtain ⟨name, hname, rfl⟩ := List.mem_map.mp hpart
    exact h name hname
  rw [components, hlist, List.splitOn_cons_eq_if_modifyHead, if_pos (by simp),
    List.splitOn_intercalate '/' hparts (by simpa using hne), List.map_cons, List.map_map]
  simp

/-- The path that `canonicalize` gives to a real location leads to it. -/
theorem lookup_render {current : Location} (h : Real fs location) :
    fs.lookup current (render location) = some location := by
  have hstart : fs.walk fs.maxLinks [] ("" :: location) = some location := by
    rw [walk, if_neg (not_not_intro fs.node_root), if_pos (.inl rfl)]
    exact Real.walk_append (by rwa [List.nil_append])
  rw [lookup, if_neg (ne_empty_of_isAbsolute isAbsolute_render), if_pos isAbsolute_render]
  by_cases hne : location = []
  · -- The names of the root's path are two empty ones.
    rw [hne] at hstart ⊢
    rw [components_render_nil, walk, if_neg (not_not_intro fs.node_root), if_pos (.inl rfl)]
    exact hstart
  · rwa [components_render (fun name hname ↦ (h.plainName hname).2.2.2) hne]

/-- A lookup from a real directory ends at a real location. -/
theorem real_of_lookup {current : Location} {path : String} (hcurrent : Real fs current)
    (h : fs.lookup current path = some location) : Real fs location := by
  rw [lookup] at h
  split at h
  · contradiction
  · have hstart : Real fs (if isAbsolute path then [] else current) := by
      split
      · exact .root
      · exact hcurrent
    exact hstart.walk (fun name ↦ not_mem_of_mem_components) h

theorem canonicalize_eq_some {current : Location} {path resolved : String} :
    fs.canonicalize current path = some resolved ↔
      ∃ location, fs.lookup current path = some location ∧ render location = resolved := by
  rw [canonicalize, Option.map_eq_some_iff]

/-- A canonical path is its own canonical path, from any directory. -/
theorem canonicalize_canonicalize {current other : Location} {path resolved : String}
    (hcurrent : Real fs current) (h : fs.canonicalize current path = some resolved) :
    fs.canonicalize other resolved = some resolved := by
  obtain ⟨location, hlocation, rfl⟩ := canonicalize_eq_some.mp h
  rw [canonicalize, lookup_render (real_of_lookup hcurrent hlocation)]
  rfl

/-- The components of a canonical path are the names of the location. -/
theorem pathComponents_render (h : ∀ name ∈ location, PlainName name) :
    pathComponents (render location) = .rootDir :: location.map .normal := by
  have hblank : component "" = none := by simp [component]
  have hnames : (components (render location)).filterMap component = location.map .normal := by
    by_cases hne : location = []
    · subst hne
      rw [components_render_nil, List.filterMap_cons_none hblank, List.filterMap_cons_none hblank]
      rfl
    · rw [components_render (fun name hname ↦ (h name hname).2.2.2) hne,
        List.filterMap_cons_none hblank]
      exact filterMap_component h
  simp only [pathComponents, isAbsolute_render, if_true, hnames, List.singleton_append]

/-- A canonical path has another as a prefix if its location is below the other's. -/
theorem startsWith_render {base : Location} (h : ∀ name ∈ location, PlainName name)
    (hbase : ∀ name ∈ base, PlainName name) :
    startsWith (render location) (render base) = true ↔ base <+: location := by
  rw [startsWith_iff, pathComponents_render h, pathComponents_render hbase,
    List.cons_prefix_cons, and_iff_right rfl]
  apply List.prefix_map_iff_of_injective
  intro name name' heq
  exact Component.normal.inj heq

end FileTree

end Ghostbro.Links
