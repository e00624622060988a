import Ghostbro.Foundation.Links
import Ghostbro.Foundation.Text

/-!
# Static files of the decoy

The decoy serves files below a webroot, which is made canonical when the router is built.  The path
of a request is taken apart and its names are pushed one by one, so a path with a parent directory
is refused before the file system is asked.  A link below the webroot can still lead elsewhere; the
path is made canonical once more and compared with the webroot before the file is read.
-/

namespace Ghostbro.Decoy

open Disk Links

/-! ### Paths of requests -/

/-- The path without the slashes in front. -/
def requested (uriPath : String) : String :=
  String.ofList (uriPath.toList.dropWhile (· = '/'))

/-- A name is pushed; anything else ends the request. -/
def pushNormal (path : String) : Component → Option String
  | .normal part => some (join path part)
  | _ => none

def staticPath (webroot uriPath : String) : Option String :=
  if requested uriPath = "" then some (join webroot "index.html")
  else (pathComponents (requested uriPath)).foldlM pushNormal webroot

/-- The names that a request adds to the webroot. -/
def keptNames (uriPath : String) : List String :=
  if requested uriPath = "" then ["index.html"]
  else (components (requested uriPath)).filter fun name ↦ name ≠ "" ∧ name ≠ "."

/-- The request names a parent directory, or starts with a dot. -/
def Refused (uriPath : String) : Prop :=
  ".." ∈ components (requested uriPath) ∨ (components (requested uriPath)).head? = some "."

variable {webroot uriPath : String}

theorem foldlM_pushNormal (base : String) (names : List String) :
    (names.map .normal).foldlM pushNormal base = some (names.foldl join base) := by
  induction names generalizing base with
  | nil => rfl
  | cons name names ih => exact ih (join base name)

theorem foldlM_pushNormal_eq_none {parts : List Component} {part : Component}
    (hmem : part ∈ parts) (hpart : ∀ base, pushNormal base part = none) (base : String) :
    parts.foldlM pushNormal base = none := by
  induction parts generalizing base with
  | nil => exact absurd hmem List.not_mem_nil
  | cons first parts ih =>
    rw [List.foldlM_cons]
    rcases List.mem_cons.mp hmem with rfl | hrest
    · rw [hpart]
      rfl
    · cases pushNormal base first with
      | none => rfl
      | some path => exact ih hrest path

theorem isAbsolute_requested : isAbsolute (requested uriPath) = false := by
  have hhead := List.head?_dropWhile_not (· = '/') uriPath.toList
  rw [isAbsolute, requested, String.toList_ofList, decide_eq_false_iff_not]
  intro h
  rw [h] at hhead
  exact absurd hhead (by decide)

theorem pathComponents_requested : pathComponents (requested uriPath) =
    (if (components (requested uriPath)).head? = some "." then [.curDir] else []) ++
      (components (requested uriPath)).filterMap component := by
  simp only [pathComponents, isAbsolute_requested, Bool.false_eq_true, if_false]

theorem staticPath_of_refused (h : Refused uriPath) : staticPath webroot uriPath = none := by
  have hne : requested uriPath ≠ "" := by
    intro hempty
    rw [Refused, hempty] at h
    exact absurd h (by decide)
  rw [staticPath, if_neg hne, pathComponents_requested]
  rcases h with hparent | hdot
  · have hmem : .parentDir ∈ (components (requested uriPath)).filterMap component :=
      List.mem_filterMap.mpr ⟨"..", hparent, by simp [component]⟩
    exact foldlM_pushNormal_eq_none (List.mem_append_right _ hmem) (fun _ ↦ rfl) webroot
  · rw [if_pos hdot]
    exact foldlM_pushNormal_eq_none List.mem_cons_self (fun _ ↦ rfl) webroot

theorem staticPath_of_not_refused (h : ¬Refused uriPath) :
    staticPath webroot uriPath = some ((keptNames uriPath).foldl join webroot) := by
  rw [Refused, not_or] at h
  rw [staticPath, keptNames]
  split
  · rfl
  · rw [pathComponents_requested, if_neg h.2, List.nil_append, filterMap_component_of_not_mem h.1,
      foldlM_pushNormal]

theorem plainName_of_mem_keptNames (h : ¬Refused uriPath) :
    ∀ name ∈ keptNames uriPath, PlainName name := by
  intro name hname
  rw [Refused, not_or] at h
  rw [keptNames] at hname
  split at hname
  · rw [List.mem_singleton.mp hname]
    exact ⟨by decide, by decide, by decide, by decide⟩
  · rw [List.mem_filter, decide_eq_true_iff] at hname
    have hparent : name ≠ ".." := by
      intro heq
      exact h.1 (heq ▸ hname.1)
    exact ⟨hname.2.1, hname.2.2, hparent, not_mem_of_mem_components hname.1⟩

theorem staticPath_eq_none_iff : staticPath webroot uriPath = none ↔ Refused uriPath := by
  constructor
  · intro hnone
    by_contra h
    rw [staticPath_of_not_refused h] at hnone
    contradiction
  · exact staticPath_of_refused

/-! ### Responses -/

/-- `Path::file_name`. -/
def fileName (path : String) : Option String :=
  match (pathComponents path).getLast? with
  | some (.normal name) => some name
  | _ => none

/-- `Path::extension`: what follows the last dot, unless the dot starts the name. -/
def extension (path : String) : Option String := do
  let (before, after) ← Text.rsplitOnce '.' (← fileName path).toList
  if before = [] then none else some (String.ofList after)

def contentType (path : String) : String :=
  match extension path with
  | some "css" => "text/css; charset=utf-8"
  | some "html" | some "htm" => "text/html; charset=utf-8"
  | some "js" => "application/javascript; charset=utf-8"
  | some "json" => "application/json"
  | some "png" => "image/png"
  | some "svg" => "image/svg+xml"
  | some "txt" => "text/plain; charset=utf-8"
  | _ => "application/octet-stream"

structure Response where
  server : String
  date : String
  contentType : String
  body : Bytes
  deriving DecidableEq

variable (fs : FileTree) (current : Location)

/-- The response, if there is one, and the paths of the files that are read. -/
def staticResponse (webroot date uriPath : String) : Option Response × List String :=
  match staticPath webroot uriPath with
  | none => (none, [])
  | some path =>
    match fs.canonicalize current path with
    | none => (none, [])
    | some resolved =>
      if startsWith resolved webroot then
        match fs.read current resolved with
        | none => (none, [resolved])
        | some bytes => (some ⟨"nginx/1.26.0", date, contentType resolved, bytes⟩, [resolved])
      else (none, [])

variable {fs current} {date : String}

/-- Either nothing is read, or one canonical path below the webroot. -/
theorem staticResponse_cases :
    staticResponse fs current webroot date uriPath = (none, []) ∨
      ∃ path resolved, staticPath webroot uriPath = some path ∧
        fs.canonicalize current path = some resolved ∧ startsWith resolved webroot = true ∧
        staticResponse fs current webroot date uriPath =
          ((fs.read current resolved).map fun bytes ↦
            ⟨"nginx/1.26.0", date, contentType resolved, bytes⟩, [resolved]) := by
  unfold staticResponse
  split
  · exact .inl rfl
  · next path hpath =>
    split
    · exact .inl rfl
    · next resolved hresolved =>
      split
      · next hstarts =>
        apply Or.inr
        refine ⟨path, resolved, hpath, hresolved, hstarts, ?_⟩
        cases fs.read current resolved with
        | none => rfl
        | some bytes => rfl
      · exact .inl rfl

/-- A file is read by its canonical path, which is below the webroot. -/
theorem of_mem_staticResponse {read : String} (hcurrent : fs.Real current)
    (h : read ∈ (staticResponse fs current webroot date uriPath).2) :
    fs.canonicalize current read = some read ∧ startsWith read webroot = true := by
  rcases staticResponse_cases with hnone | ⟨path, resolved, -, hresolved, hstarts, hsome⟩
  · rw [hnone] at h
    contradiction
  · rw [hsome, List.mem_singleton] at h
    rw [h]
    exact ⟨FileTree.canonicalize_canonicalize hcurrent hresolved, hstarts⟩

/-- What a response carries is the file that was read for it. -/
theorem body_of_staticResponse {response : Response}
    (h : (staticResponse fs current webroot date uriPath).1 = some response) :
    ∃ read, (staticResponse fs current webroot date uriPath).2 = [read] ∧
      fs.read current read = some response.body := by
  rcases staticResponse_cases with hnone | ⟨path, resolved, -, hresolved, hstarts, hsome⟩
  · rw [hnone] at h
    contradiction
  · rw [hsome] at h ⊢
    obtain ⟨bytes, hbytes, rfl⟩ := Option.map_eq_some_iff.mp h
    exact ⟨resolved, rfl, hbytes⟩

/-- A webroot that was canonical when the router was built is so whenever a file is read. -/
theorem canonicalize_webroot {start : FileTree} {startDir : Location} {root read : String}
    (hstartDir : start.Real startDir) (hroot : start.canonicalize startDir root = some webroot)
    (hcurrent : fs.Real current) (hread : fs.canonicalize current read = some read)
    (hstarts : startsWith read webroot = true) :
    fs.canonicalize current webroot = some webroot := by
  obtain ⟨base, hbase, rfl⟩ := FileTree.canonicalize_eq_some.mp hroot
  obtain ⟨location, hlocation, rfl⟩ := FileTree.canonicalize_eq_some.mp hread
  have hreal := FileTree.real_of_lookup hcurrent hlocation
  have hrealBase := FileTree.real_of_lookup hstartDir hbase
  have hfront : base <+: location :=
    (FileTree.startsWith_render (fun name ↦ hreal.plainName) fun name ↦ hrealBase.plainName).mp
      hstarts
  rw [FileTree.canonicalize, FileTree.lookup_render (hreal.of_front hfront)]
  rfl

/-- The path of a request is the webroot with the names the request keeps, unless the request is
refused; and a file is read only below the webroot, wherever links lead. -/
theorem staticPath_confined (hwebroot : isAbsolute webroot = true) :
    (staticPath webroot uriPath = none ↔ Refused uriPath) ∧
      (∀ path, staticPath webroot uriPath = some path →
        path = (keptNames uriPath).foldl join webroot ∧
          pathComponents path = pathComponents webroot ++ (keptNames uriPath).map .normal ∧
          startsWith path webroot = true) ∧
      ∀ (start fs : FileTree) (startDir current : Location) (root date : String),
        start.Real startDir → start.canonicalize startDir root = some webroot → fs.Real current →
          (∀ read ∈ (staticResponse fs current webroot date uriPath).2,
            fs.canonicalize current read = some read ∧
              fs.canonicalize current webroot = some webroot ∧ startsWith read webroot = true) ∧
          ∀ response, (staticResponse fs current webroot date uriPath).1 = some response →
            ∃ read, (staticResponse fs current webroot date uriPath).2 = [read] ∧
              fs.read current read = some response.body := by
  apply And.intro staticPath_eq_none_iff
  constructor
  · intro path hpath
    have h : ¬Refused uriPath := by
      intro hrefused
      rw [staticPath_of_refused hrefused] at hpath
      contradiction
    rw [staticPath_of_not_refused h, Option.some_inj] at hpath
    have hparts := pathComponents_foldl_join hwebroot (plainName_of_mem_keptNames h)
    rw [hpath] at hparts
    refine ⟨hpath.symm, hparts, ?_⟩
    rw [startsWith_iff, hparts]
    exact List.prefix_append _ _
  · intro start fs startDir current root date hstartDir hroot hcurrent
    constructor
    · intro read hmem
      obtain ⟨hread, hstarts⟩ := of_mem_staticResponse hcurrent hmem
      exact ⟨hread, canonicalize_webroot hstartDir hroot hcurrent hread hstarts, hstarts⟩
    · intro response
      exact body_of_staticResponse

/-- A webroot with a link that leads out of it. -/
def sampleFiles : FileTree where
  node
    | [] => some .dir
    | ["www"] => some .dir
    | ["www", "data"] => some (.link "/etc")
    | ["etc"] => some .dir
    | ["etc", "passwd"] => some (.file [0])
    | _ => none
  readable _ := true
  maxLinks := 40
  node_root := rfl

theorem staticPath_confined_sample :
    staticPath "/www" "/data/../../etc" = none ∧
      ∀ read ∈ (staticResponse sampleFiles [] "/www" "" "/data/passwd").2,
        startsWith read "/www" = true := by
  have hwww : sampleFiles.Real ["www"] :=
    FileTree.Real.root.entry rfl ⟨by decide, by decide, by decide, by decide⟩ rfl (by simp)
  have hrender : FileTree.render ["www"] = "/www" := by decide
  have hroot : sampleFiles.canonicalize [] "/www" = some "/www" := by
    rw [← hrender, FileTree.canonicalize, FileTree.lookup_render hwww]
    rfl
  constructor
  · apply (staticPath_confined (by decide)).1.mpr
    exact .inl (by decide)
  · intro read hread
    have h := (@staticPath_confined "/www" "/data/passwd" (by decide)).2.2 sampleFiles sampleFiles
      [] [] "/www" "" .root hroot .root
    exact (h.1 read hread).2.2

end Ghostbro.Decoy
