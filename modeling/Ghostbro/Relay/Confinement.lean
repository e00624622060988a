import Ghostbro.Foundation.Disk
import Ghostbro.Relay.Wire

/-!
# Requests on the files of a client

This file follows one request from its bytes to the file operations, with the paths as the
handlers build them from the spool directory, the hexadecimal key id and the job id of the client.
A job id passes `validate_job_id` before it becomes part of a path, and its digits and hyphens
cannot leave the directory that the path is joined to.  So every handler is confined to the
directory of its client, and two clients have different directories.
-/

namespace Ghostbro.Relay

open Disk Disk.FileM

/-- What all requests of a server share: its configuration, the `toml` crate on job records, and
the directories it runs in. -/
structure Server where
  externals : Externals
  config : RelayConfig
  toStringPretty : RelayJobMetadata → Option Bytes
  fromStr : Bytes → Option RelayJobMetadata
  workingDir : Location
  spoolDir : String

/-- What one request meets: the readings of the clock, the verdicts on urls, which depend on the
resolver, and the file operations that fail. -/
structure World where
  clock : ℕ → Option UInt64
  validPublicUrl : String → Bool
  validGitUrl : String → Bool
  faults : Faults

/-! ### Paths -/

/-- `metadata_path`. -/
def metadataPath (clientDir jobId : String) : String :=
  join (join clientDir "jobs") (jobId ++ ".toml")

/-- `primary_object_path`. -/
def primaryObjectPath (clientDir jobId : String) : String :=
  join (join clientDir "objects") (jobId ++ ".body")

/-- `normalized_object_path`. -/
def normalizedObjectPath (clientDir jobId : String) : String :=
  join (join clientDir "objects") (jobId ++ ".md")

/-- `Path::with_extension` on the last name of a location. -/
def withExtension (location : Location) (extension : String) : Location :=
  location.dropLast ++
    location.getLast?.toList.map fun name ↦ (Path.splitAtDot name).1 ++ "." ++ extension

/-- A file of the jobs directory that is taken for a record. -/
def isRecord (entry : String × Bytes) : Bool := (Path.splitAtDot entry.1).2 = some "toml"

namespace Server

variable (server : Server) (world : World) (keyId : KeyId)

/-- Where a path of the server leads. -/
def locate (path : String) : Location := resolve server.workingDir path

/-- `client_dir`. -/
def clientDir : String := join server.spoolDir (Keys.keyIdHex keyId)

/-- The directory of a client. -/
def clientLocation : Location := server.locate (server.clientDir keyId)

/-! ### Handlers -/

/-- `read_metadata`. -/
def readMetadata (location : Location) : FileM RelayJobMetadata := do
  ofOption (server.fromStr (← readFile world.faults location))

/-- `read_metadata` on a file of a listed directory. -/
def recordIn (jobs : Location) (entry : String × Bytes) : Option RelayJobMetadata :=
  if world.faults.refuses (.read (jobs ++ [entry.1])) then none else server.fromStr entry.2

/-- `write_metadata`. -/
def writeMetadata (clientDir : String) (metadata : RelayJobMetadata) : FileM Unit := do
  let path := server.locate (metadataPath clientDir metadata.jobId)
  let tmp := withExtension path "toml.tmp"
  let contents ← ofOption (server.toStringPretty metadata)
  writeFile world.faults tmp contents
  renameFile world.faults tmp path

/-- The count of `client_usage` over the records it could read. -/
def usageOf (now : UInt64) (records : List RelayJobMetadata) : ℕ × UInt64 :=
  records.foldl (fun usage metadata ↦
    if metadata.expiresAtMs ≤ now then usage
    else (usage.1 + 1, usage.2 + metadata.recorded)) (0, 0)

/-- `client_usage`. -/
def clientUsage (clientDir : String) : FileM (ℕ × UInt64) := do
  let jobs := server.locate (join clientDir "jobs")
  if ← dirExists jobs then
    let now ← ofOption (world.clock 0)
    let entries ← readDir world.faults jobs
    return usageOf now ((entries.filter isRecord).filterMap (server.recordIn world jobs))
  else return (0, 0)

/-- `enqueue`: the response, and the job that is sent to the workers. -/
def enqueue (submission : Submission) : FileM (Bytes × Option JobRef) := do
  let clientDir := server.clientDir keyId
  let usage ← server.clientUsage world clientDir
  if server.config.maxJobsPerClient ≤ usage.1 then
    let text := s!"job quota reached ({usage.1} of {server.config.maxJobsPerClient})"
    return ((Reply.message .quota text).encode, none)
  else if server.config.maxBytesPerClient ≤ usage.2 then
    return ((Reply.message .quota "storage quota reached").encode, none)
  else
    createDirAll world.faults (server.locate (join clientDir "jobs"))
    createDirAll world.faults (server.locate (join clientDir "objects"))
    let now ← ofOption (world.clock 1)
    let metadata := queuedMetadata server.externals server.config keyId submission now
    server.writeMetadata world clientDir metadata
    return ((Reply.accepted metadata.jobId).encode, some ⟨Keys.keyIdHex keyId, metadata.jobId⟩)

/-- `submit_web`, `submit_git` and `submit_package`, once the fields are read. -/
def submit (submission : Submission) : FileM (Bytes × Option JobRef) :=
  match submission with
  | .web url _ =>
    if world.validPublicUrl url then server.enqueue world keyId submission else fail
  | .git url => if world.validGitUrl url then server.enqueue world keyId submission else fail
  | .package _ => server.enqueue world keyId submission

/-- `list`. -/
def list : FileM Bytes := do
  let jobs := server.locate (join (server.clientDir keyId) "jobs")
  let now ← ofOption (world.clock 0)
  if ← dirExists jobs then
    let entries ← readDir world.faults jobs
    let rows ← ofOption (((entries.filter isRecord).mapM (server.recordIn world jobs)).map
      fun records ↦ (records.filter fun metadata ↦ decide (now < metadata.expiresAtMs)).map
        RelayJobMetadata.row)
    return (Reply.rows rows).encode
  else return (Reply.rows []).encode

/-- `download`, once the fields are read. -/
def download (jobId : String) (offset : UInt32) (maxLen : UInt16) (artifact : UInt8) :
    FileM Bytes := do
  if !validateJobId jobId then fail
  else
    let clientDir := server.clientDir keyId
    let path := server.locate (metadataPath clientDir jobId)
    if ← fileExists path then
      let metadata ← server.readMetadata world path
      let now ← ofOption (world.clock 0)
      if metadata.expiresAtMs ≤ now then return (Reply.message .notFound "job expired").encode
      else match metadata.status with
        | .queued | .running => return (Reply.message .pending "job not ready").encode
        | .failed => return (Reply.message .failed (metadata.error.getD "job failed")).encode
        | .complete =>
          if artifact = 1 ∧ metadata.normalizedLen = none then
            return (Reply.message .notFound "no normalized artifact for job").encode
          else
            let object := if artifact = 1 then normalizedObjectPath clientDir jobId
              else primaryObjectPath clientDir jobId
            let body ← readFile world.faults (server.locate object)
            return (chunkOf body offset.toNat (min maxLen.toNat relayMaxDownloadChunk)).encode
    else return (Reply.message .notFound "job not found").encode

/-- `delete`, once the field is read. -/
def delete (jobId : String) : FileM Bytes := do
  if !validateJobId jobId then fail
  else
    let clientDir := server.clientDir keyId
    let path := server.locate (metadataPath clientDir jobId)
    if ← fileExists path then
      ignore (removeFile world.faults (server.locate (primaryObjectPath clientDir jobId)))
      ignore (removeFile world.faults (server.locate (normalizedObjectPath clientDir jobId)))
      removeFile world.faults path
      return (Reply.message .ok "deleted").encode
    else return (Reply.message .notFound "job not found").encode

/-- `RelayInner::dispatch`. -/
def handle (request : Bytes) : FileM (Bytes × Option JobRef) :=
  match parseRequest request with
  | .error response => pure (response, none)
  | .ok (.submit submission) => server.submit world keyId submission
  | .ok .list => do return (← server.list world keyId, none)
  | .ok (.download jobId offset maxLen artifact) => do
    return (← server.download world keyId jobId offset maxLen artifact, none)
  | .ok (.delete jobId) => do return (← server.delete world keyId jobId, none)

/-- `RelayEngine::dispatch`: the response, the job that is sent, and the files afterwards. -/
def dispatch (request : Bytes) (store : Store) : (Bytes × Option JobRef) × Store :=
  match server.handle world keyId request store with
  | (some answer, after) => (answer, after)
  | (none, after) => ((internalError.encode, none), after)

/-- The files after some requests of a client. -/
def dispatchAll (requests : List (World × Bytes)) (store : Store) : Store :=
  requests.foldl (fun files request ↦ (server.dispatch request.1 keyId request.2 files).2) store

end Server

/-! ### Names -/

theorem plainName_append {name ending : String} (hname : '/' ∉ name.toList)
    (hending : '/' ∉ ending.toList) (hlength : 2 < ending.toList.length) :
    PlainName (name ++ ending) := by
  have hlonger (short : String) (hshort : short.toList.length ≤ 2) : name ++ ending ≠ short := by
    rintro rfl
    rw [String.toList_append, List.length_append] at hshort
    omega
  refine ⟨hlonger "" (by simp), hlonger "." (by simp), hlonger ".." (by simp), ?_⟩
  rw [String.toList_append, List.mem_append]
  rintro (h | h)
  · exact hname h
  · exact hending h

theorem mem_hexText {digest : Bytes} {char : Char} (h : char ∈ hexText digest) :
    ∃ digit : Fin 16, char = Nat.digitChar digit := by
  obtain ⟨byte, -, hbyte⟩ := List.mem_flatMap.mp h
  have hlt := byte.toNat_lt
  simp only [Keys.hexByte, List.mem_cons, List.not_mem_nil, or_false] at hbyte
  rcases hbyte with hhigh | hlow
  · exact ⟨⟨byte.toNat / 16, by omega⟩, hhigh⟩
  · exact ⟨⟨byte.toNat % 16, by omega⟩, hlow⟩

theorem slash_not_mem_hexText (digest : Bytes) : '/' ∉ hexText digest := by
  have hdigit : ∀ digit : Fin 16, '/' ≠ Nat.digitChar digit := by decide
  intro hmem
  obtain ⟨digit, hslash⟩ := mem_hexText hmem
  exact hdigit digit hslash

/-- A valid job id holds no slash. -/
theorem slash_not_mem_of_validateJobId {jobId : String} (h : validateJobId jobId = true) :
    '/' ∉ jobId.toList := by
  intro hslash
  have hbyte : (47 : UInt8) ∈ utf8 jobId := mem_utf8 hslash (by decide)
  have hall := (Bool.and_eq_true_iff.mp h).2
  rw [List.all_eq_true] at hall
  have hdigit := hall 47 hbyte
  revert hdigit
  decide

theorem plainName_keyIdHex (keyId : KeyId) : PlainName (Keys.keyIdHex keyId) := by
  have hlength : (Keys.keyIdHex keyId).toList.length = 16 := by
    simp [Keys.keyIdHex, Keys.hexByte]
  have hlonger (short : String) (hshort : short.toList.length ≤ 2) :
      Keys.keyIdHex keyId ≠ short := by
    intro heq
    rw [heq] at hlength
    omega
  refine ⟨hlonger "" (by simp), hlonger "." (by simp), hlonger ".." (by simp), ?_⟩
  rw [Keys.keyIdHex, String.toList_ofList]
  exact slash_not_mem_hexText keyId.toList

theorem slash_not_mem_relayJobId (externals : Externals) (keyId : KeyId) (source : String)
    (now : UInt64) : '/' ∉ (relayJobId externals keyId source now).toList := by
  rw [relayJobId, String.toList_ofList]
  intro h
  exact slash_not_mem_hexText _ (List.mem_of_mem_take h)

theorem plainName_jobs : PlainName "jobs" := by
  refine ⟨?_, ?_, ?_, ?_⟩ <;> decide

theorem plainName_objects : PlainName "objects" := by
  refine ⟨?_, ?_, ?_, ?_⟩ <;> decide

namespace Server

variable {server : Server} {world : World} {keyId : KeyId} {jobId : String}

theorem clientLocation_eq (server : Server) (keyId : KeyId) :
    server.clientLocation keyId = server.locate server.spoolDir ++ [Keys.keyIdHex keyId] :=
  resolve_join (plainName_keyIdHex keyId)

theorem locate_jobs : server.locate (join (server.clientDir keyId) "jobs") =
    server.clientLocation keyId ++ ["jobs"] :=
  resolve_join plainName_jobs

theorem locate_metadataPath (h : '/' ∉ jobId.toList) :
    server.locate (metadataPath (server.clientDir keyId) jobId) =
      server.clientLocation keyId ++ ["jobs"] ++ [jobId ++ ".toml"] := by
  rw [← locate_jobs]
  exact resolve_join (plainName_append h (by decide) (by decide))

theorem locate_objectPath {ending : String} (h : '/' ∉ jobId.toList)
    (hending : '/' ∉ ending.toList) (hlength : 2 < ending.toList.length) :
    server.locate (join (join (server.clientDir keyId) "objects") (jobId ++ ending)) =
      server.clientLocation keyId ++ ["objects"] ++ [jobId ++ ending] := by
  have hobjects : server.locate (join (server.clientDir keyId) "objects") =
      server.clientLocation keyId ++ ["objects"] := resolve_join plainName_objects
  rw [← hobjects]
  exact resolve_join (plainName_append h hending hlength)

/-! ### Handlers stay with their client -/

theorem under_metadataPath (h : '/' ∉ jobId.toList) :
    server.clientLocation keyId <+:
      server.locate (metadataPath (server.clientDir keyId) jobId) := by
  rw [locate_metadataPath h, List.append_assoc]
  exact List.prefix_append _ _

theorem under_primaryObjectPath (h : '/' ∉ jobId.toList) :
    server.clientLocation keyId <+:
      server.locate (primaryObjectPath (server.clientDir keyId) jobId) := by
  rw [primaryObjectPath, locate_objectPath h (by decide) (by decide), List.append_assoc]
  exact List.prefix_append _ _

theorem under_normalizedObjectPath (h : '/' ∉ jobId.toList) :
    server.clientLocation keyId <+:
      server.locate (normalizedObjectPath (server.clientDir keyId) jobId) := by
  rw [normalizedObjectPath, locate_objectPath h (by decide) (by decide), List.append_assoc]
  exact List.prefix_append _ _

theorem under_jobs : server.clientLocation keyId <+:
    server.locate (join (server.clientDir keyId) "jobs") := by
  rw [locate_jobs]
  exact List.prefix_append _ _

theorem confined_readMetadata {base location : Location} (h : base <+: location) :
    Confined base (server.readMetadata world location) :=
  (Confined.readFile h).bind fun _ ↦ .ofOption base _

theorem confined_writeMetadata {metadata : RelayJobMetadata}
    (h : '/' ∉ metadata.jobId.toList) :
    Confined (server.clientLocation keyId)
      (server.writeMetadata world (server.clientDir keyId) metadata) := by
  have htmp : server.clientLocation keyId <+: withExtension
      (server.locate (metadataPath (server.clientDir keyId) metadata.jobId)) "toml.tmp" := by
    rw [locate_metadataPath h, withExtension, List.dropLast_concat, List.append_assoc]
    exact List.prefix_append _ _
  refine (Confined.ofOption _ _).bind fun contents ↦ ?_
  refine (Confined.writeFile htmp contents).bind fun _ ↦ ?_
  exact Confined.renameFile htmp (under_metadataPath h)

/-- The count does not depend on the order of the records. -/
theorem usageOf_perm {now : UInt64} {records records' : List RelayJobMetadata}
    (h : records.Perm records') : usageOf now records = usageOf now records' := by
  refine h.foldl_eq' (fun first _ second _ usage ↦ ?_) (0, 0)
  split_ifs
  · rfl
  · rfl
  · rfl
  · simp only [Prod.mk.injEq, true_and]
    ac_rfl

theorem confined_clientUsage :
    Confined (server.clientLocation keyId)
      (server.clientUsage world (server.clientDir keyId)) := by
  refine (Confined.dirExists under_jobs).bind fun found ↦ ?_
  split
  · refine (Confined.ofOption _ _).bind fun now ↦ ?_
    refine Confined.readDir under_jobs (fun entries ↦ Confined.pure _ _) ?_
    intro entries entries' hperm
    rw [usageOf_perm ((hperm.filter isRecord).filterMap _)]
  · exact Confined.pure _ _

theorem confined_enqueue (submission : Submission) :
    Confined (server.clientLocation keyId) (server.enqueue world keyId submission) := by
  refine confined_clientUsage.bind fun usage ↦ ?_
  split
  · exact Confined.pure _ _
  · split
    · exact Confined.pure _ _
    · refine (Confined.createDirAll _).bind fun _ ↦ ?_
      refine (Confined.createDirAll _).bind fun _ ↦ ?_
      refine (Confined.ofOption _ _).bind fun now ↦ ?_
      refine (confined_writeMetadata ?_).bind fun _ ↦ Confined.pure _ _
      exact slash_not_mem_relayJobId _ _ _ _

theorem confined_submit (submission : Submission) :
    Confined (server.clientLocation keyId) (server.submit world keyId submission) := by
  unfold submit
  split
  · split
    · exact confined_enqueue _
    · exact Confined.fail _
  · split
    · exact confined_enqueue _
    · exact Confined.fail _
  · exact confined_enqueue _

theorem confined_list : Confined (server.clientLocation keyId) (server.list world keyId) := by
  refine (Confined.ofOption _ _).bind fun now ↦ ?_
  refine (Confined.dirExists under_jobs).bind fun found ↦ ?_
  split
  · refine Confined.readDir under_jobs
      (fun entries ↦ (Confined.ofOption _ _).bind fun rows ↦ Confined.pure _ _) ?_
    intro entries entries' hperm
    let rowsOf (records : List RelayJobMetadata) : List JobRow :=
      (records.filter fun metadata ↦ decide (now < metadata.expiresAtMs)).map RelayJobMetadata.row
    have hfuse (records : Option (List RelayJobMetadata)) :
        (ofOption (records.map rowsOf) >>= fun rows ↦ pure (Reply.rows rows).encode) =
          ofOption (records.map fun records ↦ (Reply.rows (rowsOf records)).encode) := by
      cases records with
      | none => rfl
      | some records => rfl
    have hrows (records records' : List RelayJobMetadata) (h : records.Perm records') :
        (Reply.rows (rowsOf records)).encode = (Reply.rows (rowsOf records')).encode :=
      encode_rows_perm ((h.filter _).map _)
    refine (hfuse _).trans (Eq.trans ?_ (hfuse _).symm)
    exact congrArg ofOption (map_mapM_of_perm (hperm.filter isRecord) hrows)
  · exact Confined.pure _ _

theorem confined_download (offset : UInt32) (maxLen : UInt16) (artifact : UInt8) :
    Confined (server.clientLocation keyId)
      (server.download world keyId jobId offset maxLen artifact) := by
  unfold download
  split
  · exact Confined.fail _
  · rename_i hvalid
    have hslash : '/' ∉ jobId.toList := slash_not_mem_of_validateJobId (by simpa using hvalid)
    refine (Confined.fileExists (under_metadataPath hslash)).bind fun found ↦ ?_
    split
    · refine (confined_readMetadata (under_metadataPath hslash)).bind fun metadata ↦ ?_
      refine (Confined.ofOption _ _).bind fun now ↦ ?_
      split
      · exact Confined.pure _ _
      · split
        · exact Confined.pure _ _
        · exact Confined.pure _ _
        · exact Confined.pure _ _
        · split
          · exact Confined.pure _ _
          · refine (Confined.readFile ?_).bind fun body ↦ Confined.pure _ _
            split
            · exact under_normalizedObjectPath hslash
            · exact under_primaryObjectPath hslash
    · exact Confined.pure _ _

theorem confined_delete :
    Confined (server.clientLocation keyId) (server.delete world keyId jobId) := by
  unfold delete
  split
  · exact Confined.fail _
  · rename_i hvalid
    have hslash : '/' ∉ jobId.toList := slash_not_mem_of_validateJobId (by simpa using hvalid)
    refine (Confined.fileExists (under_metadataPath hslash)).bind fun found ↦ ?_
    split
    · refine (Confined.removeFile (under_primaryObjectPath hslash)).ignore.bind fun _ ↦ ?_
      refine (Confined.removeFile (under_normalizedObjectPath hslash)).ignore.bind fun _ ↦ ?_
      exact (Confined.removeFile (under_metadataPath hslash)).bind fun _ ↦ Confined.pure _ _
    · exact Confined.pure _ _

theorem confined_handle (server : Server) (world : World) (keyId : KeyId) (request : Bytes) :
    Confined (server.clientLocation keyId) (server.handle world keyId request) := by
  unfold handle
  split
  · exact Confined.pure _ _
  · exact confined_submit _
  · exact confined_list.bind fun _ ↦ Confined.pure _ _
  · exact (confined_download _ _ _).bind fun _ ↦ Confined.pure _ _
  · exact confined_delete.bind fun _ ↦ Confined.pure _ _

theorem dispatch_fst (request : Bytes) (store : Store) :
    (server.dispatch world keyId request store).1 =
      (server.handle world keyId request store).1.getD (internalError.encode, none) := by
  unfold dispatch
  split
  · rename_i hhandle
    rw [hhandle]
    rfl
  · rename_i hhandle
    rw [hhandle]
    rfl

theorem dispatch_snd (request : Bytes) (store : Store) :
    (server.dispatch world keyId request store).2 =
      (server.handle world keyId request store).2 := by
  unfold dispatch
  split
  · rename_i hhandle
    rw [hhandle]
  · rename_i hhandle
    rw [hhandle]

/-- The answer to a request depends on the files of its client only. -/
theorem dispatch_congr (request : Bytes) {store store' : Store}
    (h : AgreeUnder (server.clientLocation keyId) store store') :
    (server.dispatch world keyId request store).1 =
      (server.dispatch world keyId request store').1 := by
  rw [dispatch_fst, dispatch_fst, (confined_handle server world keyId request).result _ _ h]

/-- A request leaves all files outside the directory of its client alone. -/
theorem dispatch_outside (request : Bytes) (store : Store) {location : Location}
    (h : ¬server.clientLocation keyId <+: location) :
    (server.dispatch world keyId request store).2.lookup location = store.lookup location := by
  rw [dispatch_snd]
  exact (confined_handle server world keyId request).outside store location h

/-- The directories of two clients have no file in common. -/
theorem clientLocation_disjoint {first second : KeyId} (hne : first ≠ second)
    {location : Location} (hfirst : server.clientLocation first <+: location) :
    ¬server.clientLocation second <+: location := by
  intro hsecond
  rw [clientLocation_eq] at hfirst hsecond
  have hlength : (server.locate server.spoolDir ++ [Keys.keyIdHex first]).length =
      (server.locate server.spoolDir ++ [Keys.keyIdHex second]).length := by simp
  have heq := (List.prefix_of_prefix_length_le hfirst hsecond hlength.le).eq_of_length hlength
  have hhex : Keys.keyIdHex first = Keys.keyIdHex second := by simpa using heq
  exact hne (Keys.keyIdHex_injective hhex)

theorem dispatchAll_agree {first second : KeyId} (hne : first ≠ second)
    (requests : List (World × Bytes)) (store : Store) :
    AgreeUnder (server.clientLocation second) (server.dispatchAll first requests store) store := by
  induction requests generalizing store with
  | nil => exact fun _ _ ↦ rfl
  | cons request rest ih =>
    intro location hlocation
    have hrest := ih (server.dispatch request.1 first request.2 store).2 location hlocation
    exact hrest.trans
      (dispatch_outside request.2 store (clientLocation_disjoint hne.symm hlocation))

/-- Clients are isolated from each other: a request changes only files of its client, its answer
depends only on these, and no requests of one client change what another one is answered. -/
theorem clients_isolated (server : Server) {first second : KeyId} (hne : first ≠ second) :
    (∀ world request store location,
      (server.dispatch world first request store).2.lookup location ≠ store.lookup location →
      server.clientLocation first <+: location) ∧
    (∀ world request store location, server.clientLocation second <+: location →
      (server.dispatch world first request store).2.lookup location = store.lookup location) ∧
    (∀ world request store store', AgreeUnder (server.clientLocation first) store store' →
      (server.dispatch world first request store).1 =
        (server.dispatch world first request store').1) ∧
    ∀ requests store world,
      (∀ request, (server.dispatch world second request
          (server.dispatchAll first requests store)).1 =
        (server.dispatch world second request store).1) ∧
      (server.clientUsage world (server.clientDir second)
          (server.dispatchAll first requests store)).1 =
        (server.clientUsage world (server.clientDir second) store).1 := by
  refine ⟨?_, ?_, ?_, ?_⟩
  · intro world request store location hchanged
    by_contra houtside
    exact hchanged (dispatch_outside request store houtside)
  · intro world request store location hlocation
    exact dispatch_outside request store (clientLocation_disjoint hne.symm hlocation)
  · intro world request store store' hagree
    exact dispatch_congr request hagree
  · intro requests store world
    have hagree : AgreeUnder (server.clientLocation second)
        (server.dispatchAll first requests store) store := dispatchAll_agree hne requests store
    exact ⟨fun request ↦ dispatch_congr request hagree,
      confined_clientUsage.result _ _ hagree⟩

end Server

/-! ### A submission of one client and the list of another -/

namespace Sample

/-- The file of the queued record of the first job. -/
def recordText : String :=
  "job_id = \"cd1b71d7a9259c5c16d2bb70\"\nkind = \"web_fetch\"\nstatus = \"queued\"\n" ++
    "source = \"http://example.com/a\"\nnormalize = false\nbody_len = 0\n" ++
    "created_at_ms = 1000\nupdated_at_ms = 1000\nexpires_at_ms = 86401000\n"

def server : Server where
  externals := externals
  config := RelayConfig.default
  toStringPretty metadata :=
    if metadata = pending jobA sourceA .queued then some (utf8 recordText) else none
  fromStr bytes :=
    if bytes = utf8 recordText then some (pending jobA sourceA .queued) else none
  workingDir := []
  spoolDir := "/var/lib/ghostbro/relay"

/-- A world without faults, in which every url is accepted. -/
def world : World where
  clock _ := some 1000
  validPublicUrl _ := true
  validGitUrl _ := true
  faults := ⟨fun _ ↦ false, fun _ ↦ none⟩

def otherKeyId : KeyId := Vector.replicate 8 6

/-- `SUBMIT_WEB` of the first source. -/
def submitRequest : Bytes := relayHeader 1 ++ [0, 20] ++ utf8 sourceA

def listRequest : Bytes := relayHeader 2

theorem clients_isolated_sample :
    keyId ≠ otherKeyId ∧
      (server.dispatch world otherKeyId listRequest
          (server.dispatchAll keyId [(world, submitRequest)] ∅)).1 =
        (server.dispatch world otherKeyId listRequest ∅).1 := by
  have hne : keyId ≠ otherKeyId := by decide
  exact ⟨hne, ((Server.clients_isolated server hne).2.2.2 [(world, submitRequest)] ∅ world).1
    listRequest⟩

end Sample

end Ghostbro.Relay
