import Ghostbro.Foundation.Machine
import Ghostbro.Relay.Spool

/-!
# The relay engine

The engine is a machine whose steps are the points at which its tasks touch shared state.  A
worker reads the record of its job, keeps a copy of it across the fetch, and writes the copy back
as running, complete or failed; only the quota check with the write of the primary object runs
under the lock of the client, and is one step.  A deletion and the reaper remove three files one
by one.  The recovery scan visits the files of the spool in any order and may or may not see files
that appear while it runs.  A crash ends every task and keeps the files.

Whatever comes from outside is part of an event: requests, responses of remote servers, results of
`git`, the clock, which does not run backwards, and the I/O error of a step that fails.
-/

namespace Ghostbro.Relay

open Machine

/-! ### Fetching -/

/-- `JobOutcome`. -/
structure JobOutcome where
  body : Bytes
  httpStatus : Option UInt16
  contentType : Option String
  deriving DecidableEq

/-- What `reqwest` returns for one request. -/
structure HttpResponse where
  status : UInt16
  contentType : Option String
  contentLength : Option UInt64
  body : Bytes
  deriving DecidableEq

/-- `http_get_bytes` on the response of the server. -/
def httpGetBytes (maxLen : UInt64) (response : HttpResponse) : Except String JobOutcome :=
  let advertised := response.contentLength.getD 0
  if maxLen < advertised then
    .error s!"response body advertises {advertised} bytes, exceeds limit {maxLen}"
  else if maxLen.toNat < response.body.length then
    .error s!"response body {response.body.length} bytes exceeds limit {maxLen}"
  else .ok ⟨response.body, some response.status, response.contentType⟩

/-- `ExpectedDigest`. -/
inductive ExpectedDigest
  | none
  | sha256 (expected : String)
  | sha512 (expected : Bytes)
  deriving DecidableEq

/-- `ExpectedDigest::verify`. -/
def ExpectedDigest.verify (externals : Externals) (body : Bytes) :
    ExpectedDigest → Except String Unit
  | none => .error "package download rejected: registry provided no usable digest"
  | sha256 expected =>
    let actual := hexText (externals.crypto.sha256 body).toList
    if actual = expected.toList.map Char.toLower then .ok ()
    else .error s!"package sha256 mismatch: expected {expected}, got {String.ofList actual}"
  | sha512 expected =>
    if (externals.sha512 body).toList = expected then .ok ()
    else .error "package sha512 integrity mismatch"

/-- `run_web_fetch`: an error stands for a refused URL or a failed transfer. -/
def runWebFetch (config : RelayConfig) (result : Except String HttpResponse) :
    Except String JobOutcome :=
  result.bind (httpGetBytes config.maxObjectLen)

/-- `run_package`, from the digest the registry gives and the response of the download. -/
def runPackage (externals : Externals) (config : RelayConfig)
    (resolved : Except String ExpectedDigest) (result : Except String HttpResponse) :
    Except String JobOutcome := do
  let digest ← resolved
  let response ← result
  let outcome ← httpGetBytes config.maxObjectLen response
  if 400 ≤ response.status then .error s!"package download returned HTTP {response.status}"
  else digest.verify externals outcome.body
  return outcome

/-- Whether a byte string occurs in another one. -/
def occursIn {Symbol : Type} [BEq Symbol] (needle text : List Symbol) : Bool :=
  text.tails.any needle.isPrefixOf

/-- `to_ascii_lowercase` on one byte. -/
def asciiLower (byte : UInt8) : UInt8 := if 65 ≤ byte ∧ byte ≤ 90 then byte + 32 else byte

/-- `is_html`. -/
def isHtml (contentType : Option String) (body : Bytes) : Bool :=
  let lowered := (contentType.map fun text ↦ text.toList.map Char.toLower).getD []
  if occursIn "text/html".toList lowered || occursIn "application/xhtml".toList lowered then true
  else if occursIn "text/plain".toList lowered || occursIn "application/json".toList lowered then
    false
  else
    let head := (body.take 1024).map asciiLower
    occursIn (utf8 "<html") head || occursIn (utf8 "<!doctype html") head

/-! ### Workers -/

/-- `JobRef`. -/
structure JobRef where
  keyIdHex : String
  jobId : String
  deriving DecidableEq

/-- Where a worker stands in `process_job`, with the copy of the record it holds there. -/
inductive Phase
  | taken
  | marking (metadata : RelayJobMetadata)
  | fetching (metadata : RelayJobMetadata)
  | cloning (metadata : RelayJobMetadata)
  | bundling (metadata : RelayJobMetadata)
  | collecting (metadata : RelayJobMetadata)
  | fetched (metadata : RelayJobMetadata) (outcome : JobOutcome)
  | stored (metadata : RelayJobMetadata) (outcome : JobOutcome)
  | completing (metadata : RelayJobMetadata)
  | failing (error : String)
  | failWriting (metadata : RelayJobMetadata)
  deriving DecidableEq

/-- The copy of the record that a worker still may write. -/
def Phase.copy : Phase → Option RelayJobMetadata
  | taken | failing _ => none
  | marking metadata | fetching metadata | cloning metadata | bundling metadata
  | collecting metadata | fetched metadata _ | stored metadata _ | completing metadata
  | failWriting metadata => some metadata

/-- How `fs::write` ends.  A failed write leaves the old file, or a truncated new one. -/
inductive WriteResult
  | written
  | failed (error : String) (left : Option ℕ)
  deriving DecidableEq

/-- The file map after a write that ended as `result`. -/
def WriteResult.store (result : WriteResult) (path : String) (bytes : Bytes)
    (files : HashMap String Bytes) : HashMap String Bytes :=
  match result with
  | written => files.insert path bytes
  | failed _ none => files
  | failed _ (some left) => files.insert path (bytes.take left)

/-- What a worker does next, with what its environment answers. -/
inductive WorkerEvent
  | read (readable : Bool)
  | writeRunning (fault : Option String)
  | webFetched (result : Except String HttpResponse)
  | packageFetched (resolved : Except String ExpectedDigest) (result : Except String HttpResponse)
  | gitPrepared (valid created : Except String Unit)
  | gitCloned (mirror : Option Bytes) (result : Except String Unit)
  | gitBundled (bundle : Option Bytes) (result : Except String Unit)
  | gitCollected (readable removed : Bool)
  | commit (usage : Except String Unit) (result : WriteResult)
  | normalize (result : WriteResult)
  | writeComplete (fault : Option String)
  | readFailed (readable : Bool)
  | writeFailed (fault : Option String)

/-- The phase after a fetch. -/
def Phase.afterFetch (metadata : RelayJobMetadata) : Except String JobOutcome → Phase
  | .ok outcome => .fetched metadata outcome
  | .error error => .failing error

/-- The quota check of `process_job_inner` under the client lock. -/
def quotaAllows (config : RelayConfig) (now : UInt64) (spool : Spool) (body : Bytes) : Prop :=
  saturatingAdd (clientUsage now spool).2 (UInt64.ofNat body.length) ≤ config.maxBytesPerClient

instance (config : RelayConfig) (now : UInt64) (spool : Spool) (body : Bytes) :
    Decidable (quotaAllows config now spool body) := by
  unfold quotaAllows
  infer_instance

/-- The copy once the primary object is stored. -/
def storedMetadata (externals : Externals) (metadata : RelayJobMetadata) (outcome : JobOutcome) :
    RelayJobMetadata :=
  { metadata with
    bodyLen := UInt64.ofNat outcome.body.length
    httpStatus := outcome.httpStatus
    contentType := outcome.contentType
    sha256 := some (String.ofList (hexText (externals.crypto.sha256 outcome.body).toList)) }

/-- The section under the client lock: check the usage, check the size, write the object. -/
def commit (externals : Externals) (config : RelayConfig) (now : UInt64) (spool : Spool)
    (metadata : RelayJobMetadata) (outcome : JobOutcome) (usage : Except String Unit)
    (result : WriteResult) : Spool × Phase :=
  match usage with
  | .error error => (spool, .failing error)
  | .ok () =>
    if ¬quotaAllows config now spool outcome.body then
      (spool, .failing "storage quota would be exceeded by job result")
    else if config.maxObjectLen.toNat < outcome.body.length then
      (spool, .failing
        s!"result {outcome.body.length} bytes exceeds max object size {config.maxObjectLen}")
    else
      let next := { spool with
        primary := result.store metadata.jobId outcome.body spool.primary }
      match result with
      | .written => (next, .stored (storedMetadata externals metadata outcome) outcome)
      | .failed error _ => (next, .failing error)

/-- The optional normalized copy, outside the lock. -/
def normalize (externals : Externals) (spool : Spool) (metadata : RelayJobMetadata)
    (outcome : JobOutcome) (result : WriteResult) : Spool × Phase :=
  if metadata.normalize && isHtml outcome.contentType outcome.body then
    let markdown := externals.htmlToMarkdown outcome.body
    let next := { spool with
      normalized := result.store metadata.jobId markdown spool.normalized }
    match result with
    | .written => (next, .completing
        { metadata with normalizedLen := some (UInt64.ofNat markdown.length) })
    | .failed error _ => (next, .failing error)
  else (spool, .completing metadata)

/-- `run_git_mirror` after both commands: check the size of the bundle, read it, clean up. -/
def collectBundle (config : RelayConfig) (spool : Spool) (metadata : RelayJobMetadata)
    (readable removed : Bool) : Spool × Phase :=
  let cleaned :=
    if removed then { spool with work := spool.work.erase metadata.jobId } else spool
  match (spool.work.lookup metadata.jobId).bind WorkDir.bundle with
  | none => (spool, .failing "failed to stat produced git bundle")
  | some bundle =>
    if config.maxObjectLen.toNat < bundle.length then
      (cleaned, .failing
        s!"git bundle {bundle.length} bytes exceeds max object size {config.maxObjectLen}")
    else if readable then
      (cleaned, .fetched metadata ⟨bundle, none, some "application/x-git-bundle"⟩)
    else (spool, .failing "failed to read produced git bundle")

/-- One step of `process_job` and `process_job_inner` on the directory of the client; no phase
means that the worker is done with the job. -/
def workerStep (externals : Externals) (config : RelayConfig) (now : UInt64) (spool : Spool)
    (jobId : String) (phase : Phase) (event : WorkerEvent) : Option (Spool × Option Phase) :=
  match phase, event with
  | .taken, .read readable =>
    match if readable then spool.jobs.lookup jobId else none with
    | none => some (spool, none)
    | some metadata =>
      if metadata.status = .complete then some (spool, none)
      else some (spool, some (.marking metadata))
  | .marking metadata, .writeRunning fault =>
    let running := { metadata with status := .running, updatedAtMs := now }
    match writeMetadata externals fault running spool with
    | .ok next => some (next, some (.fetching running))
    | .error error => some (spool, some (.failing error))
  | .fetching metadata, .webFetched result =>
    if metadata.kind = .webFetch then
      some (spool, some (.afterFetch metadata (runWebFetch config result)))
    else none
  | .fetching metadata, .packageFetched resolved result =>
    if metadata.kind = .package then
      some (spool, some (.afterFetch metadata (runPackage externals config resolved result)))
    else none
  | .fetching metadata, .gitPrepared valid created =>
    if metadata.kind = .gitMirror then
      match valid, created with
      | .error error, _ => some (spool, some (.failing error))
      | .ok (), .error error =>
        some ({ spool with work := spool.work.erase metadata.jobId }, some (.failing error))
      | .ok (), .ok () =>
        some ({ spool with work := spool.work.insert metadata.jobId ⟨none, none⟩ },
          some (.cloning metadata))
    else none
  | .cloning metadata, .gitCloned mirror result =>
    let next := { spool with work := spool.work.insert metadata.jobId ⟨mirror, none⟩ }
    match result with
    | .ok () => some (next, some (.bundling metadata))
    | .error error => some (next, some (.failing error))
  | .bundling metadata, .gitBundled bundle result =>
    let mirror := (spool.work.lookup metadata.jobId).bind WorkDir.mirror
    let next := { spool with work := spool.work.insert metadata.jobId ⟨mirror, bundle⟩ }
    match result with
    | .ok () => some (next, some (.collecting metadata))
    | .error error => some (next, some (.failing error))
  | .collecting metadata, .gitCollected readable removed =>
    let (next, phase) := collectBundle config spool metadata readable removed
    some (next, some phase)
  | .fetched metadata outcome, .commit usage result =>
    let (next, phase) := commit externals config now spool metadata outcome usage result
    some (next, some phase)
  | .stored metadata outcome, .normalize result =>
    let (next, phase) := normalize externals spool metadata outcome result
    some (next, some phase)
  | .completing metadata, .writeComplete fault =>
    let complete := { metadata with status := .complete, error := none, updatedAtMs := now }
    match writeMetadata externals fault complete spool with
    | .ok next => some (next, none)
    | .error error => some (spool, some (.failing error))
  | .failing error, .readFailed readable =>
    match if readable then spool.jobs.lookup jobId else none with
    | none => some (spool, none)
    | some metadata =>
      some (spool, some (.failWriting { metadata with status := .failed, error := some error }))
  | .failWriting metadata, .writeFailed fault =>
    match writeMetadata externals fault { metadata with updatedAtMs := now } spool with
    | .ok next => some (next, none)
    | .error _ => some (spool, none)
  | _, _ => none

/-! ### Removals -/

/-- The file a removal takes next. -/
inductive Stage
  | primary
  | normalized
  | metadata
  deriving DecidableEq

/-- `fs::remove_file` on one of the three files of a job; the record is named by its file and the
objects by the id in the record. -/
def Spool.remove (spool : Spool) (fileName jobId : String) : Stage → Spool
  | .primary => { spool with primary := spool.primary.erase jobId }
  | .normalized => { spool with normalized := spool.normalized.erase jobId }
  | .metadata => { spool with jobs := spool.jobs.erase fileName }

/-- A `DELETE` request whose handler is still running. -/
structure Deletion where
  keyId : KeyId
  jobId : String
  stage : Stage
  deriving DecidableEq

/-- The reaper between two file operations; `now` is the time its pass started. -/
inductive Reaper
  | idle
  | scanning (now : UInt64)
  | removing (now : UInt64) (keyIdHex fileName jobId : String) (stage : Stage)
  deriving DecidableEq

/-- The recovery scan: the files it still has to visit, and those it has visited. -/
structure Recovery where
  pending : List JobRef
  visited : List JobRef
  deriving DecidableEq

/-! ### The machine -/

/-- A worker that is not idle. -/
structure Worker where
  job : JobRef
  phase : Phase
  deriving DecidableEq

structure State where
  now : UInt64
  spools : HashMap String Spool
  queue : List JobRef
  workers : HashMap ℕ Worker
  deletions : HashMap ℕ Deletion
  reaper : Reaper
  recovery : Option Recovery
  deriving DecidableEq

/-- A parsed request. -/
inductive Request
  | submit (submission : Submission)
  | list
  | download (jobId : String) (offset : UInt32) (maxLen : UInt16) (artifact : UInt8)
  | delete (jobId : String)
  deriving DecidableEq

inductive Event
  | tick (now : UInt64)
  | submit (keyId : KeyId) (submission : Submission) (valid : Bool) (fault : Option String)
  | list (keyId : KeyId)
  | download (keyId : KeyId) (jobId : String) (offset : UInt32) (maxLen : UInt16)
      (artifact : UInt8)
  | delete (handler : ℕ) (keyId : KeyId) (jobId : String)
  | deleteNext (handler : ℕ) (removed : Bool)
  | take (worker : ℕ)
  | work (worker : ℕ) (event : WorkerEvent)
  | reapStart
  | reapVisit (keyIdHex fileName : String)
  | reapNext (removed : Bool)
  | reapFinish
  | recoverVisit (job : JobRef) (readable : Bool)
  | recoverFinish
  | crash

/-- The answer to a request. -/
inductive Output
  | answered (keyId : KeyId) (request : Request) (reply : Reply)
  deriving DecidableEq

namespace State

/-- The engine on an empty spool. -/
def start (now : UInt64) : State where
  now := now
  spools := ∅
  queue := []
  workers := ∅
  deletions := ∅
  reaper := .idle
  recovery := some ⟨[], []⟩

/-- The directory of a client. -/
def spool (state : State) (keyIdHex : String) : Spool :=
  (state.spools.lookup keyIdHex).getD Spool.empty

def setSpool (state : State) (keyIdHex : String) (spool : Spool) : State :=
  { state with spools := state.spools.insert keyIdHex spool }

def setWorker (state : State) (worker : ℕ) (job : JobRef) : Option Phase → State
  | none => { state with workers := state.workers.erase worker }
  | some phase => { state with workers := state.workers.insert worker ⟨job, phase⟩ }

/-- Every job record on disk, by its file. -/
def jobFiles (state : State) : List JobRef :=
  state.spools.entries.flatMap fun entry ↦ entry.2.jobs.keys.map fun fileName ↦
    ⟨entry.1, fileName⟩

theorem spool_setSpool (state : State) (keyIdHex keyIdHex' : String) (spool : Spool) :
    (state.setSpool keyIdHex' spool).spool keyIdHex =
      if keyIdHex = keyIdHex' then spool else state.spool keyIdHex := by
  unfold setSpool State.spool
  rw [HashMap.lookup_insert_ite]
  split <;> rfl

@[simp]
theorem spool_setWorker (state : State) (worker : ℕ) (job : JobRef) (phase : Option Phase)
    (keyIdHex : String) : (state.setWorker worker job phase).spool keyIdHex =
      state.spool keyIdHex := by
  cases phase <;> rfl

@[simp]
theorem now_setWorker (state : State) (worker : ℕ) (job : JobRef) (phase : Option Phase) :
    (state.setWorker worker job phase).now = state.now := by
  cases phase <;> rfl

theorem lookup_setWorker (state : State) (worker other : ℕ) (job : JobRef)
    (phase : Option Phase) : (state.setWorker worker job phase).workers.lookup other =
      if other = worker then phase.map (Worker.mk job) else state.workers.lookup other := by
  cases phase with
  | none => exact HashMap.lookup_erase_ite state.workers other worker
  | some phase => exact HashMap.lookup_insert_ite state.workers other worker ⟨job, phase⟩

end State

/-- The next stage of a removal. -/
def Stage.next : Stage → Option Stage
  | primary => some normalized
  | normalized => some metadata
  | metadata => none

/-- `submit_web`, `submit_git` and `submit_package`; `valid` is the verdict of their validation. -/
def submitStep (externals : Externals) (config : RelayConfig) (state : State) (keyId : KeyId)
    (submission : Submission) (valid : Bool) (fault : Option String) : State × Reply :=
  let client := Keys.keyIdHex keyId
  if valid then
    match enqueue externals config keyId submission state.now fault (state.spool client) with
    | (reply, none) => (state, reply)
    | (reply, some (spool, jobId)) =>
      ({ state.setSpool client spool with queue := state.queue ++ [⟨client, jobId⟩] }, reply)
  else (state, internalError)

/-- `delete` up to the first removal. -/
def deleteStep (state : State) (handler : ℕ) (keyId : KeyId) (jobId : String) :
    State × Option Reply :=
  if !validateJobId jobId then (state, some internalError)
  else if jobId ∉ (state.spool (Keys.keyIdHex keyId)).jobs then
    (state, some (.message .notFound "job not found"))
  else ({ state with deletions := state.deletions.insert handler ⟨keyId, jobId, .primary⟩ }, none)

/-- One removal of a running deletion.  Only the last one is checked. -/
def deleteNextStep (state : State) (handler : ℕ) (deletion : Deletion) (removed : Bool) :
    State × Option Reply :=
  let client := Keys.keyIdHex deletion.keyId
  let spool := state.spool client
  let next := if removed then
      state.setSpool client (spool.remove deletion.jobId deletion.jobId deletion.stage)
    else state
  match deletion.stage.next with
  | some stage =>
    ({ next with deletions := next.deletions.insert handler { deletion with stage := stage } },
      none)
  | none =>
    ({ next with deletions := next.deletions.erase handler },
      some (if removed ∧ deletion.jobId ∈ spool.jobs then .message .ok "deleted"
        else internalError))

/-- One removal of the reaper; none is checked. -/
def reapNextStep (state : State) (now : UInt64) (keyIdHex fileName jobId : String) (stage : Stage)
    (removed : Bool) : State :=
  let next := if removed then
      state.setSpool keyIdHex ((state.spool keyIdHex).remove fileName jobId stage)
    else state
  match stage.next with
  | some stage => { next with reaper := .removing now keyIdHex fileName jobId stage }
  | none => { next with reaper := .scanning now }

/-- One file of the recovery scan. -/
def recoverStep (state : State) (recovery : Recovery) (job : JobRef) (readable : Bool) : State :=
  let visited : Recovery := ⟨recovery.pending.erase job, job :: recovery.visited⟩
  match if readable then (state.spool job.keyIdHex).jobs.lookup job.jobId else none with
  | none => { state with recovery := some visited }
  | some metadata =>
    if metadata.status = .queued ∨ metadata.status = .running then
      { state with
        recovery := some visited
        queue := state.queue ++ [⟨job.keyIdHex, metadata.jobId⟩] }
    else { state with recovery := some visited }

/-- One step of the engine. -/
def step (externals : Externals) (config : RelayConfig) : Step State Event Output
  | state, .tick now => if state.now ≤ now then some ({ state with now := now }, none) else none
  | state, .submit keyId submission valid fault =>
    let (next, reply) := submitStep externals config state keyId submission valid fault
    some (next, some (.answered keyId (.submit submission) reply))
  | state, .list keyId =>
    let rows := list state.now (state.spool (Keys.keyIdHex keyId))
    some (state, some (.answered keyId .list (.rows rows)))
  | state, .download keyId jobId offset maxLen artifact =>
    let reply := download state.now (state.spool (Keys.keyIdHex keyId)) jobId offset maxLen artifact
    some (state, some (.answered keyId (.download jobId offset maxLen artifact) reply))
  | state, .delete handler keyId jobId =>
    if handler ∈ state.deletions then none
    else
      let (next, reply) := deleteStep state handler keyId jobId
      some (next, reply.map (.answered keyId (.delete jobId)))
  | state, .deleteNext handler removed =>
    (state.deletions.lookup handler).map fun deletion ↦
      let (next, reply) := deleteNextStep state handler deletion removed
      (next, reply.map (.answered deletion.keyId (.delete deletion.jobId)))
  | state, .take worker =>
    if worker < max config.workerCount 1 ∧ worker ∉ state.workers then
      match state.queue with
      | [] => none
      | job :: queue =>
        some ({ state.setWorker worker job (some .taken) with queue := queue }, none)
    else none
  | state, .work worker event =>
    (state.workers.lookup worker).bind fun ⟨job, phase⟩ ↦
      (workerStep externals config state.now (state.spool job.keyIdHex) job.jobId phase event).map
        fun (spool, phase) ↦
          ((state.setSpool job.keyIdHex spool).setWorker worker job phase, none)
  | state, .reapStart =>
    if state.reaper = .idle then some ({ state with reaper := .scanning state.now }, none) else none
  | state, .reapVisit keyIdHex fileName =>
    match state.reaper, (state.spool keyIdHex).jobs.lookup fileName with
    | .scanning now, some metadata =>
      if metadata.expiresAtMs ≤ now then
        some ({ state with
          reaper := .removing now keyIdHex fileName metadata.jobId .primary }, none)
      else some (state, none)
    | _, _ => none
  | state, .reapNext removed =>
    match state.reaper with
    | .removing now keyIdHex fileName jobId stage =>
      some (reapNextStep state now keyIdHex fileName jobId stage removed, none)
    | _ => none
  | state, .reapFinish =>
    match state.reaper with
    | .scanning _ => some ({ state with reaper := .idle }, none)
    | _ => none
  | state, .recoverVisit job readable =>
    state.recovery.bind fun recovery ↦
      if job ∈ recovery.pending ∨ job ∈ state.jobFiles ∧ job ∉ recovery.visited then
        some (recoverStep state recovery job readable, none)
      else none
  | state, .recoverFinish =>
    state.recovery.bind fun recovery ↦
      if recovery.pending = [] then some ({ state with recovery := none }, none) else none
  | state, .crash =>
    some ({ state with
      queue := []
      workers := ∅
      deletions := ∅
      reaper := .idle
      recovery := some ⟨state.jobFiles, []⟩ }, none)

/-! ### Sample runs

A client with a quota of three bytes, two jobs with bodies of two bytes each, and two workers. -/

namespace Sample

def keyId : KeyId := Vector.replicate 8 5

def client : String := "0505050505050505"

def sourceA : String := "http://example.com/a"

def sourceB : String := "http://example.com/b"

def body : Bytes := [65, 65]

/-- SHA-256 on the strings that the sample hashes. -/
def sha256 (bytes : Bytes) : Octets 32 :=
  if bytes = keyId.toList ++ utf8 sourceA ++ (u64ToBe 1000).toList then
    #v[205, 27, 113, 215, 169, 37, 156, 92, 22, 210, 187, 112, 172, 38, 231, 37, 147, 175, 175, 62,
      23, 72, 0, 185, 75, 13, 213, 139, 18, 2, 52, 249]
  else if bytes = keyId.toList ++ utf8 sourceB ++ (u64ToBe 1000).toList then
    #v[11, 235, 203, 203, 86, 43, 78, 34, 60, 109, 12, 171, 56, 24, 230, 167, 149, 110, 189, 229,
      93, 176, 231, 103, 18, 247, 246, 131, 155, 240, 158, 187]
  else
    #v[88, 187, 17, 156, 53, 81, 58, 69, 29, 36, 220, 32, 239, 14, 144, 49, 236, 133, 179, 91, 252,
      145, 157, 38, 62, 126, 93, 152, 104, 144, 156, 181]

def externals : Externals where
  crypto := { Crypto.transparent with sha256 := sha256 }
  sha512 _ := Vector.replicate 64 0
  outOfRange := "out-of-range value for u64 type"
  htmlToMarkdown body := body

def config : RelayConfig :=
  { RelayConfig.default with maxBytesPerClient := 3, maxBytesPerClient_le := by decide }

abbrev sampleStep : Step State Event Output := step externals config

def jobA : JobRef := ⟨client, "cd1b71d7a9259c5c16d2bb70"⟩

def jobB : JobRef := ⟨client, "0bebcbcb562b4e223c6d0cab"⟩

/-- The record of a job whose object is not stored yet. -/
def pending (job : JobRef) (source : String) (status : JobStatus) : RelayJobMetadata where
  jobId := job.jobId
  kind := .webFetch
  status := status
  source := source
  normalize := false
  httpStatus := none
  contentType := none
  bodyLen := 0
  normalizedLen := none
  sha256 := none
  error := none
  createdAtMs := 1000
  updatedAtMs := 1000
  expiresAtMs := 86401000

/-- The record of a job whose object is stored. -/
def finished (job : JobRef) (source : String) (status : JobStatus) : RelayJobMetadata :=
  { pending job source status with
    httpStatus := some 200
    contentType := some "text/plain"
    bodyLen := 2
    sha256 := some "58bb119c35513a451d24dc20ef0e9031ec85b35bfc919d263e7e5d9868909cb5" }

def response : HttpResponse := ⟨200, some "text/plain", some 2, body⟩

def outcome : JobOutcome := ⟨body, some 200, some "text/plain"⟩

/-- The engine with the given files of the client, queue and workers. -/
def engine (jobs : HashMap String RelayJobMetadata) (primary : HashMap String Bytes)
    (queue : List JobRef) (workers : HashMap ℕ Worker) : State :=
  { State.start 1000 with
    spools := AList.insert client ⟨jobs, primary, ∅, ∅⟩ ∅
    queue := queue
    workers := workers }

/-- The first job as the only one, with its record on disk and its worker. -/
def alone (status : JobStatus) (queue : List JobRef) (workers : HashMap ℕ Worker) : State :=
  engine (AList.insert jobA.jobId (pending jobA sourceA status) ∅) ∅ queue workers

def workerA (phase : Phase) : HashMap ℕ Worker := AList.insert 0 ⟨jobA, phase⟩ ∅

def submitA : Event := .submit keyId (.web sourceA false) true none

def acceptedA : Output :=
  .answered keyId (.submit (.web sourceA false)) (.accepted jobA.jobId)

/-- The first job is submitted, taken by a worker and marked as running. -/
def runningEvents : List Event :=
  [submitA, .take 0, .work 0 (.read true), .work 0 (.writeRunning none)]

def running : State := alone .running [] (workerA (.fetching (pending jobA sourceA .running)))

theorem run_running (guard : State → Event → Prop) (hsubmit : guard (State.start 1000) submitA)
    (htake : guard (alone .queued [jobA] ∅) (.take 0))
    (hread : guard (alone .queued [] (workerA .taken)) (.work 0 (.read true)))
    (hwrite : guard (alone .queued [] (workerA (.marking (pending jobA sourceA .queued))))
      (.work 0 (.writeRunning none))) :
    Run sampleStep guard (State.start 1000) runningEvents [acceptedA] running := by
  have hstep₁ : sampleStep (State.start 1000) submitA =
      some (alone .queued [jobA] ∅, some acceptedA) := by decide +kernel
  have hstep₂ : sampleStep (alone .queued [jobA] ∅) (.take 0) =
      some (alone .queued [] (workerA .taken), none) := by decide +kernel
  have hstep₃ : sampleStep (alone .queued [] (workerA .taken)) (.work 0 (.read true)) =
      some (alone .queued [] (workerA (.marking (pending jobA sourceA .queued))), none) := by
    decide +kernel
  have hstep₄ : sampleStep (alone .queued [] (workerA (.marking (pending jobA sourceA .queued))))
      (.work 0 (.writeRunning none)) = some (running, none) := by decide +kernel
  have hnil : Run sampleStep guard (State.start 1000) [] [] (State.start 1000) := .nil
  exact (((hnil.snoc hsubmit hstep₁).snoc htake hstep₂).snoc hread hstep₃).snoc hwrite hstep₄

end Sample

end Ghostbro.Relay
