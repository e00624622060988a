import Ghostbro.Common.SpaPacket
import Ghostbro.Server.CounterState

/-!
# The relay spool

Each client has a directory of job records, of primary and normalized objects and of scratch
directories for git mirrors.  This file models one such directory and the requests that read or
write it in one go: `enqueue`, `list`, `download`, and the usage count behind the quota.  Records
are files, so every write may fail; a record also fails to serialize when one of its integers is
above `i64::MAX`.  The sum of the usage count wraps as the `u64` it is.
-/

namespace Ghostbro.Relay

/-- The `kind` of a job: `web_fetch`, `git_mirror` or `package`. -/
inductive JobKind
  | webFetch
  | gitMirror
  | package
  deriving DecidableEq

/-- The `status` of a job. -/
inductive JobStatus
  | queued
  | running
  | complete
  | failed
  deriving DecidableEq

/-- `RelayJobMetadata`. -/
structure RelayJobMetadata where
  jobId : String
  kind : JobKind
  status : JobStatus
  source : String
  normalize : Bool
  httpStatus : Option UInt16
  contentType : Option String
  bodyLen : UInt64
  normalizedLen : Option UInt64
  sha256 : Option String
  error : Option String
  createdAtMs : UInt64
  updatedAtMs : UInt64
  expiresAtMs : UInt64
  deriving DecidableEq

namespace RelayJobMetadata

/-- What a record adds to the byte count of its client. -/
def recorded (metadata : RelayJobMetadata) : UInt64 :=
  metadata.bodyLen + metadata.normalizedLen.getD 0

/-- Whether `toml::to_string_pretty` accepts the record. -/
def storable (metadata : RelayJobMetadata) : Bool :=
  metadata.bodyLen ≤ i64Max ∧ metadata.normalizedLen.getD 0 ≤ i64Max ∧
    metadata.createdAtMs ≤ i64Max ∧ metadata.updatedAtMs ≤ i64Max ∧ metadata.expiresAtMs ≤ i64Max

end RelayJobMetadata

/-- The contents of `work/<job_id>`. -/
structure WorkDir where
  mirror : Option Bytes
  bundle : Option Bytes
  deriving DecidableEq

/-- One client directory: `jobs/<id>.toml`, `objects/<id>.body`, `objects/<id>.md` and
`work/<id>`. -/
structure Spool where
  jobs : HashMap String RelayJobMetadata
  primary : HashMap String Bytes
  normalized : HashMap String Bytes
  work : HashMap String WorkDir
  deriving DecidableEq

/-- A client directory without files, or none at all. -/
def Spool.empty : Spool := ⟨∅, ∅, ∅, ∅⟩

/-- The limits of `RelayConfig`.  They come from a TOML file or from the defaults, so the byte
quota fits a signed 64-bit integer. -/
structure RelayConfig where
  jobTtlSeconds : UInt64
  maxJobsPerClient : ℕ
  maxBytesPerClient : UInt64
  maxObjectLen : UInt64
  workerCount : ℕ
  maxBytesPerClient_le : maxBytesPerClient ≤ i64Max

namespace RelayConfig

/-- `RelayConfig::default`. -/
def default : RelayConfig where
  jobTtlSeconds := 24 * 60 * 60
  maxJobsPerClient := 64
  maxBytesPerClient := 256 * 1024 * 1024
  maxObjectLen := 64 * 1024 * 1024
  workerCount := 4
  maxBytesPerClient_le := by decide

/-- `job_ttl.as_millis() as u64`. -/
def jobTtlMillis (config : RelayConfig) : UInt64 :=
  UInt64.ofNat (config.jobTtlSeconds.toNat * 1000)

end RelayConfig

/-- What the engine takes from elsewhere: hash functions, the text of the serializer's range
error, and `html_to_markdown` on the lossily decoded body. -/
structure Externals where
  crypto : Crypto
  sha512 : Bytes → Octets 64
  outOfRange : String
  htmlToMarkdown : Bytes → Bytes

/-! ### Records -/

/-- The lower-case hexadecimal digits of a digest. -/
def hexText (digest : Bytes) : List Char := digest.flatMap Keys.hexByte

/-- The bytes of a string. -/
def utf8 (text : String) : Bytes := text.toByteArray.data.toList

theorem utf8_eq_flatMap (text : String) :
    utf8 text = text.toList.flatMap String.utf8EncodeChar :=
  toList_toByteArray text

/-- The byte of an ASCII character of a text is one of the text's bytes. -/
theorem mem_utf8 {text : String} {symbol : Char} {byte : UInt8} (h : symbol ∈ text.toList)
    (hbyte : String.utf8EncodeChar symbol = [byte]) : byte ∈ utf8 text := by
  rw [utf8_eq_flatMap, List.mem_flatMap]
  exact ⟨symbol, h, by simp [hbyte]⟩

/-- `relay_job_id`. -/
def relayJobId (externals : Externals) (keyId : KeyId) (source : String) (nowMs : UInt64) :
    String :=
  String.ofList <| (hexText (externals.crypto.sha256
    (keyId.toList ++ utf8 source ++ (u64ToBe nowMs).toList)).toList).take 24

/-- `write_metadata`: serialize, write a temporary file and rename it.  `fault` is the text of an
I/O error, of the write or of the creation of its directory. -/
def writeMetadata (externals : Externals) (fault : Option String) (metadata : RelayJobMetadata)
    (spool : Spool) : Except String Spool :=
  if metadata.storable then
    match fault with
    | none => .ok { spool with jobs := spool.jobs.insert metadata.jobId metadata }
    | some error => .error error
  else .error externals.outOfRange

theorem writeMetadata_eq_ok {externals : Externals} {fault : Option String}
    {metadata : RelayJobMetadata} {spool next : Spool}
    (h : writeMetadata externals fault metadata spool = .ok next) :
    next = { spool with jobs := spool.jobs.insert metadata.jobId metadata } := by
  unfold writeMetadata at h
  split at h
  · split at h
    · exact (Except.ok.inj h).symm
    · cases h
  · cases h

/-- `client_usage`: the number of live records and the bytes they account for. -/
def clientUsage (now : UInt64) (spool : Spool) : ℕ × UInt64 :=
  spool.jobs.entries.foldl (fun usage entry ↦
    if entry.2.expiresAtMs ≤ now then usage
    else (usage.1 + 1, usage.2 + entry.2.recorded)) (0, 0)

/-! ### Requests -/

/-- The status of a response. -/
inductive Status
  | ok
  | pending
  | notFound
  | failed
  | quota
  deriving DecidableEq

/-- The fields of one row of a list response. -/
structure JobRow where
  jobId : String
  kind : JobKind
  status : JobStatus
  httpStatus : UInt16
  bodyLen : UInt64
  normalized : Bool
  source : String
  deriving DecidableEq

/-- The payload of a response. -/
inductive Reply
  | message (status : Status) (text : String)
  | accepted (jobId : String)
  | rows (rows : List JobRow)
  | chunk (terminal : Bool) (total : UInt32) (body : Bytes)
  deriving DecidableEq

def Reply.status : Reply → Status
  | message status _ => status
  | accepted _ => .ok
  | rows _ => .ok
  | chunk _ _ _ => .ok

/-- What `RelayEngine::dispatch` answers when a handler fails. -/
def internalError : Reply := .message .failed "internal relay error"

theorem internalError_status_ne : internalError.status ≠ .ok := by decide

/-- A submission by its three operations; a package is named by its encoded spec. -/
inductive Submission
  | web (url : String) (normalize : Bool)
  | git (url : String)
  | package (spec : String)
  deriving DecidableEq

namespace Submission

def kind : Submission → JobKind
  | web _ _ => .webFetch
  | git _ => .gitMirror
  | package _ => .package

def source : Submission → String
  | web url _ => url
  | git url => url
  | package spec => spec

def normalize : Submission → Bool
  | web _ normalize => normalize
  | git _ => false
  | package _ => false

end Submission

/-- The record `enqueue` writes. -/
def queuedMetadata (externals : Externals) (config : RelayConfig) (keyId : KeyId)
    (submission : Submission) (now : UInt64) : RelayJobMetadata where
  jobId := relayJobId externals keyId submission.source now
  kind := submission.kind
  status := .queued
  source := submission.source
  normalize := submission.normalize
  httpStatus := none
  contentType := none
  bodyLen := 0
  normalizedLen := none
  sha256 := none
  error := none
  createdAtMs := now
  updatedAtMs := now
  expiresAtMs := now + config.jobTtlMillis

/-- `enqueue` under the quota lock: a refusal, or the new spool and the id of the queued job. -/
def enqueue (externals : Externals) (config : RelayConfig) (keyId : KeyId)
    (submission : Submission) (now : UInt64) (fault : Option String) (spool : Spool) :
    Reply × Option (Spool × String) :=
  let usage := clientUsage now spool
  if config.maxJobsPerClient ≤ usage.1 then
    (.message .quota s!"job quota reached ({usage.1} of {config.maxJobsPerClient})", none)
  else if config.maxBytesPerClient ≤ usage.2 then
    (.message .quota "storage quota reached", none)
  else
    let metadata := queuedMetadata externals config keyId submission now
    match writeMetadata externals fault metadata spool with
    | .ok next => (.accepted metadata.jobId, some (next, metadata.jobId))
    | .error _ => (internalError, none)

/-- A submission that changes the spool was accepted, and adds one queued record. -/
theorem enqueue_eq_some {externals : Externals} {config : RelayConfig} {keyId : KeyId}
    {submission : Submission} {now : UInt64} {fault : Option String} {spool next : Spool}
    {reply : Reply} {jobId : String}
    (h : enqueue externals config keyId submission now fault spool = (reply, some (next, jobId))) :
    reply = .accepted jobId ∧
      jobId = (queuedMetadata externals config keyId submission now).jobId ∧
      next = { spool with
        jobs := spool.jobs.insert jobId
          (queuedMetadata externals config keyId submission now) } := by
  unfold enqueue at h
  dsimp only at h
  split at h
  · simp at h
  · split at h
    · simp at h
    · split at h
      · rename_i hwrite
        obtain ⟨rfl, rfl, rfl⟩ : _ ∧ _ ∧ _ := by simpa using h
        exact ⟨rfl, rfl, writeMetadata_eq_ok hwrite⟩
      · simp at h

/-- A submission that leaves the spool alone is not answered with OK. -/
theorem enqueue_eq_none {externals : Externals} {config : RelayConfig} {keyId : KeyId}
    {submission : Submission} {now : UInt64} {fault : Option String} {spool : Spool}
    {reply : Reply}
    (h : enqueue externals config keyId submission now fault spool = (reply, none)) :
    reply.status ≠ .ok := by
  unfold enqueue at h
  dsimp only at h
  split at h
  · obtain rfl : _ = reply := by simpa using h
    simp [Reply.status]
  · split at h
    · obtain rfl : _ = reply := by simpa using h
      simp [Reply.status]
    · split at h
      · simp at h
      · obtain rfl : _ = reply := by simpa using h
        exact internalError_status_ne

/-- The row `list` prints for a record. -/
def RelayJobMetadata.row (metadata : RelayJobMetadata) : JobRow where
  jobId := metadata.jobId
  kind := metadata.kind
  status := metadata.status
  httpStatus := metadata.httpStatus.getD 0
  bodyLen := metadata.bodyLen
  normalized := metadata.normalizedLen.isSome
  source := metadata.source

/-- `list`: the rows of the live records, before they are sorted and joined. -/
def list (now : UInt64) (spool : Spool) : List JobRow :=
  (spool.jobs.entries.filter fun entry ↦ decide (now < entry.2.expiresAtMs)).map
    fun entry ↦ entry.2.row

/-- Every row is that of a record on disk. -/
theorem mem_list {now : UInt64} {spool : Spool} {row : JobRow} (h : row ∈ list now spool) :
    ∃ fileName metadata, spool.jobs.lookup fileName = some metadata ∧ row = metadata.row := by
  simp only [list, List.mem_map, List.mem_filter] at h
  obtain ⟨⟨fileName, metadata⟩, ⟨hentry, _⟩, rfl⟩ := h
  exact ⟨fileName, metadata, HashMap.mem_entries_iff.mp hentry, rfl⟩

/-- `validate_job_id`: ASCII hexadecimal digits and hyphens, at least one. -/
def validateJobId (jobId : String) : Bool :=
  jobId ≠ "" && (utf8 jobId).all fun byte ↦ (Keys.hexDigit byte).isSome || byte = 45

/-- `RELAY_MAX_DOWNLOAD_CHUNK`. -/
def relayMaxDownloadChunk : ℕ := 16 * 1024 - 64

/-- The part of a body that one download returns. -/
def chunkOf (body : Bytes) (offset maxLen : ℕ) : Reply :=
  let total := body.length
  let start := min offset total
  let stop := min total (start + maxLen)
  .chunk (decide (total ≤ stop)) (UInt32.ofNat total) ((body.drop start).take (stop - start))

/-- `download` after the request is parsed; a selector other than 1 means the primary object. -/
def download (now : UInt64) (spool : Spool) (jobId : String) (offset : UInt32) (maxLen : UInt16)
    (artifact : UInt8) : Reply :=
  if !validateJobId jobId then internalError
  else match spool.jobs.lookup jobId with
    | none => .message .notFound "job not found"
    | some metadata =>
      if metadata.expiresAtMs ≤ now then .message .notFound "job expired"
      else match metadata.status with
        | .queued | .running => .message .pending "job not ready"
        | .failed => .message .failed (metadata.error.getD "job failed")
        | .complete =>
          if artifact = 1 ∧ metadata.normalizedLen = none then
            .message .notFound "no normalized artifact for job"
          else
            let objects := if artifact = 1 then spool.normalized else spool.primary
            match objects.lookup jobId with
            | none => internalError
            | some body =>
              chunkOf body offset.toNat (min maxLen.toNat relayMaxDownloadChunk)

/-- A job without a record is not downloaded. -/
theorem download_status_ne_ok {now : UInt64} {spool : Spool} {jobId : String} {offset : UInt32}
    {maxLen : UInt16} {artifact : UInt8} (h : spool.jobs.lookup jobId = none) :
    (download now spool jobId offset maxLen artifact).status ≠ .ok := by
  unfold download
  rw [h]
  split
  · exact internalError_status_ne
  · simp [Reply.status]

end Ghostbro.Relay
