import Ghostbro.Client.RelayRequests
import Ghostbro.Common.Frames

/-!
# Downloads of the client

The client downloads a stored artifact in chunks, each with a request of its own, from the offset
at which the last one ended until a response is marked as terminal.  The server clamps the offset
and the length of a request to the stored bytes, so the chunks are the successive pieces of the
artifact, and only the last one is marked.
-/

namespace Ghostbro.Relay

open Disk Disk.FileM

/-! ### The loop of the client -/

/-- The failures of `relay_download` before it writes its output. -/
inductive DownloadError
  /-- "relay string is too long". -/
  | stringTooLong
  /-- The error of `run_relay_request`. -/
  | connection
  /-- The error of `parse_relay_download_response`. -/
  | response (error : RelayError)
  /-- "relay chunk too large". -/
  | chunkTooLarge
  /-- The next offset does not fit a `u32`. -/
  | offsetOverflow
  /-- "downloaded .. bytes, expected ..". -/
  | wrongLength (downloaded : ℕ) (expected : UInt32)
  deriving DecidableEq

/-- The variables of the loop, or the body after it. -/
inductive Download
  | more (offset : UInt32) (body : Bytes)
  | done (body : Bytes)
  deriving DecidableEq

/-- What a round of the loop does with its response. -/
def receiveChunk (offset : UInt32) (body response : Bytes) : Except DownloadError Download :=
  match parseRelayDownloadResponse response with
  | .error error => .error (.response error)
  | .ok (terminal, total, chunk) =>
    let body := body ++ chunk
    if 2 ^ 32 ≤ chunk.length then .error .chunkTooLarge
    else if 2 ^ 32 ≤ offset.toNat + chunk.length then .error .offsetOverflow
    else if terminal then
      if body.length ≠ total.toNat then .error (.wrongLength body.length total)
      else .ok (.done body)
    else .ok (.more (offset + UInt32.ofNat chunk.length) body)

section Loop

variable (exchange : ℕ → Bytes → Option Bytes) (jobId : String) (maxLen : UInt16)
  (artifact : RelayArtifact)

/-- One round of the loop; `exchange` is `run_relay_request`, with a new connection each time. -/
def downloadRound (round : ℕ) (offset : UInt32) (body : Bytes) : Except DownloadError Download :=
  match relayDownloadRequest jobId offset maxLen artifact.selector with
  | none => .error .stringTooLong
  | some request =>
    match exchange round request with
    | none => .error .connection
    | some response => receiveChunk offset body response

/-- `relay_download`, up to a number of rounds of its loop and without the output file.  The
client always passes 8192 as the length of a chunk. -/
def relayDownload : ℕ → Except DownloadError Download
  | 0 => .ok (.more 0 [])
  | rounds + 1 =>
    match relayDownload rounds with
    | .error error => .error error
    | .ok (.done body) => .ok (.done body)
    | .ok (.more offset body) => downloadRound exchange jobId maxLen artifact rounds offset body

end Loop

/-! ### The answer of the server -/

/-- The file of an artifact. -/
def objectPath (clientDir jobId : String) : RelayArtifact → String
  | .primary => primaryObjectPath clientDir jobId
  | .markdown => normalizedObjectPath clientDir jobId

/-- The server takes the job id from a request. -/
def Addressable (jobId : String) : Prop :=
  validateJobId jobId = true ∧ (utf8 jobId).length ≤ 128

/-- The server has the artifact of a complete job that is not expired, and can read its files. -/
structure Server.Offers (server : Server) (keyId : KeyId) (jobId : String)
    (artifact : RelayArtifact) (body : Bytes) (world : World) (store : Store) : Prop where
  record : ∃ bytes metadata now,
    store.lookup (server.locate (metadataPath (server.clientDir keyId) jobId)) = some bytes ∧
    server.fromStr bytes = some metadata ∧ metadata.status = .complete ∧
    (artifact = .markdown → metadata.normalizedLen ≠ none) ∧
    world.clock 0 = some now ∧ now < metadata.expiresAtMs
  object : store.lookup (server.locate (objectPath (server.clientDir keyId) jobId artifact)) =
    some body
  readableRecord : world.faults.refuses
    (.read (server.locate (metadataPath (server.clientDir keyId) jobId))) = false
  readableObject : world.faults.refuses
    (.read (server.locate (objectPath (server.clientDir keyId) jobId artifact))) = false

/-- A hexadecimal digit is a single octet that a job id may have. -/
theorem utf8EncodeChar_digitChar (digit : Fin 16) :
    (String.utf8EncodeChar (Nat.digitChar digit)).length = 1 ∧
      (String.utf8EncodeChar (Nat.digitChar digit)).all
        (fun byte ↦ (Keys.hexDigit byte).isSome || byte = 45) = true := by
  revert digit
  decide

/-- The id that the server gives to a job is one that it takes from a request. -/
theorem addressable_relayJobId (externals : Externals) (keyId : KeyId) (source : String)
    (now : UInt64) : Addressable (relayJobId externals keyId source now) := by
  unfold relayJobId
  generalize hdigest : (externals.crypto.sha256
    (keyId.toList ++ utf8 source ++ (u64ToBe now).toList)).toList = digest
  have hlength : digest.length = 32 := by rw [← hdigest, Vector.length_toList]
  have hchar : ∀ char ∈ (hexText digest).take 24, ∃ digit : Fin 16,
      char = Nat.digitChar digit := fun char hmem ↦ mem_hexText (List.mem_of_mem_take hmem)
  have hbytes : ∀ byte ∈ utf8 (String.ofList ((hexText digest).take 24)),
      ((Keys.hexDigit byte).isSome || byte = 45) = true := by
    intro byte hbyte
    rw [utf8_eq_flatMap, String.toList_ofList, List.mem_flatMap] at hbyte
    obtain ⟨char, hmem, hencoded⟩ := hbyte
    obtain ⟨digit, rfl⟩ := hchar char hmem
    exact List.all_eq_true.mp (utf8EncodeChar_digitChar digit).2 byte hencoded
  have hcount : (utf8 (String.ofList ((hexText digest).take 24))).length = 24 :=
    calc (utf8 (String.ofList ((hexText digest).take 24))).length
      _ = (((hexText digest).take 24).map
          fun char ↦ (String.utf8EncodeChar char).length).sum := by
        rw [utf8_eq_flatMap, String.toList_ofList, List.length_flatMap]
      _ = (((hexText digest).take 24).map fun _ ↦ 1).sum := by
        apply congrArg List.sum
        apply List.map_congr_left
        intro char hmem
        obtain ⟨digit, rfl⟩ := hchar char hmem
        exact (utf8EncodeChar_digitChar digit).1
      _ = 24 := by
        simp [hexText, Keys.hexByte, hlength]
  have hnonempty : String.ofList ((hexText digest).take 24) ≠ "" := by
    intro hempty
    rw [hempty] at hcount
    exact absurd hcount (by decide)
  refine ⟨?_, hcount.le.trans (by decide)⟩
  rw [validateJobId, Bool.and_eq_true, decide_eq_true_iff, List.all_eq_true]
  exact ⟨hnonempty, hbytes⟩

namespace Server

variable {server : Server} {keyId : KeyId} {jobId : String} {artifact : RelayArtifact}
  {body : Bytes} {world : World} {store : Store}

/-- An artifact on offer is downloaded. -/
theorem Offers.download (hoffers : server.Offers keyId jobId artifact body world store)
    (hid : validateJobId jobId = true) (offset : UInt32) (maxLen : UInt16) :
    server.download world keyId jobId offset maxLen artifact.selector store =
      (some (chunkOf body offset.toNat (min maxLen.toNat relayMaxDownloadChunk)).encode,
        store) := by
  obtain ⟨bytes, metadata, now, hlookup, hparse, hstatus, hnormalized, hclock, hexpires⟩ :=
    hoffers.record
  have hexists : server.locate (metadataPath (server.clientDir keyId) jobId) ∈ store := by
    rw [← AList.lookup_isSome, hlookup]
    rfl
  have hlive : ¬metadata.expiresAtMs ≤ now := UInt64.not_le.mpr hexpires
  have hselected : ¬(artifact.selector = 1 ∧ metadata.normalizedLen = none) := by
    rintro ⟨hselector, hnone⟩
    cases artifact with
    | primary => exact absurd hselector (by decide)
    | markdown => exact hnormalized rfl hnone
  have hobject : (if artifact.selector = 1 then normalizedObjectPath (server.clientDir keyId) jobId
      else primaryObjectPath (server.clientDir keyId) jobId) =
      objectPath (server.clientDir keyId) jobId artifact := by
    cases artifact <;> rfl
  have hrecord : server.readMetadata world
      (server.locate (metadataPath (server.clientDir keyId) jobId)) store =
        (some metadata, store) := by
    have hread : readFile world.faults
        (server.locate (metadataPath (server.clientDir keyId) jobId)) store =
          (some bytes, store) := by
      rw [readFile, hoffers.readableRecord, if_neg Bool.false_ne_true, hlookup]
    rw [readMetadata, bind_of_some hread, hparse]
    rfl
  have hbody : readFile world.faults
      (server.locate (objectPath (server.clientDir keyId) jobId artifact)) store =
        (some body, store) := by
    rw [readFile, hoffers.readableObject, if_neg Bool.false_ne_true, hoffers.object]
  have hfound : fileExists (server.locate (metadataPath (server.clientDir keyId) jobId)) store =
      (some true, store) := by
    rw [fileExists, decide_eq_true hexists]
  have hnow : ofOption (world.clock 0) store = (some now, store) := by
    rw [hclock]
    rfl
  unfold Server.download
  rw [hid]
  change (fileExists _ >>= _) store = _
  rw [bind_of_some hfound, if_pos rfl, bind_of_some hrecord, bind_of_some hnow, if_neg hlive]
  dsimp only
  rw [hstatus]
  dsimp only
  rw [if_neg hselected, hobject, bind_of_some hbody]
  rfl

/-- The client can ask for the artifact at any offset, and is answered with a chunk. -/
theorem Offers.dispatch (hoffers : server.Offers keyId jobId artifact body world store)
    (hid : Addressable jobId) (offset : UInt32) (maxLen : UInt16) : ∃ request,
      relayDownloadRequest jobId offset maxLen artifact.selector = some request ∧
      server.dispatch world keyId request store =
        (((chunkOf body offset.toNat (min maxLen.toNat relayMaxDownloadChunk)).encode, none),
          store) := by
  have hwithin : (Call.download jobId offset maxLen artifact.selector).WithinLimits := by
    rw [Call.WithinLimits, Call.strings, List.forall_mem_singleton]
    exact hid.2
  have hlength := fitsU16_of_within hwithin
  have hbuild := build_eq (Call.download jobId offset maxLen artifact.selector)
  rw [if_pos hlength] at hbuild
  have hparse := parseRequest_of_within hwithin hlength
  generalize relayRequest _ ++ Call.fields _ = request at hbuild hparse
  have hhandle : server.handle world keyId request store =
      (some ((chunkOf body offset.toNat (min maxLen.toNat relayMaxDownloadChunk)).encode, none),
        store) := by
    unfold Server.handle
    rw [hparse]
    exact bind_of_some (hoffers.download hid.1 offset maxLen) _
  refine ⟨request, hbuild, ?_⟩
  unfold Server.dispatch
  rw [hhandle]

end Server

/-- Every chunk is sent as one frame, whatever length the request asks for. -/
theorem isSome_writeEncryptedFrame_chunkOf (snow : Noise.Snow) (number : ℕ) (body : Bytes)
    (offset maxLen : ℕ) :
    (Noise.writeEncryptedFrame snow number
      (chunkOf body offset (min maxLen relayMaxDownloadChunk)).encode).isSome := by
  rw [Noise.isSome_writeEncryptedFrame, chunkOf]
  generalize hchunk : (body.drop (min offset body.length)).take _ = chunk
  have hlength : chunk.length ≤ relayMaxDownloadChunk := by
    rw [← hchunk, List.length_take]
    omega
  have hlayout := (chunk_layout (lt_of_le_of_lt hlength (by decide))
    (decide (body.length ≤ min body.length (min offset body.length +
      min maxLen relayMaxDownloadChunk))) (UInt32.ofNat body.length)).1
  rw [hlayout]
  exact (Nat.add_le_add_left hlength 12).trans (by decide)

/-! ### The pieces of the artifact -/

/-- The length that the server takes for a chunk. -/
def chunkSize (maxLen : UInt16) : ℕ := min maxLen.toNat relayMaxDownloadChunk

/-- A piece of the artifact. -/
def piece (body : Bytes) (size index : ℕ) : Bytes := (body.drop (index * size)).take size

/-- The number of the last piece; an empty artifact has one, too. -/
def lastPiece (body : Bytes) (size : ℕ) : ℕ := (body.length - 1) / size

section Pieces

variable {body : Bytes} {size index : ℕ}

theorem take_append_piece (body : Bytes) (size index : ℕ) :
    body.take (index * size) ++ piece body size index = body.take ((index + 1) * size) := by
  rw [piece, ← List.take_add, Nat.succ_mul]

theorem flatMap_piece (body : Bytes) (size count : ℕ) :
    (List.range count).flatMap (piece body size) = body.take (count * size) := by
  induction count with
  | zero => simp
  | succ count ih =>
    calc (List.range (count + 1)).flatMap (piece body size)
      _ = (List.range count).flatMap (piece body size) ++ piece body size count := by
        rw [List.range_succ, List.flatMap_append, List.flatMap_singleton]
      _ = body.take (count * size) ++ piece body size count := by rw [ih]
      _ = body.take ((count + 1) * size) := take_append_piece body size count

theorem length_le_of_lastPiece (hsize : 0 < size) :
    body.length ≤ (lastPiece body size + 1) * size := by
  have hlt : lastPiece body size < lastPiece body size + 1 := Nat.lt_succ_self _
  rw [lastPiece, Nat.div_lt_iff_lt_mul hsize] at hlt
  rw [lastPiece]
  omega

/-- A piece before the last one is followed by more bytes. -/
theorem lt_length_of_lt_lastPiece (hsize : 0 < size) (h : index < lastPiece body size) :
    (index + 1) * size < body.length := by
  have hle : index + 1 ≤ lastPiece body size := h
  rw [lastPiece, Nat.le_div_iff_mul_le hsize] at hle
  have hpos : 0 < (index + 1) * size := Nat.mul_pos (Nat.succ_pos index) hsize
  omega

theorem start_le_length (hsize : 0 < size) (h : index ≤ lastPiece body size) :
    index * size ≤ body.length := by
  rw [lastPiece, Nat.le_div_iff_mul_le hsize] at h
  omega

/-- The start of a piece is the offset of a request. -/
theorem toNat_start (hsize : 0 < size) (hbody : body.length < 2 ^ 32)
    (h : index ≤ lastPiece body size) :
    (UInt32.ofNat (index * size)).toNat = index * size :=
  UInt32.toNat_ofNat_of_lt' (lt_of_le_of_lt (start_le_length hsize h) hbody)

theorem take_lastPiece (hsize : 0 < size) :
    body.take ((lastPiece body size + 1) * size) = body :=
  List.take_of_length_le (length_le_of_lastPiece hsize)

theorem length_piece (hsize : 0 < size) (h : index < lastPiece body size) :
    (piece body size index).length = size := by
  have hlt := lt_length_of_lt_lastPiece hsize h
  rw [Nat.succ_mul] at hlt
  rw [piece, List.length_take, List.length_drop]
  omega

/-- From the start of a piece the server sends the piece, and marks the last one. -/
theorem chunkOf_piece (hsize : 0 < size) (h : index ≤ lastPiece body size) :
    chunkOf body (index * size) size =
      .chunk (decide (index = lastPiece body size)) (UInt32.ofNat body.length)
        (piece body size index) := by
  have hstart : min (index * size) body.length = index * size :=
    Nat.min_eq_left (start_le_length hsize h)
  have hmark : body.length ≤ min body.length (index * size + size) ↔
      index = lastPiece body size := by
    rw [le_min_iff, ← Nat.succ_mul]
    constructor
    · intro hle
      by_contra hne
      exact absurd hle.2 (lt_length_of_lt_lastPiece hsize (lt_of_le_of_ne h hne)).not_ge
    · intro heq
      exact ⟨le_rfl, heq ▸ length_le_of_lastPiece hsize⟩
  have hbytes : (body.drop (index * size)).take
      (min body.length (index * size + size) - index * size) = piece body size index := by
    rw [piece, List.take_eq_take_iff, List.length_drop]
    omega
  unfold chunkOf
  simp only [hstart, hbytes, hmark]

end Pieces

/-! ### All rounds -/

/-- The server as the other end of the connections of a client, with the world and the files that
each request meets. -/
def Server.answer (server : Server) (keyId : KeyId) (world : ℕ → World) (store : ℕ → Store)
    (round : ℕ) (request : Bytes) : Option Bytes :=
  some (server.dispatch (world round) keyId request (store round)).1.1

section Rounds

variable {server : Server} {keyId : KeyId} {jobId : String} {artifact : RelayArtifact}
  {body : Bytes} {world : ℕ → World} {store : ℕ → Store} {maxLen : UInt16} {round : ℕ}

theorem chunkSize_pos (hmax : maxLen ≠ 0) : 0 < chunkSize maxLen := by
  have hpos : 0 < maxLen.toNat := UInt16.pos_iff_ne_zero.mpr hmax
  rw [chunkSize, lt_min_iff]
  exact ⟨hpos, by decide⟩

/-- From the start of a piece a round receives the piece. -/
theorem round_receives (hid : Addressable jobId) (hmax : maxLen ≠ 0)
    (hbody : body.length < 2 ^ 32) (hround : round ≤ lastPiece body (chunkSize maxLen))
    (hoffers : server.Offers keyId jobId artifact body (world round) (store round))
    {offset : UInt32} (hoffset : offset.toNat = round * chunkSize maxLen) :
    ∃ request response,
      relayDownloadRequest jobId offset maxLen artifact.selector = some request ∧
      server.answer keyId world store round request = some response ∧
      parseRelayDownloadResponse response =
        .ok (decide (round = lastPiece body (chunkSize maxLen)), UInt32.ofNat body.length,
          piece body (chunkSize maxLen) round) := by
  obtain ⟨request, hrequest, hdispatch⟩ := hoffers.dispatch hid offset maxLen
  have hchunk := chunkOf_piece (chunkSize_pos hmax) hround
  rw [← hoffset, chunkSize] at hchunk
  refine ⟨request, _, hrequest, rfl, ?_⟩
  rw [hdispatch, hchunk]
  apply parseRelayDownloadResponse_chunk
  calc (piece body (chunkSize maxLen) round).length
    _ ≤ (body.drop (round * chunkSize maxLen)).length := List.length_take_le' _ _
    _ ≤ body.length := by rw [List.length_drop]; exact Nat.sub_le _ _
    _ < 2 ^ 32 := hbody

theorem downloadRound_of_receives {exchange : ℕ → Bytes → Option Bytes} {offset : UInt32}
    {received request response : Bytes}
    (hrequest : relayDownloadRequest jobId offset maxLen artifact.selector = some request)
    (hresponse : exchange round request = some response) :
    downloadRound exchange jobId maxLen artifact round offset received =
      receiveChunk offset received response := by
  unfold downloadRound
  rw [hrequest]
  dsimp only
  rw [hresponse]

theorem relayDownload_succ {exchange : ℕ → Bytes → Option Bytes} {offset : UInt32}
    {received : Bytes}
    (h : relayDownload exchange jobId maxLen artifact round = .ok (.more offset received)) :
    relayDownload exchange jobId maxLen artifact (round + 1) =
      downloadRound exchange jobId maxLen artifact round offset received := by
  rw [relayDownload, h]

/-- A piece before the last one is appended, and the loop goes on after it. -/
theorem receiveChunk_more {size : ℕ} (hsize : 0 < size) (hbody : body.length < 2 ^ 32)
    (hround : round < lastPiece body size) {total : UInt32} {response : Bytes}
    (hparse : parseRelayDownloadResponse response = .ok (false, total, piece body size round)) :
    receiveChunk (UInt32.ofNat (round * size)) (body.take (round * size)) response =
      .ok (.more (UInt32.ofNat ((round + 1) * size)) (body.take ((round + 1) * size))) := by
  have hlength := length_piece hsize hround
  have hend : round * size + size < 2 ^ 32 := by
    rw [← Nat.succ_mul]
    exact (lt_length_of_lt_lastPiece hsize hround).trans hbody
  have hoffset := toNat_start hsize hbody hround.le
  have hnext : UInt32.ofNat (round * size) + UInt32.ofNat size =
      UInt32.ofNat ((round + 1) * size) := by
    rw [Nat.succ_mul, UInt32.ofNat_add]
  unfold receiveChunk
  rw [hparse]
  dsimp only
  rw [hlength, hoffset, if_neg (by omega), if_neg (not_le.mpr hend), if_neg Bool.false_ne_true,
    hnext, take_append_piece]

/-- The last piece completes the artifact. -/
theorem receiveChunk_done {size : ℕ} (hsize : 0 < size) (hbody : body.length < 2 ^ 32)
    {total : UInt32} (htotal : total.toNat = body.length) {response : Bytes}
    (hparse : parseRelayDownloadResponse response =
      .ok (true, total, piece body size (lastPiece body size))) :
    receiveChunk (UInt32.ofNat (lastPiece body size * size))
      (body.take (lastPiece body size * size)) response = .ok (.done body) := by
  have hstart := start_le_length hsize (le_refl (lastPiece body size))
  have hend : lastPiece body size * size + (piece body size (lastPiece body size)).length ≤
      body.length := by
    rw [piece, List.length_take, List.length_drop]
    omega
  have hoffset := toNat_start hsize hbody (le_refl (lastPiece body size))
  have hwhole : body.take (lastPiece body size * size) ++ piece body size (lastPiece body size) =
      body := by
    rw [take_append_piece, take_lastPiece hsize]
  unfold receiveChunk
  rw [hparse]
  dsimp only
  rw [hoffset, hwhole, htotal, if_neg (by omega), if_neg (by omega), if_pos rfl,
    if_neg (not_not.mpr rfl)]

/-- Before each piece the loop stands at its start, with all bytes before it. -/
theorem relayDownload_of_le (hid : Addressable jobId) (hmax : maxLen ≠ 0)
    (hbody : body.length < 2 ^ 32)
    (hoffers : ∀ round ≤ lastPiece body (chunkSize maxLen),
      server.Offers keyId jobId artifact body (world round) (store round))
    (hround : round ≤ lastPiece body (chunkSize maxLen)) :
    relayDownload (server.answer keyId world store) jobId maxLen artifact round =
      .ok (.more (UInt32.ofNat (round * chunkSize maxLen))
        (body.take (round * chunkSize maxLen))) := by
  have hsize := chunkSize_pos hmax
  induction round with
  | zero =>
    rw [Nat.zero_mul, List.take_zero]
    rfl
  | succ round ih =>
    have hlt : round < lastPiece body (chunkSize maxLen) := hround
    have hoffset := toNat_start hsize hbody hlt.le
    obtain ⟨request, response, hrequest, hresponse, hparse⟩ :=
      round_receives hid hmax hbody hlt.le (hoffers round hlt.le) hoffset
    rw [decide_eq_false hlt.ne] at hparse
    rw [relayDownload_succ (ih hlt.le), downloadRound_of_receives hrequest hresponse,
      receiveChunk_more hsize hbody hlt hparse]

/-- After the last piece the loop is over. -/
theorem relayDownload_of_lt (hid : Addressable jobId) (hmax : maxLen ≠ 0)
    (hbody : body.length < 2 ^ 32)
    (hoffers : ∀ round ≤ lastPiece body (chunkSize maxLen),
      server.Offers keyId jobId artifact body (world round) (store round))
    (hround : lastPiece body (chunkSize maxLen) < round) :
    relayDownload (server.answer keyId world store) jobId maxLen artifact round =
      .ok (.done body) := by
  have hsize := chunkSize_pos hmax
  induction round with
  | zero => exact absurd hround (Nat.not_lt_zero _)
  | succ round ih =>
    rcases Nat.lt_succ_iff_lt_or_eq.mp hround with hlt | rfl
    · rw [relayDownload, ih hlt]
    · have hoffset := toNat_start hsize hbody (le_refl (lastPiece body (chunkSize maxLen)))
      have htotal : (UInt32.ofNat body.length).toNat = body.length :=
        UInt32.toNat_ofNat_of_lt' hbody
      obtain ⟨request, response, hrequest, hresponse, hparse⟩ :=
        round_receives hid hmax hbody le_rfl (hoffers _ le_rfl) hoffset
      rw [decide_eq_true rfl] at hparse
      rw [relayDownload_succ (relayDownload_of_le hid hmax hbody hoffers le_rfl),
        downloadRound_of_receives hrequest hresponse,
        receiveChunk_done hsize hbody htotal hparse]

/-- The chunks of a download are the successive pieces of the stored artifact, each with its
length, and the last one alone is marked as terminal.  The loop starts every round at the end of
the previous chunk, ends after the last piece, and returns the artifact. -/
theorem download_reassembles (hid : Addressable jobId) (hmax : maxLen ≠ 0)
    (hbody : body.length < 2 ^ 32)
    (hoffers : ∀ round ≤ lastPiece body (chunkSize maxLen),
      server.Offers keyId jobId artifact body (world round) (store round)) :
    let exchange := server.answer keyId world store
    let size := chunkSize maxLen
    let last := lastPiece body size
    (∀ round ≤ last, ∃ offset received request response total,
      relayDownload exchange jobId maxLen artifact round = .ok (.more offset received) ∧
      offset.toNat = round * size ∧ received = (List.range round).flatMap (piece body size) ∧
      relayDownloadRequest jobId offset maxLen artifact.selector = some request ∧
      exchange round request = some response ∧
      parseRelayDownloadResponse response =
        .ok (decide (round = last), total, piece body size round) ∧
      total.toNat = body.length) ∧
    (List.range (last + 1)).flatMap (piece body size) = body ∧
    ∀ rounds, last < rounds →
      relayDownload exchange jobId maxLen artifact rounds = .ok (.done body) := by
  have hsize := chunkSize_pos hmax
  refine ⟨fun round hround ↦ ?_, ?_, fun rounds hrounds ↦ ?_⟩
  · have hoffset := toNat_start hsize hbody hround
    obtain ⟨request, response, hrequest, hresponse, hparse⟩ :=
      round_receives hid hmax hbody hround (hoffers round hround) hoffset
    exact ⟨_, _, request, response, _, relayDownload_of_le hid hmax hbody hoffers hround, hoffset,
      (flatMap_piece body _ round).symm, hrequest, hresponse, hparse,
      UInt32.toNat_ofNat_of_lt' hbody⟩
  · rw [flatMap_piece, take_lastPiece hsize]
  · exact relayDownload_of_lt hid hmax hbody hoffers hrounds

end Rounds

namespace Sample

/-- The record of a stored job, as it is in its file. -/
def finishedText : String := "status = \"complete\"\nbody_len = 2\n"

def downloadServer : Server :=
  { server with
    fromStr := fun bytes ↦
      if bytes = utf8 finishedText then some (finished jobA sourceA .complete) else none }

/-- The files of a stored job. -/
def downloadStore : Store :=
  ((∅ : Store).insert
    (downloadServer.locate (metadataPath (downloadServer.clientDir keyId) jobA.jobId))
    (utf8 finishedText)).insert
    (downloadServer.locate (objectPath (downloadServer.clientDir keyId) jobA.jobId .primary)) body

/-- A download of two bytes, one at a time. -/
theorem download_reassembles_sample :
    relayDownload (downloadServer.answer keyId (fun _ ↦ world) fun _ ↦ downloadStore) jobA.jobId 1
      .primary 2 = .ok (.done body) := by
  have hid : Addressable jobA.jobId := by
    constructor <;> decide +kernel
  have hother : downloadServer.locate (metadataPath (downloadServer.clientDir keyId) jobA.jobId) ≠
      downloadServer.locate (objectPath (downloadServer.clientDir keyId) jobA.jobId .primary) := by
    decide +kernel
  have hoffers : downloadServer.Offers keyId jobA.jobId .primary body world downloadStore := by
    refine ⟨⟨utf8 finishedText, finished jobA sourceA .complete, 1000, ?_, ?_, rfl, ?_, rfl, ?_⟩,
      ?_, rfl, rfl⟩
    · exact (AList.lookup_insert_ne hother).trans (AList.lookup_insert _)
    · simp [downloadServer]
    · exact fun h ↦ nomatch h
    · decide
    · exact AList.lookup_insert _
  exact (download_reassembles hid (by decide) (by decide) fun _ _ ↦ hoffers).2.2 2 (by decide)

end Sample

end Ghostbro.Relay
