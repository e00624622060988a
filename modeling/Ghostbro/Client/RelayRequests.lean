import Ghostbro.Relay.Confinement

/-!
# Relay requests and responses of the client

The client writes a request as a header and the fields of its operation, and reads the two layouts
of responses: one with a length and a text, and one for downloads, with a flag, a total and a
length.  `RelayCursor` and `relay_bytes_response` are their counterparts in the server.
-/

namespace Ghostbro.Relay

/-! ### Requests -/

/-- `GHOST_RELAY_OP_SUBMIT_WEB`. -/
def ghostRelayOpSubmitWeb : UInt8 := 1

/-- `GHOST_RELAY_OP_LIST`. -/
def ghostRelayOpList : UInt8 := 2

/-- `GHOST_RELAY_OP_DOWNLOAD`. -/
def ghostRelayOpDownload : UInt8 := 3

/-- `GHOST_RELAY_OP_DELETE`. -/
def ghostRelayOpDelete : UInt8 := 4

/-- `GHOST_RELAY_OP_SUBMIT_GIT`. -/
def ghostRelayOpSubmitGit : UInt8 := 5

/-- `GHOST_RELAY_OP_SUBMIT_PACKAGE`. -/
def ghostRelayOpSubmitPackage : UInt8 := 6

/-- `RelayArtifact`. -/
inductive RelayArtifact
  | primary
  | markdown
  deriving DecidableEq

/-- `RelayArtifact::selector`. -/
def RelayArtifact.selector : RelayArtifact → UInt8
  | primary => 0
  | markdown => 1

/-- `relay_request`. -/
def relayRequest (op : UInt8) : Bytes := [protocolGhostRelay, ghostRelayVersion, op]

/-- The length of the string fits a `u16`. -/
def FitsU16 (value : String) : Prop := (utf8 value).length < 2 ^ 16

instance (value : String) : Decidable (FitsU16 value) :=
  inferInstanceAs (Decidable ((utf8 value).length < 2 ^ 16))

/-- `relay_push_string`. -/
def relayPushString (request : Bytes) (value : String) : Option Bytes :=
  if FitsU16 value then some (request ++ beBytes 2 (utf8 value).length ++ utf8 value) else none

/-- The request of `relay_submit_url`. -/
def relaySubmitUrl (url : String) (normalize : Bool) : Option Bytes := do
  let request ← relayPushString (relayRequest ghostRelayOpSubmitWeb) url
  return request ++ [if normalize then 1 else 0]

/-- The request of `relay_submit_git`. -/
def relaySubmitGit (gitUrl : String) : Option Bytes :=
  relayPushString (relayRequest ghostRelayOpSubmitGit) gitUrl

/-- The request of `relay_submit_package`. -/
def relaySubmitPackage (ecosystem name version : String) : Option Bytes := do
  let request ← relayPushString (relayRequest ghostRelayOpSubmitPackage) ecosystem
  let request ← relayPushString request name
  relayPushString request version

/-- The request of `relay_list`. -/
def relayList : Bytes := relayRequest ghostRelayOpList

/-- A request of `relay_download`. -/
def relayDownloadRequest (jobId : String) (offset : UInt32) (maxLen : UInt16) (selector : UInt8) :
    Option Bytes := do
  let request ← relayPushString (relayRequest ghostRelayOpDownload) jobId
  return request ++ beBytes 4 offset.toNat ++ beBytes 2 maxLen.toNat ++ [selector]

/-- The request of `relay_delete`. -/
def relayDelete (jobId : String) : Option Bytes :=
  relayPushString (relayRequest ghostRelayOpDelete) jobId

/-- An operation with the values that its request carries. -/
inductive Call
  | submitWeb (url : String) (normalize : Bool)
  | submitGit (url : String)
  | submitPackage (ecosystem name version : String)
  | list
  | download (jobId : String) (offset : UInt32) (maxLen : UInt16) (selector : UInt8)
  | delete (jobId : String)
  deriving DecidableEq

namespace Call

/-- The request that the client builds. -/
def build : Call → Option Bytes
  | submitWeb url normalize => relaySubmitUrl url normalize
  | submitGit url => relaySubmitGit url
  | submitPackage ecosystem name version => relaySubmitPackage ecosystem name version
  | list => some relayList
  | download jobId offset maxLen selector => relayDownloadRequest jobId offset maxLen selector
  | delete jobId => relayDelete jobId

/-- The operation byte of the request. -/
def operation : Call → UInt8
  | submitWeb _ _ => ghostRelayOpSubmitWeb
  | submitGit _ => ghostRelayOpSubmitGit
  | submitPackage _ _ _ => ghostRelayOpSubmitPackage
  | list => ghostRelayOpList
  | download _ _ _ _ => ghostRelayOpDownload
  | delete _ => ghostRelayOpDelete

/-- The strings of the request, each with the limit that the server sets for it. -/
def strings : Call → List (ℕ × String)
  | submitWeb url _ => [(relayMaxUrlLen, url)]
  | submitGit url => [(relayMaxUrlLen, url)]
  | submitPackage ecosystem name version => [(32, ecosystem), (256, name), (128, version)]
  | list => []
  | download jobId _ _ _ => [(128, jobId)]
  | delete jobId => [(128, jobId)]

/-- Every string is within its limit. -/
def WithinLimits (call : Call) : Prop :=
  ∀ field ∈ call.strings, (utf8 field.2).length ≤ field.1

/-- A string with its length field. -/
def stringField (text : String) : Bytes := beBytes 2 (utf8 text).length ++ utf8 text

/-- The bytes after the header of the request. -/
def fields : Call → Bytes
  | submitWeb url normalize => stringField url ++ [if normalize then 1 else 0]
  | submitGit url => stringField url
  | submitPackage ecosystem name version =>
    stringField ecosystem ++ (stringField name ++ stringField version)
  | list => []
  | download jobId offset maxLen selector =>
    stringField jobId ++ (beBytes 4 offset.toNat ++ (beBytes 2 maxLen.toNat ++ [selector]))
  | delete jobId => stringField jobId

/-- What the server does with the values after it has read them. -/
def toRequest : Call → Except String Request
  | submitWeb url normalize => .ok (.submit (.web url normalize))
  | submitGit url => .ok (.submit (.git url))
  | submitPackage ecosystem name version =>
    (PackageSpec.parse ecosystem name version).map fun spec ↦ .submit (.package spec.encode)
  | list => .ok .list
  | download jobId offset maxLen selector => .ok (.download jobId offset maxLen selector)
  | delete jobId => .ok (.delete jobId)

end Call

/-- The reads of the server for an operation, without what it does with the values. -/
def readCall : UInt8 → Option (Cursor Call)
  | 1 => some do
    let url ← readString relayMaxUrlLen
    let normalize := (← readOptionalU8).getD 0
    return .submitWeb url (normalize ≠ 0)
  | 5 => some do
    return .submitGit (← readString relayMaxUrlLen)
  | 6 => some do
    let ecosystem ← readString 32
    let name ← readString 256
    let version ← readString 128
    return .submitPackage ecosystem name version
  | 2 => some (pure .list)
  | 3 => some do
    let jobId ← readString 128
    let offset ← readU32
    let maxLen ← readU16
    let artifact := (← readOptionalU8).getD 0
    return .download jobId offset maxLen artifact
  | 4 => some do
    return .delete (← readString 128)
  | _ => none

/-- The request that the server makes of the values it has read. -/
def requestOf (cursor : Cursor Call) : Cursor Request := fun fields ↦
  match cursor fields with
  | .error error => .error error
  | .ok (call, rest) => call.toRequest.map fun request ↦ (request, rest)

theorem requestOf_bind {α : Type} (cursor : Cursor α) (next : α → Cursor Call) :
    requestOf (cursor >>= next) = cursor >>= fun value ↦ requestOf (next value) := by
  funext fields
  change requestOf (fun fields ↦ (cursor fields).bind fun read ↦ next read.1 read.2) fields =
    (cursor fields).bind fun read ↦ requestOf (next read.1) read.2
  unfold requestOf
  dsimp only
  cases cursor fields <;> rfl

theorem requestOf_submitPackage (ecosystem name version : String) :
    requestOf (pure (.submitPackage ecosystem name version)) = do
      let spec ← (PackageSpec.parse ecosystem name version : Except String PackageSpec)
      return .submit (.package spec.encode) := by
  funext fields
  change (((PackageSpec.parse ecosystem name version).map fun spec ↦
    Request.submit (.package spec.encode)).map fun request ↦ (request, fields)) = _
  cases hspec : PackageSpec.parse ecosystem name version <;> rfl

/-- The server reads the values of an operation, and then makes a request of them. -/
theorem requestFields_eq (operation : UInt8) :
    requestFields operation = (readCall operation).map requestOf := by
  unfold requestFields
  split
  · simp only [readCall, Option.map_some, requestOf_bind]
    rfl
  · simp only [readCall, Option.map_some, requestOf_bind]
    rfl
  · simp only [readCall, Option.map_some, requestOf_bind, requestOf_submitPackage]
  · simp only [readCall, Option.map_some]
    rfl
  · simp only [readCall, Option.map_some, requestOf_bind]
    rfl
  · simp only [readCall, Option.map_some, requestOf_bind]
    rfl
  · rename_i hweb hgit hpackage hlist hdownload hdelete
    unfold readCall
    split <;> first | rfl | contradiction

/-! ### Reading what was written -/

theorem beNat_beBytes_of_lt {width value : ℕ} (h : value < 256 ^ width) :
    beNat (beBytes width value) = value := by
  rw [beNat_beBytes, Nat.mod_eq_of_lt h]

theorem readExact_append (bytes rest : Bytes) :
    readExact bytes.length (bytes ++ rest) = .ok (bytes, rest) := by
  have hlength : ¬(bytes ++ rest).length < bytes.length := by simp
  rw [readExact, if_neg hlength, List.take_left, List.drop_left]

theorem bind_of_ok {α β : Type} {cursor : Cursor α} {fields rest : Bytes} {value : α}
    (h : cursor fields = .ok (value, rest)) (next : α → Cursor β) :
    (cursor >>= next) fields = next value rest := by
  change (cursor fields).bind (fun read ↦ next read.1 read.2) = _
  rw [h]
  rfl

theorem bind_of_error {α β : Type} {cursor : Cursor α} {fields : Bytes} {error : String}
    (h : cursor fields = .error error) (next : α → Cursor β) :
    (cursor >>= next) fields = .error error := by
  change (cursor fields).bind (fun read ↦ next read.1 read.2) = _
  rw [h]
  rfl

theorem readU16_append {value : ℕ} (h : value < 2 ^ 16) (rest : Bytes) :
    readU16 (beBytes 2 value ++ rest) = .ok (UInt16.ofNat value, rest) := by
  have hread := readExact_append (beBytes 2 value) rest
  rw [length_beBytes] at hread
  rw [readU16, bind_of_ok hread, beNat_beBytes_of_lt h]
  rfl

theorem readU32_append (value : UInt32) (rest : Bytes) :
    readU32 (beBytes 4 value.toNat ++ rest) = .ok (value, rest) := by
  have hread := readExact_append (beBytes 4 value.toNat) rest
  rw [length_beBytes] at hread
  rw [readU32, bind_of_ok hread, beNat_beBytes_of_lt value.toNat_lt, UInt32.ofNat_toNat]
  rfl

theorem fromUTF8_utf8 (text : String) : String.fromUTF8? ⟨(utf8 text).toArray⟩ = some text := by
  have hbytes : (⟨(utf8 text).toArray⟩ : ByteArray) = text.toByteArray := rfl
  rw [hbytes, String.fromUTF8?, dif_pos text.isValidUTF8]
  rfl

/-- A string within the limit is read back. -/
theorem readString_append {maxLen : ℕ} {text : String} (h : (utf8 text).length ≤ maxLen)
    (hlength : FitsU16 text) (rest : Bytes) :
    readString maxLen (Call.stringField text ++ rest) = .ok (text, rest) := by
  have hnat : (UInt16.ofNat (utf8 text).length).toNat = (utf8 text).length :=
    Nat.mod_eq_of_lt hlength
  rw [Call.stringField, List.append_assoc, readString, bind_of_ok (readU16_append hlength _), hnat,
    if_neg (not_lt.mpr h), bind_of_ok (readExact_append _ _), fromUTF8_utf8]
  rfl

/-- A string over the limit is refused after its length field. -/
theorem readString_of_long {maxLen : ℕ} {text : String} (h : maxLen < (utf8 text).length)
    (hlength : FitsU16 text) (rest : Bytes) :
    ∃ error, readString maxLen (Call.stringField text ++ rest) = .error error := by
  have hnat : (UInt16.ofNat (utf8 text).length).toNat = (utf8 text).length :=
    Nat.mod_eq_of_lt hlength
  rw [Call.stringField, List.append_assoc, readString, bind_of_ok (readU16_append hlength _), hnat,
    if_pos h]
  exact ⟨_, rfl⟩

/-- A read returns the value and leaves nothing if the condition holds, and fails otherwise. -/
def Reads {α : Type} (result : Except String (α × Bytes)) (value : α) (condition : Prop) : Prop :=
  (condition → result = .ok (value, [])) ∧ (¬condition → ∃ error, result = .error error)

theorem reads_ok {α : Type} {result : Except String (α × Bytes)} {value : α}
    (h : result = .ok (value, [])) : Reads result value True :=
  ⟨fun _ ↦ h, fun hfalse ↦ absurd trivial hfalse⟩

/-- A string in front of other reads adds its limit to their condition. -/
theorem reads_string {α : Type} {maxLen : ℕ} {text : String} {rest : Bytes}
    {next : String → Cursor α} {value : α} {condition : Prop} (hlength : FitsU16 text)
    (hnext : Reads (next text rest) value condition) :
    Reads ((readString maxLen >>= next) (Call.stringField text ++ rest)) value
      ((utf8 text).length ≤ maxLen ∧ condition) := by
  by_cases hlimit : (utf8 text).length ≤ maxLen
  · rw [bind_of_ok (readString_append hlimit hlength rest)]
    simpa only [hlimit, true_and] using hnext
  · obtain ⟨error, herror⟩ := readString_of_long (not_le.mp hlimit) hlength rest
    exact ⟨fun h ↦ absurd h.1 hlimit, fun _ ↦ ⟨error, bind_of_error herror next⟩⟩

/-- The other reads do not fail after the last string. -/
theorem reads_last_string {α : Type} {maxLen : ℕ} {text : String} {rest : Bytes}
    {next : String → Cursor α} {value : α} (hlength : FitsU16 text)
    (hnext : next text rest = .ok (value, [])) :
    Reads ((readString maxLen >>= next) (Call.stringField text ++ rest)) value
      ((utf8 text).length ≤ maxLen) := by
  have hreads : Reads ((readString maxLen >>= next) (Call.stringField text ++ rest)) value
      ((utf8 text).length ≤ maxLen ∧ True) := reads_string hlength (reads_ok hnext)
  rwa [and_true] at hreads

theorem reads_only_string {α : Type} {maxLen : ℕ} {text : String} {next : String → Cursor α}
    {value : α} (hlength : FitsU16 text) (hnext : next text [] = .ok (value, [])) :
    Reads ((readString maxLen >>= next) (Call.stringField text)) value
      ((utf8 text).length ≤ maxLen) := by
  have hreads : Reads ((readString maxLen >>= next) (Call.stringField text ++ [])) value
      ((utf8 text).length ≤ maxLen) := reads_last_string hlength hnext
  rwa [List.append_nil] at hreads

/-! ### Requests that the server reads -/

/-- The client refuses a request with a string that does not fit its length field, and builds the
header and the fields of all others. -/
theorem build_eq (call : Call) :
    call.build = if ∀ field ∈ call.strings, FitsU16 field.2 then
      some (relayRequest call.operation ++ call.fields)
    else none := by
  have hpush (request : Bytes) (value : String) : relayPushString request value =
      if FitsU16 value then some (request ++ Call.stringField value) else none := by
    rw [relayPushString, Call.stringField, List.append_assoc]
  cases call with
  | submitWeb url normalize =>
    simp only [Call.build, relaySubmitUrl, hpush, Call.strings, List.forall_mem_singleton]
    by_cases hurl : FitsU16 url
    · simp [hurl, Call.operation, Call.fields]
    · simp [hurl]
  | submitGit url =>
    simp only [Call.build, relaySubmitGit, hpush, Call.strings, List.forall_mem_singleton]
    rfl
  | submitPackage ecosystem name version =>
    simp only [Call.build, relaySubmitPackage, hpush, Call.strings, List.forall_mem_cons,
      List.not_mem_nil, false_imp_iff, implies_true, and_true]
    by_cases hecosystem : FitsU16 ecosystem
    · by_cases hname : FitsU16 name
      · by_cases hversion : FitsU16 version
        · simp [hecosystem, hname, hversion, Call.operation, Call.fields]
        · simp [hecosystem, hname, hversion]
      · simp [hecosystem, hname]
    · simp [hecosystem]
  | list => simp [Call.build, Call.strings, relayList, Call.operation, Call.fields]
  | download jobId offset maxLen selector =>
    simp only [Call.build, relayDownloadRequest, hpush, Call.strings, List.forall_mem_singleton]
    by_cases hjobId : FitsU16 jobId
    · simp [hjobId, Call.operation, Call.fields]
    · simp [hjobId]
  | delete jobId =>
    simp only [Call.build, relayDelete, hpush, Call.strings, List.forall_mem_singleton]
    rfl

/-- The reads of the server on the fields of a call return the call and leave nothing, if its
strings are within their limits, and fail otherwise. -/
theorem readCall_fields {call : Call} (hlength : ∀ field ∈ call.strings, FitsU16 field.2) :
    ∃ cursor, readCall call.operation = some cursor ∧
      Reads (cursor call.fields) call call.WithinLimits := by
  cases call with
  | submitWeb url normalize =>
    simp only [Call.WithinLimits, Call.strings, List.forall_mem_singleton] at hlength ⊢
    refine ⟨_, rfl, ?_⟩
    apply reads_last_string hlength
    cases normalize <;> rfl
  | submitGit url =>
    simp only [Call.WithinLimits, Call.strings, List.forall_mem_singleton] at hlength ⊢
    exact ⟨_, rfl, reads_only_string hlength rfl⟩
  | submitPackage ecosystem name version =>
    simp only [Call.WithinLimits, Call.strings, List.forall_mem_cons, List.not_mem_nil,
      false_imp_iff, implies_true, and_true] at hlength ⊢
    obtain ⟨hecosystem, hname, hversion⟩ := hlength
    exact ⟨_, rfl, reads_string hecosystem (reads_string hname (reads_only_string hversion rfl))⟩
  | list =>
    exact ⟨_, rfl, fun _ ↦ rfl, fun h ↦ absurd (by simp [Call.WithinLimits, Call.strings]) h⟩
  | download jobId offset maxLen selector =>
    simp only [Call.WithinLimits, Call.strings, List.forall_mem_singleton] at hlength ⊢
    refine ⟨_, rfl, ?_⟩
    apply reads_last_string hlength
    rw [bind_of_ok (readU32_append offset _), bind_of_ok (readU16_append maxLen.toNat_lt _),
      UInt16.ofNat_toNat]
    rfl
  | delete jobId =>
    simp only [Call.WithinLimits, Call.strings, List.forall_mem_singleton] at hlength ⊢
    exact ⟨_, rfl, reads_only_string hlength rfl⟩

/-- What the dispatch makes of a request with a header for a known operation. -/
theorem parseRequest_of_readCall {operation : UInt8} {cursor : Cursor Call} {fields : Bytes}
    (hcursor : readCall operation = some cursor) :
    parseRequest (relayRequest operation ++ fields) =
      match requestOf cursor fields with
      | .error _ => .error internalError.encode
      | .ok (parsed, _) => .ok parsed := by
  have hfields : requestFields operation = some (requestOf cursor) := by
    rw [requestFields_eq, hcursor, Option.map_some]
  change (if protocolGhostRelay ≠ protocolGhostRelay ∨ ghostRelayVersion ≠ ghostRelayVersion then
    Except.error invalidHeader else _) = _
  rw [if_neg (by simp), hfields]
  rfl

/-- A call within its limits arrives as it was made. -/
theorem parseRequest_of_within {call : Call} (h : call.WithinLimits)
    (hlength : ∀ field ∈ call.strings, FitsU16 field.2) :
    parseRequest (relayRequest call.operation ++ call.fields) =
      call.toRequest.mapError fun _ ↦ internalError.encode := by
  obtain ⟨cursor, hcursor, hreads⟩ := readCall_fields hlength
  rw [parseRequest_of_readCall hcursor, requestOf, hreads.1 h]
  dsimp only
  cases call.toRequest <;> rfl

/-- A call with a string over its limit is answered with an error. -/
theorem parseRequest_of_not_within {call : Call} (h : ¬call.WithinLimits)
    (hlength : ∀ field ∈ call.strings, FitsU16 field.2) :
    parseRequest (relayRequest call.operation ++ call.fields) = .error internalError.encode := by
  obtain ⟨cursor, hcursor, hreads⟩ := readCall_fields hlength
  obtain ⟨error, herror⟩ := hreads.2 h
  rw [parseRequest_of_readCall hcursor, requestOf, herror]

theorem fitsU16_of_within {call : Call} (h : call.WithinLimits) :
    ∀ field ∈ call.strings, FitsU16 field.2 := by
  intro field hfield
  have hlimit : ∀ limit ∈ call.strings.map Prod.fst, limit < 2 ^ 16 := by
    cases call <;> simp [Call.strings, relayMaxUrlLen]
  exact lt_of_le_of_lt (h field hfield) (hlimit _ (List.mem_map_of_mem hfield))

/-! ### Responses -/

/-- The failures of the two response parsers; the texts show bytes as they are or decoded
lossily. -/
inductive RelayError
  /-- "invalid Ghost Relay response". -/
  | invalidResponse (response : Bytes)
  /-- "Ghost Relay request failed", with the text of the server. -/
  | requestFailed (message : Bytes)
  /-- "Ghost Relay request failed", with a status. -/
  | requestStatus (status : UInt8)
  /-- "invalid Ghost Relay response length". -/
  | invalidLength
  /-- "invalid Ghost Relay download response". -/
  | invalidDownloadResponse (response : Bytes)
  /-- "Ghost Relay job is not ready yet (still queued or running)". -/
  | notReady
  /-- "Ghost Relay download failed", with the text of the server. -/
  | downloadFailed (message : Bytes)
  /-- "Ghost Relay download failed", with a status. -/
  | downloadStatus (status : UInt8)
  /-- "truncated Ghost Relay download response". -/
  | truncatedDownload
  /-- "invalid Ghost Relay download length". -/
  | invalidDownloadLength
  deriving DecidableEq

/-- The `u32` at an offset. -/
def u32At (response : Bytes) (offset : ℕ) : UInt32 :=
  UInt32.ofNat (beNat ((response.drop offset).take 4))

/-- `parse_relay_bytes_response`. -/
def parseRelayBytesResponse (response : Bytes) : Except RelayError Bytes :=
  if response.length < 7 ∨ response.getD 0 0 ≠ protocolGhostRelay ∨
      response.getD 1 0 ≠ ghostRelayVersion then
    .error (.invalidResponse response)
  else if response.getD 2 0 ≠ Status.ok.code then
    if 7 ≤ response.length then .error (.requestFailed (response.drop 7))
    else .error (.requestStatus (response.getD 2 0))
  else if response.length ≠ 7 + (u32At response 3).toNat then .error .invalidLength
  else .ok (response.drop 7)

/-- `parse_relay_download_response`: the terminal flag, the total and the chunk. -/
def parseRelayDownloadResponse (response : Bytes) : Except RelayError (Bool × UInt32 × Bytes) :=
  if response.length < 3 ∨ response.getD 0 0 ≠ protocolGhostRelay ∨
      response.getD 1 0 ≠ ghostRelayVersion then
    .error (.invalidDownloadResponse response)
  else if response.getD 2 0 = Status.pending.code then .error .notReady
  else if response.getD 2 0 ≠ Status.ok.code then
    if 7 < response.length then .error (.downloadFailed (response.drop 7))
    else .error (.downloadStatus (response.getD 2 0))
  else if response.length < 12 then .error .truncatedDownload
  else if response.length ≠ 12 + (u32At response 8).toNat then .error .invalidDownloadLength
  else .ok (decide (response.getD 3 0 ≠ 0), u32At response 4, response.drop 12)

theorem u32At_append {front rest : Bytes} {offset : ℕ} (h : front.length = offset)
    (word : UInt32) : u32At (front ++ ((u32ToBe word).toList ++ rest)) offset = word := by
  rw [u32At, ← h, List.drop_left, u32ToBe, toList_beOctets,
    List.take_left' (length_beBytes 4 word.toNat), beNat_beBytes_of_lt word.toNat_lt,
    UInt32.ofNat_toNat]

/-- A response of the first layout has its status, and its text from the eighth byte on. -/
theorem relayBytesResponse_layout {bytes : Bytes} (hbytes : bytes.length < 2 ^ 32)
    (status : UInt8) :
    let response := relayBytesResponse status bytes
    response.length = 7 + bytes.length ∧ response.getD 0 0 = protocolGhostRelay ∧
      response.getD 1 0 = ghostRelayVersion ∧ response.getD 2 0 = status ∧
      (u32At response 3).toNat = bytes.length ∧ response.drop 7 = bytes := by
  have hmin : min bytes.length (2 ^ 32 - 1) = bytes.length := by omega
  have hsplit : relayBytesResponse status bytes = relayHeader status ++
      ((u32ToBe (UInt32.ofNat bytes.length)).toList ++ bytes) := by
    rw [relayBytesResponse, hmin, List.append_assoc]
  have hheader : (relayHeader status).length = 3 := rfl
  have hfront :
      (relayHeader status ++ (u32ToBe (UInt32.ofNat bytes.length)).toList).length = 7 := by
    simp [relayHeader]
  dsimp only
  refine ⟨?_, rfl, rfl, rfl, ?_, ?_⟩
  · rw [hsplit, ← List.append_assoc, List.length_append, hfront]
  · rw [hsplit, u32At_append hheader]
    exact Nat.mod_eq_of_lt hbytes
  · rw [hsplit, ← List.append_assoc, List.drop_left' hfront]

/-- A chunk has its flag, its total and its bytes where the client looks for them. -/
theorem chunk_layout {body : Bytes} (hbody : body.length < 2 ^ 32) (terminal : Bool)
    (total : UInt32) :
    let response := (Reply.chunk terminal total body).encode
    response.length = 12 + body.length ∧ response.getD 0 0 = protocolGhostRelay ∧
      response.getD 1 0 = ghostRelayVersion ∧ response.getD 2 0 = Status.ok.code ∧
      response.getD 3 0 = (if terminal then 1 else 0) ∧ u32At response 4 = total ∧
      (u32At response 8).toNat = body.length ∧ response.drop 12 = body := by
  have hflag : (relayHeader Status.ok.code ++ [if terminal then (1 : UInt8) else 0]).length = 4 :=
    rfl
  have htotal : (relayHeader Status.ok.code ++ [if terminal then (1 : UInt8) else 0] ++
      (u32ToBe total).toList).length = 8 := by simp [relayHeader]
  have hfront : (relayHeader Status.ok.code ++ [if terminal then (1 : UInt8) else 0] ++
      (u32ToBe total).toList ++ (u32ToBe (UInt32.ofNat body.length)).toList).length = 12 := by
    simp [relayHeader]
  dsimp only [Reply.encode]
  refine ⟨?_, rfl, rfl, rfl, rfl, ?_, ?_, ?_⟩
  · rw [List.length_append, hfront]
  · rw [List.append_assoc, List.append_assoc, u32At_append hflag]
  · rw [List.append_assoc, u32At_append htotal]
    exact Nat.mod_eq_of_lt hbody
  · rw [List.drop_left' hfront]

/-- The first parser returns the text of a response with status OK, and fails on all others. -/
theorem parseRelayBytesResponse_encoded {bytes : Bytes} (hbytes : bytes.length < 2 ^ 32)
    (status : UInt8) :
    parseRelayBytesResponse (relayBytesResponse status bytes) =
      if status = Status.ok.code then .ok bytes else .error (.requestFailed bytes) := by
  obtain ⟨hlength, hprotocol, hversion, hstatus, hlen, hdrop⟩ :=
    relayBytesResponse_layout hbytes status
  unfold parseRelayBytesResponse
  rw [hprotocol, hversion, hstatus, hlen, hdrop, hlength, if_neg (by simp),
    if_pos (Nat.le_add_right 7 _), if_neg (not_not.mpr rfl)]
  by_cases hok : status = Status.ok.code
  · rw [if_pos hok, if_neg (not_not.mpr hok)]
  · rw [if_neg hok, if_pos hok]

/-- The second parser fails on every response of the first layout without status OK. -/
theorem parseRelayDownloadResponse_status {bytes : Bytes} (hbytes : bytes.length < 2 ^ 32)
    {status : UInt8} (hstatus : status ≠ Status.ok.code) :
    ∃ error, parseRelayDownloadResponse (relayBytesResponse status bytes) = .error error := by
  obtain ⟨hlength, hprotocol, hversion, hcode, -, hdrop⟩ := relayBytesResponse_layout hbytes status
  unfold parseRelayDownloadResponse
  rw [hprotocol, hversion, hcode, hlength, if_neg (by simp; omega)]
  split_ifs
  · exact ⟨_, rfl⟩
  · exact ⟨_, rfl⟩
  · exact ⟨_, rfl⟩

/-- The second parser returns what a chunk was made of. -/
theorem parseRelayDownloadResponse_chunk {body : Bytes} (hbody : body.length < 2 ^ 32)
    (terminal : Bool) (total : UInt32) :
    parseRelayDownloadResponse (Reply.chunk terminal total body).encode =
      .ok (terminal, total, body) := by
  obtain ⟨hlength, hprotocol, hversion, hcode, hflag, htotal, hlen, hdrop⟩ :=
    chunk_layout hbody terminal total
  unfold parseRelayDownloadResponse
  rw [hprotocol, hversion, hcode, hflag, htotal, hlen, hdrop, hlength, if_neg (by simp; omega),
    if_neg (by decide), if_neg (not_not.mpr rfl), if_neg (by omega), if_neg (not_not.mpr rfl)]
  cases terminal <;> rfl

/-! ### Agreement -/

/-- A request that the dispatch refuses leaves the files alone and submits nothing. -/
theorem dispatch_of_refused {server : Server} {world : World} {keyId : KeyId} {request : Bytes}
    {store : Disk.Store} {response : Bytes} (h : parseRequest request = .error response) :
    server.dispatch world keyId request store = ((response, none), store) := by
  unfold Server.dispatch Server.handle
  rw [h]
  rfl

/-- Client and server agree on the wire: the server reads from the request of every call within
the limits the operation and the values it was built from; a string over its limit is refused by
the client or answered with an error that leaves the files alone; and the parsers of the client
return the parts of every response with status OK and fail on every other status. -/
theorem relay_wire_agreement :
    (∀ call : Call, call.WithinLimits → ∃ fields cursor,
      call.build = some ([protocolGhostRelay, ghostRelayVersion, call.operation] ++ fields) ∧
      readCall call.operation = some cursor ∧ cursor fields = .ok (call, []) ∧
      parseRequest ([protocolGhostRelay, ghostRelayVersion, call.operation] ++ fields) =
        call.toRequest.mapError fun _ ↦ internalError.encode) ∧
    (∀ call : Call, ¬call.WithinLimits → ∀ request, call.build = some request →
      ∀ (server : Server) world keyId store,
        server.dispatch world keyId request store = ((internalError.encode, none), store)) ∧
    (∀ status bytes, bytes.length < 2 ^ 32 →
      (status = Status.ok.code →
        parseRelayBytesResponse (relayBytesResponse status bytes) = .ok bytes) ∧
      (status ≠ Status.ok.code →
        (∃ error, parseRelayBytesResponse (relayBytesResponse status bytes) = .error error) ∧
        ∃ error, parseRelayDownloadResponse (relayBytesResponse status bytes) = .error error)) ∧
    (∀ terminal total body, body.length < 2 ^ 32 →
      parseRelayDownloadResponse (Reply.chunk terminal total body).encode =
        .ok (terminal, total, body)) := by
  refine ⟨fun call h ↦ ?_, fun call h request hrequest server world keyId store ↦ ?_,
    fun status bytes hbytes ↦ ⟨fun hok ↦ ?_, fun hstatus ↦ ⟨?_, ?_⟩⟩,
    fun terminal total body hbody ↦ parseRelayDownloadResponse_chunk hbody terminal total⟩
  · have hlength := fitsU16_of_within h
    obtain ⟨cursor, hcursor, hreads⟩ := readCall_fields hlength
    refine ⟨call.fields, cursor, ?_, hcursor, hreads.1 h, parseRequest_of_within h hlength⟩
    rw [build_eq, if_pos hlength]
    rfl
  · rw [build_eq] at hrequest
    split_ifs at hrequest with hlength
    rw [← Option.some.inj hrequest]
    exact dispatch_of_refused (parseRequest_of_not_within h hlength)
  · rw [parseRelayBytesResponse_encoded hbytes, if_pos hok]
  · rw [parseRelayBytesResponse_encoded hbytes, if_neg hstatus]
    exact ⟨_, rfl⟩
  · exact parseRelayDownloadResponse_status hbytes hstatus

/-- A submission within the limits, and the response to it. -/
theorem relay_wire_agreement_sample :
    (∃ fields cursor, (Call.submitWeb "http://example.com/" true).build =
        some ([protocolGhostRelay, ghostRelayVersion, 1] ++ fields) ∧
      readCall 1 = some cursor ∧
      cursor fields = .ok (.submitWeb "http://example.com/" true, [])) ∧
    parseRelayBytesResponse (relayBytesResponse 0 [0x61, 0x62]) = .ok [0x61, 0x62] := by
  obtain ⟨hcalls, -, hresponses, -⟩ := relay_wire_agreement
  have hwithin : (Call.submitWeb "http://example.com/" true).WithinLimits := by
    rw [Call.WithinLimits, Call.strings, List.forall_mem_singleton]
    decide +kernel
  obtain ⟨fields, cursor, hbuild, hread, hcursor, -⟩ := hcalls _ hwithin
  exact ⟨⟨fields, cursor, hbuild, hread, hcursor⟩, (hresponses 0 [0x61, 0x62] (by decide)).1 rfl⟩

end Ghostbro.Relay
