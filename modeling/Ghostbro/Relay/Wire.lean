import Mathlib.Data.List.Sort
import Mathlib.Data.String.Basic
import Ghostbro.Relay.Engine

/-!
# Relay requests and responses on the wire

A request is a header of three bytes and the fields of its operation, which `RelayCursor` reads
one after the other.  A response is a header, a length and a text, except for a download, which
carries its own lengths.
-/

namespace Ghostbro.Relay

/-! ### Responses -/

/-- `PROTOCOL_GHOST_RELAY`. -/
def protocolGhostRelay : UInt8 := 0x47

/-- `GHOST_RELAY_VERSION`. -/
def ghostRelayVersion : UInt8 := 1

/-- The `GHOST_RELAY_STATUS_*` of a reply. -/
def Status.code : Status → UInt8
  | ok => 0
  | pending => 1
  | notFound => 2
  | failed => 4
  | quota => 6

/-- `GHOST_RELAY_STATUS_INVALID`. -/
def ghostRelayStatusInvalid : UInt8 := 3

/-- `GHOST_RELAY_STATUS_UNSUPPORTED`. -/
def ghostRelayStatusUnsupported : UInt8 := 0x7f

/-- `relay_header`. -/
def relayHeader (status : UInt8) : Bytes := [protocolGhostRelay, ghostRelayVersion, status]

/-- `relay_bytes_response`, and `relay_status_response`. -/
def relayBytesResponse (status : UInt8) (bytes : Bytes) : Bytes :=
  relayHeader status ++ (u32ToBe (UInt32.ofNat (min bytes.length (2 ^ 32 - 1)))).toList ++ bytes

/-- The `kind` strings. -/
def JobKind.text : JobKind → String
  | webFetch => "web_fetch"
  | gitMirror => "git_mirror"
  | package => "package"

/-- The `JOB_STATUS_*` strings. -/
def JobStatus.text : JobStatus → String
  | queued => "queued"
  | running => "running"
  | complete => "complete"
  | failed => "failed"

/-- One line of a list response. -/
def JobRow.text (row : JobRow) : String :=
  String.intercalate "\t" [row.jobId, row.kind.text, row.status.text, toString row.httpStatus,
    toString row.bodyLen, if row.normalized then "1" else "0", row.source]

/-- The lines of a list response, sorted and joined. -/
def rowsText (rows : List JobRow) : String :=
  String.intercalate "\n" ((rows.map JobRow.text).mergeSort fun line line' ↦ decide (line ≤ line'))

/-- The text of a list response does not depend on the order in which the records were read. -/
theorem rowsText_perm {rows rows' : List JobRow} (h : rows.Perm rows') :
    rowsText rows = rowsText rows' := by
  have hsorted (lines : List String) :
      (lines.mergeSort fun line line' ↦ decide (line ≤ line')).Pairwise (· ≤ ·) := by
    have hpairwise : (lines.mergeSort fun line line' ↦ decide (line ≤ line')).Pairwise
        fun line line' ↦ decide (line ≤ line') = true :=
      List.pairwise_mergeSort (fun _ _ _ ↦ by simpa using le_trans)
        (fun line line' ↦ by simpa using le_total line line') lines
    simpa using hpairwise
  have hperm : ((rows.map JobRow.text).mergeSort fun line line' ↦ decide (line ≤ line')).Perm
      ((rows'.map JobRow.text).mergeSort fun line line' ↦ decide (line ≤ line')) :=
    (List.mergeSort_perm _ _).trans ((h.map JobRow.text).trans (List.mergeSort_perm _ _).symm)
  unfold rowsText
  rw [hperm.eq_of_pairwise' (hsorted _) (hsorted _)]

/-- The bytes of a response. -/
def Reply.encode : Reply → Bytes
  | message status text => relayBytesResponse status.code (utf8 text)
  | accepted jobId => relayBytesResponse Status.ok.code (utf8 jobId)
  | .rows lines => relayBytesResponse Status.ok.code (utf8 (rowsText lines))
  | chunk terminal total body =>
    relayHeader Status.ok.code ++ [if terminal then 1 else 0] ++ (u32ToBe total).toList ++
      (u32ToBe (UInt32.ofNat body.length)).toList ++ body

theorem encode_rows_perm {rows rows' : List JobRow} (h : rows.Perm rows') :
    (Reply.rows rows).encode = (Reply.rows rows').encode := by
  simp only [Reply.encode, rowsText_perm h]

/-- The answer to a request without a relay header. -/
def invalidHeader : Bytes :=
  relayBytesResponse ghostRelayStatusInvalid (utf8 "invalid relay header")

/-- The answer to a request for an unknown operation. -/
def unsupportedOperation : Bytes :=
  relayBytesResponse ghostRelayStatusUnsupported (utf8 "unsupported relay operation")

/-! ### Packages -/

/-- `Ecosystem`. -/
inductive Ecosystem
  | pypi
  | npm
  | crates
  deriving DecidableEq

/-- `PackageSpec`. -/
structure PackageSpec where
  ecosystem : Ecosystem
  name : String
  version : Option String
  deriving DecidableEq

/-- `char::is_whitespace`. -/
def isWhitespace (symbol : Char) : Bool :=
  let code := symbol.toNat
  9 ≤ code && code ≤ 13 || code = 0x20 || code = 0x85 || code = 0xA0 || code = 0x1680 ||
    0x2000 ≤ code && code ≤ 0x200A || code = 0x2028 || code = 0x2029 || code = 0x202F ||
    code = 0x205F || code = 0x3000

/-- `non_empty`. -/
def nonEmpty (text : String) : Option String :=
  let trimmed := ((text.toList.dropWhile isWhitespace).reverse.dropWhile isWhitespace).reverse
  if trimmed = [] then none else some (String.ofList trimmed)

/-- `u8::is_ascii_alphanumeric`. -/
def isAsciiAlphanumeric (byte : UInt8) : Bool :=
  48 ≤ byte && byte ≤ 57 || 65 ≤ byte && byte ≤ 90 || 97 ≤ byte && byte ≤ 122

/-- `validate_package_name`. -/
def validatePackageName (name : String) : Except String Unit :=
  let bytes := utf8 name
  if bytes = [] ∨ 256 < bytes.length then .error "invalid package name length"
  else if occursIn (utf8 "..") bytes then .error "package name may not contain '..'"
  else if bytes.all fun byte ↦ isAsciiAlphanumeric byte || byte ∈ utf8 "-_./@" then .ok ()
  else .error "package name contains disallowed characters"

/-- `validate_package_version`. -/
def validatePackageVersion (version : String) : Except String Unit :=
  let bytes := utf8 version
  if 128 < bytes.length then .error "invalid package version length"
  else if bytes.all fun byte ↦ isAsciiAlphanumeric byte || byte ∈ utf8 "-_.+" then .ok ()
  else .error "package version contains disallowed characters"

/-- The ecosystem that `PackageSpec::parse` reads off a name. -/
def Ecosystem.parse (text : String) : Except String Ecosystem :=
  match String.ofList (text.toList.map Char.toLower) with
  | "pypi" | "pip" => .ok .pypi
  | "npm" => .ok .npm
  | "crates" | "cargo" => .ok .crates
  | other => .error s!"unsupported package ecosystem {other}"

/-- `PackageSpec::parse`. -/
def PackageSpec.parse (ecosystem name version : String) : Except String PackageSpec := do
  let ecosystem ← Ecosystem.parse ecosystem
  validatePackageName name
  match nonEmpty version with
  | some version =>
    validatePackageVersion version
    return ⟨ecosystem, name, some version⟩
  | none =>
    if ecosystem = .crates then .error "crates packages require an explicit version"
    else return ⟨ecosystem, name, none⟩

/-- The ecosystem in a stored spec. -/
def Ecosystem.text : Ecosystem → String
  | pypi => "pypi"
  | npm => "npm"
  | crates => "crates"

/-- `PackageSpec::encode`. -/
def PackageSpec.encode (spec : PackageSpec) : String :=
  match spec.version with
  | some version => spec.ecosystem.text ++ ":" ++ spec.name ++ "@" ++ version
  | none => spec.ecosystem.text ++ ":" ++ spec.name

/-! ### Requests -/

/-- A read of `RelayCursor`, on the bytes that are left. -/
abbrev Cursor := StateT Bytes (Except String)

/-- `RelayCursor::read_exact`. -/
def readExact (len : ℕ) : Cursor Bytes := fun rest ↦
  if rest.length < len then .error "truncated relay request"
  else .ok (rest.take len, rest.drop len)

/-- `RelayCursor::read_u16`. -/
def readU16 : Cursor UInt16 := do
  return UInt16.ofNat (beNat (← readExact 2))

/-- `RelayCursor::read_u32`. -/
def readU32 : Cursor UInt32 := do
  return UInt32.ofNat (beNat (← readExact 4))

/-- `RelayCursor::read_optional_u8`. -/
def readOptionalU8 : Cursor (Option UInt8) := fun rest ↦ .ok (rest.head?, rest.tail)

/-- `RelayCursor::read_string`. -/
def readString (maxLen : ℕ) : Cursor String := do
  let len := (← readU16).toNat
  if maxLen < len then
    throw s!"relay field length {len} exceeds maximum {maxLen}"
  else
    match String.fromUTF8? ⟨(← readExact len).toArray⟩ with
    | some text => return text
    | none => throw "relay field is not valid UTF-8"

/-- `RELAY_MAX_URL_LEN`. -/
def relayMaxUrlLen : ℕ := 2048

/-- The fields of a request, by its operation; the urls of a submission are not validated yet. -/
def requestFields : UInt8 → Option (Cursor Request)
  | 1 => some do
    let url ← readString relayMaxUrlLen
    let normalize := (← readOptionalU8).getD 0
    return .submit (.web url (normalize ≠ 0))
  | 5 => some do
    return .submit (.git (← readString relayMaxUrlLen))
  | 6 => some do
    let ecosystem ← readString 32
    let name ← readString 256
    let version ← readString 128
    let spec ← (PackageSpec.parse ecosystem name version : Except String PackageSpec)
    return .submit (.package spec.encode)
  | 2 => some (pure .list)
  | 3 => some do
    let jobId ← readString 128
    let offset ← readU32
    let maxLen ← readU16
    let artifact := (← readOptionalU8).getD 0
    return .download jobId offset maxLen artifact
  | 4 => some do
    return .delete (← readString 128)
  | _ => none

/-- What a request asks for, or the answer to a request that asks for nothing. -/
def parseRequest (request : Bytes) : Except Bytes Request :=
  match request with
  | protocol :: version :: operation :: fields =>
    if protocol ≠ protocolGhostRelay ∨ version ≠ ghostRelayVersion then .error invalidHeader
    else match requestFields operation with
      | none => .error unsupportedOperation
      | some cursor =>
        match cursor fields with
        | .error _ => .error internalError.encode
        | .ok (parsed, _) => .ok parsed
  | _ => .error invalidHeader

end Ghostbro.Relay
