import Ghostbro.Relay.Fetch
import Ghostbro.Relay.Packages

/-!
# Package registries

A worker asks the registry of an ecosystem where a package is and which digest it has, and reads
both from the JSON document of the answer.  The url crate, `serde_json` and the base64 decoder are
parameters; the network is any function from a URL to a response.
-/

namespace Ghostbro.Relay

open Text

/-! ### Documents -/

/-- `serde_json::Value`. -/
inductive Json
  | null
  | bool (value : Bool)
  | number (text : String)
  | string (text : String)
  | array (items : List Json)
  | object (fields : List (String × Json))

namespace Json

/-- `Value::get` with a key. -/
def get (key : String) : Json → Option Json
  | object fields => fields.lookup key
  | _ => none

/-- `Value::as_str`. -/
def asStr : Json → Option String
  | string text => some text
  | _ => none

/-- `Value::as_array`. -/
def asArray : Json → Option (List Json)
  | array items => some items
  | _ => none

end Json

/-- What the worker takes from elsewhere to read the answers of registries. -/
structure Registry where
  /-- `Url::parse`. -/
  parseUrl : UrlParser
  /-- `Url::join` on `https://crates.io/`: the URL, and its text. -/
  join : String → Option (Url × String)
  /-- `serde_json::from_slice`. -/
  parseJson : Bytes → Option Json
  /-- The standard base64 decoder. -/
  decodeBase64 : String → Option Bytes
  /-- The texts of the errors of `assert_registry_host`. -/
  errorText : FetchError → String
  /-- `Url::host_str`. -/
  hostText : Host → String

/-- How the network answers a GET request: an error stands for a refused URL or a failed
transfer. -/
abbrev Network := String → Except String HttpResponse

/-- The value, or the text of the error. -/
def context {α : Type} (text : String) : Option α → Except String α
  | some value => .ok value
  | none => .error text

/-- `get_json`. -/
def getJson (registry : Registry) (network : Network) (url : String) : Except String Json := do
  (assertRegistryHost registry.parseUrl url).mapError registry.errorText
  let response ← network url
  if 200 ≤ response.status ∧ response.status < 300 then
    context s!"failed to parse registry JSON {url}" (registry.parseJson response.body)
  else .error s!"registry {url} returned HTTP {response.status}"

/-! ### Resolution -/

/-- `ResolvedPackage`. -/
structure ResolvedPackage where
  url : String
  digest : ExpectedDigest
  deriving DecidableEq

/-- `str::split_whitespace`. -/
def splitWhitespace (text : List Char) : List (List Char) :=
  (text.splitOnP isWhitespace).filter (· ≠ [])

/-- `parse_sri_sha512`. -/
def parseSriSha512 (registry : Registry) (integrity : String) : Option Bytes := do
  let encoded ← (splitWhitespace integrity.toList).findSome? fun token ↦
    if "sha512-".toList.isPrefixOf token then some (token.drop 7) else none
  let decoded ← registry.decodeBase64 (String.ofList encoded)
  if decoded.length = 64 then some decoded else none

/-- The digest that a registry states in hexadecimal, if it states one. -/
def sha256Of (value : Option Json) : ExpectedDigest :=
  match value.bind Json.asStr with
  | some text => .sha256 text
  | none => .none

/-- The document that is asked for. -/
def PackageSpec.metadataUrl (spec : PackageSpec) : String :=
  match spec.ecosystem, spec.version with
  | .pypi, some version => s!"https://pypi.org/pypi/{spec.name}/{version}/json"
  | .pypi, none => s!"https://pypi.org/pypi/{spec.name}/json"
  | .npm, _ => s!"https://registry.npmjs.org/{spec.name}"
  | .crates, version =>
    let version := version.getD ""
    s!"https://crates.io/api/v1/crates/{spec.name}/{version}"

/-- `PackageSpec::resolve_pypi`. -/
def resolvePypi (registry : Registry) (network : Network) (spec : PackageSpec) :
    Except String ResolvedPackage := do
  let json ← getJson registry network spec.metadataUrl
  let urls ← context "pypi response missing urls array" ((json.get "urls").bind Json.asArray)
  let wheel := urls.find? fun entry ↦ (entry.get "packagetype").bind Json.asStr = some "bdist_wheel"
  let chosen ← context "pypi package has no downloadable artifacts" (wheel.or urls.head?)
  let url ← context "pypi artifact missing url" ((chosen.get "url").bind Json.asStr)
  return ⟨url, sha256Of ((chosen.get "digests").bind (Json.get "sha256"))⟩

/-- `PackageSpec::resolve_npm`. -/
def resolveNpm (registry : Registry) (network : Network) (spec : PackageSpec) :
    Except String ResolvedPackage := do
  let json ← getJson registry network spec.metadataUrl
  let latest := ((json.get "dist-tags").bind (Json.get "latest")).bind Json.asStr
  let version ← context "npm package missing dist-tags.latest" (spec.version.or latest)
  let dist ← context s!"npm version {version} not found"
    (((json.get "versions").bind (Json.get version)).bind (Json.get "dist"))
  let tarball ← context "npm dist missing tarball" ((dist.get "tarball").bind Json.asStr)
  let digest := ((dist.get "integrity").bind Json.asStr).bind (parseSriSha512 registry)
  return ⟨tarball, (digest.map ExpectedDigest.sha512).getD .none⟩

/-- The hosts of `crates_download_url`. -/
def cratesHosts : List String := ["crates.io", "static.crates.io"]

/-- `crates_download_url`. -/
def cratesDownloadUrl (registry : Registry) (dlPath : String) : Except String String := do
  let (joined, text) ← context s!"invalid crates dl_path {dlPath}" (registry.join dlPath)
  let host ← context "crates download URL missing host" joined.host
  if registry.hostText host ∈ cratesHosts then return text
  else .error s!"crates dl_path resolved to unexpected host {registry.hostText host}"

/-- `PackageSpec::resolve_crates`. -/
def resolveCrates (registry : Registry) (network : Network) (spec : PackageSpec) :
    Except String ResolvedPackage := do
  let _ ← context "crates packages require a version" spec.version
  let json ← getJson registry network spec.metadataUrl
  let version ← context "crates response missing version object" (json.get "version")
  let dlPath ← context "crates version missing dl_path" ((version.get "dl_path").bind Json.asStr)
  let url ← cratesDownloadUrl registry dlPath
  return ⟨url, sha256Of (version.get "checksum")⟩

/-- `PackageSpec::resolve`. -/
def PackageSpec.resolve (registry : Registry) (network : Network) (spec : PackageSpec) :
    Except String ResolvedPackage :=
  match spec.ecosystem with
  | .pypi => resolvePypi registry network spec
  | .npm => resolveNpm registry network spec
  | .crates => resolveCrates registry network spec

/-- The first half of `run_package`, from the source in the record of the job. -/
def resolveSource (registry : Registry) (network : Network) (source : String) :
    Except String ResolvedPackage := do
  (← PackageSpec.decode source).resolve registry network

end Ghostbro.Relay
