import Ghostbro.Client.Endpoints
import Ghostbro.Foundation.Links
import Ghostbro.Foundation.StableSort

/-!
# Enrolling a server

`enroll` checks a server key and a socket address and writes a configuration with one server; a
connection reads it back.  The address of the server is stored as it was given, but the address for
the SPA packets is printed without its port, and the port is put behind it with a colon when the
file is read.  For an IPv6 address that is no socket address, and the configuration does not
resolve.

The `toml` crate and the base64 decoder are parameters.
-/

namespace Ghostbro.Enrollment

open Relay (isWhitespace utf8)
open Disk Disk.FileM Endpoints

/-! ### The configuration -/

/-- `SpaTransport`. -/
inductive SpaTransport
  | udp
  | https
  deriving DecidableEq

/-- `ServerConfigEntry`. -/
structure ServerConfigEntry where
  endpoint : String
  spaEndpoint : String
  spaMode : SpaTransport
  spaPort : UInt16
  serverPublicKey : String
  priority : Option UInt32
  deriving DecidableEq

/-- `FailoverConfig`. -/
structure FailoverConfig where
  strategy : String
  retryIntervalMs : UInt64
  maxRetries : UInt32
  deriving DecidableEq

/-- `ClientConfig`. -/
structure ClientConfig where
  servers : List ServerConfigEntry
  failover : Option FailoverConfig
  deriving DecidableEq

/-- `FailoverStrategy`. -/
inductive FailoverStrategy
  | priority
  | random
  | latency
  deriving DecidableEq

/-- `FailoverStrategy::parse`. -/
def FailoverStrategy.parse (value : String) : Option FailoverStrategy :=
  match String.ofList (value.toList.map Char.toLower) with
  | "priority" => some .priority
  | "random" => some .random
  | "latency" => some .latency
  | _ => none

/-- `FailoverPolicy`, with the interval in milliseconds. -/
structure FailoverPolicy where
  strategy : FailoverStrategy
  retryInterval : ℕ
  maxRetries : UInt32
  deriving DecidableEq

/-- `FailoverPolicy::from_config`.  Without a section there is one pass in the order of priority. -/
def FailoverPolicy.fromConfig (config : ClientConfig) : Option FailoverPolicy :=
  match config.failover with
  | none => some ⟨.priority, 0, 0⟩
  | some failover => do
    let strategy ← FailoverStrategy.parse failover.strategy
    some ⟨strategy, failover.retryIntervalMs.toNat, failover.maxRetries⟩

/-- The key by which servers are sorted: their priority, or `u32::MAX` without one. -/
def priorityKey (server : ServerConfigEntry) : ℕ := (server.priority.getD 4294967295).toNat

def orderedServers (config : ClientConfig) : Option (List ServerConfigEntry) :=
  if config.servers = [] then none else some (sortByKey priorityKey config.servers)

/-- The `toml` crate on client configurations. -/
structure ClientToml where
  toStringPretty : ClientConfig → Option String
  fromStr : String → Option ClientConfig
  fromStr_toStringPretty : ∀ {config text},
    toStringPretty config = some text → fromStr text = some config

/-! ### Writing a configuration -/

variable (faults : Faults) (toml : ClientToml) (decode : String → Option Bytes) (current : Location)

/-- `decode_noise_public_key`. -/
def decodeNoisePublicKey (encoded : String) : Option Bytes := do
  let key ← decode (String.ofList (Text.trim isWhitespace encoded.toList))
  if key.length ≠ 32 then none else some key

/-- The name of a component. -/
def componentName : Links.Component → String
  | .rootDir => ""
  | .curDir => "."
  | .parentDir => ".."
  | .normal part => part

/-- The location of the parent of a path, if it has one with a name. -/
def parentLocation (path : String) : Option Location :=
  let parts := Links.pathComponents path
  if parts.length ≤ 1 then none
  else some ((parts.dropLast.map componentName).foldl enter
    (if Links.isAbsolute path then [] else current))

/-- Create the directory that a file is written to. -/
def createParent (path : String) : FileM Unit :=
  match parentLocation current path with
  | none => pure ()
  | some parent => createDirAll faults parent

/-- What `enroll` writes for a server. -/
def enrolledServer (serverKey endpoint : String) (proxyEndpoint : SocketAddr)
    (spaMode : SpaTransport) (spaPort : UInt16) : ServerConfigEntry where
  endpoint := endpoint
  spaEndpoint := String.ofList (ipText proxyEndpoint.ip)
  spaMode := spaMode
  spaPort := spaPort
  serverPublicKey := serverKey
  priority := some 1

def enrolledFailover : FailoverConfig where
  strategy := "priority"
  retryIntervalMs := 5000
  maxRetries := 3

def enroll (serverKey endpoint : String) (spaMode : SpaTransport) (spaPort : UInt16)
    (output : String) : FileM Unit := do
  let _ ← ofOption (decodeNoisePublicKey decode serverKey)
  let proxyEndpoint ← ofOption (parseSocketAddr endpoint.toList)
  let server := enrolledServer serverKey endpoint proxyEndpoint spaMode spaPort
  let contents ← ofOption (toml.toStringPretty ⟨[server], some enrolledFailover⟩)
  createParent faults current output
  writeFile faults (resolve current output) (utf8 contents)

/-! ### Reading it back -/

/-- `fs::read_to_string`. -/
def readToString (path : String) : FileM String := do
  let bytes ← readFile faults (resolve current path)
  ofOption (String.fromUTF8? ⟨bytes.toArray⟩)

/-- `load_client_config`. -/
def loadClientConfig (path : String) : FileM ClientConfig := do
  let contents ← readToString faults current path
  ofOption (toml.fromStr contents)

/-- `parse_spa_endpoint`. -/
def parseSpaEndpoint (host : String) (port : UInt16) : Option SocketAddr :=
  match parseSocketAddr host.toList with
  | some addr => some addr
  | none => parseSocketAddr (host.toList ++ ':' :: portText port)

/-- `https_spa_url_for`. -/
def httpsSpaUrlFor (server : ServerConfigEntry) : SpaTransport → Option String
  | .udp => none
  | .https => some (String.ofList ("https://".toList ++ server.spaEndpoint.toList ++
      ':' :: portText server.spaPort ++ "/api/v1/telemetry".toList))

/-- `ResolvedConnectConfig`. -/
structure ResolvedConnectConfig where
  serverPublicKey : Bytes
  spaEndpoint : SocketAddr
  proxyEndpoint : SocketAddr
  spaMode : SpaTransport
  httpsSpaUrl : Option String
  deriving DecidableEq

/-- One server of a configuration. -/
def resolveServer (spaModeOverride : Option SpaTransport) (httpsSpaUrlOverride : Option String)
    (server : ServerConfigEntry) : Option ResolvedConnectConfig := do
  let proxyEndpoint ← parseSocketAddr server.endpoint.toList
  let spaEndpoint ← parseSpaEndpoint server.spaEndpoint server.spaPort
  let spaMode := spaModeOverride.getD server.spaMode
  let httpsSpaUrl := httpsSpaUrlOverride <|> httpsSpaUrlFor server spaMode
  let serverPublicKey ← decodeNoisePublicKey decode server.serverPublicKey
  some ⟨serverPublicKey, spaEndpoint, proxyEndpoint, spaMode, httpsSpaUrl⟩

/-- `read_noise_public_key`. -/
def readNoisePublicKey (path : String) : FileM Bytes := do
  let encoded ← readToString faults current path
  ofOption (decodeNoisePublicKey decode
    (String.ofList (Text.trim isWhitespace encoded.toList)))

def resolveConnectConfigs (configPath serverKey : Option String)
    (spaEndpoint proxyEndpoint : Option SocketAddr) (spaModeOverride : Option SpaTransport)
    (httpsSpaUrlOverride : Option String) :
    FileM (List ResolvedConnectConfig × FailoverPolicy) :=
  match configPath with
  | some configPath => do
    let config ← loadClientConfig faults toml current configPath
    let policy ← ofOption (FailoverPolicy.fromConfig config)
    let servers ← ofOption (orderedServers config)
    let resolved ← ofOption
      (servers.mapM (resolveServer decode spaModeOverride httpsSpaUrlOverride))
    pure (resolved, policy)
  | none => do
    let serverKey ← ofOption serverKey
    let spaEndpoint ← ofOption spaEndpoint
    let proxyEndpoint ← ofOption proxyEndpoint
    let spaMode := spaModeOverride.getD .udp
    let serverPublicKey ← readNoisePublicKey faults decode current serverKey
    pure ([⟨serverPublicKey, spaEndpoint, proxyEndpoint, spaMode, httpsSpaUrlOverride⟩],
      ⟨.priority, 0, 0⟩)

/-! ### What was enrolled -/

/-- The address that a URL denotes, if its host is an address and its port is written. -/
def urlSocketAddr (url : String) : Option SocketAddr :=
  if "https://".toList.isPrefixOf url.toList then
    parseSocketAddr ((url.toList.drop "https://".length).takeWhile (· ≠ '/'))
  else none

/-- The candidate is the server that was enrolled. -/
structure Matches (address : SocketAddr) (key : Bytes) (spaMode : SpaTransport) (spaPort : UInt16)
    (candidate : ResolvedConnectConfig) : Prop where
  proxyEndpoint : candidate.proxyEndpoint = address
  spaEndpoint : candidate.spaEndpoint.ip = address.ip ∧ candidate.spaEndpoint.port = spaPort
  httpsSpaUrl : spaMode = .https → ∃ url addr, candidate.httpsSpaUrl = some url ∧
    urlSocketAddr url = some addr ∧ addr.ip = address.ip ∧ addr.port = spaPort
  spaMode : candidate.spaMode = spaMode
  serverPublicKey : candidate.serverPublicKey = key

variable {faults toml decode current} {serverKey endpoint output contents : String}
  {spaMode : SpaTransport} {spaPort : UInt16} {store after : Store}

theorem of_enroll (h : enroll faults toml decode current serverKey endpoint spaMode spaPort output
      store = (some (), after)) :
    ∃ key address contents, decodeNoisePublicKey decode serverKey = some key ∧
      parseSocketAddr endpoint.toList = some address ∧
      toml.toStringPretty ⟨[enrolledServer serverKey endpoint address spaMode spaPort],
        some enrolledFailover⟩ = some contents ∧
      after.lookup (resolve current output) = some (utf8 contents) := by
  simp only [enroll, bind_eq_some_iff, ofOption_eq_some_iff] at h
  obtain ⟨key, -, ⟨hkey, rfl⟩, address, -, ⟨haddress, rfl⟩, contents, -, ⟨hcontents, rfl⟩, -,
    middle, -, hwrite⟩ := h
  refine ⟨key, address, contents, hkey, haddress, hcontents, ?_⟩
  unfold writeFile at hwrite
  split at hwrite
  · simp at hwrite
  · rw [← (Prod.mk.inj hwrite).2]
    exact AList.lookup_insert _

theorem fromUTF8?_utf8 (text : String) : String.fromUTF8? ⟨(utf8 text).toArray⟩ = some text := by
  have hbytes : (⟨(utf8 text).toArray⟩ : ByteArray) = text.toByteArray := by simp [utf8]
  rw [hbytes, String.fromUTF8?, dif_pos text.isValidUTF8]
  rfl

theorem fromConfig_enrolledFailover (servers : List ServerConfigEntry) :
    FailoverPolicy.fromConfig ⟨servers, some enrolledFailover⟩ = some ⟨.priority, 5000, 3⟩ := by
  have hstrategy : FailoverStrategy.parse "priority" = some .priority := by decide
  rw [FailoverPolicy.fromConfig, enrolledFailover]
  simp [hstrategy]

/-- A file with one server resolves to what that server resolves to. -/
theorem resolveConnectConfigs_of_lookup {server : ServerConfigEntry} {failover : FailoverConfig}
    {policy : FailoverPolicy} (hfile : after.lookup (resolve current output) = some (utf8 contents))
    (hread : faults.refuses (.read (resolve current output)) = false)
    (hcontents : toml.fromStr contents = some ⟨[server], some failover⟩)
    (hpolicy : FailoverPolicy.fromConfig ⟨[server], some failover⟩ = some policy)
    (serverKey : Option String) (spaEndpoint proxyEndpoint : Option SocketAddr) :
    (resolveConnectConfigs faults toml decode current (some output) serverKey spaEndpoint
      proxyEndpoint none none after).1 =
        (resolveServer decode none none server).map fun candidate ↦ ([candidate], policy) := by
  have hbytes : readFile faults (resolve current output) after =
      (some (utf8 contents), after) := by
    rw [readFile, hread, hfile]
    rfl
  have htext : readToString faults current output after = (some contents, after) := by
    rw [readToString, bind_of_some hbytes, fromUTF8?_utf8]
    rfl
  have hconfig : loadClientConfig faults toml current output after =
      (some ⟨[server], some failover⟩, after) := by
    rw [loadClientConfig, bind_of_some htext, hcontents]
    rfl
  have hservers : orderedServers ⟨[server], some failover⟩ = some [server] := by
    rw [orderedServers, if_neg (List.cons_ne_nil _ _), sortByKey, List.mergeSort_singleton]
  have hmap : [server].mapM (resolveServer decode none none) =
      (resolveServer decode none none server).map fun candidate ↦ [candidate] := by
    rw [List.mapM_cons, List.mapM_nil]
    cases resolveServer decode none none server with
    | none => rfl
    | some candidate => rfl
  rw [resolveConnectConfigs, bind_of_some hconfig,
    bind_of_some (ofOption_eq_some_iff.mpr ⟨hpolicy, rfl⟩),
    bind_of_some (ofOption_eq_some_iff.mpr ⟨hservers, rfl⟩), hmap]
  cases resolveServer decode none none server with
  | none => rfl
  | some candidate => rfl

theorem urlSocketAddr_of_authority {authority : List Char} (h : '/' ∉ authority)
    (path : List Char) :
    urlSocketAddr (String.ofList ("https://".toList ++ (authority ++ '/' :: path))) =
      parseSocketAddr authority := by
  have hlist := @String.toList_ofList ("https://".toList ++ (authority ++ '/' :: path))
  have hscheme : "https://".toList.isPrefixOf ("https://".toList ++ (authority ++ '/' :: path)) =
      true := List.isPrefixOf_iff_prefix.mpr (List.prefix_append _ _)
  have hall : ∀ symbol ∈ authority, decide (symbol ≠ '/') = true := by
    intro symbol hsymbol
    rw [decide_eq_true_iff]
    exact ne_of_mem_of_not_mem hsymbol h
  rw [urlSocketAddr, hlist, if_pos hscheme, ← String.length_toList, List.drop_left,
    List.takeWhile_append_of_pos hall, List.takeWhile_cons_of_neg (by decide), List.append_nil]

/-- An IPv4 address and its port are read back from the URL that is built with them. -/
theorem urlSocketAddr_httpsSpaUrlFor {ip : Ipv4Addr} {port : UInt16} :
    ∃ url, httpsSpaUrlFor (enrolledServer serverKey endpoint (.v4 ip port) spaMode spaPort) .https =
        some url ∧ urlSocketAddr url = some (.v4 ip spaPort) := by
  have hauthority : '/' ∉ ForwardedFor.ipv4Text ip ++ ':' :: portText spaPort := by
    rw [List.mem_append, List.mem_cons]
    rintro (hip | hcolon | hport)
    · exact absurd (ForwardedFor.mem_ipv4Text hip) (by decide)
    · exact absurd hcolon (by decide)
    · exact absurd (Nat.isDigit_of_mem_toDigits (by decide) (by decide) hport) (by decide)
  have hhost :
      (enrolledServer serverKey endpoint (.v4 ip port) spaMode spaPort).spaEndpoint.toList =
      ForwardedFor.ipv4Text ip := String.toList_ofList
  have hurl : "https://".toList ++
      (enrolledServer serverKey endpoint (.v4 ip port) spaMode spaPort).spaEndpoint.toList ++
        ':' :: portText spaPort ++ "/api/v1/telemetry".toList =
      "https://".toList ++ (ForwardedFor.ipv4Text ip ++ ':' :: portText spaPort ++
        '/' :: "api/v1/telemetry".toList) := by
    have hpath : "/api/v1/telemetry".toList = '/' :: "api/v1/telemetry".toList := by decide
    rw [hhost, hpath]
    simp only [List.append_assoc]
  refine ⟨_, congrArg (some ∘ String.ofList) hurl, ?_⟩
  exact (urlSocketAddr_of_authority hauthority _).trans (parseSocketAddr_ipv4Text ip spaPort)

theorem resolveServer_v4 (spaMode : SpaTransport) (spaPort : UInt16) {ip : Ipv4Addr}
    {port : UInt16} {key : Bytes} (hkey : decodeNoisePublicKey decode serverKey = some key)
    (haddress : parseSocketAddr endpoint.toList = some (.v4 ip port)) :
    ∃ candidate, resolveServer decode none none
        (enrolledServer serverKey endpoint (.v4 ip port) spaMode spaPort) = some candidate ∧
      Matches (.v4 ip port) key spaMode spaPort candidate := by
  have hspa : parseSpaEndpoint (String.ofList (ForwardedFor.ipv4Text ip)) spaPort =
      some (.v4 ip spaPort) := by
    rw [parseSpaEndpoint, String.toList_ofList, parseSocketAddr_ipv4Text_eq_none]
    exact parseSocketAddr_ipv4Text ip spaPort
  refine ⟨⟨key, .v4 ip spaPort, .v4 ip port, spaMode, httpsSpaUrlFor
    (enrolledServer serverKey endpoint (.v4 ip port) spaMode spaPort) spaMode⟩, ?_, rfl,
    ⟨rfl, rfl⟩, ?_, rfl, rfl⟩
  · simp [resolveServer, enrolledServer, haddress, hspa, hkey, SocketAddr.ip, ipText]
  · rintro rfl
    obtain ⟨url, hurl, haddr⟩ := urlSocketAddr_httpsSpaUrlFor
    exact ⟨url, .v4 ip spaPort, hurl, haddr, rfl, rfl⟩

theorem resolveServer_v6 {ip : Octets 16} {port : UInt16} {scopeId : UInt32} :
    resolveServer decode none none
      (enrolledServer serverKey endpoint (.v6 ip port scopeId) spaMode spaPort) = none := by
  have hspa : parseSpaEndpoint (String.ofList (ipv6Text ip)) spaPort = none := by
    have hbare := parseSocketAddr_ipv6Text ip []
    rw [List.append_nil] at hbare
    rw [parseSpaEndpoint, String.toList_ofList, hbare]
    exact parseSocketAddr_ipv6Text ip _
  simp [resolveServer, enrolledServer, SocketAddr.ip, ipText, hspa]

/-- An enrolled configuration resolves to what was enrolled if and only if the endpoint is an IPv4
address with a port. -/
theorem enroll_resolves_iff {readFaults : Faults} {store after : Store}
    (henroll : enroll faults toml decode current serverKey endpoint spaMode spaPort output store =
      (some (), after))
    (hread : readFaults.refuses (.read (resolve current output)) = false) :
    ∃ address key, parseSocketAddr endpoint.toList = some address ∧
      decodeNoisePublicKey decode serverKey = some key ∧
      ∀ otherKey spaEndpoint proxyEndpoint,
        (∃ candidate policy, (resolveConnectConfigs readFaults toml decode current (some output)
          otherKey spaEndpoint proxyEndpoint none none after).1 = some ([candidate], policy) ∧
          Matches address key spaMode spaPort candidate) ↔ ∃ ip port, address = .v4 ip port := by
  obtain ⟨key, address, contents, hkey, haddress, hcontents, hfile⟩ := of_enroll henroll
  refine ⟨address, key, haddress, hkey, ?_⟩
  intro otherKey spaEndpoint proxyEndpoint
  rw [resolveConnectConfigs_of_lookup hfile hread (toml.fromStr_toStringPretty hcontents)
    (fromConfig_enrolledFailover _)]
  cases address with
  | v4 ip port =>
    obtain ⟨candidate, hcandidate, hmatches⟩ := resolveServer_v4 spaMode spaPort hkey haddress
    simp only [hcandidate, Option.map_some]
    exact ⟨fun _ ↦ ⟨ip, port, rfl⟩, fun _ ↦ ⟨candidate, _, rfl, hmatches⟩⟩
  | v6 ip port scopeId =>
    have hnone := @resolveServer_v6 decode serverKey endpoint spaMode spaPort ip port scopeId
    simp [hnone]

/-- A `toml` crate that knows one file. -/
def ClientToml.single (config : ClientConfig) (text : String) : ClientToml where
  toStringPretty other := if other = config then some text else none
  fromStr other := if other = text then some config else none
  fromStr_toStringPretty := by
    intro other text' h
    split at h
    · next heq => rw [if_pos (Option.some.inj h).symm, heq]
    · contradiction

/-- The base64 text of 32 zeros. -/
def sampleKey : String := "AAAAAAAAAAAAAAAAAAAAAAAAAAAAAAAAAAAAAAAAAAA="

def sampleDecode (text : String) : Option Bytes :=
  if text = sampleKey then some (List.replicate 32 0) else none

def sampleToml (endpoint : String) (address : SocketAddr) : ClientToml :=
  .single ⟨[enrolledServer sampleKey endpoint address .https 443], some enrolledFailover⟩
    ("[[servers]]\nendpoint = \"" ++ endpoint ++ "\"\nspa_endpoint = \"" ++
      String.ofList (ipText address.ip) ++ "\"\nspa_mode = \"https\"\nspa_port = 443\n" ++
      "server_public_key = \"" ++ sampleKey ++ "\"\npriority = 1\n\n[failover]\n" ++
      "strategy = \"priority\"\nretry_interval_ms = 5000\nmax_retries = 3\n")

def noFaults : Faults := ⟨fun _ ↦ false, fun _ ↦ none⟩

/-- Enrolling the address on an empty disk. -/
def sampleEnroll (endpoint : String) (address : SocketAddr) : Option Unit × Store :=
  enroll noFaults (sampleToml endpoint address) sampleDecode [] sampleKey endpoint .https 443
    "servers.toml" ∅

theorem enroll_of_sampleEnroll {endpoint : String} {address : SocketAddr}
    (h : (sampleEnroll endpoint address).1 = some ()) :
    enroll noFaults (sampleToml endpoint address) sampleDecode [] sampleKey endpoint .https 443
      "servers.toml" ∅ = (some (), (sampleEnroll endpoint address).2) :=
  Prod.ext h rfl

def sampleResolve (endpoint : String) (address : SocketAddr) :
    Option (List ResolvedConnectConfig × FailoverPolicy) :=
  (resolveConnectConfigs noFaults (sampleToml endpoint address) sampleDecode []
    (some "servers.toml") none none none none none (sampleEnroll endpoint address).2).1

theorem sampleResolve_eq (endpoint : String) (address : SocketAddr) :
    sampleResolve endpoint address =
      (resolveConnectConfigs noFaults (sampleToml endpoint address) sampleDecode []
        (some "servers.toml") none none none none none (sampleEnroll endpoint address).2).1 := rfl

theorem enroll_resolves_ipv4 :
    ∃ candidate policy, sampleResolve "127.0.0.1:8443" (.v4 #v[127, 0, 0, 1] 8443) =
        some ([candidate], policy) ∧
      Matches (.v4 #v[127, 0, 0, 1] 8443) (List.replicate 32 0) .https 443 candidate := by
  have henroll : (sampleEnroll "127.0.0.1:8443" (.v4 #v[127, 0, 0, 1] 8443)).1 = some () := by
    decide
  have hparse : parseSocketAddr "127.0.0.1:8443".toList = some (.v4 #v[127, 0, 0, 1] 8443) := by
    decide
  have hdecode : decodeNoisePublicKey sampleDecode sampleKey = some (List.replicate 32 0) := by
    decide
  obtain ⟨address, key, haddress, hkey, hiff⟩ :=
    @enroll_resolves_iff _ _ _ _ _ _ _ _ _ noFaults _ _ (enroll_of_sampleEnroll henroll) rfl
  rw [hparse, Option.some_inj] at haddress
  rw [hdecode, Option.some_inj] at hkey
  subst haddress hkey
  rw [sampleResolve_eq]
  exact (hiff none none none).mpr ⟨_, _, rfl⟩

theorem enroll_does_not_resolve :
    (sampleEnroll "[::1]:8443" (.v6 #v[0, 0, 0, 0, 0, 0, 0, 0, 0, 0, 0, 0, 0, 0, 0, 1] 8443 0)).1 =
        some () ∧
      sampleResolve "[::1]:8443" (.v6 #v[0, 0, 0, 0, 0, 0, 0, 0, 0, 0, 0, 0, 0, 0, 0, 1] 8443 0) =
        none := by
  have henroll : (sampleEnroll "[::1]:8443"
      (.v6 #v[0, 0, 0, 0, 0, 0, 0, 0, 0, 0, 0, 0, 0, 0, 0, 1] 8443 0)).1 = some () := by decide
  have hparse : parseSocketAddr "[::1]:8443".toList =
      some (.v6 #v[0, 0, 0, 0, 0, 0, 0, 0, 0, 0, 0, 0, 0, 0, 0, 1] 8443 0) := by decide
  obtain ⟨key, address, contents, -, haddress, hcontents, hfile⟩ :=
    of_enroll (enroll_of_sampleEnroll henroll)
  rw [hparse, Option.some_inj] at haddress
  subst haddress
  have hresolved := @resolveConnectConfigs_of_lookup noFaults _ sampleDecode _ _ _ _ _ _ _ hfile
    rfl (ClientToml.fromStr_toStringPretty _ hcontents) (fromConfig_enrolledFailover _) none none
    none
  rw [resolveServer_v6] at hresolved
  rw [sampleResolve_eq]
  exact ⟨henroll, hresolved⟩

end Ghostbro.Enrollment
