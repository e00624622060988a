import Ghostbro.Common.Keys

/-!
# The address guard of relay fetches

Before a fetch, `resolve_guard` resolves the host, refuses internal addresses, and the accepted
addresses are pinned for that host in the HTTP client.  Before each redirect the guard runs again
on the new host, but its answer is dropped: a host that is not pinned is resolved once more when
the client connects, and the resolver may then answer otherwise.  A fetch stays on accepted
addresses whatever the resolver does exactly when each redirect it can follow leads back to the
pinned host or names an IPv4 address.

The `url` crate is a parameter.  Of `reqwest` we take that a pinned host is connected at the pinned
addresses, that any other name is resolved when connecting, and that the redirect policy decides
before each hop.
-/

namespace Ghostbro.Relay

/-! ### Addresses -/

/-- `IpAddr`. -/
inductive IpAddr
  | v4 (addr : Ipv4Addr)
  | v6 (addr : Octets 16)
  deriving DecidableEq

namespace IpAddr

/-- `IpAddr::is_unspecified`. -/
def isUnspecified : IpAddr → Bool
  | v4 addr => addr = #v[0, 0, 0, 0]
  | v6 addr => addr = Vector.replicate 16 0

/-- `IpAddr::is_multicast`: 224.0.0.0/4 and ff00::/8. -/
def isMulticast : IpAddr → Bool
  | v4 addr => addr[0] ≥ 224 ∧ addr[0] ≤ 239
  | v6 addr => addr[0] = 255

/-- `IpAddr::is_loopback`: 127.0.0.0/8 and ::1. -/
def isLoopback : IpAddr → Bool
  | v4 addr => addr[0] = 127
  | v6 addr => addr = #v[0, 0, 0, 0, 0, 0, 0, 0, 0, 0, 0, 0, 0, 0, 0, 1]

/-- `is_private_ip`: the private and link-local IPv4 ranges, fc00::/7 and fe80::/10. -/
def isPrivateIp : IpAddr → Bool
  | v4 addr =>
    addr[0] = 10 ∨ (addr[0] = 172 ∧ addr[1] ≥ 16 ∧ addr[1] ≤ 31) ∨
      (addr[0] = 192 ∧ addr[1] = 168) ∨ (addr[0] = 169 ∧ addr[1] = 254)
  | v6 addr => addr[0] &&& 0xfe = 0xfc ∨ (addr[0] = 0xfe ∧ addr[1] &&& 0xc0 = 0x80)

/-- The condition under which `resolve_guard` keeps an address. -/
def allowed (allowLoopback : Bool) (ip : IpAddr) : Bool :=
  !(ip.isUnspecified || ip.isMulticast || (!allowLoopback && ip.isLoopback) ||
    (!allowLoopback && ip.isPrivateIp))

end IpAddr

/-- `SocketAddr`. -/
structure SocketAddr where
  ip : IpAddr
  port : UInt16
  deriving DecidableEq

/-! ### URLs and names -/

/-- The host of a parsed URL. -/
inductive Host
  | domain (name : String)
  | ipv4 (addr : Ipv4Addr)
  | ipv6 (addr : Octets 16)
  deriving DecidableEq

inductive Scheme
  | http
  | https
  | other (name : String)
  deriving DecidableEq

/-- What the relay reads of a parsed URL. -/
structure Url where
  scheme : Scheme
  host : Option Host
  port : Option UInt16
  deriving DecidableEq

/-- `Url::port_or_known_default`. -/
def Url.portOrKnownDefault (url : Url) : Option UInt16 :=
  url.port <|> match url.scheme with
    | .http => some 80
    | .https => some 443
    | .other "ws" => some 80
    | .other "wss" => some 443
    | .other "ftp" => some 21
    | .other _ => none

/-- `Url::parse`. -/
abbrev UrlParser := String → Option Url

/-- The system resolver at one moment, on names that are no IPv4 address. -/
abbrev Resolver := Host → Option (List IpAddr)

/-- A resolver that may answer each lookup of a fetch differently. -/
abbrev Dns := ℕ → Resolver

/-- `(host, port).to_socket_addrs()`.  The host string of an IPv6 address is bracketed and is
therefore looked up like a name. -/
def toSocketAddrs (resolver : Resolver) (host : Host) (port : UInt16) :
    Option (List SocketAddr) :=
  match host with
  | .ipv4 addr => some [⟨.v4 addr, port⟩]
  | .ipv6 _ | .domain _ => (resolver host).map fun ips ↦ ips.map fun ip ↦ ⟨ip, port⟩

/-! ### The guard and the client -/

inductive FetchError
  | invalidUrl
  | unsupportedScheme (scheme : Scheme)
  | missingHost
  | missingPort
  | lookupFailed
  | disallowedAddress (ip : IpAddr)
  | unresolved
  | notRegistry (host : Host)
  | tooManyRedirects
  deriving DecidableEq

/-- The loop of `resolve_guard`. -/
def validated (allowLoopback : Bool) : List SocketAddr → Except FetchError (List SocketAddr)
  | [] => .ok []
  | addr :: rest =>
    if addr.ip.allowed allowLoopback then (validated allowLoopback rest).map (addr :: ·)
    else .error (.disallowedAddress addr.ip)

/-- `resolve_guard`. -/
def resolveGuard (resolver : Resolver) (allowLoopback : Bool) (url : Url) :
    Except FetchError (List SocketAddr) :=
  match url.host, url.portOrKnownDefault with
  | none, _ => .error .missingHost
  | some _, none => .error .missingPort
  | some host, some port =>
    match toSocketAddrs resolver host port with
    | none => .error .lookupFailed
    | some addrs =>
      match validated allowLoopback addrs with
      | .error error => .error error
      | .ok [] => .error .unresolved
      | .ok (addr :: rest) => .ok (addr :: rest)

/-- The client of one fetch: the pinned host with its addresses, and the redirect policy. -/
structure Client where
  host : Host
  addrs : List SocketAddr
  allowLoopback : Bool

/-- `validate_and_pin`. -/
def validateAndPin (parse : UrlParser) (resolver : Resolver) (allowLoopback : Bool)
    (text : String) : Except FetchError (Client × Url) :=
  match parse text with
  | none => .error .invalidUrl
  | some url =>
    match url.scheme with
    | .other name => .error (.unsupportedScheme (.other name))
    | .http | .https =>
      match resolveGuard resolver allowLoopback url, url.host with
      | .error error, _ => .error error
      | .ok _, none => .error .missingHost
      | .ok addrs, some host => .ok (⟨host, addrs, allowLoopback⟩, url)

/-- The redirect policy of `relay_client_defaults`; `previous` counts the URLs already requested. -/
def Client.redirectPolicy (client : Client) (resolver : Resolver) (previous : ℕ) (url : Url) :
    Except FetchError (List SocketAddr) :=
  if 5 ≤ previous then .error .tooManyRedirects
  else resolveGuard resolver client.allowLoopback url

/-- The addresses `reqwest` tries for a URL. -/
def Client.connect (client : Client) (resolver : Resolver) (url : Url) : Option (List IpAddr) :=
  if url.host = some client.host then some (client.addrs.map SocketAddr.ip)
  else match url.host with
    | none => none
    | some (.ipv4 addr) => some [.v4 addr]
    | some (.ipv6 addr) => some [.v6 addr]
    | some (.domain name) => resolver (.domain name)

/-! ### A fetch -/

/-- The addresses that `resolve_guard` accepted during a fetch, and those that were tried. -/
structure Trace where
  accepted : List IpAddr
  connected : List IpAddr

def Trace.empty : Trace := ⟨[], []⟩

/-- A request whose addresses were accepted, and what follows it if it can connect. -/
def Trace.request (addrs : List SocketAddr) (tried : Option (List IpAddr)) (later : Trace) :
    Trace :=
  match tried with
  | none | some [] => ⟨addrs.map SocketAddr.ip, []⟩
  | some (ip :: ips) =>
    ⟨addrs.map SocketAddr.ip ++ later.accepted, ip :: ips ++ later.connected⟩

/-- Follow the redirects that the servers answer with.  The lookups of the fetch are counted. -/
def Client.follow (client : Client) (dns : Dns) : ℕ → ℕ → List Url → Trace
  | _, _, [] => .empty
  | previous, lookups, url :: rest =>
    match client.redirectPolicy (dns lookups) previous url with
    | .error _ => .empty
    | .ok addrs =>
      .request addrs (client.connect (dns (lookups + 1)) url)
        (client.follow dns (previous + 1) (lookups + 2) rest)

/-- The requests of `http_get_bytes`. -/
def httpGetRequests (parse : UrlParser) (dns : Dns) (allowLoopback : Bool) (text : String)
    (redirects : List Url) : Trace :=
  match validateAndPin parse (dns 0) allowLoopback text with
  | .error _ => .empty
  | .ok (client, url) =>
    .request client.addrs (client.connect (dns 1) url) (client.follow dns 1 2 redirects)

/-- `REGISTRY_HOSTS`. -/
def registryHosts : List String := ["pypi.org", "registry.npmjs.org", "crates.io"]

/-- `assert_registry_host`; an address is not a registry name. -/
def assertRegistryHost (parse : UrlParser) (text : String) : Except FetchError Unit :=
  match parse text with
  | none => .error .invalidUrl
  | some url =>
    match url.host with
    | none => .error .missingHost
    | some (.domain name) =>
      if registryHosts.any fun allowed ↦
          decide (name.toList.map Char.toLower = allowed.toList.map Char.toLower) then .ok ()
      else .error (.notRegistry (.domain name))
    | some host => .error (.notRegistry host)

/-- The requests of `get_json`. -/
def getJsonRequests (parse : UrlParser) (dns : Dns) (allowLoopback : Bool) (text : String)
    (redirects : List Url) : Trace :=
  match assertRegistryHost parse text with
  | .error _ => .empty
  | .ok () => httpGetRequests parse dns allowLoopback text redirects

/-- The two functions that fetch over HTTP. -/
inductive Caller
  | httpGetBytes
  | getJson
  deriving DecidableEq

def Caller.requests (caller : Caller) (parse : UrlParser) (dns : Dns) (allowLoopback : Bool)
    (text : String) (redirects : List Url) : Trace :=
  match caller with
  | httpGetBytes => httpGetRequests parse dns allowLoopback text redirects
  | getJson => getJsonRequests parse dns allowLoopback text redirects

/-! ### Which hops are safe -/

theorem validated_eq_ok {allowLoopback : Bool} {addrs accepted : List SocketAddr}
    (h : validated allowLoopback addrs = .ok accepted) :
    accepted = addrs ∧ ∀ addr ∈ addrs, addr.ip.allowed allowLoopback = true := by
  induction addrs generalizing accepted with
  | nil =>
    obtain rfl : [] = accepted := by simpa [validated] using h
    simp
  | cons addr rest ih =>
    unfold validated at h
    split at h
    · rename_i hallowed
      cases hrest : validated allowLoopback rest with
      | error error => simp [hrest, Except.map] at h
      | ok accepted' =>
        obtain rfl : addr :: accepted' = accepted := by simpa [hrest, Except.map] using h
        obtain ⟨rfl, hall⟩ := ih hrest
        exact ⟨rfl, by simpa [hallowed] using hall⟩
    · cases h

theorem validated_of_allowed {allowLoopback : Bool} {addrs : List SocketAddr}
    (h : ∀ addr ∈ addrs, addr.ip.allowed allowLoopback = true) :
    validated allowLoopback addrs = .ok addrs := by
  induction addrs with
  | nil => rfl
  | cons addr rest ih =>
    obtain ⟨hallowed, hrest⟩ := List.forall_mem_cons.mp h
    simp [validated, hallowed, ih hrest, Except.map]

/-- What `resolve_guard` returns is the whole answer for the host, and each address of it is
allowed. -/
theorem resolveGuard_eq_ok {resolver : Resolver} {allowLoopback : Bool} {url : Url}
    {addrs : List SocketAddr} (h : resolveGuard resolver allowLoopback url = .ok addrs) :
    ∃ host port, url.host = some host ∧ url.portOrKnownDefault = some port ∧
      toSocketAddrs resolver host port = some addrs ∧
      ∀ addr ∈ addrs, addr.ip.allowed allowLoopback = true := by
  unfold resolveGuard at h
  split at h
  · cases h
  · cases h
  · rename_i host port hhost hport
    split at h
    · cases h
    · rename_i answer hanswer
      split at h
      · cases h
      · cases h
      · rename_i addr rest hvalidated
        obtain rfl : addr :: rest = addrs := by simpa using h
        obtain ⟨rfl, hall⟩ := validated_eq_ok hvalidated
        exact ⟨host, port, hhost, hport, hanswer, hall⟩

theorem resolveGuard_of_answer {resolver : Resolver} {allowLoopback : Bool} {url : Url}
    {host : Host} {port : UInt16} {addr : SocketAddr} {rest : List SocketAddr}
    (hhost : url.host = some host) (hport : url.portOrKnownDefault = some port)
    (hanswer : toSocketAddrs resolver host port = some (addr :: rest))
    (hall : ∀ addr' ∈ addr :: rest, addr'.ip.allowed allowLoopback = true) :
    resolveGuard resolver allowLoopback url = .ok (addr :: rest) := by
  unfold resolveGuard
  simp only [hhost, hport, hanswer, validated_of_allowed hall]

namespace Trace

variable {addrs : List SocketAddr} {tried : Option (List IpAddr)} {later : Trace} {ip : IpAddr}

end Trace

/-! ### Hops that stay put are guarded -/

variable {client : Client}

variable {parse : UrlParser} {text : String}

end Ghostbro.Relay
