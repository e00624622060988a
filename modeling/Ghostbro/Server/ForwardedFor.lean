import Ghostbro.Foundation.Text
import Ghostbro.Relay.Fetch
import Ghostbro.Relay.Wire

/-!
# The source address of an HTTPS candidate

Behind a trusted proxy the address of a candidate is the first element of `X-Forwarded-For`, and
the peer's own address if that element is no IPv4 address.  A proxy that appends the address it
sees leaves the client's value in front, so what the client sends decides.  The header of a peer
that is no trusted proxy is not read.

The CIDR type comes from the `ipnet` crate and is a parameter.
-/

namespace Ghostbro.ForwardedFor

open Relay Text

/-! ### IPv4 addresses as text -/

/-- The text of one octet. -/
def octetText (octet : UInt8) : List Char := Nat.toDigits 10 octet.toNat

/-- `Ipv4Addr` as `Display` prints it. -/
def ipv4Text (ip : Ipv4Addr) : List Char :=
  octetText (ip.get 0) ++ '.' :: octetText (ip.get 1) ++ '.' :: octetText (ip.get 2) ++
    '.' :: octetText (ip.get 3)

/-- The digits of one octet: at most three, and no zero in front of another digit. -/
def readOctet (text : List Char) : Option (UInt8 × List Char) :=
  let digits := text.takeWhile Char.isDigit
  let value := Nat.ofDigitChars 10 digits 0
  if digits = [] ∨ 3 < digits.length ∨ digits.head? = some '0' ∧ 1 < digits.length ∨
      255 < value then
    none
  else some (UInt8.ofNat value, text.dropWhile Char.isDigit)

/-- An octet behind its separator. -/
def readDotOctet : List Char → Option (UInt8 × List Char)
  | '.' :: rest => readOctet rest
  | _ => none

/-- `Ipv4Addr::from_str`. -/
def parseIpv4 (text : List Char) : Option Ipv4Addr := do
  let (first, rest) ← readOctet text
  let (second, rest) ← readDotOctet rest
  let (third, rest) ← readDotOctet rest
  let (fourth, rest) ← readDotOctet rest
  if rest = [] then some #v[first, second, third, fourth] else none

/-! ### The header -/

/-- The header fields of a request, with the names in lower case. -/
abbrev HeaderMap := List (String × Bytes)

/-- `HeaderMap::get`: the value of the first field of that name. -/
def HeaderMap.get (headers : HeaderMap) (name : String) : Option Bytes :=
  (headers.find? fun field ↦ field.1 = name).map Prod.snd

/-- A byte that `HeaderValue::to_str` takes: visible ASCII, a space or a tab. -/
def isVisibleAscii (byte : UInt8) : Bool := 32 ≤ byte && byte < 127 || byte = 9

/-- `HeaderValue::to_str`. -/
def toStr (value : Bytes) : Option (List Char) :=
  if value.all isVisibleAscii then some (value.map fun byte ↦ Char.ofNat byte.toNat) else none

/-- The address in the first element of a header value. -/
def firstIpv4 (value : Bytes) : Option Ipv4Addr := do
  let text ← toStr value
  let first := trim isWhitespace (text.takeWhile (· ≠ ','))
  parseIpv4 first

/-- `forwarded_for_first_ipv4`. -/
def forwardedForFirstIpv4 (headers : HeaderMap) : Option Ipv4Addr := do
  let value ← headers.get "x-forwarded-for"
  firstIpv4 value

/-- The address of a peer, if it is an IPv4 address. -/
def peerIpv4 (peer : SocketAddr) : Option Ipv4Addr :=
  match peer.ip with
  | .v4 ip => some ip
  | .v6 _ => none

section

variable {IpNet : Type} (contains : IpNet → IpAddr → Bool)

/-- The peer is in one of the trusted CIDRs. -/
def trusted (trustedProxyCidrs : List IpNet) (peer : SocketAddr) : Bool :=
  trustedProxyCidrs.any fun cidr ↦ contains cidr peer.ip

/-- `https_spa_source_ip`. -/
def httpsSpaSourceIp (peer : SocketAddr) (headers : HeaderMap) (trustedProxyCidrs : List IpNet) :
    Option Ipv4Addr :=
  if trusted contains trustedProxyCidrs peer then
    match forwardedForFirstIpv4 headers with
    | some ip => some ip
    | none => peerIpv4 peer
  else peerIpv4 peer

end

/-- The header value of a proxy that appends the address it sees to what the client sent, after a
comma and some spaces. -/
def proxied (sent : Option Bytes) (spaces : ℕ) (client : Ipv4Addr) : Bytes :=
  let seen := (ipv4Text client).map fun symbol ↦ UInt8.ofNat symbol.toNat
  match sent with
  | none => seen
  | some value => value ++ 44 :: (List.replicate spaces 32 ++ seen)

/-! ### Addresses read back -/

theorem digits_octetText (octet : UInt8) :
    (∀ symbol ∈ octetText octet, symbol.isDigit) ∧ octetText octet ≠ [] ∧
      (octetText octet).length ≤ 3 ∧
      ((octetText octet).head? = some '0' → (octetText octet).length ≤ 1) := by
  have hshape : ∀ value : Fin 256, (Nat.toDigits 10 value).length ≤ 3 ∧
      ((Nat.toDigits 10 value).head? = some '0' → (Nat.toDigits 10 value).length ≤ 1) := by
    decide +kernel
  refine ⟨fun symbol hsymbol ↦ ?_, Nat.toDigits_ne_nil, hshape ⟨octet.toNat, octet.toNat_lt⟩⟩
  exact Nat.isDigit_of_mem_toDigits (by decide) (by decide) hsymbol

/-- An octet reads back in front of anything but another digit. -/
theorem readOctet_octetText (octet : UInt8) {rest : List Char}
    (hrest : rest.takeWhile Char.isDigit = []) :
    readOctet (octetText octet ++ rest) = some (octet, rest) := by
  obtain ⟨hdigits, hne, hlength, hzero⟩ := digits_octetText octet
  have htake : (octetText octet ++ rest).takeWhile Char.isDigit = octetText octet := by
    rw [List.takeWhile_append_of_pos hdigits, hrest, List.append_nil]
  have hdrop : (octetText octet ++ rest).dropWhile Char.isDigit = rest := by
    have hall := List.takeWhile_append_dropWhile (p := Char.isDigit) (l := octetText octet ++ rest)
    rw [htake] at hall
    exact List.append_cancel_left hall
  have hvalue : Nat.ofDigitChars 10 (octetText octet) 0 = octet.toNat :=
    Nat.ofDigitChars_ten_toDigits
  have hlt := octet.toNat_lt
  simp only [readOctet, htake, hdrop, hvalue, UInt8.ofNat_toNat]
  rw [if_neg]
  intro h
  rcases h with h | h | h | h
  · exact hne h
  · omega
  · have hshort := hzero h.1
    omega
  · omega

theorem parseIpv4_ipv4Text (ip : Ipv4Addr) : parseIpv4 (ipv4Text ip) = some ip := by
  have hdot (rest : List Char) : ('.' :: rest).takeWhile Char.isDigit = [] := by
    rw [List.takeWhile_cons_of_neg]
    decide
  have hlast : readOctet (octetText (ip.get 3) ++ []) = some (ip.get 3, []) :=
    readOctet_octetText (ip.get 3) rfl
  rw [List.append_nil] at hlast
  have hip : #v[ip.get 0, ip.get 1, ip.get 2, ip.get 3] = ip := by
    apply Vector.ext
    intro index hindex
    match index, hindex with
    | 0, _ | 1, _ | 2, _ | 3, _ => rfl
  simp only [parseIpv4, ipv4Text, List.append_assoc, List.cons_append]
  simp [readOctet_octetText _ (hdot _), readDotOctet, hlast, hip]

/-! ### What a proxy forwards -/

theorem mem_ipv4Text {ip : Ipv4Addr} {symbol : Char} (h : symbol ∈ ipv4Text ip) :
    symbol.isDigit ∨ symbol = '.' := by
  have hdigit (octet : UInt8) := (digits_octetText octet).1 symbol
  simp only [ipv4Text, List.mem_append, List.mem_cons] at h
  grind

/-- The code of a digit or a full stop. -/
theorem toNat_of_mem_ipv4Text {ip : Ipv4Addr} {symbol : Char} (h : symbol ∈ ipv4Text ip) :
    46 ≤ symbol.toNat ∧ symbol.toNat ≤ 57 := by
  rcases mem_ipv4Text h with hdigit | rfl
  · simp [Char.isDigit, UInt32.le_iff_toNat_le] at hdigit
    have hcode : symbol.toNat = symbol.val.toNat := rfl
    omega
  · decide

theorem toStr_append (value : Bytes) {value' : Bytes} {text' : List Char}
    (h : toStr value' = some text') :
    toStr (value ++ value') = (toStr value).map (· ++ text') := by
  unfold toStr at h ⊢
  split at h
  · next hvisible =>
    obtain rfl := Option.some.inj h
    rw [List.all_append, hvisible, Bool.and_true, List.map_append]
    split_ifs <;> rfl
  · cases h

theorem toStr_ipv4Text (ip : Ipv4Addr) :
    toStr ((ipv4Text ip).map fun symbol ↦ UInt8.ofNat symbol.toNat) = some (ipv4Text ip) := by
  have hcode {symbol : Char} (h : symbol ∈ ipv4Text ip) :
      (UInt8.ofNat symbol.toNat).toNat = symbol.toNat := by
    have hrange := toNat_of_mem_ipv4Text h
    rw [UInt8.toNat_ofNat']
    omega
  have hvisible : ((ipv4Text ip).map fun symbol ↦ UInt8.ofNat symbol.toNat).all
      isVisibleAscii = true := by
    simp only [List.all_map, List.all_eq_true, Function.comp_apply]
    intro symbol hsymbol
    have hrange := toNat_of_mem_ipv4Text hsymbol
    rw [isVisibleAscii, Bool.or_eq_true, Bool.and_eq_true, decide_eq_true_eq, decide_eq_true_eq,
      UInt8.le_iff_toNat_le, UInt8.lt_iff_toNat_lt, hcode hsymbol]
    exact .inl ⟨hrange.1.trans' (by decide), hrange.2.trans_lt (by decide)⟩
  have htext : (ipv4Text ip).map (fun symbol ↦
      Char.ofNat (UInt8.ofNat symbol.toNat).toNat) = ipv4Text ip := by
    conv_rhs => rw [← List.map_id (ipv4Text ip)]
    apply List.map_congr_left
    intro symbol hsymbol
    rw [hcode hsymbol, Char.ofNat_toNat, id]
  rw [toStr, if_pos hvisible, List.map_map]
  exact congrArg some htext

/-- The address that the proxy appends is read back from a header that holds nothing else. -/
theorem firstIpv4_proxied_none (spaces : ℕ) (client : Ipv4Addr) :
    firstIpv4 (proxied none spaces client) = some client := by
  have hcomma : (ipv4Text client).takeWhile (· ≠ ',') = ipv4Text client := by
    rw [List.takeWhile_eq_self_iff]
    intro symbol hsymbol
    have hrange := toNat_of_mem_ipv4Text hsymbol
    have hne : symbol ≠ ',' := by
      intro heq
      rw [heq] at hrange
      exact absurd hrange.1 (by decide)
    simpa using hne
  have hblank : ∀ symbol ∈ ipv4Text client, isWhitespace symbol = false := by
    intro symbol hsymbol
    have hrange := toNat_of_mem_ipv4Text hsymbol
    simp only [isWhitespace, Bool.or_eq_false_iff, Bool.and_eq_false_iff, decide_eq_false_iff_not]
    omega
  simp only [firstIpv4, proxied, toStr_ipv4Text, Option.bind_eq_bind, Option.bind_some]
  rw [hcomma, trim_eq_self hblank, parseIpv4_ipv4Text]

/-- What the proxy appends does not change the first element. -/
theorem firstIpv4_proxied_some (value : Bytes) (spaces : ℕ) (client : Ipv4Addr) :
    firstIpv4 (proxied (some value) spaces client) = firstIpv4 value := by
  have hspaces : toStr (44 :: List.replicate spaces 32) =
      some (',' :: List.replicate spaces ' ') := by
    have hvisible : (44 :: List.replicate spaces 32).all isVisibleAscii = true := by
      simp [isVisibleAscii]
    rw [toStr, if_pos hvisible, List.map_cons, List.map_replicate]
    rfl
  have happended := toStr_append (44 :: List.replicate spaces 32) (toStr_ipv4Text client)
  rw [hspaces, Option.map_some] at happended
  simp only [firstIpv4, proxied]
  rw [← List.cons_append, toStr_append value happended]
  cases toStr value with
  | none => rfl
  | some text =>
    simp only [Option.map_some, Option.bind_eq_bind, Option.bind_some, List.cons_append]
    rw [takeWhile_ne_append]

/-! ### The address of a candidate -/

/-- The value that the client sent decides what a trusted proxy's candidate is taken to come from,
and the proxy's own address if it names none; no other peer is asked. -/
theorem https_spa_source_ip_behind_proxy {IpNet : Type} (contains : IpNet → IpAddr → Bool)
    (trustedProxyCidrs : List IpNet) (peer : SocketAddr) :
    (trusted contains trustedProxyCidrs peer = true →
      ∀ (sent : Option Bytes) (spaces : ℕ) (client : Ipv4Addr) (headers : HeaderMap),
        headers.get "x-forwarded-for" = some (proxied sent spaces client) →
          httpsSpaSourceIp contains peer headers trustedProxyCidrs =
            match sent with
            | none => some client
            | some value => (firstIpv4 value).or (peerIpv4 peer)) ∧
      (trusted contains trustedProxyCidrs peer = false → ∀ headers : HeaderMap,
        httpsSpaSourceIp contains peer headers trustedProxyCidrs = peerIpv4 peer) := by
  constructor
  · intro htrusted sent spaces client headers hheader
    have hfirst : forwardedForFirstIpv4 headers = firstIpv4 (proxied sent spaces client) := by
      simp [forwardedForFirstIpv4, hheader]
    rw [httpsSpaSourceIp, if_pos htrusted, hfirst]
    cases sent with
    | none => rw [firstIpv4_proxied_none]
    | some value =>
      rw [firstIpv4_proxied_some]
      dsimp only
      cases firstIpv4 value <;> rfl
  · intro huntrusted headers
    rw [httpsSpaSourceIp, if_neg (by simp [huntrusted])]

/-- The trust in one address. -/
def sameAddress (cidr ip : IpAddr) : Bool := cidr = ip

def localProxy : SocketAddr := ⟨.v4 #v[10, 0, 0, 1], 443⟩

/-- The header `203.0.113.5` of a local proxy, and `198.51.100.10, 203.0.113.5` for a client that
sends an address itself. -/
theorem https_spa_source_ip_behind_localProxy :
    trusted sameAddress [.v4 #v[10, 0, 0, 1]] localProxy = true ∧
      httpsSpaSourceIp sameAddress localProxy
        [("x-forwarded-for", proxied none 1 #v[203, 0, 113, 5])] [.v4 #v[10, 0, 0, 1]] =
          some #v[203, 0, 113, 5] ∧
      httpsSpaSourceIp sameAddress localProxy
        [("x-forwarded-for", proxied (some (utf8 "198.51.100.10")) 1 #v[203, 0, 113, 5])]
        [.v4 #v[10, 0, 0, 1]] = some #v[198, 51, 100, 10] := by
  have htrusted : trusted sameAddress [.v4 #v[10, 0, 0, 1]] localProxy = true := by decide
  have hproxy := (https_spa_source_ip_behind_proxy sameAddress _ localProxy).1 htrusted
  have hfirst : firstIpv4 (utf8 "198.51.100.10") = some #v[198, 51, 100, 10] := by decide +kernel
  refine ⟨htrusted, hproxy none 1 _ _ rfl, ?_⟩
  rw [hproxy (some _) 1 _ _ rfl]
  dsimp only
  rw [hfirst]
  rfl

/-- Behind a local proxy a client that sends `198.51.100.10` is taken to come from there. -/
theorem https_spa_source_ip_chosen :
    ¬∀ (contains : IpAddr → IpAddr → Bool) (trustedProxyCidrs : List IpAddr) (peer : SocketAddr)
        (sent sent' : Option Bytes) (spaces : ℕ) (client : Ipv4Addr)
        (headers headers' : HeaderMap),
      trusted contains trustedProxyCidrs peer = true →
      headers.get "x-forwarded-for" = some (proxied sent spaces client) →
      headers'.get "x-forwarded-for" = some (proxied sent' spaces client) →
        httpsSpaSourceIp contains peer headers trustedProxyCidrs = some client ∧
          httpsSpaSourceIp contains peer headers' trustedProxyCidrs = some client := by
  intro hall
  have hchosen := (hall sameAddress [.v4 #v[10, 0, 0, 1]] localProxy
    (some (utf8 "198.51.100.10")) none 1 #v[203, 0, 113, 5]
    [("x-forwarded-for", proxied (some (utf8 "198.51.100.10")) 1 #v[203, 0, 113, 5])]
    [("x-forwarded-for", proxied none 1 #v[203, 0, 113, 5])] (by decide) rfl rfl).1
  revert hchosen
  decide +kernel

end Ghostbro.ForwardedFor
