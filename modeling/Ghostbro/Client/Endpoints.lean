import Ghostbro.Common.KeyNames
import Ghostbro.Server.ForwardedFor

/-!
# Socket addresses as text

A socket address is an IPv4 address and a port behind a colon, or an IPv6 address in brackets and a
port behind a colon.  `Display` prints an address without brackets.  So an IPv4 address that was
printed reads back with a port behind it, and an IPv6 address does not.
-/

namespace Ghostbro.Endpoints

open Relay ForwardedFor

/-- `SocketAddr`. -/
inductive SocketAddr
  | v4 (ip : Ipv4Addr) (port : UInt16)
  | v6 (ip : Octets 16) (port : UInt16) (scopeId : UInt32)
  deriving DecidableEq

def SocketAddr.ip : SocketAddr → IpAddr
  | v4 ip _ => .v4 ip
  | v6 ip _ _ => .v6 ip

def SocketAddr.port : SocketAddr → UInt16
  | v4 _ port => port
  | v6 _ port _ => port

/-! ### Readers -/

/-- `Parser::read_number` on decimal digits, with a number below the bound. -/
def readNumber (bound : ℕ) (text : List Char) : Option (ℕ × List Char) :=
  let digits := text.takeWhile Char.isDigit
  let value := Nat.ofDigitChars 10 digits 0
  if digits = [] ∨ bound ≤ value then none else some (value, text.dropWhile Char.isDigit)

def ipv4OfOctets (octets : List UInt8) : Ipv4Addr :=
  Vector.ofFn fun index ↦ octets.getD index.val 0

/-- `Parser::read_ipv4_addr`. -/
def readIpv4Addr (text : List Char) : Option (Ipv4Addr × List Char) := do
  let (first, rest) ← readOctet text
  let (second, rest) ← readDotOctet rest
  let (third, rest) ← readDotOctet rest
  let (fourth, rest) ← readDotOctet rest
  some (ipv4OfOctets [first, second, third, fourth], rest)

/-- `char::to_digit(16)` on a digit. -/
def hexValue (symbol : Char) : ℕ :=
  if symbol.isDigit then symbol.toNat - 48 else symbol.toLower.toNat - 87

/-- A group of an IPv6 address: at most four hexadecimal digits. -/
def readGroup (text : List Char) : Option (UInt16 × List Char) :=
  let digits := text.takeWhile Keys.isHexDigit
  if digits = [] ∨ 4 < digits.length then none
  else some (UInt16.ofNat (digits.foldl (fun value digit ↦ 16 * value + hexValue digit) 0),
    text.dropWhile Keys.isHexDigit)

/-- `Parser::read_separator`: there is none in front of the first group. -/
def readSeparator (isFirst : Bool) (text : List Char) : Option (List Char) :=
  if isFirst then some text
  else match text with
    | ':' :: rest => some rest
    | _ => none

def word (high low : UInt8) : UInt16 := UInt16.ofNat (256 * high.toNat + low.toNat)

/-- `read_groups`: the groups, and whether an IPv4 address ends them. -/
def readGroups (isFirst : Bool) : ℕ → List Char → List UInt16 × Bool × List Char
  | 0, text => ([], false, text)
  | limit + 1, text =>
    -- An embedded IPv4 address takes two groups.
    match if limit = 0 then none else (readSeparator isFirst text).bind readIpv4Addr with
    | some (ip, rest) => ([word (ip.get 0) (ip.get 1), word (ip.get 2) (ip.get 3)], true, rest)
    | none =>
      match (readSeparator isFirst text).bind readGroup with
      | none => ([], false, text)
      | some (group, rest) =>
        let (groups, embedded, rest) := readGroups false limit rest
        (group :: groups, embedded, rest)

/-- The address with these eight groups. -/
def ipv6OfGroups (groups : List UInt16) : Octets 16 :=
  Vector.ofFn fun index ↦
    let group := (groups.getD (index.val / 2) 0).toNat
    UInt8.ofNat (if index.val % 2 = 0 then group / 256 else group)

/-- `Parser::read_ipv6_addr`: eight groups, or the groups around two colons. -/
def readIpv6Addr (text : List Char) : Option (Octets 16 × List Char) :=
  let (head, embedded, rest) := readGroups true 8 text
  if head.length = 8 then some (ipv6OfGroups head, rest)
  else if embedded then none
  else match rest with
    | ':' :: ':' :: rest =>
      let (tail, _, rest) := readGroups true (8 - (head.length + 1)) rest
      let zeros := List.replicate (8 - head.length - tail.length) 0
      some (ipv6OfGroups (head ++ zeros ++ tail), rest)
    | _ => none

/-- `Parser::read_port`. -/
def readPort : List Char → Option (UInt16 × List Char)
  | ':' :: rest => (readNumber (2 ^ 16) rest).map fun (port, rest) ↦ (UInt16.ofNat port, rest)
  | _ => none

/-- `Parser::read_scope_id`. -/
def readScopeId : List Char → Option (UInt32 × List Char)
  | '%' :: rest => (readNumber (2 ^ 32) rest).map fun (scope, rest) ↦ (UInt32.ofNat scope, rest)
  | _ => none

/-- `Parser::read_socket_addr_v4`. -/
def readSocketAddrV4 (text : List Char) : Option (SocketAddr × List Char) := do
  let (ip, rest) ← readIpv4Addr text
  let (port, rest) ← readPort rest
  some (.v4 ip port, rest)

/-- `Parser::read_socket_addr_v6`. -/
def readSocketAddrV6 : List Char → Option (SocketAddr × List Char)
  | '[' :: rest => do
    let (ip, rest) ← readIpv6Addr rest
    let (scopeId, rest) := (readScopeId rest).getD (0, rest)
    match rest with
    | ']' :: rest =>
      let (port, rest) ← readPort rest
      some (.v6 ip port scopeId, rest)
    | _ => none
  | _ => none

/-- `SocketAddr::from_str`. -/
def parseSocketAddr (text : List Char) : Option SocketAddr := do
  let (addr, rest) ← readSocketAddrV4 text <|> readSocketAddrV6 text
  if rest = [] then some addr else none

/-! ### Printed addresses -/

def segments (ip : Octets 16) : List UInt16 :=
  [word (ip.get 0) (ip.get 1), word (ip.get 2) (ip.get 3), word (ip.get 4) (ip.get 5),
    word (ip.get 6) (ip.get 7), word (ip.get 8) (ip.get 9), word (ip.get 10) (ip.get 11),
    word (ip.get 12) (ip.get 13), word (ip.get 14) (ip.get 15)]

/-- `Ipv6Addr::to_ipv4_mapped`. -/
def toIpv4Mapped (ip : Octets 16) : Option Ipv4Addr :=
  if (segments ip).take 6 = [0, 0, 0, 0, 0, 0xffff] then
    some (ipv4OfOctets [ip.get 12, ip.get 13, ip.get 14, ip.get 15])
  else none

/-- A run of zeros in the segments. -/
structure Span where
  start : ℕ
  len : ℕ

/-- The first of the longest runs of zeros. -/
def zeroes (segments : List UInt16) : Span :=
  let (longest, _) := segments.zipIdx.foldl (fun (longest, current) (segment, index) ↦
    if segment = 0 then
      let current : Span := ⟨if current.len = 0 then index else current.start, current.len + 1⟩
      (if longest.len < current.len then current else longest, current)
    else (longest, ⟨0, 0⟩)) ((⟨0, 0⟩ : Span), (⟨0, 0⟩ : Span))
  longest

def hexText (segment : UInt16) : List Char := Nat.toDigits 16 segment.toNat

/-- `fmt_subslice`: the segments with colons between them. -/
def fmtSubslice : List UInt16 → List Char
  | [] => []
  | first :: tail => hexText first ++ tail.flatMap fun segment ↦ ':' :: hexText segment

/-- `Ipv6Addr` as `Display` prints it. -/
def ipv6Text (ip : Octets 16) : List Char :=
  match toIpv4Mapped ip with
  | some ipv4 => "::ffff:".toList ++ ipv4Text ipv4
  | none =>
    let span := zeroes (segments ip)
    if 1 < span.len then
      fmtSubslice ((segments ip).take span.start) ++ "::".toList ++
        fmtSubslice ((segments ip).drop (span.start + span.len))
    else fmtSubslice (segments ip)

/-- `IpAddr` as `Display` prints it. -/
def ipText : IpAddr → List Char
  | .v4 ip => ipv4Text ip
  | .v6 ip => ipv6Text ip

def portText (port : UInt16) : List Char := Nat.toDigits 10 port.toNat

example : parseSocketAddr "[fe80::1%2]:443".toList =
    some (.v6 #v[254, 128, 0, 0, 0, 0, 0, 0, 0, 0, 0, 0, 0, 0, 0, 1] 443 2) := by decide

example : String.ofList (ipv6Text #v[32, 1, 13, 184, 0, 0, 0, 1, 0, 0, 0, 0, 0, 0, 0, 1]) =
    "2001:db8:0:1::1" := by decide

/-! ### IPv4 addresses read back -/

theorem takeWhile_isDigit_cons {symbol : Char} (h : symbol.isDigit = false) (rest : List Char) :
    (symbol :: rest).takeWhile Char.isDigit = [] := by
  rw [List.takeWhile_cons_of_neg (by simp [h])]

theorem readIpv4Addr_ipv4Text (ip : Ipv4Addr) {rest : List Char}
    (hrest : rest.takeWhile Char.isDigit = []) :
    readIpv4Addr (ipv4Text ip ++ rest) = some (ip, rest) := by
  have hdot (rest : List Char) : ('.' :: rest).takeWhile Char.isDigit = [] :=
    takeWhile_isDigit_cons (by decide) rest
  have hip : ipv4OfOctets [ip.get 0, ip.get 1, ip.get 2, ip.get 3] = ip := by
    apply Vector.ext
    intro index hindex
    rw [ipv4OfOctets, Vector.getElem_ofFn]
    match index, hindex with
    | 0, _ | 1, _ | 2, _ | 3, _ => rfl
  simp only [readIpv4Addr, ipv4Text, List.append_assoc, List.cons_append]
  simp [readOctet_octetText _ (hdot _), readDotOctet, readOctet_octetText _ hrest, hip]

theorem readPort_portText (port : UInt16) : readPort (':' :: portText port) = some (port, []) := by
  have hdigits : ∀ symbol ∈ portText port, symbol.isDigit = true := by
    intro symbol hsymbol
    exact Nat.isDigit_of_mem_toDigits (by decide) (by decide) hsymbol
  have htake : (portText port).takeWhile Char.isDigit = portText port :=
    List.takeWhile_eq_self_iff.mpr hdigits
  have hdrop : (portText port).dropWhile Char.isDigit = [] := List.dropWhile_eq_nil_iff.mpr hdigits
  have hvalue : Nat.ofDigitChars 10 (portText port) 0 = port.toNat :=
    Nat.ofDigitChars_ten_toDigits
  have hne : portText port ≠ [] := Nat.toDigits_ne_nil
  have hbound : ¬2 ^ 16 ≤ port.toNat := by
    have hlt := port.toNat_lt
    omega
  simp only [readPort, readNumber, htake, hdrop, hvalue]
  rw [if_neg (by tauto), Option.map_some, UInt16.ofNat_toNat]

/-- A printed IPv4 address and a port behind a colon are read back. -/
theorem parseSocketAddr_ipv4Text (ip : Ipv4Addr) (port : UInt16) :
    parseSocketAddr (ipv4Text ip ++ ':' :: portText port) = some (.v4 ip port) := by
  have hcolon : Char.isDigit ':' = false := by decide
  have hread := readIpv4Addr_ipv4Text ip (takeWhile_isDigit_cons hcolon (portText port))
  simp [parseSocketAddr, readSocketAddrV4, hread, readPort_portText]

theorem readSocketAddrV6_eq_none {text : List Char} (h : text.head? ≠ some '[') :
    readSocketAddrV6 text = none := by
  unfold readSocketAddrV6
  split
  · exact absurd rfl h
  · rfl

/-- A printed IPv4 address alone is no socket address. -/
theorem parseSocketAddr_ipv4Text_eq_none (ip : Ipv4Addr) :
    parseSocketAddr (ipv4Text ip) = none := by
  have hv4 : readSocketAddrV4 (ipv4Text ip) = none := by
    have hread := @readIpv4Addr_ipv4Text ip [] rfl
    rw [List.append_nil] at hread
    rw [readSocketAddrV4, hread]
    rfl
  have hhead : (ipv4Text ip).head? ≠ some '[' := by
    intro h
    rcases mem_ipv4Text (List.mem_of_mem_head? h) with hdigit | hdot
    · exact absurd hdigit (by decide)
    · exact absurd hdot (by decide)
  rw [parseSocketAddr, hv4, readSocketAddrV6_eq_none hhead]
  rfl

/-! ### IPv6 addresses do not -/

/-- The symbols in front of a colon that no address with a port starts with. -/
def Unbracketed (front : List Char) : Prop := '.' ∉ front ∧ '[' ∉ front

theorem readDotOctet_eq_none {front : List Char} (h : '.' ∉ front) (rest : List Char) :
    readDotOctet ((front ++ ':' :: rest).dropWhile Char.isDigit) = none := by
  induction front with
  | nil => rfl
  | cons symbol front ih =>
    rw [List.mem_cons, not_or] at h
    rw [List.cons_append, List.dropWhile_cons]
    split
    · exact ih h.2
    · unfold readDotOctet
      split
      · next heq => exact absurd (List.cons.inj heq).1.symm h.1
      · rfl

theorem readIpv4Addr_eq_none {front : List Char} (h : '.' ∉ front) (rest : List Char) :
    readIpv4Addr (front ++ ':' :: rest) = none := by
  rw [readIpv4Addr, readOctet]
  split
  · rfl
  · simp only [Option.bind_eq_bind, Option.bind_some, readDotOctet_eq_none h, Option.bind_none]

theorem parseSocketAddr_eq_none {front : List Char} (h : Unbracketed front) (rest : List Char) :
    parseSocketAddr (front ++ ':' :: rest) = none := by
  have hv4 : readSocketAddrV4 (front ++ ':' :: rest) = none := by
    rw [readSocketAddrV4, readIpv4Addr_eq_none h.1]
    rfl
  have hhead : (front ++ ':' :: rest).head? ≠ some '[' := by
    cases front with
    | nil => simp
    | cons symbol front => simpa using Ne.symm (List.ne_of_not_mem_cons h.2)
  rw [parseSocketAddr, hv4, readSocketAddrV6_eq_none hhead]
  rfl

theorem exists_digitChar {symbol : Char} {value : ℕ} (h : symbol ∈ Nat.toDigits 16 value) :
    ∃ digit < 16, Nat.digitChar digit = symbol := by
  induction value using Nat.strongRecOn with
  | ind value ih =>
    rcases Nat.lt_or_ge value 16 with hlt | hge
    · rw [Nat.toDigits_of_lt_base hlt, List.mem_singleton] at h
      exact ⟨value, hlt, h.symm⟩
    · rw [Nat.toDigits_of_base_le (by decide) hge, List.mem_append, List.mem_singleton] at h
      rcases h with hfront | hlast
      · exact ih (value / 16) (by omega) hfront
      · exact ⟨value % 16, Nat.mod_lt value (by decide), hlast.symm⟩

theorem unbracketed_hexText (segment : UInt16) : Unbracketed (hexText segment) := by
  have hdigit : ∀ digit < 16, Nat.digitChar digit ≠ '.' ∧ Nat.digitChar digit ≠ '[' := by decide
  constructor
  · intro h
    obtain ⟨digit, hlt, heq⟩ := exists_digitChar h
    exact (hdigit digit hlt).1 heq
  · intro h
    obtain ⟨digit, hlt, heq⟩ := exists_digitChar h
    exact (hdigit digit hlt).2 heq

theorem fmtSubslice_cons_cons (first second : UInt16) (tail : List UInt16) :
    fmtSubslice (first :: second :: tail) =
      hexText first ++ ':' :: fmtSubslice (second :: tail) := rfl

theorem exists_fmtSubslice (chunk : List UInt16) (rest : List Char) :
    ∃ front rest', fmtSubslice chunk ++ ':' :: rest = front ++ ':' :: rest' ∧
      Unbracketed front := by
  match chunk with
  | [] => exact ⟨[], rest, rfl, List.not_mem_nil, List.not_mem_nil⟩
  | [first] => exact ⟨hexText first, rest, by simp [fmtSubslice], unbracketed_hexText first⟩
  | first :: second :: tail =>
    rw [fmtSubslice_cons_cons, List.append_assoc]
    exact ⟨hexText first, _, rfl, unbracketed_hexText first⟩

theorem exists_ipv6Text (ip : Octets 16) :
    ∃ front rest, ipv6Text ip = front ++ ':' :: rest ∧ Unbracketed front := by
  unfold ipv6Text
  split
  · exact ⟨[], _, rfl, List.not_mem_nil, List.not_mem_nil⟩
  · dsimp only
    split
    · rw [List.append_assoc]
      exact exists_fmtSubslice _ _
    · rw [segments, fmtSubslice_cons_cons]
      exact ⟨_, _, rfl, unbracketed_hexText _⟩

/-- A printed IPv6 address is no socket address, with or without a port behind a colon. -/
theorem parseSocketAddr_ipv6Text (ip : Octets 16) (text : List Char) :
    parseSocketAddr (ipv6Text ip ++ text) = none := by
  obtain ⟨front, rest, htext, hfront⟩ := exists_ipv6Text ip
  rw [htext, List.append_assoc]
  exact parseSocketAddr_eq_none hfront (rest ++ text)

end Ghostbro.Endpoints
