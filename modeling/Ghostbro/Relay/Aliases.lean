import Ghostbro.Relay.Fetch

/-!
# Aliases of internal addresses

An IPv4-mapped IPv6 address is connected as the IPv4 address in its last four octets.  The tests
of `resolve_guard` look at the family that the resolver names, and as an IPv6 address a mapped one
is neither unspecified, multicast, loopback nor private.  So the guard accepts every alias, and it
keeps a fetch away from internal addresses exactly on answers in which no alias of one occurs, or
occurs only next to an address that makes the guard refuse the whole answer.
-/

namespace Ghostbro.Relay

namespace IpAddr

/-- The IPv4 address in an IPv4-mapped IPv6 address, `::ffff:0:0/96`. -/
def mappedIpv4 (addr : Octets 16) : Option Ipv4Addr :=
  if addr.toList.take 12 = [0, 0, 0, 0, 0, 0, 0, 0, 0, 0, 255, 255] then
    some #v[addr[12], addr[13], addr[14], addr[15]]
  else none

/-- The address that the kernel connects to. -/
def target : IpAddr → IpAddr
  | v4 addr => v4 addr
  | v6 addr => (mappedIpv4 addr).elim (v6 addr) v4

/-- The address denotes an unspecified, multicast, loopback, private, unique-local or link-local
one. -/
def Internal (ip : IpAddr) : Prop :=
  ip.target.isUnspecified ∨ ip.target.isMulticast ∨ ip.target.isLoopback ∨ ip.target.isPrivateIp

/-- The address is an IPv4-mapped one of an internal IPv4 address. -/
def AliasesInternal (ip : IpAddr) : Prop :=
  ∃ addr mapped, ip = v6 addr ∧ mappedIpv4 addr = some mapped ∧ (v4 mapped).Internal

theorem not_allowed_iff {ip : IpAddr} :
    ip.allowed false = false ↔
      ip.isUnspecified ∨ ip.isMulticast ∨ ip.isLoopback ∨ ip.isPrivateIp := by
  simp only [allowed, Bool.not_false, Bool.true_and, Bool.not_eq_false', Bool.or_eq_true, or_assoc]

theorem internal_v4 {addr : Ipv4Addr} : (v4 addr).Internal ↔ (v4 addr).allowed false = false :=
  not_allowed_iff.symm

/-- The head of a mapped address decides all four tests. -/
theorem allowed_of_mappedIpv4 {addr : Octets 16} {mapped : Ipv4Addr}
    (h : mappedIpv4 addr = some mapped) : (v6 addr).allowed false = true := by
  have hprefix : addr.toList.take 12 = [0, 0, 0, 0, 0, 0, 0, 0, 0, 0, 255, 255] := by
    unfold mappedIpv4 at h
    split_ifs at h with hprefix
    exact hprefix
  have hoctet (index : ℕ) (hindex : index < 12) :
      addr[index] = [0, 0, 0, 0, 0, 0, 0, 0, 0, 0, 255, 255].getD index 0 := by
    rw [← hprefix, List.getD_eq_getElem?_getD, List.getElem?_take_of_lt hindex,
      List.getElem?_eq_getElem (by simp; omega)]
    simp
  have h0 : addr[0] = 0 := hoctet 0 (by decide)
  have h10 : addr[10] = 255 := hoctet 10 (by decide)
  have hdiffers (other : Octets 16) (hother : other[10] = 0) : addr ≠ other := by
    rintro rfl
    rw [h10] at hother
    cases hother
  have hunspecified : addr ≠ Vector.replicate 16 0 := hdiffers _ (by simp)
  have hloopback : addr ≠ #v[0, 0, 0, 0, 0, 0, 0, 0, 0, 0, 0, 0, 0, 0, 0, 1] := hdiffers _ rfl
  simp [allowed, isUnspecified, isMulticast, isLoopback, isPrivateIp, h0, hunspecified, hloopback]

/-- An accepted address is internal exactly as an alias. -/
theorem internal_iff_of_allowed {ip : IpAddr} (h : ip.allowed false = true) :
    ip.Internal ↔ ip.AliasesInternal := by
  cases ip with
  | v4 addr =>
    refine iff_of_false ?_ ?_
    · rw [internal_v4, h]
      simp
    · rintro ⟨addr', mapped, heq, -⟩
      cases heq
  | v6 addr =>
    cases hmapped : mappedIpv4 addr with
    | none =>
      refine iff_of_false ?_ ?_
      · have htarget : (v6 addr).target = v6 addr := by simp [target, hmapped]
        rw [Internal, htarget, ← not_allowed_iff, h]
        simp
      · rintro ⟨addr', mapped, heq, hsome, -⟩
        obtain rfl : addr = addr' := by simpa using heq
        rw [hmapped] at hsome
        cases hsome
    | some mapped =>
      have htarget : (v6 addr).target = v4 mapped := by simp [target, hmapped]
      constructor
      · intro hinternal
        refine ⟨addr, mapped, rfl, hmapped, ?_⟩
        rw [Internal, htarget] at hinternal
        exact hinternal
      · rintro ⟨addr', mapped', heq, hsome, hinternal⟩
        obtain rfl : addr = addr' := by simpa using heq
        obtain rfl : mapped = mapped' := Option.some.inj (hmapped.symm.trans hsome)
        rw [Internal, htarget]
        exact hinternal

end IpAddr

/-- What `resolve_guard` returns for a URL is the resolver's whole answer, not empty, and free of
internal addresses. -/
def GuardsTargets (resolver : Resolver) (url : Url) : Prop :=
  ∀ addrs, resolveGuard resolver false url = .ok addrs →
    addrs ≠ [] ∧
    (∃ host port, url.host = some host ∧ url.portOrKnownDefault = some port ∧
      toSocketAddrs resolver host port = some addrs) ∧
    ∀ addr ∈ addrs, ¬addr.ip.Internal

/-- The resolver's answer for the URL. -/
def answerFor (resolver : Resolver) (url : Url) : Option (List SocketAddr) :=
  url.host.bind fun host ↦ url.portOrKnownDefault.bind (toSocketAddrs resolver host)

theorem resolveGuard_ne_nil {resolver : Resolver} {allowLoopback : Bool} {url : Url}
    {addrs : List SocketAddr} (h : resolveGuard resolver allowLoopback url = .ok addrs) :
    addrs ≠ [] := by
  unfold resolveGuard at h
  split at h
  · cases h
  · cases h
  · split at h
    · cases h
    · split at h
      · cases h
      · cases h
      · obtain rfl := Except.ok.inj h
        simp

/-- The guard keeps internal addresses out exactly when the answer holds an address that it
refuses, or no alias of an internal one. -/
theorem guardsTargets_iff (resolver : Resolver) (url : Url) :
    GuardsTargets resolver url ↔
      ∀ answer, answerFor resolver url = some answer →
        (∃ addr ∈ answer, addr.ip.allowed false = false) ∨
          ∀ addr ∈ answer, ¬addr.ip.AliasesInternal := by
  constructor
  · intro hguards answer hanswer
    by_cases hrefused : ∃ addr ∈ answer, addr.ip.allowed false = false
    · exact .inl hrefused
    · have hall : ∀ addr ∈ answer, addr.ip.allowed false = true := by simpa using hrefused
      obtain ⟨host, hhost, hanswer⟩ := Option.bind_eq_some_iff.mp hanswer
      obtain ⟨port, hport, hanswer⟩ := Option.bind_eq_some_iff.mp hanswer
      cases answer with
      | nil => exact .inr (by simp)
      | cons addr rest =>
        have hguard := resolveGuard_of_answer hhost hport hanswer hall
        obtain ⟨-, -, hinternal⟩ := hguards _ hguard
        refine .inr fun addr' haddr' halias ↦ ?_
        exact hinternal addr' haddr' ((IpAddr.internal_iff_of_allowed (hall _ haddr')).mpr halias)
  · intro hanswers addrs hguard
    obtain ⟨host, port, hhost, hport, hanswer, hall⟩ := resolveGuard_eq_ok hguard
    refine ⟨resolveGuard_ne_nil hguard, ⟨host, port, hhost, hport, hanswer⟩, fun addr haddr ↦ ?_⟩
    rw [IpAddr.internal_iff_of_allowed (hall addr haddr)]
    have hfor : answerFor resolver url = some addrs := by simp [answerFor, hhost, hport, hanswer]
    rcases hanswers addrs hfor with ⟨refused, hmem, hrefused⟩ | hnone
    · rw [hall refused hmem] at hrefused
      cases hrefused
    · exact hnone addr haddr

/-- A resolver that answers `::ffff:127.0.0.1`. -/
def mappedLoopback : Resolver := fun _ ↦
  some [.v6 #v[0, 0, 0, 0, 0, 0, 0, 0, 0, 0, 255, 255, 127, 0, 0, 1]]

/-- The guard lets a fetch reach the loopback interface under its mapped address. -/
theorem loopback_reached_by_alias :
    ¬GuardsTargets mappedLoopback ⟨.http, some (.domain "example.com"), none⟩ := by
  intro hguards
  obtain ⟨-, -, hinternal⟩ := hguards
    [⟨.v6 #v[0, 0, 0, 0, 0, 0, 0, 0, 0, 0, 255, 255, 127, 0, 0, 1], 80⟩] (by decide +kernel)
  refine hinternal _ List.mem_cons_self ?_
  unfold IpAddr.Internal
  decide +kernel

end Ghostbro.Relay
