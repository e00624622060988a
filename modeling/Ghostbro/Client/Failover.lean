import Ghostbro.Client.Enrollment

/-!
# Failover

A connection is tried in rounds.  Each round puts the candidates in an order, by priority, at random
or by the latency of a probe, and tries them one after the other; the first that succeeds ends the
run.  The attempts of a run are a prefix of its plan, which is the orders of all rounds in a row, so
a loop over rounds with a loop over candidates is one loop over the plan.

What the attempts and the probes answer, and how the order is shuffled, are parameters.
-/

namespace Ghostbro.Failover

open Endpoints Enrollment

/-! ### Orders -/

/-- `Duration`, in nanoseconds. -/
abbrev Duration := Fin (2 ^ 64 * 10 ^ 9)

/-- `Duration::MAX`. -/
def Duration.max : Duration := Fin.ofNat _ (2 ^ 64 * 10 ^ 9 - 1)

/-- What the network answers, and the random generator. -/
structure Oracle (Connection Failure : Type) where
  connectNoise : ℕ → ResolvedConnectConfig → Except Failure Connection
  probeLatency : ℕ → ℕ → SocketAddr → Option Duration
  shuffle : ℕ → List ℕ → List ℕ
  shuffle_perm : ∀ round order, (shuffle round order).Perm order

/-- The key of a candidate: its latency, or `Duration::MAX` if it is unreachable. -/
def latencyKey (latencies : List (Option Duration)) (index : ℕ) : Duration :=
  (latencies.getD index none).getD .max

def orderByLatency (latencies : List (Option Duration)) : List ℕ :=
  sortByKey (latencyKey latencies) (List.range latencies.length)

variable {Connection Failure : Type} (oracle : Oracle Connection Failure)
  (candidates : List ResolvedConnectConfig)

/-- The latencies that the probes of a round measure. -/
def latencies (round : ℕ) : List (Option Duration) :=
  candidates.mapIdx fun index candidate ↦
    oracle.probeLatency round index candidate.proxyEndpoint

def orderCandidates (strategy : FailoverStrategy) (round : ℕ) : List ℕ :=
  match strategy with
  | .priority => List.range candidates.length
  | .random => oracle.shuffle round (List.range candidates.length)
  | .latency => orderByLatency (latencies oracle candidates round)

/-! ### Attempts -/

/-- How attempts end; an index that no candidate has would be a panic. -/
inductive RoundEnd (Connection Failure : Type)
  | connected (connection : Connection) (index : ℕ) (endpoint : SocketAddr)
  | failed (lastError : Option Failure)
  | panicked

/-- The loop over an order: the attempts that are made, and how they end. -/
def tryOrder (made : ℕ) : List ℕ → Option Failure → List ℕ × RoundEnd Connection Failure
  | [], lastError => ([], .failed lastError)
  | index :: order, _ =>
    match candidates[index]? with
    | none => ([], .panicked)
    | some candidate =>
      match oracle.connectNoise made candidate with
      | .ok connection => ([index], .connected connection index candidate.proxyEndpoint)
      | .error error =>
        let (attempts, ending) := tryOrder (made + 1) order (some error)
        (index :: attempts, ending)

/-- The loop over the rounds that are left. -/
def tryRounds (strategy : FailoverStrategy) (round made : ℕ) :
    ℕ → Option Failure → List ℕ × RoundEnd Connection Failure
  | 0, lastError => ([], .failed lastError)
  | remaining + 1, lastError =>
    let order := orderCandidates oracle candidates strategy round
    match tryOrder oracle candidates made order lastError with
    | (attempts, .failed lastError) =>
      let (later, ending) :=
        tryRounds strategy (round + 1) (made + attempts.length) remaining lastError
      (attempts ++ later, ending)
    | ended => ended

inductive FailoverError (Failure : Type)
  | noCandidates
  | allFailed (rounds : UInt32) (error : Failure)

inductive Outcome (Connection Failure : Type)
  | ok (connection : Connection) (index : ℕ) (endpoint : SocketAddr)
  | err (error : FailoverError Failure)
  | panicked

/-- `u32::saturating_add`. -/
def saturatingAdd (value other : UInt32) : UInt32 :=
  UInt32.ofNat (min (value.toNat + other.toNat) 4294967295)

/-- The attempts that are made, by candidate, and the outcome. -/
def connectNoiseWithFailover (policy : FailoverPolicy) : List ℕ × Outcome Connection Failure :=
  if candidates = [] then ([], .err .noCandidates)
  else
    let rounds := saturatingAdd policy.maxRetries 1
    match tryRounds oracle candidates policy.strategy 0 0 rounds.toNat none with
    | (attempts, .connected connection index endpoint) =>
      (attempts, .ok connection index endpoint)
    | (attempts, .failed (some error)) => (attempts, .err (.allFailed rounds error))
    | (attempts, .failed none) => (attempts, .err .noCandidates)
    | (attempts, .panicked) => (attempts, .panicked)

/-! ### The plan of a run -/

/-- The orders of the rounds from one on, in a row. -/
def planFrom (strategy : FailoverStrategy) (round remaining : ℕ) : List ℕ :=
  (List.range' round remaining).flatMap (orderCandidates oracle candidates strategy)

/-- The order of all attempts that a run may make. -/
def plan (policy : FailoverPolicy) : List ℕ :=
  planFrom oracle candidates policy.strategy 0 (policy.maxRetries.toNat + 1)

/-- The attempt of that number on that candidate fails. -/
def Fails (number index : ℕ) : Prop :=
  ∃ candidate error, candidates[index]? = some candidate ∧
    oracle.connectNoise number candidate = .error error

/-- All attempts of an order fail. -/
def AllFail (made : ℕ) (order : List ℕ) : Prop :=
  ∀ position index, order[position]? = some index → Fails oracle candidates (made + position) index

/-- The first attempt of an order that does not fail. -/
structure FirstSuccess (made : ℕ) (order before : List ℕ) (connection : Connection) (index : ℕ)
    (endpoint : SocketAddr) : Prop where
  split : before ++ [index] <+: order
  failed : AllFail oracle candidates made before
  connected : ∃ candidate, candidates[index]? = some candidate ∧
    oracle.connectNoise (made + before.length) candidate = .ok connection ∧
      candidate.proxyEndpoint = endpoint

variable {oracle candidates} {strategy : FailoverStrategy} {made : ℕ} {order order' : List ℕ}
  {lastError : Option Failure}

theorem allFail_nil : AllFail oracle candidates made [] := by
  intro position index h
  contradiction

theorem allFail_cons {index : ℕ} : AllFail oracle candidates made (index :: order) ↔
    Fails oracle candidates made index ∧ AllFail oracle candidates (made + 1) order := by
  constructor
  · intro h
    apply And.intro (h 0 index rfl)
    intro position other hother
    rw [Nat.add_right_comm]
    exact h (position + 1) other hother
  · intro ⟨hfirst, hrest⟩ position other hother
    cases position with
    | zero =>
      obtain rfl := Option.some.inj hother
      exact hfirst
    | succ position =>
      have h := hrest position other hother
      rwa [Nat.add_right_comm] at h

/-- A loop over two orders in a row. -/
theorem tryOrder_append (order order' : List ℕ) (made : ℕ) (lastError : Option Failure) :
    tryOrder oracle candidates made (order ++ order') lastError =
      match tryOrder oracle candidates made order lastError with
      | (attempts, .failed lastError) =>
        let (later, ending) :=
          tryOrder oracle candidates (made + attempts.length) order' lastError
        (attempts ++ later, ending)
      | ended => ended := by
  induction order generalizing made lastError with
  | nil => rfl
  | cons index order ih =>
    rw [List.cons_append, tryOrder, tryOrder]
    cases candidates[index]? with
    | none => rfl
    | some candidate =>
      dsimp only
      cases oracle.connectNoise made candidate with
      | ok connection => rfl
      | error error =>
        dsimp only
        rw [ih]
        rcases tryOrder oracle candidates (made + 1) order (some error) with ⟨attempts, ending⟩
        cases ending with
        | failed last =>
          have hmade : made + 1 + attempts.length = made + (index :: attempts).length := by
            rw [List.length_cons]
            omega
          simp only [hmade]
          rfl
        | connected connection winner endpoint => rfl
        | panicked => rfl

/-- The loop over rounds is the loop over their plan. -/
theorem tryRounds_eq_tryOrder (strategy : FailoverStrategy) (round remaining made : ℕ)
    (lastError : Option Failure) :
    tryRounds oracle candidates strategy round made remaining lastError =
      tryOrder oracle candidates made (planFrom oracle candidates strategy round remaining)
        lastError := by
  induction remaining generalizing round made lastError with
  | zero => rfl
  | succ remaining ih =>
    rw [planFrom, List.range'_succ, List.flatMap_cons, tryOrder_append, tryRounds]
    simp only [ih]
    rfl

/-- A loop over candidates ends with the first success, or has made all attempts. -/
theorem tryOrder_cases (horder : ∀ index ∈ order, index < candidates.length) (made : ℕ)
    (lastError : Option Failure) :
    (∃ before connection index endpoint,
      FirstSuccess oracle candidates made order before connection index endpoint ∧
        tryOrder oracle candidates made order lastError =
          (before ++ [index], .connected connection index endpoint)) ∨
      AllFail oracle candidates made order ∧ ∃ last,
        (order ≠ [] ∨ lastError.isSome = true → last.isSome = true) ∧
        tryOrder oracle candidates made order lastError = (order, .failed last) := by
  induction order generalizing made lastError with
  | nil => exact .inr ⟨allFail_nil, lastError, by simp, rfl⟩
  | cons index order ih =>
    rw [List.forall_mem_cons] at horder
    have hindex := horder.1
    have hcandidate : candidates[index]? = some candidates[index] :=
      List.getElem?_eq_getElem hindex
    rw [tryOrder, hcandidate]
    dsimp only
    cases hconnect : oracle.connectNoise made candidates[index] with
    | ok connection =>
      apply Or.inl
      refine ⟨[], connection, index, _, ⟨?_, allFail_nil, _, hcandidate, hconnect, rfl⟩, rfl⟩
      exact List.prefix_append [index] order
    | error error =>
      dsimp only
      have hfails : Fails oracle candidates made index := ⟨_, error, hcandidate, hconnect⟩
      rcases ih horder.2 (made + 1) (some error) with
        ⟨before, connection, winner, endpoint, hfirst, heq⟩ | ⟨hall, last, hlast, heq⟩
      · rw [heq]
        refine .inl ⟨index :: before, connection, winner, endpoint, ⟨?_, ?_, ?_⟩, rfl⟩
        · exact List.cons_prefix_cons.mpr ⟨rfl, hfirst.split⟩
        · exact allFail_cons.mpr ⟨hfails, hfirst.failed⟩
        · rw [List.length_cons, ← Nat.add_assoc, Nat.add_right_comm]
          exact hfirst.connected
      · rw [heq]
        exact .inr ⟨allFail_cons.mpr ⟨hfails, hall⟩, last, fun _ ↦ hlast (.inr rfl), rfl⟩

/-! ### The run -/

variable {policy : FailoverPolicy}

theorem orderCandidates_perm (strategy : FailoverStrategy) (round : ℕ) :
    (orderCandidates oracle candidates strategy round).Perm (List.range candidates.length) := by
  cases strategy with
  | priority => exact .refl _
  | random => exact oracle.shuffle_perm round _
  | latency =>
    have hperm := (sortedByKey_sortByKey (latencyKey (latencies oracle candidates round))
      (List.range (latencies oracle candidates round).length)).perm
    have hlength : (latencies oracle candidates round).length = candidates.length :=
      List.length_mapIdx
    rw [hlength] at hperm
    rwa [orderCandidates, orderByLatency, hlength]

theorem mem_planFrom {round remaining index : ℕ}
    (h : index ∈ planFrom oracle candidates strategy round remaining) :
    index < candidates.length := by
  obtain ⟨other, -, hindex⟩ := List.mem_flatMap.mp h
  exact List.mem_range.mp ((orderCandidates_perm strategy other).mem_iff.mp hindex)

theorem length_planFrom (strategy : FailoverStrategy) (round remaining : ℕ) :
    (planFrom oracle candidates strategy round remaining).length =
      remaining * candidates.length := by
  have hlength (other : ℕ) :
      (orderCandidates oracle candidates strategy other).length = candidates.length := by
    rw [(orderCandidates_perm strategy other).length_eq, List.length_range]
  rw [planFrom, List.length_flatMap]
  simp only [hlength, List.map_const', List.length_range', List.sum_replicate_nat]

theorem toNat_saturatingAdd (h : policy.maxRetries.toNat < 4294967295) :
    (saturatingAdd policy.maxRetries 1).toNat = policy.maxRetries.toNat + 1 := by
  have hmin : min (policy.maxRetries.toNat + 1) 4294967295 = policy.maxRetries.toNat + 1 := by
    omega
  change (UInt32.ofNat (min (policy.maxRetries.toNat + 1) 4294967295)).toNat = _
  rw [hmin, UInt32.toNat_ofNat_of_lt']
  exact Nat.lt_of_le_of_lt (Nat.succ_le_of_lt h) (by decide)

/-- A run ends at the first attempt of its plan that does not fail, or makes all of them. -/
inductive RunEnds (oracle : Oracle Connection Failure) (candidates : List ResolvedConnectConfig)
    (policy : FailoverPolicy) : Prop
  | connected {before : List ℕ} {connection : Connection} {index : ℕ} {endpoint : SocketAddr} :
    FirstSuccess oracle candidates 0 (plan oracle candidates policy) before connection index
      endpoint →
    connectNoiseWithFailover oracle candidates policy =
      (before ++ [index], .ok connection index endpoint) → RunEnds oracle candidates policy
  | exhausted {error : FailoverError Failure} :
    AllFail oracle candidates 0 (plan oracle candidates policy) →
    connectNoiseWithFailover oracle candidates policy =
      (plan oracle candidates policy, .err error) → RunEnds oracle candidates policy

theorem runEnds (oracle : Oracle Connection Failure) (hcandidates : candidates ≠ [])
    (hretries : policy.maxRetries.toNat < 4294967295) : RunEnds oracle candidates policy := by
  have hplan : tryRounds oracle candidates policy.strategy 0 0
      (saturatingAdd policy.maxRetries 1).toNat none =
        tryOrder oracle candidates 0 (plan oracle candidates policy) none := by
    rw [tryRounds_eq_tryOrder, toNat_saturatingAdd hretries, plan]
  have hnil : plan oracle candidates policy ≠ [] := by
    rw [← List.length_pos_iff, plan, length_planFrom]
    exact Nat.mul_pos (Nat.succ_pos _) (List.length_pos_iff.mpr hcandidates)
  have hrun : connectNoiseWithFailover oracle candidates policy =
      match tryOrder oracle candidates 0 (plan oracle candidates policy) none with
      | (attempts, .connected connection index endpoint) =>
        (attempts, .ok connection index endpoint)
      | (attempts, .failed (some error)) =>
        (attempts, .err (.allFailed (saturatingAdd policy.maxRetries 1) error))
      | (attempts, .failed none) => (attempts, .err .noCandidates)
      | (attempts, .panicked) => (attempts, .panicked) := by
    rw [connectNoiseWithFailover, if_neg hcandidates]
    simp only [hplan]
  have hcases := @tryOrder_cases _ _ oracle candidates (plan oracle candidates policy)
    (fun index ↦ mem_planFrom) 0 none
  rcases hcases with ⟨before, connection, index, endpoint, hfirst, heq⟩ | ⟨hall, last, hlast, heq⟩
  · rw [heq] at hrun
    exact .connected hfirst hrun
  · obtain ⟨error, rfl⟩ := Option.isSome_iff_exists.mp (hlast (.inl hnil))
    rw [heq] at hrun
    exact .exhausted hall hrun

theorem FirstSuccess.not_allFail {before : List ℕ} {connection : Connection} {index : ℕ}
    {endpoint : SocketAddr}
    (h : FirstSuccess oracle candidates made order before connection index endpoint) :
    ¬AllFail oracle candidates made order := by
  intro hall
  obtain ⟨rest, rfl⟩ := h.split
  obtain ⟨candidate, hcandidate, hconnected, -⟩ := h.connected
  obtain ⟨other, error, hother, herror⟩ := hall before.length index (by simp)
  rw [hcandidate, Option.some_inj] at hother
  rw [← hother, hconnected] at herror
  contradiction

namespace RunEnds

theorem attempts_prefix (h : RunEnds oracle candidates policy) :
    (connectNoiseWithFailover oracle candidates policy).1 <+: plan oracle candidates policy := by
  cases h with
  | connected hfirst hrun =>
    rw [hrun]
    exact hfirst.split
  | exhausted hall hrun => simp only [hrun, List.prefix_rfl]

theorem firstSuccess_of_ok {connection : Connection} {index : ℕ} {endpoint : SocketAddr}
    (h : RunEnds oracle candidates policy)
    (hok : (connectNoiseWithFailover oracle candidates policy).2 =
      .ok connection index endpoint) :
    ∃ before, (connectNoiseWithFailover oracle candidates policy).1 = before ++ [index] ∧
      FirstSuccess oracle candidates 0 (plan oracle candidates policy) before connection index
        endpoint := by
  cases h with
  | connected hfirst hrun =>
    rw [hrun] at hok ⊢
    obtain ⟨rfl, rfl, rfl⟩ := Outcome.ok.inj hok
    exact ⟨_, rfl, hfirst⟩
  | exhausted hall hrun =>
    rw [hrun] at hok
    contradiction

theorem err_iff_allFail (h : RunEnds oracle candidates policy) :
    (∃ error, (connectNoiseWithFailover oracle candidates policy).2 = .err error) ↔
      AllFail oracle candidates 0 (plan oracle candidates policy) := by
  cases h with
  | connected hfirst hrun =>
    rw [hrun]
    apply iff_of_false _ hfirst.not_allFail
    intro ⟨error, herror⟩
    contradiction
  | exhausted hall hrun =>
    rw [hrun]
    exact iff_of_true ⟨_, rfl⟩ hall

theorem attempts_eq_plan (h : RunEnds oracle candidates policy)
    (hall : AllFail oracle candidates 0 (plan oracle candidates policy)) :
    (connectNoiseWithFailover oracle candidates policy).1 = plan oracle candidates policy := by
  cases h with
  | connected hfirst hrun => exact absurd hall hfirst.not_allFail
  | exhausted _ hrun => rw [hrun]

theorem ne_panicked (h : RunEnds oracle candidates policy) :
    (connectNoiseWithFailover oracle candidates policy).2 ≠ .panicked := by
  intro hpanicked
  cases h with
  | connected hfirst hrun =>
    rw [hrun] at hpanicked
    contradiction
  | exhausted hall hrun =>
    rw [hrun] at hpanicked
    contradiction

end RunEnds

/-! ### Orders of servers -/

open Disk

theorem forall₂_of_mapM {α β : Type} {f : α → Option β} {items : List α} {results : List β}
    (h : items.mapM f = some results) :
    List.Forall₂ (fun item result ↦ f item = some result) items results := by
  induction items generalizing results with
  | nil =>
    obtain rfl := Option.some.inj h
    exact .nil
  | cons item items ih =>
    rw [List.mapM_cons] at h
    obtain ⟨result, hresult, hrest⟩ := Option.bind_eq_some_iff.mp h
    obtain ⟨others, hothers, heq⟩ := Option.bind_eq_some_iff.mp hrest
    obtain rfl := Option.some.inj heq
    exact .cons hresult (ih hothers)

/-- The candidates are what the servers resolve to, in the order of priority. -/
def InPriorityOrder (resolveServer : ServerConfigEntry → Option ResolvedConnectConfig)
    (servers : List ServerConfigEntry) (candidates : List ResolvedConnectConfig) : Prop :=
  ∃ sorted, SortedByKey priorityKey servers sorted ∧
    List.Forall₂ (fun server candidate ↦ resolveServer server = some candidate) sorted candidates

/-- The latency of a candidate is smaller, or the same and the candidate has priority. -/
def LatencyBefore (latencies : List (Option Duration)) (index index' : ℕ) : Prop :=
  latencyKey latencies index < latencyKey latencies index' ∨
    latencyKey latencies index = latencyKey latencies index' ∧ index < index'

theorem inPriorityOrder_of_resolveConnectConfigs {faults : Faults} {toml : ClientToml}
    {decode : String → Option Bytes} {current : Location} {configPath : String}
    {serverKey httpsSpaUrl : Option String} {spaEndpoint proxyEndpoint : Option SocketAddr}
    {spaMode : Option SpaTransport} {store : Store}
    (h : (resolveConnectConfigs faults toml decode current (some configPath) serverKey spaEndpoint
      proxyEndpoint spaMode httpsSpaUrl store).1 = some (candidates, policy)) :
    ∃ config, (loadClientConfig faults toml current configPath store).1 = some config ∧
      InPriorityOrder (resolveServer decode spaMode httpsSpaUrl) config.servers candidates := by
  have hrun : resolveConnectConfigs faults toml decode current (some configPath) serverKey
      spaEndpoint proxyEndpoint spaMode httpsSpaUrl store = (some (candidates, policy), _) :=
    Prod.ext h rfl
  simp only [resolveConnectConfigs, FileM.bind_eq_some_iff, FileM.ofOption_eq_some_iff] at hrun
  obtain ⟨config, _, hconfig, policy', _, -, servers, _, ⟨hservers, -⟩, resolved, _,
    ⟨hresolved, -⟩, hpure⟩ := hrun
  have hcandidates : resolved = candidates := by
    have hfirst := congrArg Prod.fst hpure
    exact (Prod.mk.inj (Option.some.inj hfirst)).1
  rw [orderedServers] at hservers
  split at hservers
  · contradiction
  · obtain rfl := Option.some.inj hservers
    rw [hcandidates] at hresolved
    refine ⟨config, ?_, sortByKey priorityKey config.servers, sortedByKey_sortByKey _ _,
      forall₂_of_mapM hresolved⟩
    rw [hconfig]

/-- In a latency round smaller latencies come first, and equal ones in the order of priority. -/
theorem orderCandidates_latency (round : ℕ) :
    (orderCandidates oracle candidates .latency round).Pairwise
      (LatencyBefore (latencies oracle candidates round)) :=
  (sortedByKey_sortByKey _ _).pairwise List.pairwise_lt_range

/-- Failover tries every candidate once in each round, in the order of the strategy, and ends with
the first success or after the last attempt. -/
theorem failover_tries_in_order (oracle : Oracle Connection Failure)
    (hcandidates : candidates ≠ []) (hretries : policy.maxRetries.toNat < 4294967295) :
    (∀ round, (orderCandidates oracle candidates policy.strategy round).Perm
      (List.range candidates.length)) ∧
    (connectNoiseWithFailover oracle candidates policy).1 <+: plan oracle candidates policy ∧
    (∀ connection index endpoint,
      (connectNoiseWithFailover oracle candidates policy).2 = .ok connection index endpoint →
        ∃ before, (connectNoiseWithFailover oracle candidates policy).1 = before ++ [index] ∧
          FirstSuccess oracle candidates 0 (plan oracle candidates policy) before connection index
            endpoint) ∧
    ((∃ error, (connectNoiseWithFailover oracle candidates policy).2 = .err error) ↔
      AllFail oracle candidates 0 (plan oracle candidates policy)) ∧
    (AllFail oracle candidates 0 (plan oracle candidates policy) →
      (connectNoiseWithFailover oracle candidates policy).1 = plan oracle candidates policy) ∧
    (plan oracle candidates policy).length =
      (policy.maxRetries.toNat + 1) * candidates.length ∧
    (connectNoiseWithFailover oracle candidates policy).2 ≠ .panicked ∧
    (policy.strategy = .priority → ∀ round,
      orderCandidates oracle candidates policy.strategy round = List.range candidates.length) ∧
    (policy.strategy = .latency → ∀ round,
      (orderCandidates oracle candidates policy.strategy round).Pairwise
        (LatencyBefore (latencies oracle candidates round))) ∧
    ∀ (faults : Faults) (toml : ClientToml) (decode : String → Option Bytes) (current : Location)
      (configPath : String) (serverKey httpsSpaUrl : Option String)
      (spaEndpoint proxyEndpoint : Option SocketAddr) (spaMode : Option SpaTransport)
      (store : Store),
      (resolveConnectConfigs faults toml decode current (some configPath) serverKey spaEndpoint
        proxyEndpoint spaMode httpsSpaUrl store).1 = some (candidates, policy) →
      ∃ config, (loadClientConfig faults toml current configPath store).1 = some config ∧
        InPriorityOrder (resolveServer decode spaMode httpsSpaUrl) config.servers candidates := by
  have hends := runEnds oracle hcandidates hretries
  refine ⟨orderCandidates_perm _, hends.attempts_prefix, ?_, hends.err_iff_allFail,
    hends.attempts_eq_plan, length_planFrom _ _ _, hends.ne_panicked, ?_, ?_, ?_⟩
  · intro connection index endpoint
    exact hends.firstSuccess_of_ok
  · intro hstrategy round
    rw [hstrategy]
    rfl
  · intro hstrategy round
    rw [hstrategy]
    exact orderCandidates_latency round
  · intro faults toml decode current configPath serverKey httpsSpaUrl spaEndpoint proxyEndpoint
      spaMode store
    exact inPriorityOrder_of_resolveConnectConfigs

/-- A candidate on the local host. -/
def sampleCandidate (port : UInt16) : ResolvedConnectConfig where
  serverPublicKey := []
  spaEndpoint := .v4 (ipv4OfOctets [127, 0, 0, 1]) 53
  proxyEndpoint := .v4 (ipv4OfOctets [127, 0, 0, 1]) port
  spaMode := .udp
  httpsSpaUrl := none

/-- Only the third attempt succeeds. -/
def sampleOracle : Oracle Unit String where
  connectNoise number _ := if number = 2 then .ok () else .error "refused"
  probeLatency _ _ _ := none
  shuffle _ order := order
  shuffle_perm _ order := .refl order

theorem failover_tries_in_order_sample :
    (connectNoiseWithFailover sampleOracle [sampleCandidate 8443, sampleCandidate 9443]
      ⟨.priority, 5000, 3⟩).1 <+: [0, 1, 0, 1, 0, 1, 0, 1] :=
  (@failover_tries_in_order _ _ [sampleCandidate 8443, sampleCandidate 9443] ⟨.priority, 5000, 3⟩
    sampleOracle (by decide) (by decide)).2.1

def sampleServer (priority : Option UInt32) : ServerConfigEntry where
  endpoint := "127.0.0.1:8443"
  spaEndpoint := "127.0.0.1"
  spaMode := .udp
  spaPort := 53
  serverPublicKey := sampleKey
  priority := priority

/-- A server without a priority in front of one with a priority. -/
theorem unset_priority_not_last :
    ¬∀ config servers, orderedServers config = some servers →
      servers.Pairwise fun server server' ↦
        server.priority = none → server'.priority = none := by
  intro h
  have hsorted : orderedServers ⟨[sampleServer none, sampleServer (some 4294967295)], none⟩ =
      some [sampleServer none, sampleServer (some 4294967295)] := by
    rw [orderedServers, if_neg (List.cons_ne_nil _ _), sortByKey, List.mergeSort_of_pairwise]
    decide
  have hlast := List.pairwise_cons.mp (h _ _ hsorted)
  exact absurd (hlast.1 _ List.mem_cons_self rfl) (by decide)

/-- Only the second candidate is reachable, with the largest latency that there is. -/
def slowOracle : Oracle Unit String :=
  { sampleOracle with probeLatency := fun _ index _ ↦ if index = 1 then some .max else none }

/-- An unreachable candidate in front of a reachable one. -/
theorem unreachable_not_last :
    ¬∀ (oracle : Oracle Unit String) (candidates : List ResolvedConnectConfig) (round : ℕ),
      (orderCandidates oracle candidates .latency round).Pairwise fun index index' ↦
        (latencies oracle candidates round).getD index none = none →
          (latencies oracle candidates round).getD index' none = none := by
  intro h
  have hlatencies : latencies slowOracle [sampleCandidate 8443, sampleCandidate 9443] 0 =
      [none, some .max] := rfl
  have hsorted : orderCandidates slowOracle [sampleCandidate 8443, sampleCandidate 9443]
      .latency 0 = [0, 1] := by
    rw [orderCandidates, hlatencies, orderByLatency, sortByKey, List.mergeSort_of_pairwise]
    · rfl
    · decide
  have hlast := h slowOracle [sampleCandidate 8443, sampleCandidate 9443] 0
  rw [hsorted, hlatencies] at hlast
  exact absurd ((List.pairwise_cons.mp hlast).1 1 List.mem_cons_self rfl) (by decide)

end Ghostbro.Failover
