import Ghostbro.Client.Counter
import Ghostbro.Server.Isolation

/-!
# How far a counter runs ahead of the clock

The time window compares the timestamp of a packet with the clock, and the counter check compares
its counter with the stored high-water mark.  Nothing compares the counter with the timestamp or
with the clock, so a packet with a current timestamp and a far counter moves the mark far ahead.
The marks stay within one window of the clock exactly as long as every authenticated packet does,
and as long as they do a client that takes its counter from the clock is at most one window behind.
-/

namespace Ghostbro.CounterWindow

open Machine SpaVerifier Isolation

/-- A call of `verify` with the fault of its persist attempt. -/
structure Call where
  payload : Bytes
  source : Ipv4Addr
  nowMs : UInt64
  fault : Option SaveFault

/-- The verifier with its files and the clock value of the latest call. -/
structure Server where
  verifier : SpaVerifier
  files : FileSystem
  latestMs : UInt64

variable (crypto : Crypto) (toml : Toml)

/-- One call; the clock does not go back. -/
def step : Step Server Call SpaAccept := fun server call ↦
  if call.nowMs < server.latestMs then none
  else
    let outcome := server.verifier.verify crypto toml server.files call.payload call.source
      call.nowMs call.fault
    some (⟨outcome.verifier, outcome.files, call.nowMs⟩, outcome.result.toOption)

/-- No mark is ahead of the clock by more than the time window. -/
def WithinWindow (server : Server) : Prop :=
  ∀ keyId, (server.verifier.highestCounter keyId).toNat ≤
    server.latestMs.toNat + server.verifier.timeWindowMs.toNat

/-- A client that lost its counter file is not taken for a replay once its clock has passed the
latest call by more than the time window. -/
def Recovers (server : Server) : Prop :=
  ∀ path floor payload source nowMs fault packet client,
    (Client.nextCounter path none floor false none).2 = .ok packet.counter →
    server.verifier.authenticate crypto payload source nowMs = .ok (packet, client) →
    server.latestMs.toNat + server.verifier.timeWindowMs.toNat < floor.toNat →
    (server.verifier.verify crypto toml server.files payload source nowMs fault).result ≠
      .error .replayedCounter

/-- If the call passes every check before the counter comparison, then its counter is ahead of its
clock by at most the time window. -/
def KeepsWindow (verifier : SpaVerifier) (call : Call) : Prop :=
  ∀ packet client,
    verifier.authenticate crypto call.payload call.source call.nowMs = .ok (packet, client) →
    packet.counter.toNat ≤ call.nowMs.toNat + verifier.timeWindowMs.toNat

variable {crypto toml} {server next start last : Server} {call : Call} {calls : List Call}
  {emitted : Option SpaAccept} {accepts : List SpaAccept}

/-! ### One call -/

theorem step_eq_some (h : step crypto toml server call = some (next, emitted)) :
    server.latestMs ≤ call.nowMs ∧ next.latestMs = call.nowMs ∧
      next.verifier = (server.verifier.verify crypto toml server.files call.payload call.source
        call.nowMs call.fault).verifier := by
  unfold step at h
  split at h
  · cases h
  · next hclock =>
    obtain ⟨rfl, -⟩ := Prod.mk.inj (Option.some.inj h)
    exact ⟨UInt64.not_lt.mp hclock, rfl, rfl⟩

theorem sameServer_step (h : step crypto toml server call = some (next, emitted)) :
    SameServer server.verifier next.verifier := by
  obtain ⟨-, -, hverifier⟩ := step_eq_some h
  rw [hverifier, verifier_verify]
  split
  · exact .refl _
  · split_ifs
    · exact .refl _
    · exact ⟨rfl, rfl, rfl, rfl, rfl⟩

theorem keepsWindow_congr {verifier verifier' : SpaVerifier}
    (hsame : SameServer verifier verifier') :
    KeepsWindow crypto verifier' call ↔ KeepsWindow crypto verifier call := by
  simp only [KeepsWindow, hsame.authenticate crypto, hsame.timeWindowMs]

/-- A call that keeps the window keeps the marks within it. -/
theorem withinWindow_step (hwithin : WithinWindow server)
    (hkeeps : KeepsWindow crypto server.verifier call)
    (h : step crypto toml server call = some (next, emitted)) : WithinWindow next := by
  obtain ⟨hclock, hlatest, hverifier⟩ := step_eq_some h
  intro keyId
  have hbefore : (server.verifier.highestCounter keyId).toNat ≤
      call.nowMs.toNat + server.verifier.timeWindowMs.toNat :=
    (hwithin keyId).trans (Nat.add_le_add_right (UInt64.le_iff_toNat_le.mp hclock) _)
  rw [hlatest, (sameServer_step h).timeWindowMs, hverifier, verifier_verify]
  cases hauth : server.verifier.authenticate crypto call.payload call.source call.nowMs with
  | error error => exact hbefore
  | ok authenticated =>
    dsimp only
    split_ifs
    · exact hbefore
    · rw [highestCounter_recordCounter]
      split_ifs
      · exact hkeeps _ _ hauth
      · exact hbefore

/-- An authenticated packet leaves a mark that is at least its counter. -/
theorem le_highestCounter_step (h : step crypto toml server call = some (next, emitted))
    {packet : SpaPacket} {client : AuthorizedClient}
    (hauth : server.verifier.authenticate crypto call.payload call.source call.nowMs =
      .ok (packet, client)) :
    packet.counter ≤ next.verifier.highestCounter packet.keyId := by
  rw [(step_eq_some h).2.2, verifier_verify, hauth]
  dsimp only
  split_ifs with hcounter
  · exact hcounter
  · rw [highestCounter_recordCounter, if_pos rfl]
    exact UInt64.le_refl _

/-- A counter from a clock ahead of the marks is fresh. -/
theorem WithinWindow.recovers (h : WithinWindow server) : Recovers crypto toml server := by
  intro path floor payload source nowMs fault packet client hcounter hauth hclock hreplayed
  have hfloor : packet.counter = Client.chooseCounter 0 floor := (Except.ok.inj hcounter).symm
  have hle : floor.toNat ≤ packet.counter.toNat := by
    rw [hfloor, Client.toNat_chooseCounter]
    exact le_max_right _ _
  have hfresh : ¬packet.counter ≤ server.verifier.highestCounter packet.keyId := by
    rw [UInt64.le_iff_toNat_le]
    have hmark := h packet.keyId
    omega
  rw [verify, hauth] at hreplayed
  dsimp only at hreplayed
  rw [if_neg hfresh] at hreplayed
  revert hreplayed
  unfold persistCounters
  split
  · simp
  · next path _ =>
    cases hsaved : (saveCounterState toml server.files path
      (server.verifier.recordCounter packet).highestCounters fault).2 <;>
      simp [hsaved, Except.mapError]

/-! ### Runs -/

theorem sameServer_run (hrun : Run (step crypto toml) unrestricted start calls accepts last) :
    SameServer start.verifier last.verifier := by
  refine hrun.invariant (fun _ server ↦ SameServer start.verifier server.verifier) (.refl _) ?_
  intro _ server call next _ hsame _ hstep
  exact hsame.trans (sameServer_step hstep)

theorem withinWindow_of_empty (hempty : start.verifier.highestCounters = ∅) :
    WithinWindow start := by
  intro keyId
  have hzero : start.verifier.highestCounter keyId = 0 := by
    rw [highestCounter, hempty]
    rfl
  rw [hzero]
  exact Nat.zero_le _

/-- A run of calls that keep the window keeps the marks within it. -/
theorem withinWindow_run (hempty : start.verifier.highestCounters = ∅)
    (hkeeps : ∀ call ∈ calls, KeepsWindow crypto start.verifier call)
    (hrun : Run (step crypto toml) unrestricted start calls accepts last) : WithinWindow last := by
  refine ((hrun.restrict hkeeps).invariant (fun _ server ↦
    SameServer start.verifier server.verifier ∧ WithinWindow server)
    ⟨.refl _, withinWindow_of_empty hempty⟩ ?_).2
  intro _ server call next _ hserver hguard hstep
  have hkeeps' : KeepsWindow crypto server.verifier call :=
    (keepsWindow_congr hserver.1).mpr hguard.2
  exact ⟨hserver.1.trans (sameServer_step hstep), withinWindow_step hserver.2 hkeeps' hstep⟩

/-- In every state that a run from an empty table reaches, the marks are at most one window ahead
of the clock and a client without its counter file recovers, if and only if every call of the run
keeps the window. -/
theorem highestCounter_within_window_iff (hempty : start.verifier.highestCounters = ∅)
    (hrun : Run (step crypto toml) unrestricted start calls accepts last) :
    (∀ before accepts' server, before <+: calls →
        Run (step crypto toml) unrestricted start before accepts' server →
          WithinWindow server ∧ Recovers crypto toml server) ↔
      ∀ call ∈ calls, KeepsWindow crypto start.verifier call := by
  constructor
  · intro hwithin call hcall packet client hauth
    obtain ⟨before, after, rfl⟩ := List.append_of_mem hcall
    have hsplit : before ++ call :: after = (before ++ [call]) ++ after := by simp
    rw [hsplit] at hrun hwithin
    obtain ⟨accepts', next, hthrough⟩ := hrun.exists_before
    have hbound := (hwithin _ _ _ (List.prefix_append _ _) hthrough).1 packet.keyId
    obtain ⟨_, server, _, hbefore, -, hstep⟩ := hthrough.last_step
    rw [← (sameServer_run hbefore).authenticate crypto] at hauth
    have hmark := UInt64.le_iff_toNat_le.mp (le_highestCounter_step hstep hauth)
    have hlatest := (step_eq_some hstep).2.1
    rw [(sameServer_run hthrough).timeWindowMs, hlatest] at hbound
    exact hmark.trans hbound
  · intro hkeeps before accepts' server hearlier hbefore
    have hwithin := withinWindow_run hempty (fun call hcall ↦ hkeeps call (hearlier.mem hcall))
      hbefore
    exact ⟨hwithin, hwithin.recovers⟩

/-! ### One client -/

open Sample

/-- A fresh server with one client and a window of thirty seconds. -/
def fresh : Server where
  verifier := fromCounters Crypto.transparent [client "alice" 1 alice] 30 ∅ none serverPrivate
  files := ∅
  latestMs := 0

/-- A packet of alice, stamped and received at time zero. -/
def aliceCall (counter : UInt64) : Call := ⟨payload alice counter, source, 0, none⟩

theorem authenticate_aliceCall (counter : UInt64) :
    fresh.verifier.authenticate Crypto.transparent (aliceCall counter).payload
      (aliceCall counter).source (aliceCall counter).nowMs =
        .ok (packet alice counter, client "alice" 1 alice) :=
  authenticate_payload alice counter ⟨rfl, rfl⟩ (by decide +kernel) source

theorem step_aliceCall (counter : UInt64) :
    ∃ last accept, step Crypto.transparent Toml.plain fresh (aliceCall counter) =
      some (last, accept) := ⟨_, _, rfl⟩

theorem highestCounter_within_window_alice :
    fresh.verifier.highestCounters = ∅ ∧ ∃ accepts last,
      Run (step Crypto.transparent Toml.plain) unrestricted fresh [aliceCall 5] accepts last ∧
        WithinWindow last ∧ Recovers Crypto.transparent Toml.plain last := by
  obtain ⟨last, accept, hstep⟩ := step_aliceCall 5
  have hrun : Run _ unrestricted fresh _ _ last := Run.nil.snoc trivial hstep
  refine ⟨rfl, _, last, hrun, ?_⟩
  refine (highestCounter_within_window_iff rfl hrun).mpr ?_ _ _ _ (List.prefix_refl _) hrun
  intro call hcall packet client hauth
  obtain rfl := List.mem_singleton.mp hcall
  obtain ⟨rfl, -⟩ := Prod.mk.inj (Except.ok.inj ((authenticate_aliceCall 5).symm.trans hauth))
  decide +kernel

/-- A client whose counter file is ahead of its clock sends a counter a thousand seconds ahead, and
the server stores it. -/
theorem highestCounter_runs_ahead :
    (Client.nextCounter "alice.counter" (some (Client.counterText 999999)) 0 false none).2 =
        .ok 1000000 ∧
      ¬∀ (crypto : Crypto) (toml : Toml) (start last : Server) (calls : List Call)
          (accepts : List SpaAccept),
        start.verifier.highestCounters = ∅ →
        (∀ call ∈ calls, ∃ keyId, SignedBy crypto start.verifier keyId call.payload) →
        Run (step crypto toml) unrestricted start calls accepts last → WithinWindow last := by
  have hchosen : Client.chooseCounter 999999 0 = 1000000 := by decide
  refine ⟨by rw [Client.nextCounter_of_stored _ (Client.stored_counterText _), hchosen], ?_⟩
  intro hall
  obtain ⟨last, accept, hstep⟩ := step_aliceCall 1000000
  have hsigned : ∀ call ∈ [aliceCall 1000000],
      ∃ keyId, SignedBy Crypto.transparent fresh.verifier keyId call.payload := by
    intro call hcall
    obtain rfl := List.mem_singleton.mp hcall
    have hclient : fresh.verifier.clients.lookup (Vector.replicate 8 5) =
        some (client "alice" 1 alice) := by decide +kernel
    exact ⟨_, packet alice 1000000, client "alice" 1 alice, openWire_payload alice 1000000,
      keyId_alice 1000000, hclient, verify_packet alice 1000000⟩
  have hrun : Run _ unrestricted fresh _ _ last := Run.nil.snoc trivial hstep
  have hbound := hall _ _ _ _ _ _ rfl hsigned hrun (packet alice 1000000).keyId
  have hmark := UInt64.le_iff_toNat_le.mp
    (le_highestCounter_step hstep (authenticate_aliceCall 1000000))
  have hlatest : last.latestMs = 0 := (step_eq_some hstep).2.1
  have hwindow : last.verifier.timeWindowMs = 30000 := (sameServer_step hstep).timeWindowMs
  have hcounter : (packet alice 1000000).counter = 1000000 := rfl
  rw [hlatest, hwindow] at hbound
  rw [hcounter] at hmark
  exact absurd (hmark.trans hbound) (by decide)

end Ghostbro.CounterWindow
