import Ghostbro.Server.Gate

/-!
# Concurrent sessions

`acquire_session` counts the live slots of each key in a shared map, and the drop of a slot counts
back.  `acquire_session` inserts a zero for a key that has no entry before it decides, but it never
refuses such a key, so no zero stays behind.  The stored counts are the numbers of live slots after
any interleaving of grants, refusals and drops.  The connections of the daemon that are in a
session hold these slots.
-/

namespace Ghostbro

/-! ### What the two functions write -/

theorem acquireSession_of_granted {counts : HashMap KeyId UInt32} {keyId : KeyId}
    {max : Option UInt16} (h : (acquireSession counts keyId max).2 = true) :
    (acquireSession counts keyId max).1 =
      counts.insert keyId ((counts.lookup keyId).getD 0 + 1) := by
  unfold acquireSession at h ⊢
  dsimp only at h ⊢
  split_ifs at h ⊢
  rfl

theorem acquireSession_of_refused {counts : HashMap KeyId UInt32} {keyId : KeyId}
    {max : Option UInt16} (h : (acquireSession counts keyId max).2 = false) :
    (acquireSession counts keyId max).1 = counts.insert keyId ((counts.lookup keyId).getD 0) := by
  unfold acquireSession at h ⊢
  dsimp only at h ⊢
  split_ifs at h ⊢
  rfl

/-! ### Counts and slots -/

/-- Each count is the number of live slots of its key, and a key without slots has no entry. -/
def Accounts (counts : HashMap KeyId UInt32) (live : KeyId → ℕ) : Prop :=
  ∀ keyId, (counts.lookup keyId).map UInt32.toNat =
    if live keyId = 0 then none else some (live keyId)

namespace Accounts

variable {counts : HashMap KeyId UInt32} {live : KeyId → ℕ} {keyId : KeyId}

theorem empty : Accounts ∅ fun _ ↦ 0 := by
  intro keyId
  rfl

/-- The count that `entry(key_id).or_insert(0)` finds. -/
theorem toNat_getD (h : Accounts counts live) (keyId : KeyId) :
    ((counts.lookup keyId).getD 0).toNat = live keyId := by
  have hcount := h keyId
  cases hlookup : counts.lookup keyId with
  | none =>
    rw [hlookup, Option.map_none] at hcount
    split_ifs at hcount with hzero
    rw [hzero]
    rfl
  | some count =>
    rw [hlookup, Option.map_some] at hcount
    split_ifs at hcount
    exact Option.some.inj hcount

/-- A slot is refused exactly when a positive limit is already reached. -/
theorem refused_iff (h : Accounts counts live) (keyId : KeyId) (max : Option UInt16) :
    (acquireSession counts keyId max).2 = false ↔
      ∃ limit, max = some limit ∧ 0 < limit ∧ limit.toNat ≤ live keyId := by
  have hcount : ∀ limit : UInt16, (counts.lookup keyId).getD 0 ≥ limit.toUInt32 ↔
      limit.toNat ≤ live keyId := by
    intro limit
    rw [← h.toNat_getD keyId, ge_iff_le, UInt32.le_iff_toNat_le, UInt16.toNat_toUInt32]
  unfold acquireSession
  cases max with
  | none => simp
  | some limit =>
    simp only [Option.any_some, hcount, decide_eq_true_eq, Option.some.injEq, exists_eq_left']
    split_ifs with hfull
    · exact iff_of_true rfl hfull
    · exact iff_of_false (by simp) hfull

theorem granted_iff (h : Accounts counts live) (keyId : KeyId) {limit : UInt16}
    (hlimit : 0 < limit) :
    (acquireSession counts keyId (some limit)).2 = true ↔ live keyId < limit.toNat := by
  have hrefused := h.refused_iff keyId (some limit)
  rw [← Bool.not_eq_false, hrefused]
  simp [hlimit]

/-- A refusal finds an entry, and writes back the count that is already there. -/
theorem lookup_of_refused (h : Accounts counts live) {max : Option UInt16}
    (hrefused : (acquireSession counts keyId max).2 = false) (keyId' : KeyId) :
    (acquireSession counts keyId max).1.lookup keyId' = counts.lookup keyId' := by
  obtain ⟨limit, rfl, hpositive, hfull⟩ := (h.refused_iff keyId max).mp hrefused
  have hlimit : 0 < limit.toNat := UInt16.lt_iff_toNat_lt.mp hpositive
  have hcount := h keyId
  rw [if_neg (by omega)] at hcount
  obtain ⟨count, hlookup, -⟩ := Option.map_eq_some_iff.mp hcount
  rw [acquireSession_of_refused hrefused, hlookup, Option.getD_some, HashMap.lookup_insert_ite]
  split_ifs with hkey
  · rw [hkey, hlookup]
  · rfl

theorem refuse (h : Accounts counts live) {max : Option UInt16}
    (hrefused : (acquireSession counts keyId max).2 = false) :
    Accounts (acquireSession counts keyId max).1 live := by
  intro keyId'
  rw [h.lookup_of_refused hrefused]
  exact h keyId'

/-- Writing the count of one key. -/
theorem write (h : Accounts counts live) {count : UInt32} {slots : ℕ} (hcount : count.toNat = slots)
    (hslots : slots ≠ 0) :
    Accounts (counts.insert keyId count) (Function.update live keyId slots) := by
  intro keyId'
  rw [HashMap.lookup_insert_ite]
  by_cases hkey : keyId' = keyId
  · rw [hkey, Function.update_self, if_pos rfl, if_neg hslots, Option.map_some, hcount]
  · rw [Function.update_of_ne hkey, if_neg hkey]
    exact h keyId'

theorem grant (h : Accounts counts live) {max : Option UInt16} (hfits : live keyId + 1 < 2 ^ 32)
    (hgranted : (acquireSession counts keyId max).2 = true) :
    Accounts (acquireSession counts keyId max).1
      (Function.update live keyId (live keyId + 1)) := by
  rw [acquireSession_of_granted hgranted]
  apply h.write
  · rw [UInt32.toNat_add, h.toNat_getD keyId]
    exact Nat.mod_eq_of_lt hfits
  · exact Nat.succ_ne_zero _

/-- The drop of a live slot counts back, and removes the entry with the last slot. -/
theorem drop (h : Accounts counts live) (hlive : live keyId ≠ 0) :
    Accounts (dropSession counts keyId) (Function.update live keyId (live keyId - 1)) := by
  have hcount := h keyId
  rw [if_neg hlive] at hcount
  obtain ⟨count, hlookup, hnat⟩ := Option.map_eq_some_iff.mp hcount
  have hone : count ≤ 1 ↔ live keyId ≤ 1 := by
    rw [UInt32.le_iff_toNat_le, hnat]
    rfl
  unfold dropSession
  rw [hlookup]
  dsimp only
  split_ifs with hlast
  · intro keyId'
    by_cases hkey : keyId' = keyId
    · have hzero : live keyId - 1 = 0 := Nat.sub_eq_zero_of_le (hone.mp hlast)
      rw [hkey, Function.update_self, AList.lookup_erase, if_pos hzero]
      rfl
    · rw [Function.update_of_ne hkey, AList.lookup_erase_ne hkey]
      exact h keyId'
  · have hmore : 1 < live keyId := not_le.mp (mt hone.mpr hlast)
    apply h.write
    · have hle : (1 : UInt32) ≤ count := by
        rw [UInt32.le_iff_toNat_le, hnat]
        exact hmore.le
      rw [UInt32.toNat_sub_of_le _ _ hle, hnat]
      rfl
    · omega

end Accounts

/-! ### Interleavings of grants, refusals and drops -/

namespace Sessions

open Machine

/-- The shared map, and the slots that have been granted and not dropped. -/
structure State where
  counts : HashMap KeyId UInt32
  slots : HashMap ℕ KeyId
  deriving DecidableEq

/-- The calls of `acquire_session`, each with the name of the slot it may return, and the drops. -/
inductive Event
  | acquire (slot : ℕ) (keyId : KeyId) (max : Option UInt16)
  | drop (slot : ℕ)

/-- The number of live slots of a key. -/
def State.live (state : State) (keyId : KeyId) : ℕ :=
  HashMap.total state.slots fun _ holder ↦ if holder = keyId then 1 else 0

/-- Before the first connection. -/
def start : State := ⟨∅, ∅⟩

/-- One call under the lock of the map; the output tells whether a slot was granted. -/
def step : Step State Event Bool
  | state, .acquire slot keyId max =>
    if slot ∈ state.slots then none
    else
      let acquired := acquireSession state.counts keyId max
      some (⟨acquired.1, if acquired.2 then state.slots.insert slot keyId else state.slots⟩,
        some acquired.2)
  | state, .drop slot =>
    (state.slots.lookup slot).map fun keyId ↦
      (⟨dropSession state.counts keyId, state.slots.erase slot⟩, none)

/-- Fewer than `2 ^ 32` slots of the key are live after the call. -/
def Few (state : State) : Event → Prop
  | .acquire _ keyId max =>
    (acquireSession state.counts keyId max).2 = true → state.live keyId + 1 < 2 ^ 32
  | .drop _ => True

theorem live_insert {state : State} {slot : ℕ} (h : slot ∉ state.slots) (keyId : KeyId)
    (counts : HashMap KeyId UInt32) :
    State.live ⟨counts, state.slots.insert slot keyId⟩ =
      Function.update state.live keyId (state.live keyId + 1) := by
  have hlookup : state.slots.lookup slot = none := AList.lookup_eq_none.mpr h
  funext keyId'
  have htotal := HashMap.total_insert_add state.slots
    (fun _ holder ↦ if holder = keyId' then 1 else 0) slot keyId
  rw [hlookup, Option.elim_none, Nat.add_zero] at htotal
  by_cases hkey : keyId' = keyId
  · subst hkey
    rw [Function.update_self, State.live, htotal, if_pos rfl]
    rfl
  · rw [Function.update_of_ne hkey, State.live, htotal, if_neg (Ne.symm hkey)]
    rfl

theorem live_erase {state : State} {slot : ℕ} {keyId : KeyId}
    (h : state.slots.lookup slot = some keyId) (counts : HashMap KeyId UInt32) :
    State.live ⟨counts, state.slots.erase slot⟩ =
        Function.update state.live keyId (state.live keyId - 1) ∧
      state.live keyId ≠ 0 := by
  have htotal (keyId' : KeyId) := HashMap.total_erase_add state.slots
    (fun _ holder ↦ if holder = keyId' then 1 else 0) slot
  simp only [h, Option.elim_some] at htotal
  have hself := htotal keyId
  rw [if_pos rfl] at hself
  refine ⟨?_, ?_⟩
  · funext keyId'
    by_cases hkey : keyId' = keyId
    · subst hkey
      rw [Function.update_self]
      exact (Nat.sub_eq_of_eq_add hself.symm).symm
    · have hother := htotal keyId'
      rw [if_neg (Ne.symm hkey)] at hother
      rw [Function.update_of_ne hkey]
      exact hother
  · unfold State.live
    omega

/-- Every call keeps the accounts. -/
theorem accounts_step {state next : State} {event : Event} {emitted : Option Bool}
    (h : Accounts state.counts state.live) (hfew : Few state event)
    (hstep : step state event = some (next, emitted)) : Accounts next.counts next.live := by
  cases event with
  | acquire slot keyId max =>
    simp only [step] at hstep
    split_ifs at hstep with hslot hgranted
    · obtain ⟨rfl, -⟩ := Prod.mk.inj (Option.some.inj hstep)
      rw [live_insert hslot]
      exact h.grant (hfew hgranted) hgranted
    · obtain ⟨rfl, -⟩ := Prod.mk.inj (Option.some.inj hstep)
      exact h.refuse (by simpa using hgranted)
  | drop slot =>
    obtain ⟨keyId, hlookup, hnext⟩ := Option.map_eq_some_iff.mp hstep
    obtain ⟨rfl, -⟩ := Prod.mk.inj hnext
    obtain ⟨hlive, hpositive⟩ := live_erase hlookup (dropSession state.counts keyId)
    rw [hlive]
    exact h.drop hpositive

variable {events : List Event} {outputs : List Bool} {state : State}

theorem accounts_of_run (hrun : Run step Few start events outputs state) :
    Accounts state.counts state.live :=
  Run.invariant (fun _ state ↦ Accounts state.counts state.live) Accounts.empty
    (fun _ _ _ _ _ h hfew hstep ↦ accounts_step h hfew hstep) hrun

/-- Each acquire of the key asks for the limit. -/
def UsesLimit (keyId : KeyId) (limit : UInt16) (events : List Event) : Prop :=
  ∀ slot max, .acquire slot keyId max ∈ events → max = some limit

/-- A key whose acquires all use one positive limit never has more live slots than that. -/
theorem live_le_limit {keyId : KeyId} {limit : UInt16} (hlimit : 0 < limit)
    (hrun : Run step Few start events outputs state) (huses : UsesLimit keyId limit events) :
    state.live keyId ≤ limit.toNat := by
  induction hrun with
  | nil => exact Nat.zero_le _
  | @snoc events outputs state next event emitted hbefore hfew hstep ih =>
    have haccounts := accounts_of_run hbefore
    have hle := ih fun slot max h ↦ huses slot max (List.mem_append_left _ h)
    cases event with
    | acquire slot keyId' max =>
      simp only [step] at hstep
      split_ifs at hstep with hslot hgranted
      · obtain ⟨rfl, -⟩ := Prod.mk.inj (Option.some.inj hstep)
        rw [live_insert hslot]
        by_cases hkey : keyId = keyId'
        · subst hkey
          obtain rfl := huses slot max (List.mem_append_right _ (List.mem_singleton_self _))
          rw [Function.update_self]
          exact (haccounts.granted_iff keyId hlimit).mp hgranted
        · rw [Function.update_of_ne hkey]
          exact hle
      · obtain ⟨rfl, -⟩ := Prod.mk.inj (Option.some.inj hstep)
        exact hle
    | drop slot =>
      obtain ⟨keyId', hlookup, hnext⟩ := Option.map_eq_some_iff.mp hstep
      obtain ⟨rfl, -⟩ := Prod.mk.inj hnext
      rw [(live_erase hlookup _).1]
      by_cases hkey : keyId = keyId'
      · subst hkey
        rw [Function.update_self]
        omega
      · rw [Function.update_of_ne hkey]
        exact hle

/-- After any interleaving of calls: each count is the number of live slots of its key, and there
is no entry exactly when that is zero; an acquire under a positive limit is granted exactly when
fewer slots are live, and a refused one changes no count; and one limit for all acquires of a key
bounds its live slots. -/
theorem session_counts (events : List Event) (outputs : List Bool) (state : State)
    (hrun : Run step Few start events outputs state) :
    (∀ keyId, (keyId ∉ state.counts ↔ state.live keyId = 0) ∧
      ∀ count, state.counts.lookup keyId = some count → count.toNat = state.live keyId) ∧
    (∀ keyId limit, 0 < limit → ((acquireSession state.counts keyId (some limit)).2 = true ↔
      state.live keyId < limit.toNat)) ∧
    (∀ keyId max, (acquireSession state.counts keyId max).2 = false → ∀ keyId',
      (acquireSession state.counts keyId max).1.lookup keyId' = state.counts.lookup keyId') ∧
    ∀ keyId limit, 0 < limit → UsesLimit keyId limit events →
      state.live keyId ≤ limit.toNat := by
  have haccounts := accounts_of_run hrun
  refine ⟨fun keyId ↦ ⟨?_, fun count hcount ↦ ?_⟩, fun keyId limit hlimit ↦ ?_,
    fun keyId max hrefused ↦ ?_, fun keyId limit hlimit huses ↦ ?_⟩
  · have hcount := haccounts keyId
    rw [← AList.lookup_eq_none]
    constructor
    · intro hnone
      by_contra hlive
      rw [hnone, if_neg hlive] at hcount
      cases hcount
    · intro hlive
      rw [if_pos hlive] at hcount
      exact Option.map_eq_none_iff.mp hcount
  · have hlive := haccounts.toNat_getD keyId
    rwa [hcount] at hlive
  · exact haccounts.granted_iff keyId hlimit
  · exact haccounts.lookup_of_refused hrefused
  · exact live_le_limit hlimit hrun huses

def sampleKeyId : KeyId := Vector.replicate 8 5

/-- The first of two slots has been dropped. -/
def sampleDropped : State := ⟨AList.insert sampleKeyId 1 ∅, AList.insert 1 sampleKeyId ∅⟩

/-- Two slots of one key under a limit of two, a refusal, and the drop of the first slot. -/
theorem session_counts_sample :
    sampleDropped.live sampleKeyId = 1 ∧
      (sampleKeyId ∉ sampleDropped.counts ↔ sampleDropped.live sampleKeyId = 0) ∧
      ((acquireSession sampleDropped.counts sampleKeyId (some 2)).2 = true ↔
        sampleDropped.live sampleKeyId < (2 : UInt16).toNat) := by
  let one : State := ⟨AList.insert sampleKeyId 1 ∅, AList.insert 0 sampleKeyId ∅⟩
  let two : State :=
    ⟨AList.insert sampleKeyId 2 ∅, AList.insert 1 sampleKeyId (AList.insert 0 sampleKeyId ∅)⟩
  have hfew₁ : Few start (.acquire 0 sampleKeyId (some 2)) := by
    intro _
    decide
  have hstep₁ : step start (.acquire 0 sampleKeyId (some 2)) = some (one, some true) := by
    decide +kernel
  have hfew₂ : Few one (.acquire 1 sampleKeyId (some 2)) := by
    intro _
    decide
  have hstep₂ : step one (.acquire 1 sampleKeyId (some 2)) = some (two, some true) := by
    decide +kernel
  have hfew₃ : Few two (.acquire 2 sampleKeyId (some 2)) := by
    intro _
    decide
  have hstep₃ : step two (.acquire 2 sampleKeyId (some 2)) = some (two, some false) := by
    decide +kernel
  have hfew₄ : Few two (.drop 0) := trivial
  have hstep₄ : step two (.drop 0) = some (sampleDropped, none) := by
    decide +kernel
  have hnil : Run step Few start [] [] start := .nil
  have hrun := (((hnil.snoc hfew₁ hstep₁).snoc hfew₂ hstep₂).snoc hfew₃ hstep₃).snoc hfew₄ hstep₄
  obtain ⟨hcounts, hgrants, -, -⟩ := session_counts _ _ sampleDropped hrun
  exact ⟨by decide, (hcounts sampleKeyId).1, hgrants sampleKeyId 2 (by decide)⟩

end Sessions

/-! ### The connections of the daemon -/

namespace Daemon

open Machine

variable {crypto : Crypto} {toml : Toml} {host : Endian} {allowTtlSeconds : UInt64}

/-- Whether the connection holds a slot of the key. -/
def Connection.slot (connection : Connection) (keyId : KeyId) : ℕ :=
  if connection.stage = .session ∧ connection.source.entry.keyId = keyId then 1 else 0

/-- The number of connections that hold a slot of the key. -/
def State.holders (state : State) (keyId : KeyId) : ℕ :=
  HashMap.total state.connections fun _ connection ↦ connection.slot keyId

/-- Fewer than `2 ^ 32` connections hold a slot of a key after the step. -/
def FewHolders (state : State) (_ : Event) : Prop :=
  ∀ keyId, state.holders keyId + 1 < 2 ^ 32

/-- The counts and the connections of a state. -/
def State.accounts (state : State) : HashMap KeyId UInt32 × HashMap ℕ Connection :=
  (state.sessions, state.connections)

/-- Only `handle_connection` opens or closes connections and takes or drops slots. -/
theorem Quiet.accounts {state next : State} {event : Event} {emitted : Option Output}
    (h : Quiet state event next emitted) : next.accounts = state.accounts :=
  Prod.ext h.sessions h.connections

theorem accounts_of_handleSpa (state : State) (srcIp : UInt32) (payload : Bytes) (nowMs : UInt64)
    (fault : Option SaveFault) :
    (handleSpa crypto toml state srcIp payload nowMs fault).1.accounts = state.accounts := by
  unfold handleSpa State.accounts
  dsimp only
  split <;> rfl

theorem accounts_of_spaStep {state next : State} {event : Event} {emitted : Option Output}
    (h : spaStep crypto toml host state event = some (next, emitted)) :
    next.accounts = state.accounts := by
  cases event <;> simp only [spaStep] at h <;> grind [State.accounts, accounts_of_handleSpa]

variable {state next : State} {event : Event} {emitted : Option Output}

/-- Writing a connection moves its slot. -/
theorem holders_insert (connections : HashMap ℕ Connection) (id : ℕ) (connection : Connection)
    (keyId : KeyId) :
    HashMap.total (connections.insert id connection) (fun _ c ↦ c.slot keyId) +
        (connections.lookup id).elim 0 (Connection.slot · keyId) =
      HashMap.total connections (fun _ c ↦ c.slot keyId) + connection.slot keyId :=
  HashMap.total_insert_add connections (fun _ c ↦ c.slot keyId) id connection

theorem holders_erase (connections : HashMap ℕ Connection) (id : ℕ) (keyId : KeyId) :
    HashMap.total (connections.erase id) (fun _ c ↦ c.slot keyId) +
        (connections.lookup id).elim 0 (Connection.slot · keyId) =
      HashMap.total connections (fun _ c ↦ c.slot keyId) :=
  HashMap.total_erase_add connections (fun _ c ↦ c.slot keyId) id

theorem slot_of_stage_ne {connection : Connection} (h : connection.stage ≠ .session)
    (keyId : KeyId) : connection.slot keyId = 0 :=
  if_neg fun hslot ↦ h hslot.1

/-- A connection that holds no slot may be written in another stage without a slot. -/
theorem holders_setStage {id : ℕ} {connection : Connection} {stage : Stage}
    (hlookup : state.connections.lookup id = some connection)
    (hbefore : connection.stage ≠ .session) (hafter : stage ≠ .session) :
    (setStage state id connection stage).holders = state.holders := by
  funext keyId
  have hinsert := holders_insert state.connections id { connection with stage := stage } keyId
  have hslot : ({ connection with stage := stage } : Connection).slot keyId = 0 :=
    slot_of_stage_ne hafter keyId
  rw [hlookup, Option.elim_some, slot_of_stage_ne hbefore, hslot] at hinsert
  exact hinsert

theorem holders_connect {id : ℕ} {connection : Connection}
    (hlookup : state.connections.lookup id = none) (hstage : connection.stage ≠ .session) :
    ({ state with connections := state.connections.insert id connection } : State).holders =
      state.holders := by
  funext keyId
  have hinsert := holders_insert state.connections id connection keyId
  rw [hlookup, Option.elim_none, Nat.add_zero, slot_of_stage_ne hstage, Nat.add_zero] at hinsert
  exact hinsert

theorem holders_close {id : ℕ} {connection : Connection}
    (hlookup : state.connections.lookup id = some connection)
    (hbefore : connection.stage ≠ .session) :
    ({ state with connections := state.connections.erase id } : State).holders =
      state.holders := by
  funext keyId
  have herase := holders_erase state.connections id keyId
  rw [hlookup, Option.elim_some, slot_of_stage_ne hbefore] at herase
  exact herase

theorem slot_session (connection : Connection) (keyId : KeyId) :
    ({ connection with stage := .session } : Connection).slot keyId =
      if keyId = connection.source.entry.keyId then 1 else 0 := by
  unfold Connection.slot
  simp [eq_comm]

theorem holders_grant {id : ℕ} {connection : Connection}
    (hlookup : state.connections.lookup id = some connection)
    (hbefore : connection.stage ≠ .session) :
    (setStage state id connection .session).holders =
      Function.update state.holders connection.source.entry.keyId
        (state.holders connection.source.entry.keyId + 1) := by
  funext keyId
  have hinsert := holders_insert state.connections id { connection with stage := .session } keyId
  rw [hlookup, Option.elim_some, slot_of_stage_ne hbefore, slot_session] at hinsert
  rw [Function.update_apply]
  split_ifs at hinsert ⊢ with hkey
  · rw [← hkey]
    exact hinsert
  · exact hinsert

theorem holders_drop {id : ℕ} {connection : Connection}
    (hlookup : state.connections.lookup id = some connection)
    (hsession : connection.stage = .session) :
    (({ state with connections := state.connections.erase id } : State).holders =
      Function.update state.holders connection.source.entry.keyId
        (state.holders connection.source.entry.keyId - 1)) ∧
      state.holders connection.source.entry.keyId ≠ 0 := by
  have hslot (keyId : KeyId) :
      connection.slot keyId = if keyId = connection.source.entry.keyId then 1 else 0 := by
    rw [← slot_session connection keyId, ← hsession]
  have herase (keyId : KeyId) := holders_erase state.connections id keyId
  simp only [hlookup, Option.elim_some, hslot] at herase
  have hself := herase connection.source.entry.keyId
  rw [if_pos rfl] at hself
  constructor
  · funext keyId
    rw [Function.update_apply]
    have hkeyId := herase keyId
    split_ifs at hkeyId ⊢ with hkey
    · rw [← hkey]
      exact Nat.eq_sub_of_add_eq hkeyId
    · exact hkeyId
  · intro hzero
    rw [State.holders] at hzero
    omega

theorem accounts_connect (h : Accounts state.sessions state.holders) {id : ℕ} {peer : Ipv4Addr}
    (hstep : connectionStep state (.connect id peer) = some (next, emitted)) :
    Accounts next.sessions next.holders := by
  simp only [connectionStep] at hstep
  split at hstep
  · cases hstep
  · split_ifs at hstep with hid
    split at hstep
    · obtain ⟨rfl, -⟩ := Prod.mk.inj (Option.some.inj hstep)
      exact h
    · rename_i source _
      split_ifs at hstep
      · obtain ⟨rfl, -⟩ := Prod.mk.inj (Option.some.inj hstep)
        exact h
      · obtain ⟨rfl, -⟩ := Prod.mk.inj (Option.some.inj hstep)
        rw [holders_connect (AList.lookup_eq_none.mpr hid) (by simp)]
        exact h

/-- Every step of a connection keeps the accounts. -/
theorem accounts_connectionStep (h : Accounts state.sessions state.holders)
    (hfew : FewHolders state event)
    (hstep : connectionStep state event = some (next, emitted)) :
    Accounts next.sessions next.holders := by
  cases event with
  | connect id peer => exact accounts_connect h hstep
  | handshake id =>
    obtain ⟨connection, hlookup, hstage⟩ := Option.bind_eq_some_iff.mp hstep
    split at hstage
    · rename_i hbefore
      obtain ⟨rfl, -⟩ := Prod.mk.inj (Option.some.inj hstage)
      rw [holders_setStage hlookup (by simp [hbefore]) (by simp)]
      exact h
    · rename_i hbefore
      obtain ⟨rfl, -⟩ := Prod.mk.inj (Option.some.inj hstage)
      rw [holders_setStage hlookup (by simp [hbefore]) (by simp)]
      exact h
    · cases hstage
  | readMsg3 id remoteStatic =>
    obtain ⟨connection, hlookup, hstage⟩ := Option.bind_eq_some_iff.mp hstep
    split at hstage
    · rename_i hbefore
      split_ifs at hstage
      · obtain ⟨rfl, -⟩ := Prod.mk.inj (Option.some.inj hstage)
        rw [holders_setStage hlookup (by simp [hbefore]) (by simp)]
        exact h
      · obtain ⟨rfl, -⟩ := Prod.mk.inj (Option.some.inj hstage)
        rw [holders_close hlookup (by simp [hbefore])]
        exact h
    · cases hstage
  | acquire id =>
    obtain ⟨connection, hlookup, hstage⟩ := Option.bind_eq_some_iff.mp hstep
    split at hstage
    · rename_i hbefore
      dsimp only at hstage
      split_ifs at hstage with hgranted
      · obtain ⟨rfl, -⟩ := Prod.mk.inj (Option.some.inj hstage)
        have hholders := holders_grant hlookup (by simp [hbefore])
        change Accounts _ (setStage state id connection .session).holders
        rw [hholders]
        exact h.grant (hfew _) hgranted
      · obtain ⟨rfl, -⟩ := Prod.mk.inj (Option.some.inj hstage)
        have hholders := holders_close hlookup (by simp [hbefore])
        change Accounts _
          ({ state with connections := state.connections.erase id } : State).holders
        rw [hholders]
        exact h.refuse (by simpa using hgranted)
    · cases hstage
  | close id =>
    obtain ⟨connection, hlookup, hnext⟩ := Option.map_eq_some_iff.mp hstep
    obtain ⟨rfl, -⟩ := Prod.mk.inj hnext
    change Accounts _ ({ state with connections := state.connections.erase id } : State).holders
    split
    · rename_i hsession
      obtain ⟨hholders, hpositive⟩ := holders_drop hlookup hsession
      rw [hholders]
      exact h.drop hpositive
    · rename_i hsession
      rw [holders_close hlookup hsession]
      exact h
  | _ => simp [connectionStep] at hstep

/-- Every step of the daemon keeps the accounts. -/
theorem accounts_step (h : Accounts state.sessions state.holders) (hfew : FewHolders state event)
    (hstep : step crypto toml host allowTtlSeconds state event = some (next, emitted)) :
    Accounts next.sessions next.holders := by
  have hsame (hequal : next.accounts = state.accounts) :
      Accounts next.sessions next.holders := by
    obtain ⟨hsessions, hconnections⟩ := Prod.mk.inj hequal
    unfold State.holders
    rw [hsessions, hconnections]
    exact h
  unfold step at hstep
  split_ifs at hstep
  cases event with
  | tick | frame | evict | httpsReceive => exact hsame (quiet_of_environmentStep hstep).accounts
  | ringNext | httpsNext => exact hsame (accounts_of_spaStep hstep)
  | stamp | kernelInsert | mirrorInsert => exact hsame (quiet_of_allowStep hstep).accounts
  | reload | purgeSelect | reapClock | reapSelect | lockMirror | removeNext | finishRemoval =>
    exact hsame (quiet_of_removalStep hstep).accounts
  | connect | handshake | readMsg3 | acquire | close => exact accounts_connectionStep h hfew hstep

/-- In every run of the daemon the counts are the numbers of connections in a session. -/
theorem run_accounts {now : UInt64} {config : Option BpfConfig} {verifier : SpaVerifier}
    {files : FileSystem} {events : List Event} {outputs : List Output} {last : State}
    (hrun : Run (step crypto toml host allowTtlSeconds) FewHolders
      (start now config verifier files) events outputs last) :
    Accounts last.sessions last.holders :=
  hrun.invariant (fun _ state ↦ Accounts state.sessions state.holders) Accounts.empty
    fun _ _ _ _ _ h hfew hstep ↦ accounts_step h hfew hstep

end Daemon

end Ghostbro
