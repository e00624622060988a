import Ghostbro.Server.Gate

/-!
# Lookups in flight

The XDP program runs beside `run_spa`.  `is_allowed` reads the entry of an address and, if it has
expired, removes the address in a second step; a new entry that `allow_source` writes in between is
removed, too.  This machine has the server together with the lookups that are between their two
steps.  The daemon cannot tell a late removal from an eviction by the kernel, so its runs are those
of the daemon.
-/

namespace Ghostbro.Daemon

open Machine

/-- The server, and the addresses that `is_allowed` is looking up with the entries it has read. -/
structure LookupState where
  daemon : State
  lookups : List (UInt32 × AllowEntry)

inductive LookupEvent
  /-- A step of the daemon; the lookup of a frame comes to its end before the next step. -/
  | daemon (event : Event)
  /-- `is_allowed` gets the entry of an address. -/
  | get (srcIp : UInt32)
  /-- Its entry has expired, and it removes the address. -/
  | remove (srcIp : UInt32) (entry : AllowEntry)
  /-- Its entry has not expired. -/
  | allow (srcIp : UInt32) (entry : AllowEntry)

/-- What the daemon notices of an event. -/
def LookupEvent.noticed : LookupEvent → Option Event
  | .daemon event => some event
  | .remove srcIp _ => some (.evict srcIp)
  | .get _ | .allow _ _ => none

section Steps

variable (crypto : Crypto) (toml : Toml) (host : Endian) (allowTtlSeconds : UInt64)

/-- One event of the server and the XDP programs. -/
def lookupStep : Step LookupState LookupEvent Output := fun state event ↦
  match event with
  | .daemon event =>
    (step crypto toml host allowTtlSeconds state.daemon event).map fun (next, emitted) ↦
      ({ state with daemon := next }, emitted)
  | .get srcIp =>
    (state.daemon.maps.allowMap.lookup srcIp).map fun entry ↦
      ({ state with lookups := (srcIp, entry) :: state.lookups }, none)
  | .remove srcIp entry =>
    if (srcIp, entry) ∈ state.lookups ∧ entry.expiryNs ≤ state.daemon.now then
      -- the address is removed with whatever entry it has by now
      (step crypto toml host allowTtlSeconds state.daemon (.evict srcIp)).map
        fun (next, emitted) ↦ (⟨next, state.lookups.erase (srcIp, entry)⟩, emitted)
    else none
  | .allow srcIp entry =>
    if (srcIp, entry) ∈ state.lookups ∧ state.daemon.now < entry.expiryNs then
      some ({ state with lookups := state.lookups.erase (srcIp, entry) }, none)
    else none

end Steps

variable {crypto : Crypto} {toml : Toml} {host : Endian} {allowTtlSeconds : UInt64}
  {state next last : LookupState} {event : LookupEvent} {emitted : Option Output}

/-- What an event can do. -/
inductive LookupStepped (crypto : Crypto) (toml : Toml) (host : Endian) (allowTtlSeconds : UInt64)
    (state : LookupState) : LookupEvent → LookupState → Option Output → Prop
  | daemon {event : Event} {after : State} {emitted : Option Output} :
      step crypto toml host allowTtlSeconds state.daemon event = some (after, emitted) →
      LookupStepped crypto toml host allowTtlSeconds state (.daemon event)
        ⟨after, state.lookups⟩ emitted
  | get {srcIp : UInt32} {entry : AllowEntry} :
      state.daemon.maps.allowMap.lookup srcIp = some entry →
      LookupStepped crypto toml host allowTtlSeconds state (.get srcIp)
        ⟨state.daemon, (srcIp, entry) :: state.lookups⟩ none
  | remove {srcIp : UInt32} {entry : AllowEntry} {after : State} :
      (srcIp, entry) ∈ state.lookups → entry.expiryNs ≤ state.daemon.now →
      step crypto toml host allowTtlSeconds state.daemon (.evict srcIp) = some (after, none) →
      LookupStepped crypto toml host allowTtlSeconds state (.remove srcIp entry)
        ⟨after, state.lookups.erase (srcIp, entry)⟩ none
  | allow {srcIp : UInt32} {entry : AllowEntry} :
      (srcIp, entry) ∈ state.lookups → state.daemon.now < entry.expiryNs →
      LookupStepped crypto toml host allowTtlSeconds state (.allow srcIp entry)
        ⟨state.daemon, state.lookups.erase (srcIp, entry)⟩ none

theorem quiet_of_evict {before after : State} {srcIp : UInt32}
    (hstep : step crypto toml host allowTtlSeconds before (.evict srcIp) = some (after, emitted)) :
    emitted = none := by
  unfold step at hstep
  split_ifs at hstep
  exact (congrArg Prod.snd (Option.some.inj hstep)).symm

theorem lookupStepped_of_lookupStep
    (h : lookupStep crypto toml host allowTtlSeconds state event = some (next, emitted)) :
    LookupStepped crypto toml host allowTtlSeconds state event next emitted := by
  cases event with
  | daemon event =>
    obtain ⟨⟨after, emitted⟩, hstep, heq⟩ := Option.map_eq_some_iff.mp h
    cases heq
    exact .daemon hstep
  | get srcIp =>
    obtain ⟨entry, hlookup, heq⟩ := Option.map_eq_some_iff.mp h
    cases heq
    exact .get hlookup
  | remove srcIp entry =>
    obtain ⟨⟨hlookup, hexpired⟩, h⟩ := Option.ite_none_right_eq_some.mp h
    obtain ⟨⟨after, emitted⟩, hstep, heq⟩ := Option.map_eq_some_iff.mp h
    cases heq
    obtain rfl := quiet_of_evict hstep
    exact .remove hlookup hexpired hstep
  | allow srcIp entry =>
    obtain ⟨⟨hlookup, hlive⟩, h⟩ := Option.ite_none_right_eq_some.mp h
    cases h
    exact .allow hlookup hlive

theorem lookupStep_daemon {before after : State} {event : Event}
    (lookups : List (UInt32 × AllowEntry))
    (hstep : step crypto toml host allowTtlSeconds before event = some (after, emitted)) :
    lookupStep crypto toml host allowTtlSeconds ⟨before, lookups⟩ (.daemon event) =
      some (⟨after, lookups⟩, emitted) := by
  unfold lookupStep
  simp only [hstep, Option.map_some]

/-! ### The daemon of a run -/

/-- The daemon runs as if late removals were evictions. -/
theorem run_daemon {guard : LookupState → LookupEvent → Prop} {events : List LookupEvent}
    {outputs : List Output}
    (hrun : Run (lookupStep crypto toml host allowTtlSeconds) guard state events outputs last) :
    Run (step crypto toml host allowTtlSeconds) unrestricted state.daemon
      (events.filterMap LookupEvent.noticed) outputs last.daemon := by
  refine hrun.simulate LookupState.daemon LookupEvent.noticed ?_ ?_
  · intro state event next emitted _ hsilent hstep
    cases lookupStepped_of_lookupStep hstep with
    | daemon _ | remove _ _ _ => cases hsilent
    | get _ | allow _ _ => exact ⟨rfl, rfl⟩
  · intro state event event' next emitted _ hnoticed hstep
    refine ⟨trivial, ?_⟩
    cases lookupStepped_of_lookupStep hstep with
    | daemon hdaemon | remove _ _ hdaemon =>
      obtain rfl := Option.some.inj hnoticed
      exact hdaemon
    | get _ | allow _ _ => cases hnoticed

/-- A run of the daemon while no lookup makes a step. -/
theorem run_lookups {before after : State} {events : List Event} {outputs : List Output}
    (lookups : List (UInt32 × AllowEntry))
    (hrun : Run (step crypto toml host allowTtlSeconds) unrestricted before events outputs after) :
    Run (lookupStep crypto toml host allowTtlSeconds) unrestricted ⟨before, lookups⟩
      (events.map .daemon) outputs ⟨after, lookups⟩ := by
  rw [← List.filterMap_eq_map]
  refine hrun.simulate (fun state ↦ (⟨state, lookups⟩ : LookupState))
    (some ∘ LookupEvent.daemon) ?_ ?_
  · intro _ _ _ _ _ hsilent
    cases hsilent
  · intro state event event' next emitted _ hlabel hstep
    obtain rfl := Option.some.inj hlabel
    exact ⟨trivial, lookupStep_daemon lookups hstep⟩

end Ghostbro.Daemon
