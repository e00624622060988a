import Ghostbro.Client.Counter

/-!
# Client processes that share a counter file

The processes of one identity read and write the same counter file, and nothing orders the read of
one process and the write of another: `counter_lock` belongs to one process, so that each has at
most one call between its read and its write.  A write that finds a number it has not read, and
that is not below its own timestamp, issues a counter that is not new, or takes the file back.
-/

namespace Ghostbro.Client.Race

open Machine

/-- A call between its two halves: what it read, and its timestamp. -/
structure Call where
  current : UInt64
  floor : UInt64
  deriving DecidableEq

/-- The shared file, and the calls of the processes that have read it. -/
structure State where
  file : CounterFile
  calls : HashMap ℕ Call
  deriving DecidableEq

inductive Event
  /-- A process calls `next_counter` and reads the file. -/
  | read (process : ℕ) (floor : UInt64) (readFails : Bool)
  /-- The call of the process writes the file. -/
  | write (process : ℕ) (fault : Option WriteFault)
  /-- The process dies between the two halves of its call. -/
  | exit (process : ℕ)

/-- One half of a call; a successful write emits the counter that the call returns. -/
def step (path : String) : Step State Event UInt64
  | state, .read process floor readFails =>
    if process ∈ state.calls then none
    else
      match readCounter path state.file readFails with
      | .error _ => some (state, none)
      | .ok current =>
        some ({ state with calls := state.calls.insert process ⟨current, floor⟩ }, none)
  | state, .write process fault =>
    (state.calls.lookup process).map fun call ↦
      let written := writeCounter path state.file (chooseCounter call.current call.floor) fault
      (⟨written.1, state.calls.erase process⟩, written.2.toOption)
  | state, .exit process => some ({ state with calls := state.calls.erase process }, none)

/-- No two calls returned one counter, and the file is not behind any of them. -/
structure Distinct (counters : List UInt64) (file : CounterFile) : Prop where
  nodup : counters.Nodup
  ahead : ∀ counter ∈ counters, ∃ value, stored file = some value ∧ counter ≤ value

/-- The file is below the timestamp of the call, or has not moved past what the call read. -/
def UpToDate (file : CounterFile) (call : Call) : Prop :=
  file = none ∨ ∃ value, stored file = some value ∧
    (value < call.floor ∨ value ≤ call.current ∧ value.toNat < 2 ^ 64 - 1)

/-- Every write that goes through finds the file up to date, and no write fails after it has
truncated the file. -/
def InTurn (state : State) : Event → Prop
  | .write process none => ∀ call, state.calls.lookup process = some call →
    UpToDate state.file call
  | .write _ (some .write) => False
  | _ => True

/-- The counter of an up-to-date call is above the number in the file. -/
theorem lt_chooseCounter_iff {call : Call} {value : UInt64} :
    value < chooseCounter call.current call.floor ↔
      value < call.floor ∨ value ≤ call.current ∧ value.toNat < 2 ^ 64 - 1 := by
  have hbound := value.toNat_lt
  rw [UInt64.lt_iff_toNat_lt, UInt64.lt_iff_toNat_lt, UInt64.le_iff_toNat_le, toNat_chooseCounter]
  omega

variable {path : String} {state next : State} {event : Event} {emitted : Option UInt64}
  {counters : List UInt64}

/-- A step leaves the file alone, or truncates it, or writes the counter that it emits. -/
theorem step_cases (hstep : step path state event = some (next, emitted)) :
    (emitted = none ∧ (next.file = state.file ∨
      ∃ process, event = .write process (some .write) ∧ next.file = some "")) ∨
    ∃ process call, event = .write process none ∧ state.calls.lookup process = some call ∧
      next.file = some (counterText (chooseCounter call.current call.floor)) ∧
      emitted = some (chooseCounter call.current call.floor) := by
  cases event with
  | read process floor readFails =>
    simp only [step] at hstep
    split_ifs at hstep
    split at hstep
    · obtain ⟨rfl, rfl⟩ := Prod.mk.inj (Option.some.inj hstep)
      exact .inl ⟨rfl, .inl rfl⟩
    · obtain ⟨rfl, rfl⟩ := Prod.mk.inj (Option.some.inj hstep)
      exact .inl ⟨rfl, .inl rfl⟩
  | write process fault =>
    obtain ⟨call, hcall, hnext⟩ := Option.map_eq_some_iff.mp hstep
    obtain ⟨rfl, rfl⟩ := Prod.mk.inj hnext
    cases fault with
    | none => exact .inr ⟨process, call, rfl, hcall, rfl, rfl⟩
    | some fault =>
      cases fault with
      | openFile => exact .inl ⟨rfl, .inl rfl⟩
      | write => exact .inl ⟨rfl, .inr ⟨process, rfl, rfl⟩⟩
  | exit process =>
    obtain ⟨rfl, rfl⟩ := Prod.mk.inj (Option.some.inj hstep)
    exact .inl ⟨rfl, .inl rfl⟩

/-- A write in its turn issues a counter above all others and leaves it in the file. -/
theorem distinct_step (h : Distinct counters state.file) (hturn : InTurn state event)
    (hstep : step path state event = some (next, emitted)) :
    Distinct (counters ++ emitted.toList) next.file := by
  rcases step_cases hstep with ⟨rfl, hfile⟩ | ⟨process, call, rfl, hcall, hfile, rfl⟩
  · rw [Option.toList_none, List.append_nil]
    rcases hfile with hsame | ⟨process, rfl, -⟩
    · rw [hsame]
      exact h
    · exact hturn.elim
  · have hbelow : ∀ counter ∈ counters, counter < chooseCounter call.current call.floor := by
      intro counter hcounter
      obtain ⟨value, hvalue, hle⟩ := h.ahead counter hcounter
      rcases hturn call hcall with hnone | ⟨value', hvalue', hnew⟩
      · rw [hnone, stored_none] at hvalue
        cases hvalue
      · obtain rfl := Option.some.inj (hvalue.symm.trans hvalue')
        exact UInt64.lt_of_le_of_lt hle (lt_chooseCounter_iff.mpr hnew)
    rw [hfile, Option.toList_some]
    constructor
    · apply List.nodup_append.mpr
      refine ⟨h.nodup, List.nodup_singleton _, fun counter hcounter last hlast ↦ ?_⟩
      rw [List.mem_singleton.mp hlast]
      exact UInt64.ne_of_lt (hbelow counter hcounter)
    · intro counter hcounter
      refine ⟨_, stored_counterText _, ?_⟩
      rcases List.mem_append.mp hcounter with hmem | hmem
      · exact UInt64.le_of_lt (hbelow counter hmem)
      · rw [List.mem_singleton.mp hmem]
        exact UInt64.le_refl _

/-- The other direction: a write that finds a counter already issued and is not up to date repeats
it or takes the file back behind it. -/
theorem not_distinct_of_overtaken {process : ℕ} {call : Call} {value : UInt64}
    (hcall : state.calls.lookup process = some call) (hvalue : stored state.file = some value)
    (hissued : value ∈ counters) (hovertaken : ¬UpToDate state.file call)
    (hstep : step path state (.write process none) = some (next, emitted)) :
    ¬Distinct (counters ++ emitted.toList) next.file := by
  intro hdistinct
  rw [step, hcall] at hstep
  obtain ⟨rfl, rfl⟩ := Prod.mk.inj (Option.some.inj hstep)
  have hle : ¬value < chooseCounter call.current call.floor := by
    intro hlt
    exact hovertaken (.inr ⟨value, hvalue, lt_chooseCounter_iff.mp hlt⟩)
  obtain ⟨kept, hkept, hahead⟩ := hdistinct.ahead value (List.mem_append_left _ hissued)
  have hfile : stored (writeCounter path state.file (chooseCounter call.current call.floor)
      none).1 = some (chooseCounter call.current call.floor) := stored_counterText _
  obtain rfl := Option.some.inj (hfile.symm.trans hkept)
  have heq := UInt64.le_antisymm hahead (UInt64.not_lt.mp hle)
  rw [heq] at hissued
  exact (List.nodup_append.mp hdistinct.nodup).2.2 _ hissued _ (List.mem_singleton_self _) rfl

/-- In every run of any number of processes whose writes come in turn, no two calls return the same
counter, and the file is never behind a counter that was issued. -/
theorem counters_distinct_in_turn (path : String) (file : CounterFile) (events : List Event)
    (counters : List UInt64) (last : State)
    (hrun : Run (step path) InTurn ⟨file, ∅⟩ events counters last) :
    counters.Nodup ∧ ∀ counter ∈ counters, ∃ value,
      stored last.file = some value ∧ counter ≤ value := by
  have hdistinct := hrun.invariant (fun counters state ↦ Distinct counters state.file)
    ⟨List.nodup_nil, by simp⟩ fun _ _ _ _ _ h hturn hstep ↦ distinct_step h hturn hstep
  exact ⟨hdistinct.nodup, hdistinct.ahead⟩

/-- The file with calls in progress. -/
def sampleState (counter : UInt64) (calls : List (ℕ × Call)) : State :=
  ⟨some (counterText counter), HashMap.collect calls⟩

/-- Two processes one after the other, with a clock that stands still. -/
theorem counters_distinct_in_turn_sample :
    ([1000, 1001] : List UInt64).Nodup ∧ ∀ counter ∈ ([1000, 1001] : List UInt64), ∃ value,
      stored (sampleState 1001 []).file = some value ∧ counter ≤ value := by
  have hread₁ : step "id.counter" (sampleState 5 []) (.read 0 1000 false) =
      some (sampleState 5 [(0, ⟨5, 1000⟩)], none) := by decide +kernel
  have hwrite₁ : step "id.counter" (sampleState 5 [(0, ⟨5, 1000⟩)]) (.write 0 none) =
      some (sampleState 1000 [], some 1000) := by decide +kernel
  have hread₂ : step "id.counter" (sampleState 1000 []) (.read 1 1000 false) =
      some (sampleState 1000 [(1, ⟨1000, 1000⟩)], none) := by decide +kernel
  have hwrite₂ : step "id.counter" (sampleState 1000 [(1, ⟨1000, 1000⟩)]) (.write 1 none) =
      some (sampleState 1001 [], some 1001) := by decide +kernel
  have hturn₁ : InTurn (sampleState 5 [(0, ⟨5, 1000⟩)]) (.write 0 none) := by
    intro call hcall
    obtain rfl := Option.some.inj hcall
    exact .inr ⟨5, stored_counterText 5, .inl (by decide)⟩
  have hturn₂ : InTurn (sampleState 1000 [(1, ⟨1000, 1000⟩)]) (.write 1 none) := by
    intro call hcall
    obtain rfl := Option.some.inj hcall
    exact .inr ⟨1000, stored_counterText 1000, .inr ⟨by decide, by decide⟩⟩
  have hfree (state : State) (process : ℕ) : InTurn state (.read process 1000 false) := trivial
  have hnil : Run (step "id.counter") InTurn (sampleState 5 []) [] [] (sampleState 5 []) := .nil
  have hrun := (((hnil.snoc (hfree _ 0) hread₁).snoc hturn₁ hwrite₁).snoc (hfree _ 1) hread₂).snoc
    hturn₂ hwrite₂
  exact counters_distinct_in_turn _ _ _ _ _ hrun

/-- Two processes with one timestamp that both read the file before either writes it. -/
theorem counter_issued_twice :
    ∃ events counters last, Run (step "id.counter") unrestricted (sampleState 5 []) events counters
      last ∧ ¬counters.Nodup := by
  have hread₁ : step "id.counter" (sampleState 5 []) (.read 0 1000 false) =
      some (sampleState 5 [(0, ⟨5, 1000⟩)], none) := by decide +kernel
  have hread₂ : step "id.counter" (sampleState 5 [(0, ⟨5, 1000⟩)]) (.read 1 1000 false) =
      some (sampleState 5 [(0, ⟨5, 1000⟩), (1, ⟨5, 1000⟩)], none) := by decide +kernel
  have hwrite₁ : step "id.counter" (sampleState 5 [(0, ⟨5, 1000⟩), (1, ⟨5, 1000⟩)])
      (.write 0 none) = some (sampleState 1000 [(1, ⟨5, 1000⟩)], some 1000) := by decide +kernel
  have hwrite₂ : step "id.counter" (sampleState 1000 [(1, ⟨5, 1000⟩)]) (.write 1 none) =
      some (sampleState 1000 [], some 1000) := by decide +kernel
  have hnil : Run (step "id.counter") unrestricted (sampleState 5 []) [] [] (sampleState 5 []) :=
    .nil
  have hrun := (((hnil.snoc trivial hread₁).snoc trivial hread₂).snoc trivial hwrite₁).snoc
    trivial hwrite₂
  exact ⟨_, _, _, hrun, by decide⟩

end Ghostbro.Client.Race
