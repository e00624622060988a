import Mathlib.Data.List.Basic

/-!
# Runs of partial labelled machines

A machine is a partial step function: in each state an event is either disabled, or it moves to
one next state and emits at most one output.  Nondeterminism lives in the events.  A run records
its events and its outputs in order, so that safety statements can speak about the whole history
of a run and not only about its last state.

Runs carry a guard that every step has to meet in the state before it.  The guard `unrestricted`
gives all runs; other guards name the runs in which a given branch of the program is not taken.
The rules `Run.invariant`, `Run.history`, `Run.since` and `Run.simulate` are the only inductions
over runs that later modules need.
-/

namespace Ghostbro.Machine

variable {State Event Output : Type*}

/-- A partial step function with at most one output for each step. -/
abbrev Step (State Event Output : Type*) := State → Event → Option (State × Option Output)

/-- The guard that every step meets. -/
def unrestricted (_ : State) (_ : Event) : Prop := True

instance (state : State) (event : Event) : Decidable (unrestricted state event) := .isTrue trivial

/-- `Run step guard start events outputs last`: the events lead from `start` to `last`, every
step meets the guard in the state before it, and `outputs` are the emitted outputs in order. -/
inductive Run (step : Step State Event Output) (guard : State → Event → Prop) (start : State) :
    List Event → List Output → State → Prop
  | nil : Run step guard start [] [] start
  | snoc {events : List Event} {outputs : List Output} {state next : State} {event : Event}
      {emitted : Option Output} :
      Run step guard start events outputs state → guard state event →
      step state event = some (next, emitted) →
      Run step guard start (events ++ [event]) (outputs ++ emitted.toList) next

/-- `property before output` holds for each output of the list and the outputs before it. -/
def EachAfter (property : List Output → Output → Prop) (outputs : List Output) : Prop :=
  ∀ before output after, outputs = before ++ output :: after → property before output

theorem eachAfter_nil (property : List Output → Output → Prop) : EachAfter property [] := by
  intro before output after h
  simp at h

theorem EachAfter.snoc {property : List Output → Output → Prop} {outputs : List Output}
    {output : Output} (houtputs : EachAfter property outputs) (hlast : property outputs output) :
    EachAfter property (outputs ++ [output]) := by
  intro before middle after h
  rcases List.eq_nil_or_concat after with rfl | ⟨after', last, rfl⟩
  · obtain ⟨rfl, hsingle⟩ := List.append_inj' h rfl
    obtain rfl : output = middle := by simpa using hsingle
    exact hlast
  · have h' : outputs ++ [output] = (before ++ middle :: after') ++ [last] := by simpa using h
    exact houtputs before middle after' (List.append_inj_left' h' rfl)

/-- Appending the output of one step, if it has one. -/
theorem EachAfter.append_toList {property : List Output → Output → Prop} {outputs : List Output}
    {emitted : Option Output} (houtputs : EachAfter property outputs)
    (hlast : ∀ output ∈ emitted, property outputs output) :
    EachAfter property (outputs ++ emitted.toList) := by
  cases emitted with
  | none => simpa using houtputs
  | some output => exact houtputs.snoc (hlast output rfl)

/-- A relation that holds from every earlier output to each output holds pairwise. -/
theorem EachAfter.pairwise {relation : Output → Output → Prop} {outputs : List Output}
    (h : EachAfter (fun before output ↦ ∀ earlier ∈ before, relation earlier output) outputs) :
    outputs.Pairwise relation := by
  rw [List.pairwise_iff_getElem]
  intro i j hi hj hij
  have hsplit : outputs = outputs.take j ++ outputs[j] :: outputs.drop (j + 1) := by
    rw [List.getElem_cons_drop, List.take_append_drop]
  refine h _ _ _ hsplit _ ?_
  rw [List.mem_take_iff_getElem]
  exact ⟨i, by omega, rfl⟩

/-- Some output of the history opens a period, and no output after it closes the period. -/
def Since (opens closes : Output → Prop) (outputs : List Output) : Prop :=
  ∃ before output after, outputs = before ++ output :: after ∧ opens output ∧
    ∀ later ∈ after, ¬closes later

/-- A period of a longer history was opened by the last step, or before it and not closed by it. -/
theorem since_append_toList {opens closes : Output → Prop} {outputs : List Output}
    {emitted : Option Output} (h : Since opens closes (outputs ++ emitted.toList)) :
    (∃ output ∈ emitted, opens output) ∨
      Since opens closes outputs ∧ ∀ output ∈ emitted, ¬closes output := by
  cases emitted with
  | none => exact .inr ⟨by simpa using h, by simp⟩
  | some last =>
    obtain ⟨before, output, after, heq, hopens, hafter⟩ := h
    rcases List.eq_nil_or_concat after with rfl | ⟨after', last', rfl⟩
    · have hlast : last = output := by
        simpa using congrArg List.getLast? heq
      exact .inl ⟨output, by rw [hlast]; rfl, hopens⟩
    · have heq' : outputs ++ [last] = (before ++ output :: after') ++ [last'] := by
        simpa using heq
      obtain ⟨hfront, hlast⟩ := List.append_inj' heq' rfl
      obtain rfl : last = last' := by simpa using hlast
      refine .inr ⟨⟨before, output, after', hfront, hopens, fun later hlater ↦ ?_⟩, ?_⟩
      · exact hafter later (by simp [hlater])
      · intro output houtput
        obtain rfl : last = output := by simpa using houtput
        exact hafter last (by simp)

namespace Run

variable {step : Step State Event Output} {guard : State → Event → Prop} {start last : State}
  {events : List Event} {outputs : List Output}

/-- A relation between history and state that every guarded step keeps holds after every run. -/
theorem invariant (inv : List Output → State → Prop) (hstart : inv [] start)
    (hstep : ∀ outputs state event next emitted, inv outputs state → guard state event →
      step state event = some (next, emitted) → inv (outputs ++ emitted.toList) next)
    (hrun : Run step guard start events outputs last) : inv outputs last := by
  induction hrun with
  | nil => exact hstart
  | snoc _ hguard hnext ih => exact hstep _ _ _ _ _ ih hguard hnext

/-- An invariant that also decides what each step may emit after the outputs so far. -/
theorem history (inv : List Output → State → Prop) {property : List Output → Output → Prop}
    (hstart : inv [] start)
    (hstep : ∀ outputs state event next emitted, inv outputs state → guard state event →
      step state event = some (next, emitted) → inv (outputs ++ emitted.toList) next)
    (hemit : ∀ outputs state event next output, inv outputs state → guard state event →
      step state event = some (next, some output) → property outputs output)
    (hrun : Run step guard start events outputs last) : EachAfter property outputs := by
  induction hrun with
  | nil => exact eachAfter_nil property
  | @snoc events outputs state next event emitted hbefore hguard hnext ih =>
    have hinv : inv outputs state := invariant inv hstart hstep hbefore
    refine ih.append_toList fun output houtput ↦ ?_
    obtain rfl : emitted = some output := houtput
    exact hemit outputs state event next output hinv hguard hnext

/-- What every opening step establishes and every step that does not close keeps, holds in every
open period. -/
theorem since (inv holds : State → Prop) {opens closes : Output → Prop} (hstart : inv start)
    (hstep : ∀ state event next emitted, inv state → guard state event →
      step state event = some (next, emitted) → inv next)
    (hopens : ∀ state event next output, inv state → guard state event →
      step state event = some (next, some output) → opens output → holds next)
    (hkeeps : ∀ state event next emitted, inv state → holds state → guard state event →
      step state event = some (next, emitted) → (∀ output ∈ emitted, ¬closes output) →
      holds next)
    (hrun : Run step guard start events outputs last) (hsince : Since opens closes outputs) :
    holds last := by
  induction hrun with
  | nil =>
    obtain ⟨before, output, after, heq, _⟩ := hsince
    simp at heq
  | @snoc events outputs state next event emitted hbefore hguard hnext ih =>
    have hinv : inv state :=
      invariant (fun _ state ↦ inv state) hstart
        (fun _ state event next emitted ↦ hstep state event next emitted) hbefore
    rcases since_append_toList hsince with ⟨output, houtput, hopen⟩ | ⟨hopened, hclosed⟩
    · obtain rfl : emitted = some output := houtput
      exact hopens state event next output hinv hguard hnext hopen
    · exact hkeeps state event next emitted hinv (ih hopened) hguard hnext hclosed

/-- What holds of all events of a run may be assumed of each step. -/
theorem restrict {allowed : Event → Prop} (hrun : Run step guard start events outputs last)
    (hevents : ∀ event ∈ events, allowed event) :
    Run step (fun state event ↦ guard state event ∧ allowed event) start events outputs last := by
  induction hrun with
  | nil => exact .nil
  | snoc _ hguard hnext ih =>
    have hbefore := ih fun event hevent ↦ hevents event (List.mem_append_left _ hevent)
    exact hbefore.snoc ⟨hguard, hevents _ (by simp)⟩ hnext

/-- The last step of a run. -/
theorem last_step {event : Event} (hrun : Run step guard start (events ++ [event]) outputs last) :
    ∃ outputs' state emitted, Run step guard start events outputs' state ∧
      guard state event ∧ step state event = some (last, emitted) := by
  generalize hevents : events ++ [event] = all at hrun
  cases hrun with
  | nil => simp at hevents
  | snoc hbefore hguard hnext =>
    obtain ⟨rfl, hsingle⟩ := List.append_inj' hevents rfl
    obtain rfl := List.singleton_inj.mp hsingle
    exact ⟨_, _, _, hbefore, hguard, hnext⟩

/-- The events of a run up to some point are a run of their own. -/
theorem exists_before {before after : List Event}
    (hrun : Run step guard start (before ++ after) outputs last) :
    ∃ outputs' middle, Run step guard start before outputs' middle := by
  generalize hevents : before ++ after = events at hrun
  induction hrun generalizing after with
  | nil =>
    obtain rfl : before = [] := (List.append_eq_nil_iff.mp hevents).1
    exact ⟨[], start, .nil⟩
  | @snoc events outputs state next event emitted hbefore hguard hnext ih =>
    rcases List.eq_nil_or_concat after with rfl | ⟨after', last, rfl⟩
    · obtain rfl : before = events ++ [event] := by simpa using hevents
      exact ⟨_, next, hbefore.snoc hguard hnext⟩
    · have hevents' : (before ++ after') ++ [last] = events ++ [event] := by simpa using hevents
      exact ih (List.append_inj' hevents' rfl).1

/-- Runs compose. -/
theorem append {middle : State} {events' : List Event} {outputs' : List Output}
    (hfirst : Run step guard start events outputs middle)
    (hsecond : Run step guard middle events' outputs' last) :
    Run step guard start (events ++ events') (outputs ++ outputs') last := by
  induction hsecond with
  | nil => simpa using hfirst
  | snoc _ hguard hnext ih =>
    rw [← List.append_assoc, ← List.append_assoc]
    exact ih.snoc hguard hnext

/-- A machine whose steps are steps of another one, or leave its state alone and emit nothing, has
only runs of that machine. -/
theorem simulate {State' Event' : Type*} {step' : Step State' Event' Output}
    {guard' : State' → Event' → Prop} (abstract : State → State') (label : Event → Option Event')
    (hsilent : ∀ state event next emitted, guard state event → label event = none →
      step state event = some (next, emitted) → abstract next = abstract state ∧ emitted = none)
    (hstep : ∀ state event event' next emitted, guard state event → label event = some event' →
      step state event = some (next, emitted) →
      guard' (abstract state) event' ∧
        step' (abstract state) event' = some (abstract next, emitted))
    (hrun : Run step guard start events outputs last) :
    Run step' guard' (abstract start) (events.filterMap label) outputs (abstract last) := by
  induction hrun with
  | nil => exact .nil
  | @snoc events outputs state next event emitted _ hguard hnext ih =>
    cases hlabel : label event with
    | none =>
      obtain ⟨hsame, rfl⟩ := hsilent state event next emitted hguard hlabel hnext
      simpa [hlabel, hsame] using ih
    | some event' =>
      obtain ⟨hguard', hnext'⟩ := hstep state event event' next emitted hguard hlabel hnext
      simpa [hlabel] using ih.snoc hguard' hnext'

end Run

/-- Take one step after the other, as long as each is enabled and meets the guard. -/
def exec (step : Step State Event Output) (guard : State → Event → Prop)
    [∀ state event, Decidable (guard state event)] :
    State → List Event → Option (State × List Output)
  | state, [] => some (state, [])
  | state, event :: events =>
    if guard state event then
      (step state event).bind fun (next, emitted) ↦
        (exec step guard next events).map fun (last, outputs) ↦
          (last, emitted.toList ++ outputs)
    else none

section Exec

variable {step : Step State Event Output} {guard : State → Event → Prop}
  [∀ state event, Decidable (guard state event)] {start last : State} {events : List Event}
  {outputs : List Output}

/-- What is executed is a run. -/
theorem run_of_exec (h : exec step guard start events = some (last, outputs)) :
    Run step guard start events outputs last := by
  induction events generalizing start outputs with
  | nil =>
    cases h
    exact .nil
  | cons event events ih =>
    obtain ⟨hguard, hrest⟩ := Option.ite_none_right_eq_some.mp h
    obtain ⟨⟨next, emitted⟩, hstep, hrest⟩ := Option.bind_eq_some_iff.mp hrest
    obtain ⟨⟨final, others⟩, hexec, heq⟩ := Option.map_eq_some_iff.mp hrest
    cases heq
    have hfirst : Run step guard start [event] emitted.toList next := Run.nil.snoc hguard hstep
    exact hfirst.append (ih hexec)

/-- A run that ends as a check demands. -/
theorem exists_run_of_exec {check : State × List Output → Bool}
    (h : (exec step guard start events).any check) :
    ∃ outputs last, Run step guard start events outputs last ∧ check (last, outputs) = true := by
  obtain ⟨⟨last, outputs⟩, hexec, hcheck⟩ := (Option.any_eq_true _ _).mp h
  exact ⟨outputs, last, run_of_exec hexec, hcheck⟩

end Exec

end Ghostbro.Machine
