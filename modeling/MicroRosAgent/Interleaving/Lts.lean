import Mathlib.Data.List.Induction

/-! # Runs of a labelled transition system

A system is a partial step function on labelled events; `none` means that the
event is not enabled.  Everything that ranges over "any interleaving" in this
development is a statement about `exec`, the run of a list of events, so the
module collects the rules such statements need:

* `exec_induction` — a property of the events so far and the state they reach;
* `exec_induction_along` — the same, when every step of the run meets a guard;
* `alongAfter_concat` — guards that also look at the events before the step;
* `simulation` — every run is matched by a run of another system, with its guard.
-/

namespace MicroRosAgent.Interleaving

/-- A labelled transition system whose step is a partial function. -/
structure Lts (State Event : Type) where
  step : State → Event → Option State

namespace Lts

variable {State Event : Type} (system : Lts State Event)

/-- The state a list of events leads to, `none` if one of them is not enabled. -/
def exec : State → List Event → Option State
  | state, [] => some state
  | state, event :: events => (system.step state event).bind fun next => exec next events

/-- Every event of the run is taken in a state that meets `guard`. -/
def Along (guard : State → Event → Prop) : State → List Event → Prop
  | _, [] => True
  | state, event :: events =>
      guard state event ∧ ∀ next, system.step state event = some next → Along guard next events

/-- `holds` is true of every state the run goes through, both ends included. -/
def Throughout (holds : State → Prop) : State → List Event → Prop
  | state, [] => holds state
  | state, event :: events =>
      holds state ∧ ∀ next, system.step state event = some next → Throughout holds next events

/-- The steps of a run, each with the state it is taken in. -/
def visits : State → List Event → List (State × Event)
  | _, [] => []
  | state, event :: events =>
      (state, event) :: ((system.step state event).map fun next => visits next events).getD []

@[simp] theorem exec_nil (state : State) : system.exec state [] = some state := rfl

theorem exec_cons (state : State) (event : Event) (events : List Event) :
    system.exec state (event :: events) =
      (system.step state event).bind fun next => system.exec next events := rfl

theorem exec_singleton (state : State) (event : Event) :
    system.exec state [event] = system.step state event := by
  simp [exec]

theorem exec_append (state : State) (first second : List Event) :
    system.exec state (first ++ second) =
      (system.exec state first).bind fun next => system.exec next second := by
  induction first generalizing state with
  | nil => rfl
  | cons event events ih =>
    simp only [List.cons_append, exec_cons, Option.bind_assoc]
    exact congrArg _ (funext ih)

theorem exec_concat (state : State) (events : List Event) (event : Event) :
    system.exec state (events ++ [event]) =
      (system.exec state events).bind fun next => system.step next event := by
  rw [exec_append]
  exact congrArg _ (funext fun next => by simp [exec])

/-- A run of `events ++ [event]` is a run of `events` and one more step. -/
theorem exec_concat_eq_some {start final : State} {events : List Event} {event : Event} :
    system.exec start (events ++ [event]) = some final ↔
      ∃ state, system.exec start events = some state ∧ system.step state event = some final := by
  rw [exec_concat, Option.bind_eq_some_iff]

/-- One step of a run that is known. -/
theorem along_cons {guard : State → Event → Prop} {state next : State} {event : Event}
    {events : List Event} (here : guard state event) (stepped : system.step state event = some next)
    (rest : system.Along guard next events) : system.Along guard state (event :: events) := by
  refine ⟨here, ?_⟩
  intro other again
  cases stepped.symm.trans again
  exact rest

theorem along_append {guard : State → Event → Prop} {start : State} {first second : List Event} :
    system.Along guard start (first ++ second) ↔
      system.Along guard start first ∧
        ∀ state, system.exec start first = some state → system.Along guard state second := by
  induction first generalizing start with
  | nil => simp [Along]
  | cons head tail ih =>
    simp only [List.cons_append, Along, exec_cons, ih]
    constructor
    · intro ⟨here, rest⟩
      refine ⟨⟨here, fun next step => (rest next step).1⟩, ?_⟩
      intro state reached
      obtain ⟨next, step, reached⟩ := Option.bind_eq_some_iff.mp reached
      exact (rest next step).2 state reached
    · intro ⟨⟨here, rest⟩, last⟩
      refine ⟨here, ?_⟩
      intro next step
      refine ⟨rest next step, ?_⟩
      intro state reached
      exact last state (by rw [step]; exact reached)

theorem along_concat {guard : State → Event → Prop} {start state : State} {events : List Event}
    {event : Event} (before : system.exec start events = some state) :
    system.Along guard start (events ++ [event]) ↔
      system.Along guard start events ∧ guard state event := by
  rw [along_append]
  simp [Along, before]

/-- Induction over a run: `motive` may speak of the events so far and of the
state they reach. -/
theorem exec_induction {start : State} {motive : List Event → State → Prop}
    (initial : motive [] start)
    (next : ∀ events state event after, system.exec start events = some state →
      motive events state → system.step state event = some after →
        motive (events ++ [event]) after)
    {events : List Event} {final : State} (reached : system.exec start events = some final) :
    motive events final := by
  induction events using List.reverseRecOn generalizing final with
  | nil => cases reached; exact initial
  | append_singleton events event ih =>
    obtain ⟨state, before, step⟩ := system.exec_concat_eq_some.mp reached
    exact next events state event final before (ih before) step

/-- Induction over a run whose every step meets `guard`. -/
theorem exec_induction_along {guard : State → Event → Prop} {start : State}
    {motive : List Event → State → Prop} (initial : motive [] start)
    (next : ∀ events state event after, system.exec start events = some state →
      motive events state → guard state event → system.step state event = some after →
        motive (events ++ [event]) after)
    {events : List Event} {final : State} (reached : system.exec start events = some final)
    (along : system.Along guard start events) : motive events final := by
  refine system.exec_induction
    (motive := fun events state => system.Along guard start events → motive events state)
    (fun _ => initial) ?_ reached along
  intro events state event after before ih step along
  obtain ⟨along, last⟩ := (system.along_concat before).mp along
  exact next events state event after before (ih along) last step

theorem exec_invariant {invariant : State → Prop}
    (preserved : ∀ state event after, invariant state → system.step state event = some after →
      invariant after)
    {start final : State} {events : List Event} (initial : invariant start)
    (reached : system.exec start events = some final) : invariant final :=
  system.exec_induction (motive := fun _ state => invariant state) initial
    (fun _ state event after _ ih step => preserved state event after ih step) reached

/-! ## Guards on the events before a step -/

/-- Every event meets `guard`, which is given the events before it and the state they reach. -/
def AlongAfter (guard : List Event → State → Event → Prop) : List Event → State → List Event → Prop
  | _, _, [] => True
  | before, state, event :: events =>
      guard before state event ∧
        ∀ next, system.step state event = some next →
          AlongAfter guard (before ++ [event]) next events

/-- One step of a run that is known. -/
theorem alongAfter_cons {guard : List Event → State → Event → Prop} {before : List Event}
    {state next : State} {event : Event} {events : List Event} (here : guard before state event)
    (stepped : system.step state event = some next)
    (rest : system.AlongAfter guard (before ++ [event]) next events) :
    system.AlongAfter guard before state (event :: events) := by
  refine ⟨here, ?_⟩
  intro other again
  cases stepped.symm.trans again
  exact rest

theorem alongAfter_concat {guard : List Event → State → Event → Prop} {before : List Event}
    {start state : State} {events : List Event} {event : Event}
    (reached : system.exec start events = some state)
    (along : system.AlongAfter guard before start (events ++ [event])) :
    system.AlongAfter guard before start events ∧ guard (before ++ events) state event := by
  induction events generalizing before start with
  | nil =>
    cases reached
    rw [List.append_nil]
    exact ⟨trivial, along.1⟩
  | cons head tail ih =>
    obtain ⟨middle, stepped, rest⟩ := Option.bind_eq_some_iff.mp reached
    obtain ⟨earlier, last⟩ := ih rest (along.2 middle stepped)
    refine ⟨⟨along.1, ?_⟩, ?_⟩
    · intro next again
      cases stepped.symm.trans again
      exact earlier
    · rwa [List.append_assoc] at last

/-! ## Simulation -/

/-- A run from `state` that ends in a related state and meets `guard` exactly if `met`. -/
def Matches (guard : State → Event → Prop) (related : State → Prop) (met : Prop) (state : State) :
    Prop :=
  ∃ events after, system.exec state events = some after ∧ related after ∧
    (met ↔ system.Along guard state events)

theorem matches_by_nothing {guard : State → Event → Prop} {related : State → Prop} {met : Prop}
    {state : State} (here : related state) (isMet : met) : system.Matches guard related met state :=
  ⟨[], state, rfl, here, iff_of_true isMet trivial⟩

theorem matches_by_step {guard : State → Event → Prop} {related : State → Prop} {met : Prop}
    {state after : State} (event : Event) (stepped : system.step state event = some after)
    (there : related after) (isMet : met ↔ guard state event) :
    system.Matches guard related met state := by
  refine ⟨[event], after, ?_, there, ?_⟩
  · rw [exec_singleton]
    exact stepped
  · rw [isMet]
    simp [Along]

/-- If every step of `concrete` is matched by a run of `abstract` whose guard holds exactly
    when that of the step does, then so is every run. -/
theorem simulation {Concrete ConcreteEvent Abstract AbstractEvent : Type}
    (concrete : Lts Concrete ConcreteEvent) (abstract : Lts Abstract AbstractEvent)
    {related : Concrete → Abstract → Prop} {guard : Concrete → ConcreteEvent → Prop}
    {abstractGuard : Abstract → AbstractEvent → Prop}
    (step_matched : ∀ state event after shadow, related state shadow →
      concrete.step state event = some after →
        abstract.Matches abstractGuard (related after) (guard state event) shadow)
    {start final : Concrete} {shadow : Abstract} {events : List ConcreteEvent}
    (initial : related start shadow) (reached : concrete.exec start events = some final) :
    abstract.Matches abstractGuard (related final) (concrete.Along guard start events) shadow := by
  induction events generalizing start shadow with
  | nil =>
    cases reached
    exact ⟨[], shadow, rfl, initial, by simp [Along]⟩
  | cons event events ih =>
    obtain ⟨next, step, rest⟩ := Option.bind_eq_some_iff.mp reached
    obtain ⟨here, shadowNext, ran, relatedNext, guardHere⟩ :=
      step_matched start event next shadow initial step
    obtain ⟨later, shadowFinal, ranLater, relatedFinal, guardLater⟩ := ih relatedNext rest
    refine ⟨here ++ later, shadowFinal, ?_, relatedFinal, ?_⟩
    · rw [exec_append, ran]
      exact ranLater
    · rw [along_append]
      simp [Along, step, ran, guardHere, guardLater]

theorem along_of_forall {guard : State → Event → Prop} (always : ∀ state event, guard state event)
    (state : State) (events : List Event) : system.Along guard state events := by
  induction events generalizing state with
  | nil => trivial
  | cons event events ih => exact ⟨always state event, fun next _ => ih next⟩

/-- Simulation by runs that all meet the guard. -/
theorem simulation_along {Concrete ConcreteEvent Abstract AbstractEvent : Type}
    (concrete : Lts Concrete ConcreteEvent) (abstract : Lts Abstract AbstractEvent)
    {related : Concrete → Abstract → Prop} {abstractGuard : Abstract → AbstractEvent → Prop}
    (step_matched : ∀ state event after shadow, related state shadow →
      concrete.step state event = some after →
        abstract.Matches abstractGuard (related after) True shadow)
    {start final : Concrete} {shadow : Abstract} {events : List ConcreteEvent}
    (initial : related start shadow) (reached : concrete.exec start events = some final) :
    abstract.Matches abstractGuard (related final) True shadow := by
  obtain ⟨shadowEvents, shadowFinal, ran, relatedFinal, guarded⟩ :=
    simulation concrete abstract step_matched initial reached
  have everywhere := concrete.along_of_forall (fun _ _ => trivial) start events
  exact ⟨shadowEvents, shadowFinal, ran, relatedFinal, iff_of_true trivial (guarded.mp everywhere)⟩

/-! ## States along a run -/

theorem visits_concat {start state : State} {events : List Event}
    (reached : system.exec start events = some state) (event : Event) :
    system.visits start (events ++ [event]) = system.visits start events ++ [(state, event)] := by
  induction events generalizing start with
  | nil =>
    cases reached
    cases stepped : system.step state event <;> simp [visits, stepped]
  | cons head tail ih =>
    obtain ⟨middle, stepped, rest⟩ := Option.bind_eq_some_iff.mp reached
    simp [visits, stepped, ih rest]

theorem Throughout.visits {holds : State → Prop} {state : State} {events : List Event}
    (throughout : system.Throughout holds state events) :
    ∀ visit ∈ system.visits state events, holds visit.1 := by
  induction events generalizing state with
  | nil => simp [Lts.visits]
  | cons event events ih =>
    intro visit member
    obtain rfl | later := List.mem_cons.mp member
    · exact throughout.1
    · cases stepped : system.step state event with
      | none => simp [stepped] at later
      | some next =>
        rw [stepped] at later
        exact ih (throughout.2 next stepped) visit later

end Lts

end MicroRosAgent.Interleaving
