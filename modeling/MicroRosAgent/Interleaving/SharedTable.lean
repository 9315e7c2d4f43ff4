import MicroRosAgent.Interleaving.Lts
import Mathlib.Logic.Function.Basic

/-! # A table with several owners of each key

Every owner of a key enters the record of the key once and erases it once, and the owners
do so in any order.  Whoever enters first fills the entry, a later one leaves it as it is;
whoever erases empties it, also for the owners that still hold the key.

* `entry_of_held` — a key that some owner has entered and none has released has its record;
* `entry_of_unheld` — a key that no owner holds has no entry;
* `step_of_other` — a step on one key leaves the entries of the others.

In between, with a key held by one owner and released by another, nothing is said: the
entry is there if the owner that holds it has entered it after the erasure.
-/

namespace MicroRosAgent.Interleaving.SharedTable

/-- How far an owner has come with a key. -/
inductive Stage where
  | waiting | holding | released
  deriving DecidableEq, Repr

structure State (Key Owner Value : Type) where
  entry : Key → Option Value := fun _ => none
  stage : Key → Owner → Stage := fun _ _ => .waiting

inductive Event (Key Owner : Type) where
  | insert (key : Key) (owner : Owner)
  | erase (key : Key) (owner : Owner)

def Event.key {Key Owner : Type} : Event Key Owner → Key
  | .insert key _ | .erase key _ => key

variable {Key Owner Value : Type} [DecidableEq Key] [DecidableEq Owner]

/-- The key gets the entry, and the owner moves to the stage. -/
def State.set (state : State Key Owner Value) (key : Key) (owner : Owner) (entry : Option Value)
    (stage : Stage) : State Key Owner Value where
  entry := Function.update state.entry key entry
  stage := Function.update state.stage key (Function.update (state.stage key) owner stage)

def step (record : Key → Value) (state : State Key Owner Value) :
    Event Key Owner → Option (State Key Owner Value)
  | .insert key owner =>
      match state.stage key owner with
      | .waiting =>
          some (state.set key owner (some ((state.entry key).getD (record key))) .holding)
      | _ => none
  | .erase key owner =>
      match state.stage key owner with
      | .holding => some (state.set key owner none .released)
      | _ => none

def system (Owner : Type) [DecidableEq Owner] (record : Key → Value) :
    Lts (State Key Owner Value) (Event Key Owner) := ⟨step record⟩

@[simp] theorem set_entry_self (state : State Key Owner Value) (key : Key) (owner : Owner)
    (entry : Option Value) (stage : Stage) : (state.set key owner entry stage).entry key = entry :=
  Function.update_self ..

@[simp] theorem set_stage_self (state : State Key Owner Value) (key : Key) (owner : Owner)
    (entry : Option Value) (stage : Stage) :
    (state.set key owner entry stage).stage key = Function.update (state.stage key) owner stage :=
  Function.update_self ..

theorem set_entry_of_ne {state : State Key Owner Value} {key other : Key} (different : other ≠ key)
    (owner : Owner) (entry : Option Value) (stage : Stage) :
    (state.set key owner entry stage).entry other = state.entry other :=
  Function.update_of_ne different ..

theorem set_stage_of_ne {state : State Key Owner Value} {key other : Key} (different : other ≠ key)
    (owner : Owner) (entry : Option Value) (stage : Stage) :
    (state.set key owner entry stage).stage other = state.stage other :=
  Function.update_of_ne different ..

/-! ## One key -/

/-- Some owner has entered the key, and none has released it. -/
def Held (stage : Owner → Stage) : Prop :=
  (∃ owner, stage owner ≠ .waiting) ∧ ∀ owner, stage owner ≠ .released

def Unheld (stage : Owner → Stage) : Prop := ∀ owner, stage owner ≠ .holding

/-- What the entry of a key tells about its owners. -/
structure Consistent (record : Value) (entry : Option Value) (stage : Owner → Stage) : Prop where
  own : ∀ value, entry = some value → value = record
  held : Held stage → entry ≠ none
  unheld : Unheld stage → entry = none

variable {record : Value} {entry : Option Value} {stage : Owner → Stage}

omit [DecidableEq Owner] in
theorem consistent_waiting : Consistent record none fun _ : Owner => Stage.waiting := by
  refine ⟨?_, ?_, fun _ => rfl⟩
  · intro value present
    cases present
  · intro ⟨⟨owner, started⟩, _⟩
    exact absurd rfl started

/-- What is there already has been entered by another owner, so it is the record too. -/
theorem consistent_insert (consistent : Consistent record entry stage) (owner : Owner) :
    Consistent record (some (entry.getD record)) (Function.update stage owner .holding) := by
  refine ⟨?_, ?_, ?_⟩
  · intro value present
    cases before : entry with
    | none => simpa [before] using present.symm
    | some old =>
      have same := consistent.own old before
      simp only [before, Option.getD_some, Option.some.injEq] at present
      exact present.symm.trans same
  · intro _ nothing
    cases nothing
  · -- the owner itself holds the key now
    intro unheld
    exact absurd (Function.update_self ..) (unheld owner)

theorem consistent_erase (owner : Owner) :
    Consistent record none (Function.update stage owner .released) := by
  refine ⟨?_, ?_, fun _ => rfl⟩
  · intro value present
    cases present
  · -- the owner itself has released the key
    intro held
    exact absurd (Function.update_self ..) (held.2 owner)

omit [DecidableEq Owner] in
theorem Consistent.eq_record (consistent : Consistent record entry stage) (held : Held stage) :
    entry = some record := by
  obtain ⟨value, present⟩ := Option.ne_none_iff_exists'.mp (consistent.held held)
  rw [present, consistent.own value present]

/-! ## Runs -/

section
variable {record : Key → Value}

/-- All a step can do. -/
theorem step_cases {state after : State Key Owner Value} {event : Event Key Owner}
    (stepped : step record state event = some after) :
    (∃ key owner, event = .insert key owner ∧
      after = state.set key owner (some ((state.entry key).getD (record key))) .holding) ∨
    ∃ key owner, event = .erase key owner ∧ after = state.set key owner none .released := by
  cases event with
  | insert key owner =>
    simp only [step] at stepped
    split at stepped
    · exact Or.inl ⟨key, owner, rfl, (Option.some.inj stepped).symm⟩
    · cases stepped
  | erase key owner =>
    simp only [step] at stepped
    split at stepped
    · exact Or.inr ⟨key, owner, rfl, (Option.some.inj stepped).symm⟩
    · cases stepped

/-- A step changes the entry and the owners of its own key only. -/
theorem step_of_other {state after : State Key Owner Value} {event : Event Key Owner} {key : Key}
    (stepped : step record state event = some after) (other : key ≠ event.key) :
    after.entry key = state.entry key ∧ after.stage key = state.stage key := by
  obtain ⟨changed, owner, rfl, rfl⟩ | ⟨changed, owner, rfl, rfl⟩ := step_cases stepped
  · exact ⟨set_entry_of_ne other .., set_stage_of_ne other ..⟩
  · exact ⟨set_entry_of_ne other .., set_stage_of_ne other ..⟩

theorem consistent_step {state after : State Key Owner Value} {event : Event Key Owner}
    (consistent : ∀ key, Consistent (record key) (state.entry key) (state.stage key))
    (stepped : step record state event = some after) (key : Key) :
    Consistent (record key) (after.entry key) (after.stage key) := by
  by_cases other : key = event.key
  · subst other
    obtain ⟨key, owner, rfl, rfl⟩ | ⟨key, owner, rfl, rfl⟩ := step_cases stepped
    · show Consistent (record key) ((state.set key owner _ .holding).entry key)
        ((state.set key owner _ .holding).stage key)
      rw [set_entry_self, set_stage_self]
      exact consistent_insert (consistent key) owner
    · show Consistent (record key) ((state.set key owner none .released).entry key)
        ((state.set key owner none .released).stage key)
      rw [set_entry_self, set_stage_self]
      exact consistent_erase owner
  · obtain ⟨entry, stage⟩ := step_of_other stepped other
    rw [entry, stage]
    exact consistent key

theorem consistent_run {events : List (Event Key Owner)} {final : State Key Owner Value}
    (reached : (system Owner record).exec {} events = some final) (key : Key) :
    Consistent (record key) (final.entry key) (final.stage key) := by
  have preserved : ∀ state event after,
      (∀ key, Consistent (record key) (state.entry key) (state.stage key)) →
        (system Owner record).step state event = some after →
          ∀ key, Consistent (record key) (after.entry key) (after.stage key) :=
    fun _ _ _ consistent stepped => consistent_step consistent stepped
  exact (system Owner record).exec_invariant preserved (fun _ => consistent_waiting) reached key

theorem entry_of_held {events : List (Event Key Owner)} {final : State Key Owner Value}
    (reached : (system Owner record).exec {} events = some final) {key : Key}
    (held : Held (final.stage key)) : final.entry key = some (record key) :=
  (consistent_run reached key).eq_record held

theorem entry_of_unheld {events : List (Event Key Owner)} {final : State Key Owner Value}
    (reached : (system Owner record).exec {} events = some final) {key : Key}
    (unheld : Unheld (final.stage key)) : final.entry key = none :=
  (consistent_run reached key).unheld unheld

end

end MicroRosAgent.Interleaving.SharedTable
