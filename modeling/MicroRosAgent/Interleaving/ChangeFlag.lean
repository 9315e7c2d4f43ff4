import MicroRosAgent.Interleaving.Program

/-! # A reader that waits for a change

Anybody may change some shared data, and after the change calls a callback, which sets a
flag once it is installed.  One reader waits for the flag, clears it, reads the data in
several calls with changes possible between them, publishes what it made of them, and waits
again.  A change without a callback must be one that no call can see.

`published_current` says that no change is lost: while the reader waits, with no flag set
and no callback outstanding, the last publication is what the reader would make of the data
as they are.  It needs one announced change after the installation, since those before it
set no flag.
-/

namespace MicroRosAgent.Interleaving.ChangeFlag

inductive Reader (Op : Type) (Result : Op → Type) (Message : Type) where
  | unstarted
  | waiting
  | reading (program : Program Op Result Message)

structure State (Op : Type) (Result : Op → Type) (Data Message : Type) where
  data : Data
  installed : Bool := false
  changed : Bool := false
  -- changes whose callback is still to come
  pending : Nat := 0
  reader : Reader Op Result Message := .unstarted
  published : Option Message := none
  -- there has been a change with a callback since the installation
  announced : Bool := false

inductive Event (Data : Type) where
  | change (data : Data) (announced : Bool)
  | callback
  | install
  | start
  | wake
  | read
  | publish

variable {Op : Type} {Result : Op → Type} {Data Message : Type}

def step (answer : (operation : Op) → Data → Result operation) (body : Program Op Result Message)
    (state : State Op Result Data Message) : Event Data → Option (State Op Result Data Message)
  | .change data announced => some { state with
      data
      pending := if announced then state.pending + 1 else state.pending
      announced := state.announced || (announced && state.installed) }
  | .callback =>
      match state.pending with
      | 0 => none
      | pending + 1 => some { state with pending, changed := state.changed || state.installed }
  | .install => some { state with installed := true }
  | .start =>
      match state.installed, state.reader with
      | true, .unstarted => some { state with reader := .waiting }
      | _, _ => none
  | .wake =>
      match state.changed, state.reader with
      | true, .waiting => some { state with changed := false, reader := .reading body }
      | _, _ => none
  | .read =>
      match state.reader with
      | .reading (.call operation next) =>
          some { state with reader := .reading (next (answer operation state.data)) }
      | _ => none
  | .publish =>
      match state.reader with
      | .reading (.done message) => some { state with reader := .waiting, published := some message }
      | _ => none

def system (answer : (operation : Op) → Data → Result operation) (body : Program Op Result Message) :
    Lts (State Op Result Data Message) (Event Data) := ⟨step answer body⟩

/-- A change without a callback is one that no call can see. -/
def Honest (answer : (operation : Op) → Data → Result operation)
    (state : State Op Result Data Message) : Event Data → Prop
  | .change data announced =>
      announced = false → ∀ operation, answer operation data = answer operation state.data
  | _ => True

/-- The reader waits, and nothing is on its way to wake it. -/
structure Quiescent (state : State Op Result Data Message) : Prop where
  waiting : state.reader = .waiting
  unchanged : state.changed = false
  noneIsPending : state.pending = 0

/-- An announced change is still to be read, is being read, or has been. -/
def Noticed (state : State Op Result Data Message) : Prop :=
  state.changed = true ∨ 0 < state.pending ∨ (∃ program, state.reader = .reading program) ∨
    state.published.isSome = true

/-- What the reader has read so far, or published, is what it would get from the data as
    they are. -/
def UpToDate (answer : (operation : Op) → Data → Result operation) (body : Program Op Result Message)
    (state : State Op Result Data Message) : Prop :=
  match state.reader with
  | .unstarted => state.published = none
  | .waiting => ∀ message, state.published = some message → body.eval answer state.data = some message
  | .reading program => program.eval answer state.data = body.eval answer state.data

/-- The reader is up to date, unless it is going to be woken. -/
structure Fresh (answer : (operation : Op) → Data → Result operation)
    (body : Program Op Result Message) (state : State Op Result Data Message) : Prop where
  uninstalled : state.installed = false → state.changed = false ∧ state.reader = .unstarted ∧
    state.published = none ∧ state.announced = false
  noticed : state.announced = true → Noticed state
  upToDate : state.changed = false → state.pending = 0 → UpToDate answer body state

variable {answer : (operation : Op) → Data → Result operation} {body : Program Op Result Message}

theorem fresh_initial (data : Data) :
    Fresh answer body ({ data } : State Op Result Data Message) := by
  refine ⟨fun _ => ⟨rfl, rfl, rfl, rfl⟩, ?_, fun _ _ => rfl⟩
  intro announced
  cases announced

/-- Data in which no call sees a difference leave the reader as up to date as it was. -/
theorem upToDate_congr {state : State Op Result Data Message} {data : Data}
    (same : ∀ operation, answer operation data = answer operation state.data)
    (upToDate : UpToDate answer body state) : UpToDate answer body { state with data } := by
  have alike : ∀ program : Program Op Result Message,
      program.eval answer data = program.eval answer state.data := Program.eval_congr same
  unfold UpToDate at upToDate ⊢
  cases reader : state.reader with
  | unstarted => simpa [reader] using upToDate
  | waiting => simpa [reader, alike] using upToDate
  | reading program => simpa [reader, alike] using upToDate

theorem fresh_change {state after : State Op Result Data Message} {data : Data} {announced : Bool}
    (fresh : Fresh answer body state) (honest : Honest answer state (.change data announced))
    (stepped : step answer body state (.change data announced) = some after) :
    Fresh answer body after := by
  cases stepped
  cases announced with
  | true =>
    -- the callback to come wakes the reader
    refine ⟨?_, fun _ => Or.inr (Or.inl (Nat.succ_pos _)), fun _ none => absurd none (Nat.succ_ne_zero _)⟩
    intro uninstalled
    have before := fresh.uninstalled uninstalled
    simpa [show state.installed = false from uninstalled] using before
  | false =>
    refine ⟨?_, ?_, ?_⟩
    · simpa using fresh.uninstalled
    · simpa [Noticed] using fresh.noticed
    · intro unchanged none
      exact upToDate_congr (honest rfl) (fresh.upToDate unchanged none)

theorem fresh_callback {state after : State Op Result Data Message} (fresh : Fresh answer body state)
    (stepped : step answer body state .callback = some after) : Fresh answer body after := by
  simp only [step] at stepped
  split at stepped
  · cases stepped
  · cases stepped
    cases installed : state.installed with
    | false =>
      obtain ⟨unchanged, unstarted, nothing, silent⟩ := fresh.uninstalled installed
      refine ⟨fun _ => ⟨by simp [unchanged], unstarted, nothing, silent⟩, ?_, ?_⟩
      · intro announced
        exact absurd announced (by simp [silent])
      · intro _ _
        simpa [UpToDate, unstarted] using nothing
    | true =>
      have changed : (state.changed || true) = true := Bool.or_true _
      refine ⟨?_, fun _ => Or.inl changed, ?_⟩
      · intro uninstalled
        cases uninstalled
      · intro unchanged
        cases changed.symm.trans unchanged

theorem installed_of_started {state : State Op Result Data Message} {position : Reader Op Result Message}
    (fresh : Fresh answer body state) (here : state.reader = position)
    (started : position ≠ .unstarted) : ¬ state.installed = false := by
  intro uninstalled
  exact started (here.symm.trans (fresh.uninstalled uninstalled).2.1)

theorem fresh_start {state after : State Op Result Data Message} (fresh : Fresh answer body state)
    (stepped : step answer body state .start = some after) : Fresh answer body after := by
  simp only [step] at stepped
  split at stepped
  · rename_i installed unstarted
    cases stepped
    refine ⟨?_, ?_, ?_⟩
    · intro uninstalled
      cases installed.symm.trans uninstalled
    · intro announced
      simpa [Noticed, unstarted] using fresh.noticed announced
    · intro unchanged none message published
      have nothing := fresh.upToDate unchanged none
      simp only [UpToDate, unstarted] at nothing
      cases nothing.symm.trans published
  · cases stepped

theorem fresh_wake {state after : State Op Result Data Message} (fresh : Fresh answer body state)
    (stepped : step answer body state .wake = some after) : Fresh answer body after := by
  simp only [step] at stepped
  split at stepped
  · rename_i changed waiting
    cases stepped
    have installed := installed_of_started fresh waiting (by simp)
    exact ⟨fun uninstalled => absurd uninstalled installed,
      fun _ => Or.inr (Or.inr (Or.inl ⟨body, rfl⟩)), fun _ _ => rfl⟩
  · cases stepped

theorem fresh_read {state after : State Op Result Data Message} (fresh : Fresh answer body state)
    (stepped : step answer body state .read = some after) : Fresh answer body after := by
  simp only [step] at stepped
  split at stepped
  · rename_i operation next reading
    cases stepped
    have installed := installed_of_started fresh reading (by simp)
    refine ⟨fun uninstalled => absurd uninstalled installed,
      fun _ => Or.inr (Or.inr (Or.inl ⟨_, rfl⟩)), ?_⟩
    intro unchanged none
    have before := fresh.upToDate unchanged none
    simpa [UpToDate, reading] using before
  · cases stepped

theorem fresh_publish {state after : State Op Result Data Message} (fresh : Fresh answer body state)
    (stepped : step answer body state .publish = some after) : Fresh answer body after := by
  simp only [step] at stepped
  split at stepped
  · rename_i message reading
    cases stepped
    have installed := installed_of_started fresh reading (by simp)
    refine ⟨fun uninstalled => absurd uninstalled installed,
      fun _ => Or.inr (Or.inr (Or.inr rfl)), ?_⟩
    intro unchanged none last equal
    cases equal
    have before := fresh.upToDate unchanged none
    simp only [UpToDate, reading] at before
    exact before.symm
  · cases stepped

theorem fresh_step {state after : State Op Result Data Message} {event : Event Data}
    (fresh : Fresh answer body state) (honest : Honest answer state event)
    (stepped : step answer body state event = some after) : Fresh answer body after := by
  cases event with
  | change data announced => exact fresh_change fresh honest stepped
  | callback => exact fresh_callback fresh stepped
  | install =>
    cases stepped
    refine ⟨?_, fresh.noticed, fresh.upToDate⟩
    intro uninstalled
    cases uninstalled
  | start => exact fresh_start fresh stepped
  | wake => exact fresh_wake fresh stepped
  | read => exact fresh_read fresh stepped
  | publish => exact fresh_publish fresh stepped

theorem fresh_run {data : Data} {events : List (Event Data)} {state : State Op Result Data Message}
    (reached : (system answer body).exec { data } events = some state)
    (honest : (system answer body).Along (Honest answer) { data } events) :
    Fresh answer body state :=
  (system answer body).exec_induction_along (motive := fun _ state => Fresh answer body state)
    (fresh_initial data) (fun _ _ _ _ _ fresh honest stepped => fresh_step fresh honest stepped)
    reached honest

/-- No announced change is left unpublished. -/
theorem published_current {data : Data} {events : List (Event Data)}
    {state : State Op Result Data Message}
    (reached : (system answer body).exec { data } events = some state)
    (honest : (system answer body).Along (Honest answer) { data } events)
    (quiescent : Quiescent state) (announced : state.announced = true) :
    ∃ message, state.published = some message ∧ body.eval answer state.data = some message := by
  have fresh := fresh_run reached honest
  obtain ⟨waiting, unchanged, none⟩ := quiescent
  have published : state.published.isSome = true := by
    obtain changed | pending | ⟨program, reading⟩ | published := fresh.noticed announced
    · exact absurd changed (by simp [unchanged])
    · omega
    · exact absurd reading (by simp [waiting])
    · exact published
  obtain ⟨message, last⟩ := Option.isSome_iff_exists.mp published
  have upToDate := fresh.upToDate unchanged none
  simp only [UpToDate, waiting] at upToDate
  exact ⟨message, last, upToDate message last⟩

end MicroRosAgent.Interleaving.ChangeFlag
