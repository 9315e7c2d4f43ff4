import MicroRosAgent.Interleaving.ChangeFlag
import Mathlib.Algebra.Order.BigOperators.Group.Finset
import Mathlib.Order.WellFounded

/-! # The flag behind a mutex

`ChangeFlag` lets the reader wake up and clear the flag in one step.  Here the threads take
the mutexes one after another.  A thread that changes the data has the mutex of the data, and
calls the callback with or without it (`keeps`):

    lock(flag); flag = true; unlock(flag); notify

The reader waits on a condition variable, from which it may also wake up for no reason:

    lock(flag); while (!flag) wait; flag = false; unlock(flag)

Then it reads, in calls that take the mutex of the data.

* `simulates` — a run is one of `ChangeFlag`;
* `Sound.awake` — no wake-up is lost;
* `moves_or_rests` — no thread waits for another one for ever;
* `acc_internal` — with no further change the threads come to rest.
-/

namespace MicroRosAgent.Interleaving.Monitor

/-- Where a thread is that changes the data. -/
inductive Stage where
  | outside
  -- has the mutex of the data
  | changed (announced : Bool)
  -- in the callback, before the mutex of the flag
  | calling
  -- has the mutex of the flag
  | locked
  | raised
  -- before the notification
  | unlocked
  -- the callback has returned
  | notified
  deriving DecidableEq, Repr

inductive Reader (Op : Type) (Result : Op → Type) (Message : Type) where
  | unstarted
  -- before the mutex of the flag
  | entering
  -- has the mutex of the flag
  | testing
  -- waits on the condition variable, without the mutex
  | sleeping
  -- has the mutex again, or still, and has seen the flag
  | clearing
  | leaving
  | reading (program : Program Op Result Message)

inductive Owner (Thread : Type) where
  | thread (thread : Thread)
  | reader
  deriving DecidableEq, Repr

structure State (Thread Op : Type) (Result : Op → Type) (Data Message : Type) where
  data : Data
  installed : Bool := false
  flag : Bool := false
  dataMutex : Option Thread := none
  flagMutex : Option (Owner Thread) := none
  stage : Thread → Stage := fun _ => .outside
  reader : Reader Op Result Message := .unstarted
  published : Option Message := none
  -- there has been a change with a callback since the installation
  announced : Bool := false

inductive Event (Thread Data : Type) where
  -- a change outside of what the mutex protects
  | touch (data : Data)
  | change (thread : Thread) (data : Data) (announced : Bool)
  | advance (thread : Thread)
  | install
  | start
  | reader
  | spurious

variable {Thread Op : Type} {Result : Op → Type} {Data Message : Type} [DecidableEq Thread]

def State.moved (state : State Thread Op Result Data Message) (thread : Thread) (stage : Stage) :
    State Thread Op Result Data Message :=
  { state with stage := Function.update state.stage thread stage }

/-- `notify_one`, where the reader is the only one that waits. -/
def Reader.notified : Reader Op Result Message → Reader Op Result Message
  | .sleeping => .entering
  | reader => reader

def step (keeps : Bool) (answer : (operation : Op) → Data → Result operation)
    (body : Program Op Result Message) (state : State Thread Op Result Data Message) :
    Event Thread Data → Option (State Thread Op Result Data Message)
  | .touch data => some { state with data }
  | .change thread data announced =>
      match state.stage thread, state.dataMutex with
      | .outside, none => some { state.moved thread (.changed announced) with
          data
          dataMutex := some thread
          announced := state.announced || (announced && state.installed) }
      | _, _ => none
  | .advance thread =>
      match state.stage thread, state.flagMutex with
      | .changed announced, _ =>
          if announced && state.installed then
            some { state.moved thread .calling with
              dataMutex := if keeps then state.dataMutex else none }
          else some { state.moved thread .outside with dataMutex := none }
      | .calling, none =>
          some { state.moved thread .locked with flagMutex := some (.thread thread) }
      | .locked, _ => some { state.moved thread .raised with flag := true }
      | .raised, _ => some { state.moved thread .unlocked with flagMutex := none }
      | .unlocked, _ => some { state.moved thread .notified with reader := state.reader.notified }
      | .notified, _ =>
          some { state.moved thread .outside with
            dataMutex := if keeps then none else state.dataMutex }
      | .outside, _ | .calling, some _ => none
  | .install =>
      match state.dataMutex with
      | none => some { state with installed := true }
      | some _ => none
  | .start =>
      match state.installed, state.reader with
      | true, .unstarted => some { state with reader := .entering }
      | _, _ => none
  | .reader =>
      match state.reader, state.flagMutex, state.dataMutex with
      | .entering, none, _ => some { state with flagMutex := some .reader, reader := .testing }
      | .testing, _, _ =>
          if state.flag then some { state with reader := .clearing }
          else some { state with flagMutex := none, reader := .sleeping }
      | .clearing, _, _ => some { state with flag := false, reader := .leaving }
      | .leaving, _, _ => some { state with flagMutex := none, reader := .reading body }
      | .reading (.call operation next), _, none =>
          some { state with reader := .reading (next (answer operation state.data)) }
      | .reading (.done message), _, _ =>
          some { state with reader := .entering, published := some message }
      | _, _, _ => none
  | .spurious =>
      match state.reader with
      | .sleeping => some { state with reader := .entering }
      | _ => none

def system (keeps : Bool) (answer : (operation : Op) → Data → Result operation)
    (body : Program Op Result Message) :
    Lts (State Thread Op Result Data Message) (Event Thread Data) := ⟨step keeps answer body⟩

/-! ## What a step can do -/

/-- The steps a thread makes in a change that is under way. -/
inductive Advance (keeps : Bool) (state : State Thread Op Result Data Message) (thread : Thread) :
    State Thread Op Result Data Message → Prop
  | silent {announced : Bool} (here : state.stage thread = .changed announced)
      (silent : (announced && state.installed) = false) :
      Advance keeps state thread { state.moved thread .outside with dataMutex := none }
  | call (here : state.stage thread = .changed true) (installed : state.installed = true) :
      Advance keeps state thread { state.moved thread .calling with
        dataMutex := if keeps then state.dataMutex else none }
  | lock (here : state.stage thread = .calling) (free : state.flagMutex = none) :
      Advance keeps state thread { state.moved thread .locked with
        flagMutex := some (.thread thread) }
  | raise (here : state.stage thread = .locked) :
      Advance keeps state thread { state.moved thread .raised with flag := true }
  | unlock (here : state.stage thread = .raised) :
      Advance keeps state thread { state.moved thread .unlocked with flagMutex := none }
  | notify (here : state.stage thread = .unlocked) :
      Advance keeps state thread { state.moved thread .notified with
        reader := state.reader.notified }
  | leave (here : state.stage thread = .notified) :
      Advance keeps state thread { state.moved thread .outside with
        dataMutex := if keeps then none else state.dataMutex }

/-- The steps of the reader. -/
inductive Turn (answer : (operation : Op) → Data → Result operation) (body : Program Op Result Message)
    (state : State Thread Op Result Data Message) : State Thread Op Result Data Message → Prop
  | enter (here : state.reader = .entering) (free : state.flagMutex = none) :
      Turn answer body state { state with flagMutex := some .reader, reader := .testing }
  | proceed (here : state.reader = .testing) (seen : state.flag = true) :
      Turn answer body state { state with reader := .clearing }
  | sleep (here : state.reader = .testing) (unseen : state.flag = false) :
      Turn answer body state { state with flagMutex := none, reader := .sleeping }
  | clear (here : state.reader = .clearing) :
      Turn answer body state { state with flag := false, reader := .leaving }
  | leave (here : state.reader = .leaving) :
      Turn answer body state { state with flagMutex := none, reader := .reading body }
  | read {operation : Op} {next : Result operation → Program Op Result Message}
      (here : state.reader = .reading (.call operation next)) (free : state.dataMutex = none) :
      Turn answer body state { state with reader := .reading (next (answer operation state.data)) }
  | publish {message : Message} (here : state.reader = .reading (.done message)) :
      Turn answer body state { state with reader := .entering, published := some message }

variable {keeps : Bool} {answer : (operation : Op) → Data → Result operation}
  {body : Program Op Result Message} {state after : State Thread Op Result Data Message}

theorem advance_of_step {thread : Thread}
    (stepped : step keeps answer body state (.advance thread) = some after) :
    Advance keeps state thread after := by
  simp only [step] at stepped
  split at stepped
  · rename_i announced here
    split at stepped
    · rename_i calls
      obtain ⟨rfl, installed⟩ := Bool.and_eq_true_iff.mp calls
      cases stepped
      exact .call here installed
    · rename_i silent
      cases stepped
      exact .silent here (Bool.eq_false_of_not_eq_true silent)
  · rename_i here free
    cases stepped
    exact .lock here free
  · rename_i here
    cases stepped
    exact .raise here
  · rename_i here
    cases stepped
    exact .unlock here
  · rename_i here
    cases stepped
    exact .notify here
  · rename_i here
    cases stepped
    exact .leave here
  · cases stepped
  · cases stepped

theorem turn_of_step (stepped : step keeps answer body state .reader = some after) :
    Turn answer body state after := by
  simp only [step] at stepped
  split at stepped
  · rename_i here free
    cases stepped
    exact .enter here free
  · rename_i here
    split at stepped
    · rename_i seen
      cases stepped
      exact .proceed here seen
    · rename_i unseen
      cases stepped
      exact .sleep here (Bool.eq_false_of_not_eq_true unseen)
  · rename_i here
    cases stepped
    exact .clear here
  · rename_i here
    cases stepped
    exact .leave here
  · rename_i here free
    cases stepped
    exact .read here free
  · rename_i here
    cases stepped
    exact .publish here
  · cases stepped

theorem change_of_step {thread : Thread} {data : Data} {announced : Bool}
    (stepped : step keeps answer body state (.change thread data announced) = some after) :
    state.stage thread = .outside ∧ state.dataMutex = none ∧
      after = { state.moved thread (.changed announced) with
        data
        dataMutex := some thread
        announced := state.announced || (announced && state.installed) } := by
  simp only [step] at stepped
  split at stepped
  · rename_i outside free
    cases stepped
    exact ⟨outside, free, rfl⟩
  · cases stepped

/-! ## Who has a mutex -/

/-- The thread has the mutex of the data. -/
def Stage.HasData (keeps : Bool) : Stage → Prop
  | .outside => False
  | .changed _ => True
  | .calling | .locked | .raised | .unlocked | .notified => keeps = true

/-- The thread has the mutex of the flag. -/
def Stage.HasFlag : Stage → Prop
  | .locked | .raised => True
  | .outside | .changed _ | .calling | .unlocked | .notified => False

def Reader.HasFlag : Reader Op Result Message → Prop
  | .testing | .clearing | .leaving => True
  | .unstarted | .entering | .sleeping | .reading _ => False

/-- The thread is in the callback, up to the notification. -/
def Stage.InCallback : Stage → Prop
  | .calling | .locked | .raised | .unlocked => True
  | .outside | .changed _ | .notified => False

/-- The thread has set the flag and will notify. -/
def Stage.Wakes (stage : Stage) : Prop := stage = .raised ∨ stage = .unlocked

/-- A mutex is owned by the threads at certain stages. -/
def Owned (owner : Thread → Prop) (has : Stage → Prop) (stage : Thread → Stage) : Prop :=
  ∀ thread, owner thread ↔ has (stage thread)

section
variable {owner later : Thread → Prop} {has : Stage → Prop} {stage : Thread → Stage}
  {thread : Thread} {new : Stage}

theorem Owned.keep (owned : Owned owner has stage) (same : has new ↔ has (stage thread)) :
    Owned owner has (Function.update stage thread new) := by
  intro other
  by_cases here : other = thread
  · subst here
    rw [Function.update_self, same]
    exact owned other
  · rw [Function.update_of_ne here]
    exact owned other

theorem Owned.acquire (owned : Owned owner has stage) (free : ∀ other, ¬ owner other)
    (now : has new) (taken : ∀ other, later other ↔ thread = other) :
    Owned later has (Function.update stage thread new) := by
  intro other
  by_cases here : other = thread
  · subst here
    rw [Function.update_self, taken]
    exact iff_of_true rfl now
  · rw [Function.update_of_ne here, taken, ← owned other]
    exact iff_of_false (Ne.symm here) (free other)

theorem Owned.release (owned : Owned owner has stage) (now : ¬ has new)
    (single : ∀ other, owner other → other = thread) (free : ∀ other, ¬ later other) :
    Owned later has (Function.update stage thread new) := by
  intro other
  by_cases here : other = thread
  · subst here
    rw [Function.update_self]
    exact iff_of_false (free other) now
  · rw [Function.update_of_ne here, ← owned other]
    exact iff_of_false (free other) fun owns => here (single other owns)

end

/-- What holds of the mutexes and the flag in every state. -/
structure Sound (keeps : Bool) (state : State Thread Op Result Data Message) : Prop where
  data : Owned (fun thread => state.dataMutex = some thread) (Stage.HasData keeps) state.stage
  flag : Owned (fun thread => state.flagMutex = some (.thread thread)) Stage.HasFlag state.stage
  reader : state.flagMutex = some .reader ↔ state.reader.HasFlag
  seen : state.reader = .clearing → state.flag = true
  callback : ∀ thread, (state.stage thread).InCallback → state.installed = true
  -- whoever has set the flag since the reader has tested it is still to notify
  awake : state.reader = .sleeping → state.flag = true → ∃ thread, (state.stage thread).Wakes

omit [DecidableEq Thread] in
theorem sound_initial (keeps : Bool) (data : Data) :
    Sound keeps ({ data } : State Thread Op Result Data Message) := by
  refine ⟨?_, ?_, ?_, ?_, ?_, ?_⟩
  · intro thread
    simp [Stage.HasData]
  · intro thread
    simp [Stage.HasFlag]
  · simp [Reader.HasFlag]
  · intro clearing
    cases clearing
  · intro thread inside
    cases inside
  · intro sleeping
    cases sleeping

@[simp] theorem notified_hasFlag (reader : Reader Op Result Message) :
    reader.notified.HasFlag ↔ reader.HasFlag := by
  cases reader <;> simp [Reader.notified, Reader.HasFlag]

theorem notified_ne_sleeping (reader : Reader Op Result Message) : reader.notified ≠ .sleeping := by
  cases reader <;> simp [Reader.notified]

theorem notified_eq_clearing {reader : Reader Op Result Message}
    (clearing : reader.notified = .clearing) : reader = .clearing := by
  cases reader <;> simp_all [Reader.notified]

/-- A stage outside the callback asks nothing of the installation. -/
theorem callback_moved {thread : Thread} {new : Stage} {installed : Bool}
    {stage : Thread → Stage}
    (callback : ∀ other, (stage other).InCallback → installed = true)
    (now : new.InCallback → installed = true) :
    ∀ other, (Function.update stage thread new other).InCallback → installed = true := by
  intro other inside
  by_cases here : other = thread
  · subst here
    rw [Function.update_self] at inside
    exact now inside
  · rw [Function.update_of_ne here] at inside
    exact callback other inside

/-- A thread that is not to notify may move on. -/
theorem awake_moved {thread : Thread} {new : Stage} {stage : Thread → Stage}
    (awake : ∃ other, (stage other).Wakes) (kept : (stage thread).Wakes → new.Wakes) :
    ∃ other, (Function.update stage thread new other).Wakes := by
  obtain ⟨other, wakes⟩ := awake
  refine ⟨other, ?_⟩
  by_cases here : other = thread
  · subst here
    rw [Function.update_self]
    exact kept wakes
  · rwa [Function.update_of_ne here]

omit [DecidableEq Thread] in
theorem Sound.single_data (sound : Sound keeps state) {thread : Thread}
    (here : (state.stage thread).HasData keeps) :
    ∀ other, state.dataMutex = some other → other = thread := by
  intro other owns
  exact Option.some.inj (owns.symm.trans ((sound.data thread).mpr here))

omit [DecidableEq Thread] in
theorem Sound.single_flag (sound : Sound keeps state) {thread : Thread}
    (here : (state.stage thread).HasFlag) :
    ∀ other, state.flagMutex = some (.thread other) → other = thread := by
  intro other owns
  exact Owner.thread.inj (Option.some.inj (owns.symm.trans ((sound.flag thread).mpr here)))

omit [DecidableEq Thread] in
theorem Sound.reader_without (sound : Sound keeps state) {thread : Thread}
    (here : (state.stage thread).HasFlag) : ¬ state.reader.HasFlag := by
  intro reads
  have both := (sound.reader.mpr reads).symm.trans ((sound.flag thread).mpr here)
  cases both

omit [DecidableEq Thread] in
theorem Sound.thread_without (sound : Sound keeps state) (reads : state.reader.HasFlag) :
    ∀ thread, ¬ (state.stage thread).HasFlag := fun _ here => sound.reader_without here reads

theorem Sound.advance (sound : Sound keeps state) {thread : Thread}
    (advance : Advance keeps state thread after) : Sound keeps after := by
  cases advance with
  | silent here silent =>
    have has : (state.stage thread).HasData keeps := by simp [here, Stage.HasData]
    refine ⟨sound.data.release (by simp [Stage.HasData]) (sound.single_data has) (by simp),
      sound.flag.keep (by simp [here, Stage.HasFlag]), sound.reader, sound.seen,
      callback_moved sound.callback (by simp [Stage.InCallback]), ?_⟩
    intro sleeping raised
    exact awake_moved (sound.awake sleeping raised) (by simp [here, Stage.Wakes])
  | call here installed =>
    have has : (state.stage thread).HasData keeps := by simp [here, Stage.HasData]
    refine ⟨?_, sound.flag.keep (by simp [here, Stage.HasFlag]), sound.reader, sound.seen,
      callback_moved sound.callback fun _ => installed, ?_⟩
    · cases keeps with
      | true => exact sound.data.keep (by simp [here, Stage.HasData])
      | false => exact sound.data.release (by simp [Stage.HasData]) (sound.single_data has) (by simp)
    · intro sleeping raised
      exact awake_moved (sound.awake sleeping raised) (by simp [here, Stage.Wakes])
  | lock here free =>
    have unread : ¬ state.reader.HasFlag := fun reads => by
      simpa [free] using sound.reader.mpr reads
    have installed := sound.callback thread (by simp [here, Stage.InCallback])
    refine ⟨sound.data.keep (by simp [here, Stage.HasData]),
      sound.flag.acquire (by simp [free]) (by simp [Stage.HasFlag]) (by simp),
      iff_of_false (by simp) unread, sound.seen,
      callback_moved sound.callback fun _ => installed, ?_⟩
    intro sleeping raised
    exact awake_moved (sound.awake sleeping raised) (by simp [here, Stage.Wakes])
  | raise here =>
    have installed := sound.callback thread (by simp [here, Stage.InCallback])
    refine ⟨sound.data.keep (by simp [here, Stage.HasData]),
      sound.flag.keep (by simp [here, Stage.HasFlag]), sound.reader, fun _ => rfl,
      callback_moved sound.callback fun _ => installed, ?_⟩
    intro _ _
    exact ⟨thread, Or.inl (Function.update_self ..)⟩
  | unlock here =>
    have has : (state.stage thread).HasFlag := by simp [here, Stage.HasFlag]
    have installed := sound.callback thread (by simp [here, Stage.InCallback])
    refine ⟨sound.data.keep (by simp [here, Stage.HasData]),
      sound.flag.release (by simp [Stage.HasFlag]) (sound.single_flag has) (by simp),
      iff_of_false (by simp) (sound.reader_without has), sound.seen,
      callback_moved sound.callback fun _ => installed, ?_⟩
    intro sleeping raised
    exact awake_moved (sound.awake sleeping raised) fun _ => Or.inr rfl
  | notify here =>
    refine ⟨sound.data.keep (by simp [here, Stage.HasData]),
      sound.flag.keep (by simp [here, Stage.HasFlag]), ?_,
      fun clearing => sound.seen (notified_eq_clearing clearing),
      callback_moved sound.callback (by simp [Stage.InCallback]), ?_⟩
    · show state.flagMutex = some .reader ↔ state.reader.notified.HasFlag
      rw [notified_hasFlag]
      exact sound.reader
    · intro sleeping
      exact absurd sleeping (notified_ne_sleeping _)
  | leave here =>
    refine ⟨?_, sound.flag.keep (by simp [here, Stage.HasFlag]), sound.reader, sound.seen,
      callback_moved sound.callback (by simp [Stage.InCallback]), ?_⟩
    · cases keeps with
      | true =>
        have has : (state.stage thread).HasData true := by simp [here, Stage.HasData]
        exact sound.data.release (by simp [Stage.HasData]) (sound.single_data has) (by simp)
      | false => exact sound.data.keep (by simp [here, Stage.HasData])
    · intro sleeping raised
      exact awake_moved (sound.awake sleeping raised) (by simp [here, Stage.Wakes])

omit [DecidableEq Thread] in
theorem Sound.turn (sound : Sound keeps state) (turn : Turn answer body state after) :
    Sound keeps after := by
  have free : ∀ {thread : Thread}, state.reader.HasFlag →
      ((none : Option (Owner Thread)) = some (.thread thread) ↔ (state.stage thread).HasFlag) :=
    fun reads => iff_of_false (by simp) (sound.thread_without reads _)
  cases turn with
  | enter here unowned =>
    refine ⟨sound.data, ?_, iff_of_true rfl trivial, nofun, sound.callback, nofun⟩
    intro thread
    refine iff_of_false (by simp) fun has => ?_
    simpa [unowned] using (sound.flag thread).mpr has
  | proceed here seen =>
    have owns := sound.reader.mpr (by simp [here, Reader.HasFlag])
    exact ⟨sound.data, sound.flag, iff_of_true owns trivial, fun _ => seen, sound.callback, nofun⟩
  | sleep here unseen =>
    refine ⟨sound.data, fun thread => free (by simp [here, Reader.HasFlag]),
      iff_of_false (by simp) (by simp [Reader.HasFlag]), nofun, sound.callback, ?_⟩
    intro _ raised
    cases unseen.symm.trans raised
  | clear here =>
    have owns := sound.reader.mpr (by simp [here, Reader.HasFlag])
    exact ⟨sound.data, sound.flag, iff_of_true owns trivial, nofun, sound.callback, nofun⟩
  | leave here =>
    exact ⟨sound.data, fun thread => free (by simp [here, Reader.HasFlag]),
      iff_of_false (by simp) (by simp [Reader.HasFlag]), nofun, sound.callback, nofun⟩
  | read here _ =>
    have unowned : ¬ state.flagMutex = some .reader := fun owns => by
      simpa [here, Reader.HasFlag] using sound.reader.mp owns
    exact ⟨sound.data, sound.flag, iff_of_false unowned (by simp [Reader.HasFlag]), nofun,
      sound.callback, nofun⟩
  | publish here =>
    have unowned : ¬ state.flagMutex = some .reader := fun owns => by
      simpa [here, Reader.HasFlag] using sound.reader.mp owns
    exact ⟨sound.data, sound.flag, iff_of_false unowned (by simp [Reader.HasFlag]), nofun,
      sound.callback, nofun⟩

theorem Sound.step {event : Event Thread Data} (sound : Sound keeps state)
    (stepped : step keeps answer body state event = some after) : Sound keeps after := by
  cases event with
  | touch data =>
    cases stepped
    exact ⟨sound.data, sound.flag, sound.reader, sound.seen, sound.callback, sound.awake⟩
  | change thread data announced =>
    obtain ⟨outside, free, rfl⟩ := change_of_step stepped
    refine ⟨sound.data.acquire (by simp [free]) (by simp [Stage.HasData]) (by simp),
      sound.flag.keep (by simp [outside, Stage.HasFlag]), sound.reader, sound.seen,
      callback_moved sound.callback (by simp [Stage.InCallback]), ?_⟩
    intro sleeping raised
    exact awake_moved (sound.awake sleeping raised) (by simp [outside, Stage.Wakes])
  | advance thread => exact sound.advance (advance_of_step stepped)
  | install =>
    simp only [Monitor.step] at stepped
    split at stepped
    · cases stepped
      exact ⟨sound.data, sound.flag, sound.reader, sound.seen, fun _ _ => rfl, sound.awake⟩
    · cases stepped
  | start =>
    simp only [Monitor.step] at stepped
    split at stepped
    · rename_i installed unstarted
      cases stepped
      have unowned : ¬ state.flagMutex = some .reader := fun owns => by
        simpa [unstarted, Reader.HasFlag] using sound.reader.mp owns
      exact ⟨sound.data, sound.flag, iff_of_false unowned (by simp [Reader.HasFlag]), nofun,
        sound.callback, nofun⟩
    · cases stepped
  | reader => exact sound.turn (turn_of_step stepped)
  | spurious =>
    simp only [Monitor.step] at stepped
    split at stepped
    · rename_i sleeping
      cases stepped
      have unowned : ¬ state.flagMutex = some .reader := fun owns => by
        simpa [sleeping, Reader.HasFlag] using sound.reader.mp owns
      exact ⟨sound.data, sound.flag, iff_of_false unowned (by simp [Reader.HasFlag]), nofun,
        sound.callback, nofun⟩
    · cases stepped

/-! ## No thread waits for another for ever -/

/-- The steps of threads that have begun something. -/
def Event.Internal : Event Thread Data → Prop
  | .advance _ | .reader => True
  | .touch _ | .change .. | .install | .start | .spurious => False

/-- No change is under way, and the reader sleeps or has not been started. -/
structure AtRest (state : State Thread Op Result Data Message) : Prop where
  outside : ∀ thread, state.stage thread = .outside
  unlocked : state.dataMutex = none ∧ state.flagMutex = none
  reader : state.reader = .unstarted ∨ state.reader = .sleeping ∧ state.flag = false

/-- The reader has no program that faults. -/
def ReadsOn (reader : Reader Op Result Message) : Prop :=
  ∀ program, reader = .reading program → program.Faultless

theorem readsOn_step {event : Event Thread Data} (faultless : body.Faultless)
    (readsOn : ReadsOn state.reader) (stepped : step keeps answer body state event = some after) :
    ReadsOn after.reader := by
  cases event with
  | touch data =>
    cases stepped
    exact readsOn
  | change thread data announced =>
    obtain ⟨_, _, rfl⟩ := change_of_step stepped
    exact readsOn
  | advance thread =>
    cases advance_of_step stepped with
    | silent | call | lock | raise | unlock | leave => exact readsOn
    | notify here =>
      show ReadsOn state.reader.notified
      cases reader : state.reader with
      | reading program =>
        show ReadsOn (.reading program)
        rw [← reader]
        exact readsOn
      | unstarted | entering | testing | sleeping | clearing | leaving => exact nofun
  | install =>
    simp only [step] at stepped
    split at stepped
    · cases stepped
      exact readsOn
    · cases stepped
  | start =>
    simp only [step] at stepped
    split at stepped
    · cases stepped
      exact nofun
    · cases stepped
  | reader =>
    cases turn_of_step stepped with
    | enter | proceed | sleep | clear | publish => exact nofun
    | leave here =>
      intro program same
      cases same
      exact faultless
    | read here free =>
      intro program same
      cases same
      cases readsOn _ here with
      | call rest => exact rest _
  | spurious =>
    simp only [step] at stepped
    split at stepped
    · cases stepped
      exact nofun
    · cases stepped

/-- A thread has a step to make whatever the others do, unless it waits for the mutex of the
    flag. -/
theorem advances {thread : Thread} (inside : state.stage thread ≠ .outside)
    (free : state.stage thread = .calling → state.flagMutex = none) :
    (step keeps answer body state (.advance thread)).isSome := by
  cases here : state.stage thread with
  | outside => exact absurd here inside
  | changed announced =>
    simp only [step, here]
    split <;> rfl
  | calling => simp [step, here, free here]
  | locked | raised | unlocked | notified => simp [step, here]

omit [DecidableEq Thread] in
theorem Sound.outside_of_flagOwner (sound : Sound keeps state)
    (outside : ∀ thread, state.stage thread = .outside) : state.dataMutex = none := by
  cases owner : state.dataMutex with
  | none => rfl
  | some thread =>
    have has := (sound.data thread).mp owner
    simp [outside thread, Stage.HasData] at has

/-- Some thread can go on with what it has begun, unless nothing has been begun. -/
theorem moves_or_rests (sound : Sound keeps state) (readsOn : ReadsOn state.reader) :
    (∃ event, event.Internal ∧ (step keeps answer body state event).isSome) ∨ AtRest state := by
  by_cases free : state.flagMutex = none
  · by_cases outside : ∀ thread, state.stage thread = .outside
    · have unlocked := sound.outside_of_flagOwner outside
      have unread : ¬ state.reader.HasFlag := fun reads => by
        simpa [free] using sound.reader.mpr reads
      cases reader : state.reader with
      | unstarted => exact Or.inr ⟨outside, ⟨unlocked, free⟩, Or.inl reader⟩
      | entering => exact Or.inl ⟨.reader, trivial, by simp [step, reader, free]⟩
      | testing | clearing | leaving => simp [reader, Reader.HasFlag] at unread
      | sleeping =>
        -- nobody is left to notify, so the flag is not set
        refine Or.inr ⟨outside, ⟨unlocked, free⟩, Or.inr ⟨reader, ?_⟩⟩
        by_contra raised
        obtain ⟨thread, wakes⟩ := sound.awake reader (Bool.eq_true_of_not_eq_false raised)
        simp [outside thread, Stage.Wakes] at wakes
      | reading program =>
        refine Or.inl ⟨.reader, trivial, ?_⟩
        cases readsOn program reader with
        | done message => simp [step, reader]
        | call rest => simp [step, reader, unlocked]
    · push Not at outside
      obtain ⟨thread, inside⟩ := outside
      exact Or.inl ⟨.advance thread, trivial, advances inside fun _ => free⟩
  · -- whoever has the mutex of the flag can go on
    obtain ⟨owner, owns⟩ := Option.ne_none_iff_exists'.mp free
    cases owner with
    | thread thread =>
      have has := (sound.flag thread).mp owns
      refine Or.inl ⟨.advance thread, trivial, advances ?_ ?_⟩
      · intro outside
        simp [outside, Stage.HasFlag] at has
      · intro calling
        simp [calling, Stage.HasFlag] at has
    | reader =>
      have has := sound.reader.mp owns
      refine Or.inl ⟨.reader, trivial, ?_⟩
      cases reader : state.reader with
      | testing =>
        simp only [step, reader]
        split <;> rfl
      | clearing | leaving => simp [step, reader]
      | unstarted | entering | sleeping | reading => simp [reader, Reader.HasFlag] at has

/-! ## The atomic flag -/

/-- The reader as `ChangeFlag` sees it: it wakes up when it clears the flag. -/
def readerOf (body : Program Op Result Message) :
    Reader Op Result Message → ChangeFlag.Reader Op Result Message
  | .unstarted => .unstarted
  | .entering | .testing | .sleeping | .clearing => .waiting
  | .leaving => .reading body
  | .reading program => .reading program

@[simp] theorem readerOf_notified (body : Program Op Result Message)
    (reader : Reader Op Result Message) : readerOf body reader.notified = readerOf body reader := by
  cases reader <;> rfl

/-- The callback of the thread's change has not set the flag yet. -/
def Stage.Owes (stage : Stage) : Prop :=
  stage = .changed true ∨ stage = .calling ∨ stage = .locked

def shadowOf (body : Program Op Result Message) (state : State Thread Op Result Data Message)
    (pending : Nat) : ChangeFlag.State Op Result Data Message :=
  { data := state.data
    installed := state.installed
    changed := state.flag
    pending
    reader := readerOf body state.reader
    published := state.published
    announced := state.announced }

/-- The callbacks that are pending are those of the threads that owe one. -/
def Shadows (body : Program Op Result Message) (state : State Thread Op Result Data Message)
    (shadow : ChangeFlag.State Op Result Data Message) : Prop :=
  ∃ owing : Finset Thread, (∀ thread, thread ∈ owing ↔ (state.stage thread).Owes) ∧
    shadow = shadowOf body state owing.card

/-- A change without a callback is one that no call can see. -/
def Honest (answer : (operation : Op) → Data → Result operation)
    (state : State Thread Op Result Data Message) : Event Thread Data → Prop
  | .touch data => ∀ operation, answer operation data = answer operation state.data
  | .change _ data announced =>
      announced = false → ∀ operation, answer operation data = answer operation state.data
  | _ => True

section
variable {stage : Thread → Stage} {owing : Finset Thread} {thread : Thread} {new : Stage}

theorem owing_keep (owes : ∀ other, other ∈ owing ↔ (stage other).Owes)
    (same : new.Owes ↔ (stage thread).Owes) :
    ∀ other, other ∈ owing ↔ (Function.update stage thread new other).Owes := by
  intro other
  by_cases here : other = thread
  · subst here
    rw [Function.update_self, same]
    exact owes other
  · rw [Function.update_of_ne here]
    exact owes other

theorem owing_insert (owes : ∀ other, other ∈ owing ↔ (stage other).Owes) (now : new.Owes) :
    ∀ other, other ∈ insert thread owing ↔ (Function.update stage thread new other).Owes := by
  intro other
  by_cases here : other = thread
  · subst here
    rw [Function.update_self]
    exact iff_of_true (Finset.mem_insert_self _ _) now
  · rw [Function.update_of_ne here, Finset.mem_insert, or_iff_right here]
    exact owes other

theorem owing_erase (owes : ∀ other, other ∈ owing ↔ (stage other).Owes) (now : ¬ new.Owes) :
    ∀ other, other ∈ owing.erase thread ↔ (Function.update stage thread new other).Owes := by
  intro other
  by_cases here : other = thread
  · subst here
    rw [Function.update_self]
    exact iff_of_false (Finset.notMem_erase _ _) now
  · rw [Function.update_of_ne here, Finset.mem_erase, and_iff_right here]
    exact owes other

end

/-- The atomic flag has a run to where a step of the threads has led. -/
abbrev Matched (answer : (operation : Op) → Data → Result operation)
    (body : Program Op Result Message) (state after : State Thread Op Result Data Message)
    (event : Event Thread Data) (shadow : ChangeFlag.State Op Result Data Message) : Prop :=
  (ChangeFlag.system answer body).Matches (ChangeFlag.Honest answer) (Shadows body after)
    (Honest answer state event) shadow

theorem change_matched {owing : Finset Thread} {thread : Thread} {data : Data} {announced : Bool}
    (owes : ∀ other, other ∈ owing ↔ (state.stage other).Owes)
    (stepped : step keeps answer body state (.change thread data announced) = some after) :
    Matched answer body state after (.change thread data announced)
      (shadowOf body state owing.card) := by
  obtain ⟨outside, _, rfl⟩ := change_of_step stepped
  have silent : thread ∉ owing := by simp [owes, outside, Stage.Owes]
  cases announced with
  | true =>
    refine Lts.matches_by_step _ (.change data true) rfl
      ⟨insert thread owing, owing_insert owes (Or.inl rfl), ?_⟩ Iff.rfl
    rw [Finset.card_insert_of_notMem silent]
    rfl
  | false =>
    refine Lts.matches_by_step _ (.change data false) rfl
      ⟨owing, owing_keep owes (by simp [outside, Stage.Owes]), rfl⟩ Iff.rfl

/-- The callback of a thread is the one event of it that counts. -/
theorem callback_matched {owing : Finset Thread} {thread : Thread}
    (owes : ∀ other, other ∈ owing ↔ (state.stage other).Owes)
    (here : (state.stage thread).Owes) (left : ¬ (after.stage thread).Owes)
    (others : after.stage = Function.update state.stage thread (after.stage thread))
    (same : { shadowOf body state (owing.card - 1) with
      changed := state.flag || state.installed } = shadowOf body after (owing.card - 1)) :
    Matched answer body state after (.advance thread) (shadowOf body state owing.card) := by
  have member : thread ∈ owing := (owes thread).mpr here
  obtain ⟨rest, count⟩ := Nat.exists_eq_succ_of_ne_zero (Finset.card_ne_zero_of_mem member)
  have stepped : (ChangeFlag.system answer body).step (shadowOf body state owing.card) .callback =
      some (shadowOf body after (owing.card - 1)) := by
    rw [← same, count]
    rfl
  refine Lts.matches_by_step _ .callback stepped ⟨owing.erase thread, ?_, ?_⟩ Iff.rfl
  · rw [others]
    exact owing_erase owes left
  · rw [Finset.card_erase_of_mem member]

theorem advance_matched {owing : Finset Thread} {thread : Thread} (sound : Sound keeps state)
    (owes : ∀ other, other ∈ owing ↔ (state.stage other).Owes)
    (advance : Advance keeps state thread after) :
    Matched answer body state after (.advance thread) (shadowOf body state owing.card) := by
  have quiet : ∀ new : Stage, after.stage = Function.update state.stage thread new →
      (new.Owes ↔ (state.stage thread).Owes) →
      shadowOf body state owing.card = shadowOf body after owing.card →
      Matched answer body state after (.advance thread) (shadowOf body state owing.card) := by
    intro new moved same unchanged
    refine Lts.matches_by_nothing _ ⟨owing, ?_, unchanged⟩ trivial
    rw [moved]
    exact owing_keep owes same
  cases advance with
  | @silent announced here silent =>
    cases announced with
    | true =>
      -- the callback is not installed yet
      have uninstalled : state.installed = false := silent
      refine callback_matched owes (by simp [here, Stage.Owes]) ?_ ?_ ?_
      · simp [State.moved, Stage.Owes]
      · simp [State.moved]
      · simp [shadowOf, State.moved, uninstalled]
    | false => exact quiet .outside rfl (by simp [here, Stage.Owes]) rfl
  | call here _ => exact quiet .calling rfl (by simp [here, Stage.Owes]) rfl
  | lock here _ => exact quiet .locked rfl (by simp [here, Stage.Owes]) rfl
  | raise here =>
    have installed := sound.callback thread (by simp [here, Stage.InCallback])
    refine callback_matched owes (by simp [here, Stage.Owes]) ?_ ?_ ?_
    · simp [State.moved, Stage.Owes]
    · simp [State.moved]
    · simp [shadowOf, State.moved, installed]
  | unlock here => exact quiet .unlocked rfl (by simp [here, Stage.Owes]) rfl
  | notify here =>
    refine quiet .notified rfl (by simp [here, Stage.Owes]) ?_
    simp [shadowOf, State.moved]
  | leave here => exact quiet .outside rfl (by simp [here, Stage.Owes]) rfl

omit [DecidableEq Thread] in
theorem turn_matched {owing : Finset Thread} (sound : Sound keeps state)
    (owes : ∀ other, other ∈ owing ↔ (state.stage other).Owes)
    (turn : Turn answer body state after) :
    Matched answer body state after .reader (shadowOf body state owing.card) := by
  cases turn with
  | enter here _ =>
    exact Lts.matches_by_nothing _ ⟨owing, owes, by simp [shadowOf, here, readerOf]⟩ trivial
  | proceed here _ =>
    exact Lts.matches_by_nothing _ ⟨owing, owes, by simp [shadowOf, here, readerOf]⟩ trivial
  | sleep here _ =>
    exact Lts.matches_by_nothing _ ⟨owing, owes, by simp [shadowOf, here, readerOf]⟩ trivial
  | clear here =>
    have seen := sound.seen here
    refine Lts.matches_by_step _ .wake ?_ ⟨owing, owes, rfl⟩ Iff.rfl
    simp [ChangeFlag.system, ChangeFlag.step, shadowOf, here, readerOf, seen]
  | leave here =>
    exact Lts.matches_by_nothing _ ⟨owing, owes, by simp [shadowOf, here, readerOf]⟩ trivial
  | read here _ =>
    refine Lts.matches_by_step _ .read ?_ ⟨owing, owes, rfl⟩ Iff.rfl
    simp [ChangeFlag.system, ChangeFlag.step, shadowOf, here, readerOf]
  | publish here =>
    refine Lts.matches_by_step _ .publish ?_ ⟨owing, owes, rfl⟩ Iff.rfl
    simp [ChangeFlag.system, ChangeFlag.step, shadowOf, here, readerOf]

theorem step_matched {event : Event Thread Data}
    {shadow : ChangeFlag.State Op Result Data Message} (sound : Sound keeps state)
    (shadows : Shadows body state shadow)
    (stepped : step keeps answer body state event = some after) :
    Matched answer body state after event shadow := by
  obtain ⟨owing, owes, rfl⟩ := shadows
  cases event with
  | touch data =>
    cases stepped
    refine Lts.matches_by_step _ (.change data false) ?_ ⟨owing, owes, rfl⟩ ?_
    · simp [ChangeFlag.system, ChangeFlag.step, shadowOf]
    · simp [Honest, ChangeFlag.Honest, shadowOf]
  | change thread data announced => exact change_matched owes stepped
  | advance thread => exact advance_matched sound owes (advance_of_step stepped)
  | install =>
    simp only [step] at stepped
    split at stepped
    · cases stepped
      exact Lts.matches_by_step _ .install rfl ⟨owing, owes, rfl⟩ Iff.rfl
    · cases stepped
  | start =>
    simp only [step] at stepped
    split at stepped
    · rename_i installed unstarted
      cases stepped
      refine Lts.matches_by_step _ .start ?_ ⟨owing, owes, rfl⟩ Iff.rfl
      simp [ChangeFlag.system, ChangeFlag.step, shadowOf, installed, unstarted, readerOf]
    · cases stepped
  | reader => exact turn_matched sound owes (turn_of_step stepped)
  | spurious =>
    simp only [step] at stepped
    split at stepped
    · rename_i sleeping
      cases stepped
      exact Lts.matches_by_nothing _ ⟨owing, owes, by simp [shadowOf, sleeping, readerOf]⟩ trivial
    · cases stepped

/-- Every run with the mutexes is one of the atomic flag. -/
theorem simulates {data : Data} {events : List (Event Thread Data)}
    (reached : (system keeps answer body).exec { data } events = some state) :
    Sound keeps state ∧
      (ChangeFlag.system answer body).Matches (ChangeFlag.Honest answer) (Shadows body state)
        ((system keeps answer body).Along (Honest answer) { data } events) { data } := by
  let related (state : State Thread Op Result Data Message)
      (shadow : ChangeFlag.State Op Result Data Message) : Prop :=
    Sound keeps state ∧ Shadows body state shadow
  have initial : related { data } { data } :=
    ⟨sound_initial keeps data, ∅, by simp [Stage.Owes], rfl⟩
  have matched : ∀ state event after shadow, related state shadow →
      (system keeps answer body).step state event = some after →
        (ChangeFlag.system answer body).Matches (ChangeFlag.Honest answer) (related after)
          (Honest answer state event) shadow := by
    rintro state event after shadow ⟨sound, shadows⟩ stepped
    obtain ⟨events, final, ran, still, met⟩ := step_matched sound shadows stepped
    exact ⟨events, final, ran, ⟨sound.step stepped, still⟩, met⟩
  obtain ⟨shadowEvents, shadow, ran, ⟨sound, shadows⟩, honest⟩ :=
    Lts.simulation _ _ matched initial reached
  exact ⟨sound, shadowEvents, shadow, ran, shadows, honest⟩

/-- What no step takes back. -/
structure Grown (state after : State Thread Op Result Data Message) : Prop where
  installed : state.installed = true → after.installed = true
  announced : state.announced = true → after.announced = true
  started : state.reader ≠ .unstarted → after.reader ≠ .unstarted

theorem grown_step {event : Event Thread Data}
    (stepped : step keeps answer body state event = some after) : Grown state after := by
  cases event with
  | touch data =>
    cases stepped
    exact ⟨id, id, id⟩
  | change thread data announced =>
    obtain ⟨_, _, rfl⟩ := change_of_step stepped
    exact ⟨id, fun seen => by simp [seen], id⟩
  | advance thread =>
    cases advance_of_step stepped with
    | silent | call | lock | raise | unlock | leave => exact ⟨id, id, id⟩
    | notify here =>
      refine ⟨id, id, fun started => ?_⟩
      show state.reader.notified ≠ .unstarted
      cases reader : state.reader <;> simp_all [Reader.notified]
  | install =>
    simp only [step] at stepped
    split at stepped
    · cases stepped
      exact ⟨fun _ => rfl, id, id⟩
    · cases stepped
  | start =>
    simp only [step] at stepped
    split at stepped
    · cases stepped
      exact ⟨id, id, fun _ => nofun⟩
    · cases stepped
  | reader => cases turn_of_step stepped <;> exact ⟨id, id, fun _ => nofun⟩
  | spurious =>
    simp only [step] at stepped
    split at stepped
    · cases stepped
      exact ⟨id, id, fun _ => nofun⟩
    · cases stepped

/-- At rest, after an announced change, the reader has published what it would make of the
    data as they are. -/
theorem rest_published {data : Data} {events : List (Event Thread Data)}
    (reached : (system keeps answer body).exec { data } events = some state)
    (honest : (system keeps answer body).Along (Honest answer) { data } events)
    (atRest : AtRest state) (started : state.reader ≠ .unstarted)
    (announced : state.announced = true) :
    ∃ message, state.published = some message ∧ body.eval answer state.data = some message := by
  obtain ⟨_, shadowEvents, shadow, ran, ⟨owing, owes, rfl⟩, met⟩ := simulates reached
  obtain ⟨sleeping, unset⟩ := atRest.reader.resolve_left started
  have none : owing = ∅ := by
    refine Finset.eq_empty_of_forall_notMem fun thread member => ?_
    have owing := (owes thread).mp member
    simp [atRest.outside thread, Stage.Owes] at owing
  have quiescent : ChangeFlag.Quiescent (shadowOf body state owing.card) := by
    refine ⟨?_, unset, ?_⟩
    · simp [shadowOf, sleeping, readerOf]
    · simp [shadowOf, none]
  exact ChangeFlag.published_current ran (met.mp honest) quiescent announced

/-! ## The threads come to rest -/

/-- How many steps of its change a thread has left. -/
def Stage.left : Stage → Nat
  | .outside => 0
  | .notified => 1
  | .unlocked => 2
  | .raised => 3
  | .locked => 4
  | .calling => 5
  | .changed _ => 6

/-- What the reader has left of its program, and until it sleeps or reads. -/
def Reader.left (body : Program Op Result Message) :
    Reader Op Result Message → Option (Program Op Result Message) × Nat
  | .leaving => (some body, 1)
  | .reading program => (some program, 0)
  | .entering => (none, 3)
  | .testing => (none, 2)
  | .clearing => (none, 1)
  | .unstarted | .sleeping => (none, 0)

abbrev Measure (Op : Type) (Result : Op → Type) (Message : Type) : Type :=
  Nat × Nat × Option (Program Op Result Message) × Nat

/-- A change under way outweighs the flag, which sends the reader round once more. -/
def Less : Measure Op Result Message → Measure Op Result Message → Prop :=
  Prod.Lex (· < ·) (Prod.Lex (· < ·) (Prod.Lex Program.Remains (· < ·)))

theorem less_wellFounded : WellFounded (@Less Op Result Message) :=
  Nat.lt_wfRel.wf.prod_lex (Nat.lt_wfRel.wf.prod_lex
    (Program.remains_wellFounded.prod_lex Nat.lt_wfRel.wf))

/-- What is left to do where only the threads of `active` are inside of a change. -/
def measure (body : Program Op Result Message) (active : Finset Thread)
    (state : State Thread Op Result Data Message) : Measure Op Result Message :=
  (∑ thread ∈ active, (state.stage thread).left, state.flag.toNat, state.reader.left body)

/-- No thread but those of `active` is inside of a change. -/
def Confined (active : Finset Thread) (state : State Thread Op Result Data Message) : Prop :=
  ∀ thread, thread ∉ active → state.stage thread = .outside

theorem advance_left {thread : Thread} (advance : Advance keeps state thread after) :
    ∃ new, after.stage = Function.update state.stage thread new ∧
      new.left < (state.stage thread).left := by
  cases advance with
  | silent here silent => exact ⟨.outside, rfl, by simp [here, Stage.left]⟩
  | call here _ => exact ⟨.calling, rfl, by simp [here, Stage.left]⟩
  | lock here _ => exact ⟨.locked, rfl, by simp [here, Stage.left]⟩
  | raise here => exact ⟨.raised, rfl, by simp [here, Stage.left]⟩
  | unlock here => exact ⟨.unlocked, rfl, by simp [here, Stage.left]⟩
  | notify here => exact ⟨.notified, rfl, by simp [here, Stage.left]⟩
  | leave here => exact ⟨.outside, rfl, by simp [here, Stage.left]⟩

theorem advance_less (body : Program Op Result Message) {active : Finset Thread} {thread : Thread}
    (confined : Confined active state)
    (advance : Advance keeps state thread after) :
    Confined active after ∧ Less (measure body active after) (measure body active state) := by
  obtain ⟨new, moved, fewer⟩ := advance_left advance
  have member : thread ∈ active := by
    by_contra absent
    simp [confined thread absent, Stage.left] at fewer
  refine ⟨?_, Prod.Lex.left _ _ (Finset.sum_lt_sum ?_ ⟨thread, member, ?_⟩)⟩
  · intro other absent
    rw [moved, Function.update_of_ne (ne_of_mem_of_not_mem member absent).symm]
    exact confined other absent
  · intro other _
    rw [moved]
    by_cases here : other = thread
    · subst here
      rw [Function.update_self]
      exact Nat.le_of_lt fewer
    · rw [Function.update_of_ne here]
  · rw [moved, Function.update_self]
    exact fewer

omit [DecidableEq Thread] in
theorem turn_less (active : Finset Thread) (sound : Sound keeps state)
    (turn : Turn answer body state after) :
    after.stage = state.stage ∧ Less (measure body active after) (measure body active state) := by
  have later : ∀ position : Option (Program Op Result Message) × Nat,
      Prod.Lex Program.Remains (· < ·) position (state.reader.left body) →
        Less (∑ thread ∈ active, (state.stage thread).left, state.flag.toNat, position)
          (measure body active state) := fun _ less =>
    Prod.Lex.right _ (Prod.Lex.right _ less)
  cases turn with
  | enter here _ => exact ⟨rfl, later (none, 2) (by rw [here]; exact .right _ (by decide))⟩
  | proceed here _ => exact ⟨rfl, later (none, 1) (by rw [here]; exact .right _ (by decide))⟩
  | sleep here _ => exact ⟨rfl, later (none, 0) (by rw [here]; exact .right _ (by decide))⟩
  | clear here =>
    refine ⟨rfl, Prod.Lex.right _ (Prod.Lex.left _ _ ?_)⟩
    show 0 < state.flag.toNat
    simp [sound.seen here]
  | leave here => exact ⟨rfl, later (some body, 0) (by rw [here]; exact .right _ (by decide))⟩
  | @read operation next here _ =>
    refine ⟨rfl, later (some (next (answer operation state.data)), 0) ?_⟩
    rw [here]
    exact .left _ _ (.call next _)
  | publish here => exact ⟨rfl, later (none, 3) (by rw [here]; exact .left _ _ (.done _))⟩

/-- The step of a thread that has begun something, backwards. -/
def InternalStep (keeps : Bool) (answer : (operation : Op) → Data → Result operation)
    (body : Program Op Result Message) (after before : State Thread Op Result Data Message) : Prop :=
  ∃ event, event.Internal ∧ step keeps answer body before event = some after

/-- Without a further change, and without a spurious wake-up, there is no infinite run. -/
theorem acc_internal {active : Finset Thread} (sound : Sound keeps state)
    (confined : Confined active state) : Acc (InternalStep keeps answer body) state := by
  obtain ⟨bound, isBound⟩ : ∃ bound, measure body active state = bound := ⟨_, rfl⟩
  induction bound using less_wellFounded.induction generalizing state with
  | _ bound ih =>
    refine ⟨_, ?_⟩
    rintro after ⟨event, internal, stepped⟩
    have still := sound.step stepped
    cases event with
    | advance thread =>
      obtain ⟨stays, less⟩ := advance_less body confined (advance_of_step stepped)
      exact ih _ (isBound ▸ less) still stays rfl
    | reader =>
      obtain ⟨same, less⟩ := turn_less active sound (turn_of_step stepped)
      refine ih _ (isBound ▸ less) still ?_ rfl
      intro thread absent
      rw [same]
      exact confined thread absent
    | touch | change | install | start | spurious => cases internal

/-- Only finitely many threads are inside of a change. -/
theorem confined_step {event : Event Thread Data} {active : Finset Thread}
    (confined : Confined active state) (stepped : step keeps answer body state event = some after) :
    ∃ active, Confined active after := by
  cases event with
  | touch data =>
    cases stepped
    exact ⟨active, confined⟩
  | change thread data announced =>
    obtain ⟨_, _, rfl⟩ := change_of_step stepped
    refine ⟨insert thread active, ?_⟩
    intro other absent
    rw [Finset.mem_insert, not_or] at absent
    show Function.update state.stage thread _ other = .outside
    rw [Function.update_of_ne absent.1]
    exact confined other absent.2
  | advance thread => exact ⟨active, (advance_less body confined (advance_of_step stepped)).1⟩
  | install =>
    simp only [step] at stepped
    split at stepped
    · cases stepped
      exact ⟨active, confined⟩
    · cases stepped
  | start =>
    simp only [step] at stepped
    split at stepped
    · cases stepped
      exact ⟨active, confined⟩
    · cases stepped
  | reader =>
    refine ⟨active, fun thread absent => ?_⟩
    cases turn_of_step stepped <;> exact confined thread absent
  | spurious =>
    simp only [step] at stepped
    split at stepped
    · cases stepped
      exact ⟨active, confined⟩
    · cases stepped

end MicroRosAgent.Interleaving.Monitor
