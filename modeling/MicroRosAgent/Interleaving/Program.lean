import MicroRosAgent.Interleaving.Lts
import Mathlib.Data.List.Induction
import Mathlib.Logic.Function.Basic

/-! # Programs of atomic calls

A C++ function that works on state shared with other threads is modelled by the
atomic calls it makes: `Program` is the tree of those calls, one branch for each
result a call may return.  The same program has two readings:

* `run` — all calls one after another, with nobody in between;
* `Pool.advance`, `Family.advance` — one call of one of many threads, so that a run of
  them is an arbitrary interleaving of their calls.

`fault` is undefined behaviour of the C++ code, such as dereferencing `end()`:
it never returns.
-/

namespace MicroRosAgent.Interleaving

/-- A computation over the calls `Op`; `Result op` is what the call `op` returns. -/
inductive Program (Op : Type) (Result : Op → Type) (α : Type) : Type where
  | done (value : α)
  | call (operation : Op) (next : Result operation → Program Op Result α)
  | fault

/-- What a call does to the state; `none` is undefined behaviour inside the call. -/
abbrev Handler (Op : Type) (Result : Op → Type) (State : Type) : Type :=
  (operation : Op) → State → Option (Result operation × State)

namespace Program

variable {Op : Type} {Result : Op → Type} {State Data α β : Type}

def bind (program : Program Op Result α) (next : α → Program Op Result β) :
    Program Op Result β :=
  match program with
  | .done value => next value
  | .call operation rest => .call operation fun result => (rest result).bind next
  | .fault => .fault

instance : Monad (Program Op Result) where
  pure := .done
  bind := bind

/-- The program that makes one call and returns its result. -/
def perform (operation : Op) : Program Op Result (Result operation) :=
  .call operation .done

@[simp] theorem pure_eq (value : α) : (pure value : Program Op Result α) = .done value := rfl

@[simp] theorem done_bind (value : α) (next : α → Program Op Result β) :
    (Program.done value >>= next) = next value := rfl

@[simp] theorem call_bind (operation : Op) (rest : Result operation → Program Op Result α)
    (next : α → Program Op Result β) :
    (Program.call operation rest >>= next) =
      .call operation fun result => rest result >>= next := rfl

@[simp] theorem fault_bind (next : α → Program Op Result β) :
    ((Program.fault : Program Op Result α) >>= next) = .fault := rfl

@[simp] theorem perform_bind (operation : Op) (next : Result operation → Program Op Result β) :
    (perform operation >>= next) = .call operation next := rfl

instance : LawfulMonad (Program Op Result) := LawfulMonad.mk' (Program Op Result)
  (fun program => by
    induction program with
    | done value => rfl
    | call operation rest ih => exact congrArg _ (funext ih)
    | fault => rfl)
  (fun _ _ => rfl)
  (fun program _ _ => by
    induction program with
    | done value => rfl
    | call operation rest ih => exact congrArg _ (funext ih)
    | fault => rfl)

@[simp] theorem bind_done_unit (program : Program Op Result Unit) :
    (program >>= fun _ => .done ()) = program :=
  bind_pure program

/-! ## Running a program alone -/

/-- Make all calls one after another. -/
def run (handler : Handler Op Result State) : Program Op Result α → State → Option (α × State)
  | .done value, state => some (value, state)
  | .call operation next, state =>
      (handler operation state).bind fun answer => (next answer.1).run handler answer.2
  | .fault, _ => none

@[simp] theorem run_done (handler : Handler Op Result State) (value : α) (state : State) :
    (Program.done value : Program Op Result α).run handler state = some (value, state) := rfl

@[simp] theorem run_call (handler : Handler Op Result State) (operation : Op)
    (next : Result operation → Program Op Result α) (state : State) :
    (Program.call operation next).run handler state =
      (handler operation state).bind fun answer => (next answer.1).run handler answer.2 := rfl

@[simp] theorem run_fault (handler : Handler Op Result State) (state : State) :
    (Program.fault : Program Op Result α).run handler state = none := rfl

@[simp] theorem run_perform (handler : Handler Op Result State) (operation : Op) (state : State) :
    (perform operation).run handler state = handler operation state :=
  Option.bind_fun_some _

theorem run_bind (handler : Handler Op Result State) (program : Program Op Result α)
    (next : α → Program Op Result β) (state : State) :
    (program >>= next).run handler state =
      (program.run handler state).bind fun answer => (next answer.1).run handler answer.2 := by
  induction program generalizing state with
  | done value => rfl
  | call operation rest ih =>
    simp only [call_bind, run_call, Option.bind_assoc]
    exact congrArg _ (funext fun answer => ih answer.1 answer.2)
  | fault => rfl

/-! ## Running a program that only reads -/

/-- The outcome of a reading program on data that does not change. -/
def eval (answer : (operation : Op) → Data → Result operation) (data : Data) :
    Program Op Result α → Option α
  | .done value => some value
  | .call operation next => (next (answer operation data)).eval answer data
  | .fault => none

@[simp] theorem eval_done (answer : (operation : Op) → Data → Result operation) (data : Data)
    (value : α) : (Program.done value : Program Op Result α).eval answer data = some value := rfl

@[simp] theorem eval_call (answer : (operation : Op) → Data → Result operation) (data : Data)
    (operation : Op) (next : Result operation → Program Op Result α) :
    (Program.call operation next).eval answer data =
      (next (answer operation data)).eval answer data := rfl

theorem eval_bind (answer : (operation : Op) → Data → Result operation) (data : Data)
    (program : Program Op Result α) (next : α → Program Op Result β) :
    (program >>= next).eval answer data =
      (program.eval answer data).bind fun value => (next value).eval answer data := by
  induction program with
  | done value => rfl
  | call operation rest ih => exact ih _
  | fault => rfl

/-- Data that answers every call alike cannot be told apart by a reader. -/
theorem eval_congr {answer : (operation : Op) → Data → Result operation} {first second : Data}
    (same : ∀ operation, answer operation first = answer operation second)
    (program : Program Op Result α) : program.eval answer first = program.eval answer second := by
  induction program with
  | done value => rfl
  | call operation next ih => rw [eval_call, eval_call, same]; exact ih _
  | fault => rfl

/-- A reader that sees a part of the data. -/
theorem eval_view {Whole : Type} (answer : (operation : Op) → Data → Result operation)
    (view : Whole → Data) (whole : Whole) (program : Program Op Result α) :
    program.eval (fun operation whole => answer operation (view whole)) whole =
      program.eval answer (view whole) := by
  induction program with
  | done value => rfl
  | call operation next ih => exact ih _
  | fault => rfl

/-- The outcome of a reading program whose successive calls see the successive
snapshots of a list; `none` if the program makes more calls or fewer. -/
def replay (answer : (operation : Op) → Data → Result operation) :
    Program Op Result α → List Data → Option α
  | .done value, [] => some value
  | .call operation next, data :: later => (next (answer operation data)).replay answer later
  | _, _ => none

@[simp] theorem replay_done_nil (answer : (operation : Op) → Data → Result operation) (value : α) :
    (Program.done value : Program Op Result α).replay answer [] = some value := rfl

@[simp] theorem replay_done_cons (answer : (operation : Op) → Data → Result operation) (value : α)
    (data : Data) (later : List Data) :
    (Program.done value : Program Op Result α).replay answer (data :: later) = none := rfl

@[simp] theorem replay_call_cons (answer : (operation : Op) → Data → Result operation)
    (operation : Op) (next : Result operation → Program Op Result α) (data : Data)
    (later : List Data) :
    (Program.call operation next).replay answer (data :: later) =
      (next (answer operation data)).replay answer later := rfl

@[simp] theorem replay_call_nil (answer : (operation : Op) → Data → Result operation)
    (operation : Op) (next : Result operation → Program Op Result α) :
    (Program.call operation next).replay answer [] = none := rfl

theorem replay_call_eq_some {answer : (operation : Op) → Data → Result operation} {operation : Op}
    {next : Result operation → Program Op Result α} {snapshots : List Data} {result : α}
    (replayed : (Program.call operation next).replay answer snapshots = some result) :
    ∃ data later, snapshots = data :: later ∧
      (next (answer operation data)).replay answer later = some result := by
  cases snapshots with
  | nil => cases replayed
  | cons data later => exact ⟨data, later, rfl, replayed⟩

theorem replay_done_eq_some {answer : (operation : Op) → Data → Result operation}
    {value result : α} {snapshots : List Data}
    (replayed : (Program.done value : Program Op Result α).replay answer snapshots = some result) :
    snapshots = [] ∧ value = result := by
  cases snapshots with
  | nil => exact ⟨rfl, Option.some.inj replayed⟩
  | cons data later => cases replayed

theorem replay_bind_eq_some {answer : (operation : Op) → Data → Result operation}
    {program : Program Op Result α} {next : α → Program Op Result β} {snapshots : List Data}
    {result : β} (replayed : (program >>= next).replay answer snapshots = some result) :
    ∃ first second value, snapshots = first ++ second ∧
      program.replay answer first = some value ∧ (next value).replay answer second = some result := by
  induction program generalizing snapshots with
  | done value => exact ⟨[], snapshots, value, rfl, rfl, replayed⟩
  | call operation rest ih =>
    cases snapshots with
    | nil => cases replayed
    | cons data later =>
      obtain ⟨first, second, value, rfl, before, after⟩ := ih _ replayed
      exact ⟨data :: first, second, value, rfl, before, after⟩
  | fault => cases snapshots <;> cases replayed

/-! ## Programs that go on to their end -/

/-- No result of a call leads to a fault. -/
inductive Faultless : Program Op Result α → Prop
  | done (value : α) : Faultless (.done value)
  | call {operation : Op} {next : Result operation → Program Op Result α}
      (rest : ∀ result, (next result).Faultless) : Faultless (.call operation next)

theorem Faultless.bind {program : Program Op Result α} {next : α → Program Op Result β}
    (first : program.Faultless) (second : ∀ value, (next value).Faultless) :
    (program >>= next).Faultless := by
  induction first with
  | done value => exact second value
  | call rest ih => exact .call ih

/-- What is left of a program after a call, and `none` after its end. -/
inductive Remains : Option (Program Op Result α) → Option (Program Op Result α) → Prop
  | call {operation : Op} (next : Result operation → Program Op Result α)
      (result : Result operation) : Remains (some (next result)) (some (.call operation next))
  | done (program : Program Op Result α) : Remains none (some program)

/-- A program makes finitely many calls, whatever their results. -/
theorem remains_wellFounded : WellFounded (@Remains Op Result α) := by
  have atEnd : Acc (@Remains Op Result α) none := ⟨_, nofun⟩
  refine ⟨fun left => ?_⟩
  cases left with
  | none => exact atEnd
  | some program =>
    induction program with
    | done value =>
      refine ⟨_, fun before remains => ?_⟩
      cases remains
      exact atEnd
    | call operation next ih =>
      refine ⟨_, fun before remains => ?_⟩
      cases remains with
      | call _ result => exact ih result
      | done => exact atEnd
    | fault =>
      refine ⟨_, fun before remains => ?_⟩
      cases remains
      exact atEnd

end Program

/-! ## Threads -/

/-- A shared state and the rest of the program of each thread working on it. -/
structure Pool (Op : Type) (Result : Op → Type) (State : Type) where
  shared : State
  threads : List (Program Op Result Unit)

namespace Pool

variable {Op : Type} {Result : Op → Type} {State : Type}

/-- The call thread `index` stands at. -/
def nextCall (pool : Pool Op Result State) (index : Nat) : Option Op :=
  match pool.threads[index]? with
  | some (.call operation _) => some operation
  | _ => none

/-- Thread `index` makes its next call. -/
def advance (handler : Handler Op Result State) (pool : Pool Op Result State) (index : Nat) :
    Option (Pool Op Result State) :=
  match pool.threads[index]? with
  | some (.call operation next) =>
      (handler operation pool.shared).map fun answer =>
        ⟨answer.2, pool.threads.set index (next answer.1)⟩
  | _ => none

/-- A new thread starts. -/
def spawn (pool : Pool Op Result State) (program : Program Op Result Unit) :
    Pool Op Result State :=
  { pool with threads := pool.threads ++ [program] }

/-- Every thread has returned. -/
def Idle (pool : Pool Op Result State) : Prop :=
  ∀ thread ∈ pool.threads, thread = .done ()

theorem nextCall_of_thread {pool : Pool Op Result State} {index : Nat} {operation : Op}
    {next : Result operation → Program Op Result Unit}
    (here : pool.threads[index]? = some (.call operation next)) :
    pool.nextCall index = some operation := by
  simp [nextCall, here]

theorem thread_of_nextCall {pool : Pool Op Result State} {index : Nat} {operation : Op}
    (called : pool.nextCall index = some operation) :
    ∃ next, pool.threads[index]? = some (.call operation next) := by
  unfold nextCall at called
  split at called
  · rename_i next here
    cases called
    exact ⟨next, here⟩
  · cases called

theorem advance_of_thread {handler : Handler Op Result State} {pool after : Pool Op Result State}
    {index : Nat} {operation : Op} {next : Result operation → Program Op Result Unit}
    (here : pool.threads[index]? = some (.call operation next))
    (advanced : pool.advance handler index = some after) :
    ∃ result shared, handler operation pool.shared = some (result, shared) ∧
      after = ⟨shared, pool.threads.set index (next result)⟩ := by
  simp only [advance, here] at advanced
  obtain ⟨⟨result, shared⟩, answered, rfl⟩ := Option.map_eq_some_iff.mp advanced
  exact ⟨result, shared, answered, rfl⟩

/-- All an advancing thread can do: make the call it stands at. -/
theorem advance_cases {handler : Handler Op Result State} {pool after : Pool Op Result State}
    {index : Nat} (advanced : pool.advance handler index = some after) :
    ∃ operation next result shared, pool.threads[index]? = some (.call operation next) ∧
      handler operation pool.shared = some (result, shared) ∧
      after = ⟨shared, pool.threads.set index (next result)⟩ := by
  unfold advance at advanced
  split at advanced
  · rename_i operation next here
    obtain ⟨⟨result, shared⟩, answered, rfl⟩ := Option.map_eq_some_iff.mp advanced
    exact ⟨operation, next, result, shared, here, answered, rfl⟩
  · cases advanced

theorem forall_mem_set {meets : Program Op Result Unit → Prop}
    {threads : List (Program Op Result Unit)} {index : Nat} {next : Program Op Result Unit}
    (all : ∀ thread ∈ threads, meets thread) (here : meets next) :
    ∀ thread ∈ threads.set index next, meets thread := by
  intro thread member
  obtain old | rfl := List.mem_or_eq_of_mem_set member
  · exact all thread old
  · exact here

theorem forall_mem_spawn {meets : Program Op Result Unit → Prop} {pool : Pool Op Result State}
    {program : Program Op Result Unit} (all : ∀ thread ∈ pool.threads, meets thread)
    (here : meets program) : ∀ thread ∈ (pool.spawn program).threads, meets thread :=
  List.forall_mem_append.mpr ⟨all, List.forall_mem_singleton.mpr here⟩

/-- A thread that moves does not matter to what only another thread meets. -/
theorem exists_mem_set (meets : Program Op Result Unit → Prop)
    {threads : List (Program Op Result Unit)} {index : Nat} {thread next : Program Op Result Unit}
    (here : threads[index]? = some thread) (before : ¬ meets thread) (after : ¬ meets next) :
    (∃ other ∈ threads.set index next, meets other) ↔ ∃ other ∈ threads, meets other := by
  constructor
  · intro ⟨other, member, met⟩
    obtain old | rfl := List.mem_or_eq_of_mem_set member
    · exact ⟨other, old, met⟩
    · exact absurd met after
  · intro ⟨other, member, met⟩
    obtain ⟨position, found⟩ := List.mem_iff_getElem?.mp member
    have different : position ≠ index := by
      rintro rfl
      cases here.symm.trans found
      exact before met
    have kept : (threads.set index next)[position]? = some other := by
      rwa [List.getElem?_set_ne different.symm]
    exact ⟨other, List.mem_of_getElem? kept, met⟩

/-- Each thread is related to what it holds, and only threads hold something. -/
structure Holding {Item : Type} (stands : Program Op Result Unit → Option Item → Prop)
    (threads : List (Program Op Result Unit)) (held : Nat → Option Item) : Prop where
  stands : ∀ index thread, threads[index]? = some thread → stands thread (held index)
  beyond : ∀ index, threads.length ≤ index → held index = none

variable {Item : Type} {stands : Program Op Result Unit → Option Item → Prop}
  {threads : List (Program Op Result Unit)} {held : Nat → Option Item}

theorem Holding.set (holding : Holding stands threads held) {index : Nat}
    (bound : index < threads.length) {thread : Program Op Result Unit} {holds : Option Item}
    (now : stands thread holds) :
    Holding stands (threads.set index thread) (Function.update held index holds) := by
  constructor
  · intro other otherThread there
    by_cases same : other = index
    · subst same
      rw [List.getElem?_set_self bound] at there
      cases there
      rw [Function.update_self]
      exact now
    · rw [List.getElem?_set_ne (Ne.symm same)] at there
      rw [Function.update_of_ne same]
      exact holding.stands other otherThread there
  · intro other beyond
    rw [List.length_set] at beyond
    rw [Function.update_of_ne (by omega)]
    exact holding.beyond other beyond

theorem Holding.spawn (holding : Holding stands threads held) {thread : Program Op Result Unit}
    (now : stands thread none) : Holding stands (threads ++ [thread]) held := by
  constructor
  · intro other otherThread there
    by_cases old : other < threads.length
    · rw [List.getElem?_append_left old] at there
      exact holding.stands other otherThread there
    · have last : other = threads.length := by
        have := (List.getElem?_eq_some_iff.mp there).1
        simp only [List.length_append, List.length_singleton] at this
        omega
      subst last
      rw [List.getElem?_concat_length] at there
      cases there
      rw [holding.beyond _ (Nat.le_refl _)]
      exact now
  · intro other beyond
    rw [List.length_append] at beyond
    exact holding.beyond other (by omega)

end Pool

/-! ## Threads with names -/

/-- A shared state and the rest of the program of each thread, where the threads are known
    from the start. -/
structure Family (Op : Type) (Result : Op → Type) (State Name : Type) where
  shared : State
  rest : Name → Program Op Result Unit

namespace Family

variable {Op : Type} {Result : Op → Type} {State Name : Type} [DecidableEq Name]

/-- The thread makes its next call. -/
def advance (handler : Handler Op Result State) (family : Family Op Result State Name)
    (name : Name) : Option (Family Op Result State Name) :=
  match family.rest name with
  | .call operation next =>
      (handler operation family.shared).map fun answer =>
        ⟨answer.2, Function.update family.rest name (next answer.1)⟩
  | _ => none

theorem advance_cases {handler : Handler Op Result State} {family after : Family Op Result State Name}
    {name : Name} (advanced : family.advance handler name = some after) :
    ∃ operation next result shared, family.rest name = .call operation next ∧
      handler operation family.shared = some (result, shared) ∧
      after = ⟨shared, Function.update family.rest name (next result)⟩ := by
  unfold advance at advanced
  split at advanced
  · rename_i operation next here
    obtain ⟨⟨result, shared⟩, answered, rfl⟩ := Option.map_eq_some_iff.mp advanced
    exact ⟨operation, next, result, shared, here, answered, rfl⟩
  · cases advanced

end Family

end MicroRosAgent.Interleaving
