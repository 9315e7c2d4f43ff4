import MicroRosAgent.Interleaving.Program

/-! # Rules for threads that share a state

What a thread does to the shared state can be read off its program, once it is known what
its calls may return; `promised` is that knowledge.  Three properties of a program are
defined by recursion on its calls:

* `Guarantees` — it only makes calls that are allowed;
* `Owes` — it makes a discharging call before it returns;
* `Repays` — after each call that changes something it owes a discharging call.

The first gives the invariants of one program (`Guarantees.run`) and of a pool (`Secure`).
The other two give what holds once all threads have returned: a fact that changes destroy
and discharging calls restore is true, or some thread still owes the call that restores it
(`Accounted`).  Whether a call has changed something may depend on what it returned.
-/

namespace MicroRosAgent.Interleaving

variable {Op : Type} {Result : Op → Type} {State α β : Type}

/-! ## Programs -/

namespace Program

variable {promised : (operation : Op) → Result operation → Prop}

/-- The program makes only allowed calls, as long as they return what is promised. -/
def Guarantees (promised : (operation : Op) → Result operation → Prop) (allowed : Op → Prop) :
    Program Op Result α → Prop
  | .done _ | .fault => True
  | .call operation next =>
      allowed operation ∧
        ∀ result, promised operation result → (next result).Guarantees promised allowed

/-- The program does not return before it has made a discharging call. -/
def Owes (promised : (operation : Op) → Result operation → Prop) (discharges : Op → Prop) :
    Program Op Result α → Prop
  | .done _ => False
  | .fault => True
  | .call operation next =>
      discharges operation ∨
        ∀ result, promised operation result → (next result).Owes promised discharges

/-- After each call that changes something the program owes a discharging call. -/
def Repays (promised changes : (operation : Op) → Result operation → Prop) (discharges : Op → Prop) :
    Program Op Result α → Prop
  | .done _ | .fault => True
  | .call operation next =>
      ∀ result, promised operation result →
        (next result).Repays promised changes discharges ∧
          (changes operation result → (next result).Owes promised discharges)

theorem Guarantees.bind {allowed : Op → Prop} {program : Program Op Result α}
    {next : α → Program Op Result β} (first : program.Guarantees promised allowed)
    (second : ∀ value, (next value).Guarantees promised allowed) :
    (program >>= next).Guarantees promised allowed := by
  induction program with
  | done value => exact second value
  | call operation rest ih =>
    refine ⟨first.1, ?_⟩
    intro result kept
    exact ih result (first.2 result kept)
  | fault => trivial

/-- The same of a program that runs alone: it keeps what each of its calls keeps. -/
theorem Guarantees.run {handler : Handler Op Result State} {allowed : Op → Prop}
    {invariant : State → Prop} {program : Program Op Result α}
    (guarantees : program.Guarantees promised allowed)
    (keeps : ∀ operation state result after, allowed operation → invariant state →
      handler operation state = some (result, after) → invariant after ∧ promised operation result)
    {state after : State} {value : α} (holds : invariant state)
    (ran : program.run handler state = some (value, after)) : invariant after := by
  induction program generalizing state with
  | done result =>
    cases ran
    exact holds
  | call operation next ih =>
    obtain ⟨⟨result, middle⟩, handled, rest⟩ := Option.bind_eq_some_iff.mp ran
    obtain ⟨kept, returned⟩ := keeps operation state result middle guarantees.1 holds handled
    exact ih result (guarantees.2 result returned) kept rest
  | fault => cases ran

theorem Owes.bind {discharges : Op → Prop} {program : Program Op Result α}
    (owes : program.Owes promised discharges) (next : α → Program Op Result β) :
    (program >>= next).Owes promised discharges := by
  induction program with
  | done value => exact absurd owes id
  | call operation rest ih =>
    obtain now | later := owes
    · exact Or.inl now
    · exact Or.inr fun result kept => ih result (later result kept)
  | fault => trivial

theorem Repays.bind {changes : (operation : Op) → Result operation → Prop} {discharges : Op → Prop}
    {program : Program Op Result α} {next : α → Program Op Result β}
    (first : program.Repays promised changes discharges)
    (second : ∀ value, (next value).Repays promised changes discharges) :
    (program >>= next).Repays promised changes discharges := by
  induction program with
  | done value => exact second value
  | call operation rest ih =>
    intro result kept
    obtain ⟨repays, owes⟩ := first result kept
    exact ⟨ih result repays, fun changed => (owes changed).bind next⟩
  | fault => trivial

/-- A call that changes nothing, whatever comes after it. -/
theorem Repays.unchanged {changes : (operation : Op) → Result operation → Prop}
    {discharges : Op → Prop} {operation : Op} {next : Result operation → Program Op Result α}
    (unchanged : ∀ result, ¬ changes operation result)
    (rest : ∀ result, promised operation result → (next result).Repays promised changes discharges) :
    (Program.call operation next).Repays promised changes discharges :=
  fun result kept => ⟨rest result kept, fun changed => absurd changed (unchanged result)⟩

end Program

/-! ## Pools -/

namespace Pool

variable {handler : Handler Op Result State} {promised : (operation : Op) → Result operation → Prop}

/-- Every thread keeps its part, and the shared state meets the invariant. -/
structure Secure (invariant : State → Prop) (promised : (operation : Op) → Result operation → Prop)
    (allowed : Op → Prop) (pool : Pool Op Result State) : Prop where
  shared : invariant pool.shared
  threads : ∀ thread ∈ pool.threads, thread.Guarantees promised allowed

section
variable {invariant : State → Prop} {allowed : Op → Prop} {pool after : Pool Op Result State}

theorem Secure.advance (secure : pool.Secure invariant promised allowed) {index : Nat}
    (keeps : ∀ operation result shared, allowed operation →
      handler operation pool.shared = some (result, shared) →
        invariant shared ∧ promised operation result)
    (advanced : pool.advance handler index = some after) :
    after.Secure invariant promised allowed := by
  obtain ⟨operation, next, result, shared, here, handled, rfl⟩ := Pool.advance_cases advanced
  obtain ⟨permitted, rest⟩ := secure.threads _ (List.mem_of_getElem? here)
  obtain ⟨kept, returned⟩ := keeps operation result shared permitted handled
  exact ⟨kept, forall_mem_set secure.threads (rest result returned)⟩

theorem Secure.spawn (secure : pool.Secure invariant promised allowed)
    {program : Program Op Result Unit} (guarantees : program.Guarantees promised allowed) :
    (pool.spawn program).Secure invariant promised allowed :=
  ⟨secure.shared, forall_mem_spawn secure.threads guarantees⟩

end

/-- A fact about the shared state is true, or a thread owes a call that makes it true. -/
structure Accounted (fresh : State → Prop)
    (promised changes : (operation : Op) → Result operation → Prop) (discharges : Op → Prop)
    (pool : Pool Op Result State) : Prop where
  repays : ∀ thread ∈ pool.threads, thread.Repays promised changes discharges
  account : fresh pool.shared ∨ ∃ thread ∈ pool.threads, thread.Owes promised discharges

section
variable {fresh : State → Prop} {changes : (operation : Op) → Result operation → Prop}
  {discharges : Op → Prop} {pool after : Pool Op Result State}

theorem Accounted.advance (accounted : pool.Accounted fresh promised changes discharges)
    {index : Nat}
    (returns : ∀ operation result shared, handler operation pool.shared = some (result, shared) →
      promised operation result)
    (unchanged : ∀ operation result shared, handler operation pool.shared = some (result, shared) →
      ¬ changes operation result → ¬ discharges operation → fresh pool.shared → fresh shared)
    (discharged : ∀ operation result shared, pool.nextCall index = some operation →
      handler operation pool.shared = some (result, shared) → discharges operation → fresh shared)
    (advanced : pool.advance handler index = some after) :
    after.Accounted fresh promised changes discharges := by
  obtain ⟨operation, next, result, shared, here, handled, rfl⟩ := Pool.advance_cases advanced
  have bound : index < pool.threads.length := (List.getElem?_eq_some_iff.mp here).1
  have returned := returns operation result shared handled
  obtain ⟨repays, owes⟩ := accounted.repays _ (List.mem_of_getElem? here) result returned
  refine ⟨forall_mem_set accounted.repays repays, ?_⟩
  -- the thread that moves owes from now on, or has just discharged, or nothing has changed
  have moved : next result ∈ pool.threads.set index (next result) := List.mem_set bound _
  by_cases changed : changes operation result
  · exact Or.inr ⟨_, moved, owes changed⟩
  by_cases discharging : discharges operation
  · have called := Pool.nextCall_of_thread here
    exact Or.inl (discharged operation result shared called handled discharging)
  obtain now | ⟨thread, member, owing⟩ := accounted.account
  · exact Or.inl (unchanged operation result shared handled changed discharging now)
  right
  obtain ⟨position, found⟩ := List.mem_iff_getElem?.mp member
  by_cases same : position = index
  · subst same
    rw [here] at found
    cases found
    exact ⟨_, moved, owing.resolve_left discharging result returned⟩
  · have kept : (pool.threads.set index (next result))[position]? = some thread := by
      rwa [List.getElem?_set_ne (Ne.symm same)]
    exact ⟨thread, List.mem_of_getElem? kept, owing⟩

theorem Accounted.spawn (accounted : pool.Accounted fresh promised changes discharges)
    {program : Program Op Result Unit} (repays : program.Repays promised changes discharges) :
    (pool.spawn program).Accounted fresh promised changes discharges := by
  refine ⟨forall_mem_spawn accounted.repays repays, ?_⟩
  obtain now | ⟨thread, member, owing⟩ := accounted.account
  · exact Or.inl now
  · exact Or.inr ⟨thread, List.mem_append_left _ member, owing⟩

/-- The shared state changes in a way that no thread is the cause of. -/
theorem Accounted.disturbed (accounted : pool.Accounted fresh promised changes discharges)
    {shared : State} (kept : fresh pool.shared → fresh shared) :
    (⟨shared, pool.threads⟩ : Pool Op Result State).Accounted fresh promised changes discharges :=
  ⟨accounted.repays, accounted.account.imp_left kept⟩

/-- Once every thread has returned nothing is owed. -/
theorem Accounted.fresh_of_idle (accounted : pool.Accounted fresh promised changes discharges)
    (idle : pool.Idle) : fresh pool.shared := by
  obtain now | ⟨thread, member, owing⟩ := accounted.account
  · exact now
  · rw [idle thread member] at owing
    exact absurd owing id

end

end Pool

end MicroRosAgent.Interleaving
