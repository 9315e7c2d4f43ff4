import MicroRosAgent.Interleaving.Program

/-! # Threads that own a part of the state

Threads work for owners, and at most one thread of an owner runs at a time.  What the part
of the state that belongs to an owner has come to is its phase.  A `Protocol` says which
calls a phase permits, what they return there, and to which phase they lead.

A thread that `Follows` the protocol from the current phase to a goal never reaches
undefined behaviour.  `Owned` is the invariant of a pool of such threads; between them the
phases move one call at a time (`Owned.advance`), and an owner with no running thread is at
its goal (`Owned.resting`).
-/

namespace MicroRosAgent.Interleaving

variable {Op : Type} {Result : Op → Type} {State Owner Phase α β : Type}

structure Protocol (Op : Type) (Result : Op → Type) (Phase : Type) where
  permits : Phase → Op → Prop
  promises : Phase → (operation : Op) → Result operation → Prop
  next : Phase → (operation : Op) → Result operation → Phase

namespace Program

variable {protocol : Protocol Op Result Phase}

/-- From the phase on, the program makes only permitted calls, as long as they return what
    the protocol promises, and ends with a value and a phase that meet the goal. -/
def Follows (protocol : Protocol Op Result Phase) (goal : α → Phase → Prop) :
    Phase → Program Op Result α → Prop
  | phase, .done value => goal value phase
  | phase, .call operation next =>
      protocol.permits phase operation ∧ ∀ result, protocol.promises phase operation result →
        (next result).Follows protocol goal (protocol.next phase operation result)
  | _, .fault => False

theorem Follows.bind {middle : α → Phase → Prop} {goal : β → Phase → Prop}
    {program : Program Op Result α} {next : α → Program Op Result β} {phase : Phase}
    (first : program.Follows protocol middle phase)
    (second : ∀ value phase, middle value phase → (next value).Follows protocol goal phase) :
    (program >>= next).Follows protocol goal phase := by
  induction program generalizing phase with
  | done value => exact second value phase first
  | call operation rest ih =>
    refine ⟨first.1, ?_⟩
    intro result promised
    exact ih result (first.2 result promised)
  | fault => exact absurd first id

theorem Follows.mono {goal weaker : α → Phase → Prop} {program : Program Op Result α}
    {phase : Phase} (follows : program.Follows protocol goal phase)
    (weaken : ∀ value phase, goal value phase → weaker value phase) :
    program.Follows protocol weaker phase := by
  rw [← bind_pure program]
  exact follows.bind weaken

end Program

/-- Every thread that has not returned works for an owner of its own. -/
structure Owned (protocol : Owner → Protocol Op Result Phase) (goal : Owner → Phase → Prop)
    (owner : Nat → Owner) (phase : Owner → Phase) (threads : List (Program Op Result Unit)) :
    Prop where
  alone : ∀ (i j : Nat) first second, threads[i]? = some first → threads[j]? = some second →
    owner i = owner j → first ≠ .done () → second ≠ .done () → i = j
  running : ∀ (i : Nat) thread, threads[i]? = some thread → thread ≠ .done () →
    thread.Follows (protocol (owner i)) (fun _ => goal (owner i)) (phase (owner i))
  resting : ∀ key, (∀ (i : Nat) thread, threads[i]? = some thread → owner i = key →
    thread = .done ()) → goal key (phase key)

namespace Owned

variable {protocol : Owner → Protocol Op Result Phase} {goal : Owner → Phase → Prop}
  {owner : Nat → Owner} {phase : Owner → Phase} {threads : List (Program Op Result Unit)}

theorem nil (rests : ∀ key, goal key (phase key)) : Owned protocol goal owner phase [] :=
  ⟨by simp, by simp, fun key _ => rests key⟩

theorem not_fault (owned : Owned protocol goal owner phase threads) :
    ∀ thread ∈ threads, thread ≠ .fault := by
  rintro thread member rfl
  obtain ⟨index, found⟩ := List.mem_iff_getElem?.mp member
  exact owned.running index .fault found nofun

variable [DecidableEq Owner]

/-- A thread that advances makes a permitted call, and moves its owner's phase. -/
theorem advance (owned : Owned protocol goal owner phase threads) {index : Nat} {operation : Op}
    {next : Result operation → Program Op Result Unit}
    (here : threads[index]? = some (.call operation next)) :
    (protocol (owner index)).permits (phase (owner index)) operation ∧
      ∀ result, (protocol (owner index)).promises (phase (owner index)) operation result →
        Owned protocol goal owner
          (Function.update phase (owner index)
            ((protocol (owner index)).next (phase (owner index)) operation result))
          (threads.set index (next result)) := by
  obtain ⟨permitted, rest⟩ := owned.running index _ here nofun
  refine ⟨permitted, ?_⟩
  intro result promised
  have bound : index < threads.length := (List.getElem?_eq_some_iff.mp here).1
  have follows := rest result promised
  -- an entry of the new list is the thread that moved, or one of before
  have entry : ∀ (i : Nat) thread, (threads.set index (next result))[i]? = some thread →
      (i = index ∧ thread = next result) ∨ (i ≠ index ∧ threads[i]? = some thread) := by
    intro i thread found
    by_cases same : i = index
    · subst same
      rw [List.getElem?_set_self bound] at found
      exact Or.inl ⟨rfl, (Option.some.inj found).symm⟩
    · rw [List.getElem?_set_ne (Ne.symm same)] at found
      exact Or.inr ⟨same, found⟩
  have other : ∀ (i : Nat) thread, i ≠ index → threads[i]? = some thread → thread ≠ .done () →
      owner i ≠ owner index :=
    fun i thread different found busy equal =>
      different (owned.alone i index thread _ found here equal busy nofun)
  refine ⟨?_, ?_, ?_⟩
  · intro i j first second firstFound secondFound equal firstBusy secondBusy
    obtain ⟨rfl, rfl⟩ | ⟨firstOther, firstOld⟩ := entry i first firstFound <;>
      obtain ⟨rfl, rfl⟩ | ⟨secondOther, secondOld⟩ := entry j second secondFound
    · rfl
    · exact absurd equal.symm (other j second secondOther secondOld secondBusy)
    · exact absurd equal (other i first firstOther firstOld firstBusy)
    · exact owned.alone i j first second firstOld secondOld equal firstBusy secondBusy
  · intro i thread found busy
    obtain ⟨rfl, rfl⟩ | ⟨different, old⟩ := entry i thread found
    · rw [Function.update_self]
      exact follows
    · rw [Function.update_of_ne (other i thread different old busy)]
      exact owned.running i thread old busy
  · intro key idle
    by_cases same : key = owner index
    · subst same
      have finished := idle index _ (List.getElem?_set_self bound) rfl
      rw [finished] at follows
      rw [Function.update_self]
      exact follows
    · rw [Function.update_of_ne same]
      refine owned.resting key ?_
      intro i thread found equal
      have different : i ≠ index := fun moved => same (moved ▸ equal.symm)
      exact idle i thread (by rwa [List.getElem?_set_ne (Ne.symm different)]) equal

/-- A thread starts for an owner none of whose threads is running; the owner's goal, and its
    phase, may be set anew for it. -/
theorem spawn (owned : Owned protocol goal owner phase threads)
    {goal' : Owner → Phase → Prop} {owner' : Nat → Owner} {phase' : Owner → Phase}
    {program : Program Op Result Unit}
    (kept : ∀ index, index < threads.length → owner' index = owner index)
    (idle : ∀ (i : Nat) thread, threads[i]? = some thread → owner i = owner' threads.length →
      thread = .done ())
    (others : ∀ key, key ≠ owner' threads.length →
      phase' key = phase key ∧ ∀ reached, goal key reached → goal' key reached)
    (follows : program.Follows (protocol (owner' threads.length))
      (fun _ => goal' (owner' threads.length)) (phase' (owner' threads.length))) :
    Owned protocol goal' owner' phase' (threads ++ [program]) := by
  have entry : ∀ (i : Nat) thread, (threads ++ [program])[i]? = some thread →
      (i = threads.length ∧ thread = program) ∨
        (i < threads.length ∧ threads[i]? = some thread ∧ owner' i = owner i) := by
    intro i thread found
    by_cases old : i < threads.length
    · rw [List.getElem?_append_left old] at found
      exact Or.inr ⟨old, found, kept i old⟩
    · have bound := (List.getElem?_eq_some_iff.mp found).1
      simp only [List.length_append, List.length_singleton] at bound
      have last : i = threads.length := by omega
      subst last
      rw [List.getElem?_concat_length] at found
      exact Or.inl ⟨rfl, (Option.some.inj found).symm⟩
  -- an older thread that still runs works for somebody else
  have other : ∀ (i : Nat) thread, threads[i]? = some thread → thread ≠ .done () →
      owner i ≠ owner' threads.length :=
    fun i thread found busy equal => busy (idle i thread found equal)
  refine ⟨?_, ?_, ?_⟩
  · intro i j first second firstFound secondFound equal firstBusy secondBusy
    obtain ⟨rfl, rfl⟩ | ⟨_, firstOld, firstOwner⟩ := entry i first firstFound <;>
      obtain ⟨rfl, rfl⟩ | ⟨_, secondOld, secondOwner⟩ := entry j second secondFound
    · rfl
    · rw [secondOwner] at equal
      exact absurd equal.symm (other j second secondOld secondBusy)
    · rw [firstOwner] at equal
      exact absurd equal (other i first firstOld firstBusy)
    · rw [firstOwner, secondOwner] at equal
      exact owned.alone i j first second firstOld secondOld equal firstBusy secondBusy
  · intro i thread found busy
    obtain ⟨rfl, rfl⟩ | ⟨_, old, oldOwner⟩ := entry i thread found
    · exact follows
    · obtain ⟨samePhase, weaken⟩ := others (owner i) (other i thread old busy)
      rw [oldOwner, samePhase]
      exact (owned.running i thread old busy).mono fun _ => weaken
  · intro key finished
    by_cases same : key = owner' threads.length
    · subst same
      rw [finished threads.length program (List.getElem?_concat_length ..) rfl] at follows
      exact follows
    · obtain ⟨samePhase, weaken⟩ := others key same
      rw [samePhase]
      refine weaken _ (owned.resting key ?_)
      intro i thread found equal
      have bound := (List.getElem?_eq_some_iff.mp found).1
      exact finished i thread (by rwa [List.getElem?_append_left bound])
        ((kept i bound).trans equal)

end Owned

end MicroRosAgent.Interleaving
