import MicroRosAgent.Interleaving.Lts
import Mathlib.Data.List.Nodup
import Mathlib.Logic.Function.Basic

/-! # A register that echoes its own publications

Clients append items to a shared list, each append returning the whole list, and
publish the list they got.  What is published comes back over a FIFO channel, at any
later time, and *replaces* the shared list.

An append is a read-modify-write, and the channel may have set the list back to an
older publication in between.  `all_shown_iff` says when no item is lost: at rest the
register and the last publication hold every item if and only if no append found the
list set back, and the client that appended last is the one that published last.
-/

namespace MicroRosAgent.Interleaving.EchoRegister

structure State (α : Type) where
  register : List α := []
  -- every item appended so far
  appended : List α := []
  -- the list the last append returned, and the client that made it
  latest : List α := []
  appender : Option Nat := none
  -- the lists clients got and have not published yet
  held : Nat → Option (List α) := fun _ => none
  channel : List (List α) := [[]]
  published : List α := []
  publisher : Option Nat := none

inductive Event (α : Type) where
  | append (client : Nat) (item : α)
  | publish (client : Nat)
  | deliver

variable {α : Type}

def step (state : State α) : Event α → Option (State α)
  | .append client item =>
      match state.held client with
      | some _ => none
      | none => some { state with
          register := state.register ++ [item]
          appended := state.appended ++ [item]
          latest := state.register ++ [item]
          appender := some client
          held := Function.update state.held client (some (state.register ++ [item])) }
  | .publish client =>
      match state.held client with
      | none => none
      | some snapshot => some { state with
          held := Function.update state.held client none
          channel := state.channel ++ [snapshot]
          published := snapshot
          publisher := some client }
  | .deliver =>
      match state.channel with
      | [] => none
      | snapshot :: later => some { state with register := snapshot, channel := later }

def system : Lts (State α) (Event α) := ⟨step⟩

/-- An append finds on the register everything the append before it left there. -/
def NotSetBack (state : State α) : Event α → Prop
  | .append _ _ => state.latest ⊆ state.register
  | .publish _ | .deliver => True

def AtRest (state : State α) : Prop :=
  state.channel = [] ∧ ∀ client, state.held client = none

/-- A list that is, or may still become, the register or the last publication. -/
inductive Snapshot (state : State α) : List α → Prop
  | register : Snapshot state state.register
  | latest : Snapshot state state.latest
  | published : Snapshot state state.published
  | channel (member : snapshot ∈ state.channel) : Snapshot state snapshot
  | held (holds : state.held client = some snapshot) : Snapshot state snapshot

/-- The register shows the last publication whenever the clients and the channel are
    at rest. -/
structure Settled (state : State α) : Prop where
  lastSent : state.channel ≠ [] → state.channel.getLast? = some state.published
  shown : AtRest state → state.register = state.published

theorem settled_step {state after : State α} {event : Event α} (settled : Settled state)
    (stepped : step state event = some after) : Settled after := by
  cases event with
  | append client item =>
    simp only [step] at stepped
    split at stepped
    · cases stepped
    · cases stepped
      refine ⟨settled.lastSent, ?_⟩
      intro ⟨_, free⟩
      have := free client
      simp at this
  | publish client =>
    simp only [step] at stepped
    split at stepped
    · cases stepped
    · cases stepped
      refine ⟨by simp, ?_⟩
      intro ⟨empty, _⟩
      simp at empty
  | deliver =>
    simp only [step] at stepped
    split at stepped
    · cases stepped
    · rename_i snapshot later sent
      cases stepped
      have last := settled.lastSent (by simp [sent])
      rw [sent] at last
      constructor
      · intro more
        rwa [List.getLast?_cons_of_ne_nil more] at last
      · intro ⟨empty, _⟩
        simp_all

/-- A snapshot after a step is one from before it, or the list just appended to. -/
theorem snapshot_step {state after : State α} {event : Event α} {snapshot : List α}
    (stepped : step state event = some after) (listed : Snapshot after snapshot) :
    Snapshot state snapshot ∨
      ∃ client item, event = .append client item ∧ snapshot = state.register ++ [item] := by
  cases event with
  | append client item =>
    simp only [step] at stepped
    split at stepped
    · cases stepped
    · cases stepped
      cases listed with
      | register => exact Or.inr ⟨client, item, rfl, rfl⟩
      | latest => exact Or.inr ⟨client, item, rfl, rfl⟩
      | published => exact Or.inl .published
      | channel member => exact Or.inl (.channel member)
      | @held holder _ holds =>
        by_cases same : holder = client
        · subst same
          simp only [Function.update_self, Option.some.injEq] at holds
          exact Or.inr ⟨holder, item, rfl, holds.symm⟩
        · simp only [Function.update_of_ne same] at holds
          exact Or.inl (.held holds)
  | publish client =>
    simp only [step] at stepped
    split at stepped
    · cases stepped
    · rename_i sent holds
      cases stepped
      left
      cases listed with
      | register => exact .register
      | latest => exact .latest
      | published => exact .held holds
      | channel member =>
        obtain member | last := List.mem_append.mp member
        · exact .channel member
        · cases List.mem_singleton.mp last
          exact .held holds
      | @held holder _ other =>
        by_cases same : holder = client
        · subst same
          simp at other
        · simp only [Function.update_of_ne same] at other
          exact .held other
  | deliver =>
    simp only [step] at stepped
    split at stepped
    · cases stepped
    · rename_i first later sent
      cases stepped
      left
      cases listed with
      | register => exact .channel (by simp [sent])
      | latest => exact .latest
      | published => exact .published
      | channel member => exact .channel (by simp [sent, member])
      | held holds => exact .held holds

/-- What an event appends. -/
def Event.items : Event α → List α
  | .append _ item => [item]
  | .publish _ | .deliver => []

theorem appended_step {state after : State α} {event : Event α}
    (stepped : step state event = some after) :
    after.appended = state.appended ++ event.items := by
  cases event <;>
  · simp only [step] at stepped
    split at stepped
    · cases stepped
    · cases stepped
      simp [Event.items]

/-- What holds after the events of a run on distinct items: a list with every item on
it is the latest one, and only runs without set-backs have such a list. -/
structure Chained (events : List (Event α)) (state : State α) : Prop where
  sound : ∀ snapshot, Snapshot state snapshot → snapshot ⊆ state.appended
  complete : ∀ snapshot, Snapshot state snapshot → state.appended ⊆ snapshot →
    snapshot = state.latest ∧ system.Along NotSetBack {} events
  chain : system.Along NotSetBack {} events → state.appended ⊆ state.latest
  holder : ∀ client snapshot, state.held client = some snapshot →
    (snapshot = state.latest ↔ state.appender = some client)
  publisher : state.published = state.latest ↔
    state.publisher = state.appender ∧ ∀ client, state.appender = some client → state.held client = none

theorem chained_append {events : List (Event α)} {state after : State α} {client : Nat} {item : α}
    (before : system.exec {} events = some state) (chained : Chained events state)
    (stepped : step state (.append client item) = some after) (distinct : after.appended.Nodup) :
    Chained (events ++ [.append client item]) after := by
  have grown : after.appended = state.appended ++ [item] := appended_step stepped
  have fresh : item ∉ state.appended := by
    rw [grown, List.nodup_append] at distinct
    intro member
    exact distinct.2.2 item member item (by simp) rfl
  -- an older list cannot have the new item
  have older : ∀ snapshot, Snapshot state snapshot → snapshot ≠ state.register ++ [item] := by
    intro snapshot old equal
    exact fresh (chained.sound snapshot old (by simp [equal]))
  have snapshots : ∀ snapshot, Snapshot after snapshot →
      Snapshot state snapshot ∨ snapshot = state.register ++ [item] := by
    intro snapshot listed
    obtain old | ⟨_, _, equal, rfl⟩ := snapshot_step stepped listed
    · exact Or.inl old
    · cases equal
      exact Or.inr rfl
  simp only [step] at stepped
  split at stepped
  · cases stepped
  cases stepped
  refine ⟨?_, ?_, ?_, ?_, ?_⟩
  · intro snapshot listed
    obtain old | rfl := snapshots snapshot listed
    · exact List.subset_append_of_subset_left _ (chained.sound snapshot old)
    · exact List.append_subset.mpr
        ⟨List.subset_append_of_subset_left _ (chained.sound _ .register), by simp⟩
  · intro snapshot listed all
    obtain old | rfl := snapshots snapshot listed
    · exact absurd (chained.sound snapshot old (all (by simp))) fresh
    · have registerAll : state.appended ⊆ state.register := by
        intro other member
        have := all (List.mem_append_left _ member)
        simp only [List.mem_append, List.mem_singleton] at this
        obtain here | rfl := this
        · exact here
        · exact absurd member fresh
      obtain ⟨equal, run⟩ := chained.complete _ .register registerAll
      have notSetBack : state.latest ⊆ state.register := by rw [equal]; exact fun _ => id
      exact ⟨rfl, (system.along_concat before).mpr ⟨run, notSetBack⟩⟩
  · intro run
    obtain ⟨run, notSetBack⟩ := (system.along_concat before).mp run
    have found : state.latest ⊆ state.register := notSetBack
    have kept : state.appended ⊆ state.register := fun _ member => found (chained.chain run member)
    exact List.append_subset.mpr ⟨List.subset_append_of_subset_left _ kept, by simp⟩
  · intro holder snapshot holds
    by_cases same : holder = client
    · subst same
      simp only [Function.update_self, Option.some.injEq] at holds
      simp [holds]
    · simp only [Function.update_of_ne same] at holds
      have := older snapshot (.held holds)
      simp [this, Ne.symm same]
  · have := older _ .published
    simp [this]

theorem chained_other {events : List (Event α)} {state after : State α} {event : Event α}
    (before : system.exec {} events = some state) (chained : Chained events state)
    (other : event.items = []) (stepped : step state event = some after) :
    Chained (events ++ [event]) after := by
  have grown : after.appended = state.appended := by rw [appended_step stepped, other, List.append_nil]
  have notAppend : ∀ client item, event ≠ .append client item := by
    intro client item equal
    simp [equal, Event.items] at other
  have old : ∀ snapshot, Snapshot after snapshot → Snapshot state snapshot := by
    intro snapshot listed
    obtain old | ⟨client, item, equal, _⟩ := snapshot_step stepped listed
    · exact old
    · exact absurd equal (notAppend client item)
  have kept : NotSetBack state event ∧ after.latest = state.latest ∧
      (∀ client snapshot, after.held client = some snapshot →
        (snapshot = state.latest ↔ after.appender = some client)) ∧
      (after.published = state.latest ↔ after.publisher = after.appender ∧
        ∀ client, after.appender = some client → after.held client = none) := by
    cases event with
    | append client item => exact absurd rfl (notAppend client item)
    | publish client =>
      simp only [step] at stepped
      split at stepped
      · cases stepped
      · rename_i sent holds
        cases stepped
        refine ⟨trivial, rfl, ?_, ?_⟩
        · intro holder snapshot other
          by_cases same : holder = client
          · subst same
            simp at other
          · simp only [Function.update_of_ne same] at other
            exact chained.holder holder snapshot other
        · rw [chained.holder client sent holds]
          constructor
          · intro appended
            refine ⟨appended.symm, ?_⟩
            intro other equal
            simp only [appended, Option.some.injEq] at equal
            simp [equal]
          · intro ⟨equal, _⟩
            exact equal.symm
    | deliver =>
      simp only [step] at stepped
      split at stepped
      · cases stepped
      · cases stepped
        exact ⟨trivial, rfl, chained.holder, chained.publisher⟩
  obtain ⟨notSetBack, latest, holder, publisher⟩ := kept
  refine ⟨?_, ?_, ?_, ?_, ?_⟩
  · intro snapshot listed
    rw [grown]
    exact chained.sound snapshot (old snapshot listed)
  · intro snapshot listed all
    rw [grown] at all
    obtain ⟨equal, run⟩ := chained.complete snapshot (old snapshot listed) all
    exact ⟨equal.trans latest.symm, (system.along_concat before).mpr ⟨run, notSetBack⟩⟩
  · intro run
    rw [grown, latest]
    exact chained.chain ((system.along_concat before).mp run).1
  · rw [latest]
    exact holder
  · rw [latest]
    exact publisher

theorem chained_run {events : List (Event α)} {state : State α}
    (reached : system.exec {} events = some state) (distinct : state.appended.Nodup) :
    Chained events state := by
  refine system.exec_induction
    (motive := fun events state => state.appended.Nodup → Chained events state) ?_ ?_ reached distinct
  · intro _
    have empty : ∀ snapshot : List α, Snapshot {} snapshot → snapshot = [] := by
      intro snapshot listed
      cases listed with
      | register | latest | published => rfl
      | channel member => simpa using member
      | held holds => simp at holds
    refine ⟨?_, ?_, ?_, ?_, ?_⟩
    · intro snapshot listed
      simp [empty snapshot listed]
    · intro snapshot listed _
      exact ⟨empty snapshot listed, trivial⟩
    · intro _
      simp
    · intro client snapshot holds
      simp at holds
    · simp
  · intro events state event after before ih step distinct
    have grown := appended_step step
    have chained : Chained events state := by
      apply ih
      rw [grown] at distinct
      exact distinct.of_append_left
    cases event with
    | append client item => exact chained_append before chained step distinct
    | publish | deliver => exact chained_other before chained rfl step

theorem settled_run {events : List (Event α)} {state : State α}
    (reached : system.exec {} events = some state) : Settled state :=
  system.exec_invariant (fun _ _ _ => settled_step)
    ⟨fun _ => rfl, fun _ => rfl⟩ reached

/-- At rest, the register and the last publication hold every item ever appended if and
only if no append found the register set back and the last appender published last. -/
theorem all_shown_iff {events : List (Event α)} {state : State α}
    (reached : system.exec {} events = some state) (distinct : state.appended.Nodup)
    (rest : AtRest state) :
    (state.appended ⊆ state.register ∧ state.appended ⊆ state.published) ↔
      system.Along NotSetBack {} events ∧ state.publisher = state.appender := by
  have chained := chained_run reached distinct
  have shown := (settled_run reached).shown rest
  have last : state.published = state.latest ↔ state.publisher = state.appender := by
    rw [chained.publisher]
    simp [rest.2]
  rw [← last]
  constructor
  · intro ⟨_, all⟩
    obtain ⟨equal, run⟩ := chained.complete _ .published all
    exact ⟨run, equal⟩
  · intro ⟨run, last⟩
    have all := chained.chain run
    rw [shown, last]
    exact ⟨all, all⟩

end MicroRosAgent.Interleaving.EchoRegister
