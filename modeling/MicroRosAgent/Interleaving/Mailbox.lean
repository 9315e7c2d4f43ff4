import MicroRosAgent.Interleaving.Lts
import Mathlib.Data.List.Nodup
import Mathlib.Logic.Function.Basic

/-! # A mailbox with one slot

Items are posted into one slot, each in place of what is still there.  Workers take the
item in the slot and apply it later, in any order among each other; an item that does not
count is dropped when it is taken.

An item can be lost in the slot, and it can be overtaken by an older one of the same sender
on its way from the slot to its application.  `lastApplied_iff` says that these are the only
ways: at rest, the items that matter are the last ones applied for their senders if and only
if none of them was replaced in the slot and none was followed by another.
-/

namespace MicroRosAgent.Interleaving.Mailbox

structure State (Item : Type) where
  posted : List Item := []
  slot : Option Item := none
  -- what each worker has taken and not applied yet
  held : Nat → Option Item := fun _ => none
  applied : List Item := []

inductive Event (Item : Type) where
  | post (item : Item)
  | take (worker : Nat)
  | apply (worker : Nat)

variable {Item Sender : Type} [DecidableEq Sender]

def State.post (item : Item) (state : State Item) : State Item :=
  { state with posted := state.posted ++ [item], slot := some item }

def State.take (counts : Item → Bool) (worker : Nat) (state : State Item) : State Item :=
  { state with
    slot := none
    held := Function.update state.held worker (state.slot.filter counts) }

def State.apply (worker : Nat) (state : State Item) : State Item :=
  { state with
    held := Function.update state.held worker none
    applied := state.applied ++ (state.held worker).toList }

def step (counts : Item → Bool) (state : State Item) : Event Item → Option (State Item)
  | .post item => some (state.post item)
  | .take worker =>
      match state.slot, state.held worker with
      | some _, none => some (state.take counts worker)
      | _, _ => none
  | .apply worker =>
      match state.held worker with
      | some _ => some (state.apply worker)
      | none => none

def system (counts : Item → Bool) : Lts (State Item) (Event Item) := ⟨step counts⟩

/-- The last item of a sender in a list. -/
def lastOf (sender : Item → Sender) (items : List Item) (origin : Sender) : Option Item :=
  (items.filter fun item => sender item = origin).getLast?

/-- The step neither replaces an item that matters nor applies one after it. -/
def Keeps (sender : Item → Sender) (matters : Item → Prop) (state : State Item) : Event Item → Prop
  | .post _ => ∀ item, state.slot = some item → ¬ matters item
  | .take _ => True
  | .apply worker => ∀ item, state.held worker = some item →
      ∀ earlier ∈ state.applied, sender earlier = sender item → ¬ matters earlier

def AtRest (state : State Item) : Prop :=
  state.slot = none ∧ ∀ worker, state.held worker = none

/-- The item is still to be applied. -/
inductive Open (state : State Item) (item : Item) : Prop
  | slot (waits : state.slot = some item)
  | held (worker : Nat) (holds : state.held worker = some item)

/-- Each posted item is in one place at most. -/
structure Placed (state : State Item) : Prop where
  openPosted : ∀ item, Open state item → item ∈ state.posted
  appliedPosted : state.applied ⊆ state.posted
  unapplied : ∀ item, Open state item → item ∉ state.applied
  untaken : ∀ item, state.slot = some item → ∀ worker, state.held worker ≠ some item
  once : ∀ item first second, state.held first = some item → state.held second = some item →
    first = second

theorem lastOf_concat (sender : Item → Sender) (items : List Item) (item : Item) (origin : Sender) :
    lastOf sender (items ++ [item]) origin =
      if sender item = origin then some item else lastOf sender items origin := by
  by_cases same : sender item = origin
  · simp [lastOf, same]
  · simp [lastOf, same]

theorem mem_of_lastOf {sender : Item → Sender} {items : List Item} {origin : Sender} {item : Item}
    (last : lastOf sender items origin = some item) : item ∈ items :=
  (List.mem_filter.mp (List.mem_of_getLast? last)).1

theorem placed_initial : Placed ({} : State Item) := by
  have closed : ∀ item : Item, ¬ Open ({} : State Item) item := by
    intro item here
    cases here with
    | slot waits => cases waits
    | held worker holds => cases holds
  refine ⟨fun item here => absurd here (closed item), List.nil_subset _,
    fun item here => absurd here (closed item), ?_, ?_⟩
  · intro item waits
    cases waits
  · intro item first second holds
    cases holds

/-! ## Posting -/

theorem open_post {state : State Item} {posted item : Item} (here : Open (state.post posted) item) :
    item = posted ∨ ∃ worker, state.held worker = some item := by
  cases here with
  | slot waits => exact Or.inl (Option.some.inj waits).symm
  | held worker holds => exact Or.inr ⟨worker, holds⟩

theorem placed_post {state : State Item} {posted : Item} (placed : Placed state)
    (fresh : posted ∉ state.posted) : Placed (state.post posted) := by
  refine ⟨?_, ?_, ?_, ?_, placed.once⟩
  · intro item here
    obtain rfl | ⟨worker, holds⟩ := open_post here
    · simp [State.post]
    · exact List.mem_append_left _ (placed.openPosted item (.held worker holds))
  · exact List.subset_append_of_subset_left _ placed.appliedPosted
  · intro item here
    obtain rfl | ⟨worker, holds⟩ := open_post here
    · exact fun applied => fresh (placed.appliedPosted applied)
    · exact placed.unapplied item (.held worker holds)
  · intro item waits worker holds
    cases waits
    exact fresh (placed.openPosted posted (.held worker holds))

/-! ## Taking -/

theorem take_of_empty {counts : Item → Bool} {state : State Item} {worker : Nat}
    (empty : state.slot = none) (free : state.held worker = none) :
    state.take counts worker = state := by
  have same : Function.update state.held worker none = state.held := by
    rw [← free, Function.update_eq_self]
  cases state with
  | mk posted slot held applied =>
    cases empty
    simpa [State.take] using same

theorem open_take {counts : Item → Bool} {state : State Item} {worker : Nat} {item : Item}
    (free : state.held worker = none) :
    Open (state.take counts worker) item ↔
      (state.slot = some item ∧ counts item = true) ∨ ∃ other, state.held other = some item := by
  constructor
  · intro here
    cases here with
    | slot waits => cases waits
    | held other holds =>
      by_cases same : other = worker
      · subst same
        simp only [State.take, Function.update_self, Option.filter_eq_some_iff] at holds
        exact Or.inl holds
      · simp only [State.take, Function.update_of_ne same] at holds
        exact Or.inr ⟨other, holds⟩
  · intro here
    obtain ⟨waits, counted⟩ | ⟨other, holds⟩ := here
    · exact .held worker (by simp [State.take, waits, counted])
    · have different : other ≠ worker := by
        rintro rfl
        cases free.symm.trans holds
      exact .held other (by simpa [State.take, different] using holds)

theorem placed_take {counts : Item → Bool} {state : State Item} {worker : Nat}
    (placed : Placed state) (free : state.held worker = none) :
    Placed (state.take counts worker) := by
  have before : ∀ item, Open (state.take counts worker) item → Open state item := by
    intro item here
    obtain ⟨waits, _⟩ | ⟨other, holds⟩ := (open_take free).mp here
    · exact .slot waits
    · exact .held other holds
  refine ⟨fun item here => placed.openPosted item (before item here), placed.appliedPosted,
    fun item here => placed.unapplied item (before item here), ?_, ?_⟩
  · intro item waits
    cases waits
  · have held : ∀ other item, (state.take counts worker).held other = some item →
        (other = worker ∧ state.slot = some item) ∨ (other ≠ worker ∧ state.held other = some item) := by
      intro other item holds
      by_cases same : other = worker
      · subst same
        simp only [State.take, Function.update_self, Option.filter_eq_some_iff] at holds
        exact Or.inl ⟨rfl, holds.1⟩
      · simp only [State.take, Function.update_of_ne same] at holds
        exact Or.inr ⟨same, holds⟩
    intro item first second holdsFirst holdsSecond
    obtain ⟨rfl, waits⟩ | ⟨_, holds⟩ := held first item holdsFirst
    · obtain ⟨rfl, _⟩ | ⟨_, holds⟩ := held second item holdsSecond
      · rfl
      · exact absurd holds (placed.untaken item waits second)
    · obtain ⟨rfl, waits⟩ | ⟨_, others⟩ := held second item holdsSecond
      · exact absurd holds (placed.untaken item waits first)
      · exact placed.once item first second holds others

/-! ## Applying -/

theorem open_apply {state : State Item} {worker : Nat} {applied item : Item} (placed : Placed state)
    (holds : state.held worker = some applied) :
    Open (state.apply worker) item ↔ Open state item ∧ item ≠ applied := by
  constructor
  · intro here
    cases here with
    | slot waits =>
      refine ⟨.slot waits, ?_⟩
      rintro rfl
      exact placed.untaken item waits worker holds
    | held other stillHolds =>
      by_cases same : other = worker
      · subst same
        simp [State.apply] at stillHolds
      · simp only [State.apply, Function.update_of_ne same] at stillHolds
        refine ⟨.held other stillHolds, ?_⟩
        rintro rfl
        exact same (placed.once item other worker stillHolds holds)
  · intro ⟨here, different⟩
    cases here with
    | slot waits => exact .slot waits
    | held other stillHolds =>
      have same : other ≠ worker := by
        rintro rfl
        cases holds.symm.trans stillHolds
        exact different rfl
      exact .held other (by simpa [State.apply, same] using stillHolds)

theorem placed_apply {state : State Item} {worker : Nat} {item : Item} (placed : Placed state)
    (holds : state.held worker = some item) : Placed (state.apply worker) := by
  have applied : (state.apply worker).applied = state.applied ++ [item] := by
    simp [State.apply, holds]
  refine ⟨?_, ?_, ?_, ?_, ?_⟩
  · intro other here
    exact placed.openPosted other ((open_apply placed holds).mp here).1
  · rw [applied]
    exact List.append_subset.mpr
      ⟨placed.appliedPosted, by simpa [State.apply] using placed.openPosted item (.held worker holds)⟩
  · intro other here
    obtain ⟨before, different⟩ := (open_apply placed holds).mp here
    rw [applied]
    simpa [different] using placed.unapplied other before
  · intro other waits second stillHolds
    by_cases same : second = worker
    · subst same
      simp [State.apply] at stillHolds
    · simp only [State.apply, Function.update_of_ne same] at stillHolds
      exact placed.untaken other waits second stillHolds
  · intro other first second holdsFirst holdsSecond
    have kept : ∀ third, (state.apply worker).held third = some other →
        state.held third = some other := by
      intro third stillHolds
      by_cases same : third = worker
      · subst same
        simp [State.apply] at stillHolds
      · simpa [State.apply, same] using stillHolds
    exact placed.once other first second (kept first holdsFirst) (kept second holdsSecond)

/-! ## What is lost -/

variable {sender : Item → Sender} {matters : Item → Prop} {counts : Item → Bool}

/-- The item is still to be applied, or the last one applied of its sender. -/
def Safe (sender : Item → Sender) (state : State Item) (item : Item) : Prop :=
  Open state item ∨ lastOf sender state.applied (sender item) = some item

def AllSafe (sender : Item → Sender) (matters : Item → Prop) (state : State Item) : Prop :=
  ∀ item ∈ state.posted, matters item → Safe sender state item

/-- An item that waits in the slot is safe nowhere else. -/
theorem allSafe_post {state : State Item} {posted : Item} (placed : Placed state)
    (fresh : posted ∉ state.posted) :
    AllSafe sender matters (state.post posted) ↔
      AllSafe sender matters state ∧ Keeps sender matters state (.post posted) := by
  constructor
  · intro safe
    have elsewhere : ∀ item ∈ state.posted, matters item →
        (∃ worker, state.held worker = some item) ∨
          lastOf sender state.applied (sender item) = some item := by
      intro item member important
      obtain here | last := safe item (List.mem_append_left _ member) important
      · obtain rfl | holds := open_post here
        · exact absurd member fresh
        · exact Or.inl holds
      · exact Or.inr last
    constructor
    · intro item member important
      obtain ⟨worker, holds⟩ | last := elsewhere item member important
      · exact Or.inl (.held worker holds)
      · exact Or.inr last
    · intro item waits important
      have member := placed.openPosted item (.slot waits)
      obtain ⟨worker, holds⟩ | last := elsewhere item member important
      · exact placed.untaken item waits worker holds
      · exact placed.unapplied item (.slot waits) (mem_of_lastOf last)
  · intro ⟨safe, keeps⟩ item member important
    obtain old | new := List.mem_append.mp member
    · obtain here | last := safe item old important
      · cases here with
        | slot waits => exact absurd important (keeps item waits)
        | held worker holds => exact Or.inl (.held worker holds)
      · exact Or.inr last
    · cases List.mem_singleton.mp new
      exact Or.inl (.slot rfl)

theorem allSafe_take {state : State Item} {worker : Nat}
    (counted : ∀ item, matters item → counts item = true) (free : state.held worker = none) :
    AllSafe sender matters (state.take counts worker) ↔ AllSafe sender matters state := by
  have same : ∀ item, matters item →
      (Safe sender (state.take counts worker) item ↔ Safe sender state item) := by
    intro item important
    refine or_congr ?_ Iff.rfl
    rw [open_take free]
    constructor
    · intro here
      obtain ⟨waits, _⟩ | ⟨other, holds⟩ := here
      · exact .slot waits
      · exact .held other holds
    · intro here
      cases here with
      | slot waits => exact Or.inl ⟨waits, counted item important⟩
      | held other holds => exact Or.inr ⟨other, holds⟩
  constructor
  · intro safe item member important
    exact (same item important).mp (safe item member important)
  · intro safe item member important
    exact (same item important).mpr (safe item member important)

/-- An item that has been applied is safe until another one of its sender is. -/
theorem allSafe_apply {state : State Item} {worker : Nat} {applied : Item} (placed : Placed state)
    (holds : state.held worker = some applied) :
    AllSafe sender matters (state.apply worker) ↔
      AllSafe sender matters state ∧ Keeps sender matters state (.apply worker) := by
  have last : ∀ item, lastOf sender (state.apply worker).applied (sender item) =
      if sender applied = sender item then some applied
      else lastOf sender state.applied (sender item) := by
    intro item
    rw [← lastOf_concat]
    simp [State.apply, holds]
  constructor
  · intro safe
    constructor
    · intro item member important
      obtain here | isLast := safe item member important
      · exact Or.inl ((open_apply placed holds).mp here).1
      · rw [last] at isLast
        split at isLast
        · cases isLast
          exact Or.inl (.held worker holds)
        · exact Or.inr isLast
    · intro item stillHolds earlier before sameSender important
      cases holds.symm.trans stillHolds
      obtain here | isLast := safe earlier (placed.appliedPosted before) important
      · exact placed.unapplied earlier ((open_apply placed holds).mp here).1 before
      · rw [last, if_pos sameSender.symm] at isLast
        cases isLast
        exact placed.unapplied applied (.held worker holds) before
  · intro ⟨safe, keeps⟩ item member important
    by_cases same : item = applied
    · subst same
      exact Or.inr (by rw [last, if_pos rfl])
    · obtain here | isLast := safe item member important
      · exact Or.inl ((open_apply placed holds).mpr ⟨here, same⟩)
      · have different : sender applied ≠ sender item := by
          intro sameSender
          exact keeps applied holds item (mem_of_lastOf isLast) sameSender.symm important
        exact Or.inr (by rw [last, if_neg different]; exact isLast)

/-! ## Runs -/

structure Tracked (sender : Item → Sender) (matters : Item → Prop) (counts : Item → Bool)
    (events : List (Event Item)) (state : State Item) : Prop where
  placed : Placed state
  safe : AllSafe sender matters state ↔ (system counts).Along (Keeps sender matters) {} events

theorem tracked_step (counted : ∀ item, matters item → counts item = true)
    {events : List (Event Item)} {state after : State Item} {event : Event Item}
    (before : (system counts).exec {} events = some state)
    (tracked : Tracked sender matters counts events state)
    (stepped : step counts state event = some after) (distinct : after.posted.Nodup) :
    Tracked sender matters counts (events ++ [event]) after := by
  have along : (system counts).Along (Keeps sender matters) {} (events ++ [event]) ↔
      AllSafe sender matters state ∧ Keeps sender matters state event := by
    rw [Lts.along_concat _ before, tracked.safe]
  cases event with
  | post item =>
    cases stepped
    have fresh : item ∉ state.posted := by
      intro member
      exact (List.nodup_append.mp distinct).2.2 item member item (by simp) rfl
    exact ⟨placed_post tracked.placed fresh, (allSafe_post tracked.placed fresh).trans along.symm⟩
  | take worker =>
    simp only [step] at stepped
    split at stepped
    · rename_i item waits free
      cases stepped
      refine ⟨placed_take tracked.placed free, ?_⟩
      rw [allSafe_take counted free, along]
      exact (and_iff_left trivial).symm
    · cases stepped
  | apply worker =>
    simp only [step] at stepped
    split at stepped
    · rename_i item holds
      cases stepped
      exact ⟨placed_apply tracked.placed holds, (allSafe_apply tracked.placed holds).trans along.symm⟩
    · cases stepped

theorem posted_step {state after : State Item} {event : Event Item}
    (stepped : step counts state event = some after) : state.posted <+: after.posted := by
  cases event with
  | post item =>
    cases stepped
    exact List.prefix_append _ _
  | take worker | apply worker =>
    simp only [step] at stepped
    split at stepped <;> cases stepped
    exact List.prefix_refl _

theorem tracked_run (counted : ∀ item, matters item → counts item = true)
    {events : List (Event Item)} {state : State Item}
    (reached : (system counts).exec {} events = some state) (distinct : state.posted.Nodup) :
    Tracked sender matters counts events state := by
  refine (system counts).exec_induction
    (motive := fun events state => state.posted.Nodup → Tracked sender matters counts events state)
    ?_ ?_ reached distinct
  · intro _
    exact ⟨placed_initial, iff_of_true (fun item member => absurd member List.not_mem_nil) trivial⟩
  · intro events state event after before ih stepped distinct
    exact tracked_step counted before (ih (distinct.sublist (posted_step stepped).sublist)) stepped
      distinct

/-- At rest, each item that matters is the last one applied of its sender if and only if
none was replaced in the slot or followed by another. -/
theorem lastApplied_iff (sender : Item → Sender) (counted : ∀ item, matters item → counts item = true)
    {events : List (Event Item)} {state : State Item}
    (reached : (system counts).exec {} events = some state) (distinct : state.posted.Nodup)
    (rest : AtRest state) :
    (∀ item ∈ state.posted, matters item → lastOf sender state.applied (sender item) = some item) ↔
      (system counts).Along (Keeps sender matters) {} events := by
  rw [← (tracked_run counted reached distinct).safe]
  have closed : ∀ item, ¬ Open state item := by
    intro item here
    cases here with
    | slot waits => cases rest.1.symm.trans waits
    | held worker holds => cases (rest.2 worker).symm.trans holds
  simp [AllSafe, Safe, closed]

end MicroRosAgent.Interleaving.Mailbox
