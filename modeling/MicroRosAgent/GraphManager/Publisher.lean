import MicroRosAgent.Agent.Callbacks
import MicroRosAgent.GraphCache.Reference
import MicroRosAgent.GraphManager.Publish
import MicroRosAgent.Interleaving.ChangeFlag

/-! # The publisher thread and the threads that change the graph

The graph manager of a domain is constructed by the first CREATE_PARTICIPANT callback of the
domain, which then adds its participant.  The constructor creates the manager's own
participant, whose listeners and those of its reader run from then on, installs the
on-change callback, and starts the publisher thread.  Every other thread may call anything
at any time in between.

The system refines `ChangeFlag` (`step_shadowed`): what changes the cache before the
installation sets no flag, and `add_participant`, which comes after it and always invokes the
callback, makes up for it.
-/

namespace MicroRosAgent.GraphManager.Publisher

open Interleaving Agent

/-! ## The first callback -/

inductive StartupCall where
  | createParticipant
  | setOnChangeCallback
  | startPublisher
  | member (call : Call)

abbrev StartupCall.Result : StartupCall → Type
  | .member call => call.Result
  | .createParticipant | .setOnChangeCallback | .startPublisher => Unit

abbrev StartupProgram (α : Type) : Type := Program StartupCall StartupCall.Result α

/-- A member function as a part of the callback. -/
def member {α : Type} : ManagerProgram α → StartupProgram α
  | .done value => .done value
  | .call operation next => .call (.member operation) fun result => member (next result)
  | .fault => .fault

/-- `GraphManager::GraphManager`, as far as other threads notice it. -/
def construct : StartupProgram Unit := do
  Program.perform StartupCall.createParticipant
  Program.perform StartupCall.setOnChangeCallback
  Program.perform StartupCall.startPublisher

variable [Rmw]

/-- The CREATE_PARTICIPANT callback when the domain has no graph manager yet. -/
def onFirstCreateParticipant (participant : DomainParticipant) : StartupProgram Unit := do
  construct
  member (onCreateParticipant participant)

/-! ## The system -/

structure State (Cache : Type) where
  manager : Manager Cache
  participantCreated : Bool := false
  callbackSet : Bool := false
  graphChanged : Bool := false
  publisher : ChangeFlag.Reader Query Query.Result GraphMessage := .unstarted
  -- the last message written on `ros_to_microros_graph`
  written : Option GraphMessage := none
  caller : StartupProgram Unit
  -- the caller is in a mutator, between its change and its callback
  callerNotifies : Bool := false
  -- so many other threads are
  othersNotify : Nat := 0

inductive Event where
  | caller
  | callerNotified
  | other (call : Call)
  | otherNotified
  | wake
  | query
  | write

variable {Cache : Type} [NotifyingCache Cache]

/-- The call invokes the on-change callback after its change. -/
def notifies (manager : Manager Cache) : Call → Bool
  | .cache mutator => NotifyingCache.notifies mutator manager.graphCache
  | _ => false

def step (state : State Cache) : Event → Option (State Cache)
  | .caller =>
      match state.callerNotifies, state.caller with
      | false, .call .createParticipant next =>
          some { state with participantCreated := true, caller := next () }
      | false, .call .setOnChangeCallback next =>
          some { state with callbackSet := true, caller := next () }
      | false, .call .startPublisher next =>
          some { state with publisher := .waiting, caller := next () }
      | false, .call (.member call) next =>
          (handle call state.manager).map fun answer => { state with
            manager := answer.2
            caller := next answer.1
            callerNotifies := notifies state.manager call }
      | _, _ => none
  | .callerNotified =>
      if state.callerNotifies then some { state with
        callerNotifies := false
        graphChanged := state.graphChanged || state.callbackSet }
      else none
  | .other call =>
      if state.participantCreated then
        (handle call state.manager).map fun answer => { state with
          manager := answer.2
          othersNotify :=
            if notifies state.manager call then state.othersNotify + 1 else state.othersNotify }
      else none
  | .otherNotified =>
      match state.othersNotify with
      | 0 => none
      | others + 1 => some { state with
          othersNotify := others
          graphChanged := state.graphChanged || state.callbackSet }
  | .wake =>
      match state.graphChanged, state.publisher with
      | true, .waiting =>
          some { state with graphChanged := false, publisher := .reading publishMicrorosGraph }
      | _, _ => none
  | .query =>
      match state.publisher with
      | .reading (.call query next) =>
          some { state with publisher := .reading (next (answer query state.manager.graphCache)) }
      | _ => none
  | .write =>
      match state.publisher with
      | .reading (.done graph) => some { state with publisher := .waiting, written := some graph }
      | _ => none

def system (Cache : Type) [NotifyingCache Cache] : Lts (State Cache) Event := ⟨step⟩

def start (Cache : Type) [NotifyingCache Cache] (participant : DomainParticipant) : State Cache :=
  { manager := { graphCache := GraphCache.empty }
    caller := onFirstCreateParticipant participant }

/-- The first callback has returned, the publisher thread is blocked, and no mutator is
    between its change and its callback. -/
structure Settled (state : State Cache) : Prop where
  returned : state.caller = .done ()
  blocked : state.publisher = .waiting ∧ state.graphChanged = false
  noMutation : state.callerNotifies = false ∧ state.othersNotify = 0

/-! ## The refinement -/

abbrev Shadow (Cache : Type) : Type := ChangeFlag.State Query Query.Result Cache GraphMessage

def shadowOf (state : State Cache) (announced : Bool) : Shadow Cache :=
  { data := state.manager.graphCache
    installed := state.callbackSet
    changed := state.graphChanged
    pending := if state.callerNotifies then state.othersNotify + 1 else state.othersNotify
    reader := state.publisher
    published := state.written
    announced }

/-- How far the first callback has come. -/
inductive Phase (participant : DomainParticipant) (state : State Cache) (announced : Bool) : Prop
  | created (caller : state.caller = onFirstCreateParticipant participant)
      (unstarted : state.publisher = .unstarted)
  | installing (caller : state.caller = .call .setOnChangeCallback fun _ =>
        .call .startPublisher fun _ => member (addParticipant participant))
      (unstarted : state.publisher = .unstarted)
  | starting (caller : state.caller = .call .startPublisher fun _ =>
        member (addParticipant participant))
      (installed : state.callbackSet = true) (unstarted : state.publisher = .unstarted)
  | adding (caller : state.caller = member (addParticipant participant))
      (installed : state.callbackSet = true)
  | added (program : ManagerProgram Unit) (caller : state.caller = member program)
      (seen : announced = true)

def Shadows (participant : DomainParticipant) (state : State Cache) (shadow : Shadow Cache) : Prop :=
  ∃ announced, shadow = shadowOf state announced ∧ Phase participant state announced

omit [Rmw] in
/-- A call that does not invoke the callback leaves the cache as it is. -/
theorem handle_unnotified [LawfulNotifications Cache] {call : Call} {manager after : Manager Cache}
    {result : call.Result} (handled : handle call manager = some (result, after))
    (silent : notifies manager call = false) : after.graphCache = manager.graphCache := by
  cases call with
  | cache mutator =>
    obtain ⟨⟨value, cache⟩, performed, equal⟩ := Option.map_eq_some_iff.mp handled
    cases equal
    by_contra changed
    have notified := LawfulNotifications.notifies_of_change mutator _ _ _ performed changed
    cases silent.symm.trans notified
  | takeNextSample =>
    cases history : manager.history with
    | nil =>
      simp only [handle, history] at handled
      cases handled
      rfl
    | cons sample later =>
      simp only [handle, history] at handled
      cases handled
      rfl
  | findDatawriter | createDatawriter | insertDatawriter | write | deleteDatawriter
  | eraseDatawriter =>
    cases handled
    rfl

omit [Rmw] in
/-- The change a member call makes to the shadow. -/
theorem honest_call [LawfulNotifications Cache] {call : Call} {state : State Cache}
    {after : Manager Cache} {result : call.Result} {announced : Bool}
    (handled : handle call state.manager = some (result, after)) :
    ChangeFlag.Honest answer (shadowOf state announced)
      (.change after.graphCache (notifies state.manager call)) := by
  intro silent query
  rw [handle_unnotified handled silent]
  rfl

abbrev shadowSystem (Cache : Type) [NotifyingCache Cache] : Lts (Shadow Cache) (ChangeFlag.Event Cache) :=
  ChangeFlag.system answer publishMicrorosGraph

omit [NotifyingCache Cache] in
/-- The phase is only about the caller, the publisher before its start, and the installation. -/
theorem Phase.kept {participant : DomainParticipant} {state after : State Cache} {announced later : Bool}
    (phase : Phase participant state announced) (caller : after.caller = state.caller)
    (installed : state.callbackSet = true → after.callbackSet = true)
    (unstarted : state.publisher = .unstarted → after.publisher = .unstarted)
    (grown : announced = true → later = true) : Phase participant after later := by
  cases phase with
  | created here waiting => exact .created (caller.trans here) (unstarted waiting)
  | installing here waiting => exact .installing (caller.trans here) (unstarted waiting)
  | starting here set waiting => exact .starting (caller.trans here) (installed set) (unstarted waiting)
  | adding here set => exact .adding (caller.trans here) (installed set)
  | added program here seen => exact .added program (caller.trans here) (grown seen)

/-- The shadow has an honest run to where the step of the system has led. -/
abbrev Shadowed (participant : DomainParticipant) (after : State Cache) (shadow : Shadow Cache) : Prop :=
  (shadowSystem Cache).Matches (ChangeFlag.Honest answer) (Shadows participant after) True shadow

theorem shadowed_by {participant : DomainParticipant} {after : State Cache} {shadow : Shadow Cache}
    (event : ChangeFlag.Event Cache) (announced : Bool)
    (honest : ChangeFlag.Honest answer shadow event)
    (stepped : ChangeFlag.step answer publishMicrorosGraph shadow event =
      some (shadowOf after announced)) (phase : Phase participant after announced) :
    Shadowed participant after shadow :=
  Lts.matches_by_step (shadowSystem Cache) event stepped ⟨announced, rfl, phase⟩
    (iff_of_true trivial honest)

variable [LawfulNotifications Cache]

/-- The callback makes a call of `add_participant`. -/
theorem member_shadowed {participant : DomainParticipant} {state after : State Cache}
    {announced : Bool} {call : Call} {next : call.Result → ManagerProgram Unit}
    (here : state.caller = member (.call call next))
    (seen : announced = true ∨ state.callbackSet = true ∧ notifies state.manager call = true)
    (stepped : step state .caller = some after) :
    Shadowed participant after (shadowOf state announced) := by
  cases busy : state.callerNotifies with
  | true => simp [step, busy] at stepped
  | false =>
    simp only [step, busy, here, member] at stepped
    obtain ⟨⟨result, manager⟩, handled, rfl⟩ := Option.map_eq_some_iff.mp stepped
    have grown : (announced || (notifies state.manager call && state.callbackSet)) = true := by
      obtain seen | ⟨installed, notified⟩ := seen
      · simp [seen]
      · simp [installed, notified]
    refine shadowed_by (.change manager.graphCache (notifies state.manager call))
      (announced || (notifies state.manager call && state.callbackSet)) (honest_call handled) ?_
      (.added (next result) rfl grown)
    simp [ChangeFlag.step, shadowOf, busy]

theorem caller_shadowed {participant : DomainParticipant} {state after : State Cache}
    {announced : Bool} (phase : Phase participant state announced)
    (stepped : step state .caller = some after) :
    Shadowed participant after (shadowOf state announced) := by
  have free : state.callerNotifies = false := by
    cases busy : state.callerNotifies with
    | true => simp [step, busy] at stepped
    | false => rfl
  cases phase with
  | created here unstarted =>
    have made : some { state with
        participantCreated := true
        caller := .call .setOnChangeCallback fun _ =>
          .call .startPublisher fun _ => member (addParticipant participant) } = some after := by
      rw [← stepped, step, free, here]
      rfl
    cases made
    exact Lts.matches_by_nothing (shadowSystem Cache) ⟨announced, rfl, .installing rfl unstarted⟩
      trivial
  | installing here unstarted =>
    simp only [step, free, here, Option.some.injEq] at stepped
    subst stepped
    refine shadowed_by .install announced trivial ?_ (.starting rfl rfl unstarted)
    simp [ChangeFlag.step, shadowOf, free]
  | starting here installed unstarted =>
    simp only [step, free, here, Option.some.injEq] at stepped
    subst stepped
    refine shadowed_by .start announced trivial ?_ (.adding rfl installed)
    simp [ChangeFlag.step, shadowOf, free, installed, unstarted]
  | adding here installed =>
    have first := here
    rw [addParticipant] at first
    exact member_shadowed first
      (Or.inr ⟨installed, LawfulNotifications.notifies_addParticipant _ _ _⟩) stepped
  | added program here seen =>
    cases program with
    | done value => simp [step, free, here, member] at stepped
    | call operation next => exact member_shadowed here (Or.inl seen) stepped
    | fault => simp [step, free, here, member] at stepped

theorem step_shadowed {participant : DomainParticipant} {state after : State Cache} {event : Event}
    {announced : Bool} (phase : Phase participant state announced)
    (stepped : step state event = some after) :
    Shadowed participant after (shadowOf state announced) := by
  cases event with
  | caller => exact caller_shadowed phase stepped
  | callerNotified =>
    simp only [step] at stepped
    split at stepped
    · rename_i busy
      cases stepped
      refine shadowed_by .callback announced trivial ?_ (phase.kept rfl id id id)
      simp [ChangeFlag.step, shadowOf, busy]
    · cases stepped
  | other call =>
    simp only [step] at stepped
    split at stepped
    · obtain ⟨⟨result, manager⟩, handled, rfl⟩ := Option.map_eq_some_iff.mp stepped
      refine shadowed_by (.change manager.graphCache (notifies state.manager call))
        (announced || (notifies state.manager call && state.callbackSet)) (honest_call handled) ?_
        (phase.kept rfl id id (by simp +contextual))
      cases notifies state.manager call <;> cases busy : state.callerNotifies <;>
        simp [ChangeFlag.step, shadowOf, busy]
    · cases stepped
  | otherNotified =>
    simp only [step] at stepped
    split at stepped
    · cases stepped
    · rename_i others outstanding
      cases stepped
      refine shadowed_by .callback announced trivial ?_ (phase.kept rfl id id id)
      cases busy : state.callerNotifies <;> simp [ChangeFlag.step, shadowOf, busy, outstanding]
  | wake =>
    simp only [step] at stepped
    split at stepped
    · rename_i changed waiting
      cases stepped
      refine shadowed_by .wake announced trivial ?_ (phase.kept rfl id (by simp [waiting]) id)
      simp [ChangeFlag.step, shadowOf, changed, waiting]
    · cases stepped
  | query =>
    simp only [step] at stepped
    split at stepped
    · rename_i query next reading
      cases stepped
      refine shadowed_by .read announced trivial ?_ (phase.kept rfl id (by simp [reading]) id)
      simp [ChangeFlag.step, shadowOf, reading]
    · cases stepped
  | write =>
    simp only [step] at stepped
    split at stepped
    · rename_i graph reading
      cases stepped
      refine shadowed_by .publish announced trivial ?_ (phase.kept rfl id (by simp [reading]) id)
      simp [ChangeFlag.step, shadowOf, reading]
    · cases stepped

theorem matched_step {participant : DomainParticipant} (state : State Cache) (event : Event)
    (after : State Cache) (shadow : Shadow Cache) (related : Shadows participant state shadow)
    (stepped : (system Cache).step state event = some after) : Shadowed participant after shadow := by
  obtain ⟨announced, rfl, phase⟩ := related
  exact step_shadowed phase stepped

omit [LawfulNotifications Cache] in
theorem shadows_start (participant : DomainParticipant) :
    Shadows participant (start Cache participant) { data := GraphCache.empty } :=
  ⟨false, rfl, .created rfl rfl⟩

/-- Once everything has settled, the last message written is the one the loop body builds
from the cache as it is. -/
theorem settled_published (participant : DomainParticipant) (events : List Event) {final : State Cache}
    (reached : (system Cache).exec (start Cache participant) events = some final)
    (settled : Settled final) :
    ∃ graph, final.written = some graph ∧
      publishMicrorosGraph.eval answer final.manager.graphCache = some graph := by
  obtain ⟨shadowEvents, shadow, ran, ⟨announced, rfl, phase⟩, honest⟩ :=
    Lts.simulation_along (system Cache) (shadowSystem Cache) matched_step (shadows_start participant)
      reached
  have seen : announced = true := by
    have returned := settled.returned
    cases phase with
    | created here | installing here | starting here | adding here => cases here.symm.trans returned
    | added program here seen => exact seen
  obtain ⟨free, none⟩ := settled.noMutation
  have quiescent : ChangeFlag.Quiescent (shadowOf final announced) :=
    ⟨settled.blocked.1, settled.blocked.2, by simp [shadowOf, free, none]⟩
  exact ChangeFlag.published_current ran (honest.mp trivial) quiescent seen

end MicroRosAgent.GraphManager.Publisher

/-! ## A change in the constructor and one during the iteration -/

namespace MicroRosAgent.GraphManager.Publisher

open Interleaving

attribute [local instance] referenceRmw

def sampleParticipant : DomainParticipant := ReferenceRmw.participant 1 "/node".toList

/-- A sample of another participant that arrives while the manager is constructed. -/
def earlySample : ParticipantEntitiesInfo :=
  ⟨⟨2⟩, [{ nodeNamespace := ['/'], nodeName := "other".toList }]⟩

/-- The first iteration lists the nodes before `add_node` has added one. -/
def sampleRun : List Event :=
  [.caller, .other (.cache (.updateParticipantEntities earlySample)), .otherNotified, .caller, .caller,
    .caller, .callerNotified, .wake, .query, .caller, .query, .query, .query, .query, .write,
    .callerNotified, .wake, .query] ++ List.replicate 8 .query ++
    [.write, .caller, .caller, .caller, .caller]

theorem settled_published_sampleRun : ∃ final,
    (system ReferenceCache).exec (start ReferenceCache sampleParticipant) sampleRun = some final ∧
      Settled final ∧
      ∃ graph, final.written = some graph ∧
        publishMicrorosGraph.eval answer final.manager.graphCache = some graph := by
  have settled : ∀ final, (system ReferenceCache).exec (start ReferenceCache sampleParticipant)
      sampleRun = some final → Settled final := by
    intro final reached
    cases reached
    exact ⟨rfl, ⟨rfl, rfl⟩, rfl, rfl⟩
  exact ⟨_, rfl, settled _ rfl, settled_published sampleParticipant sampleRun rfl (settled _ rfl)⟩

end MicroRosAgent.GraphManager.Publisher
