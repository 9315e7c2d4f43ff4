import MicroRosAgent.GraphManager.Publisher
import MicroRosAgent.Interleaving.Monitor

/-! # The mutexes of the graph manager

`Publisher` lets the publisher thread notice a change in one step.  Here every thread takes
the mutexes one after another: a mutator has the one of the graph cache, the callback that
the constructor installs takes `mtx_`, sets `graph_changed_` and notifies `cv_`, and the
publisher thread waits on `cv_` with `mtx_` and queries the cache with the cache's mutex.
Whether the cache keeps its mutex while it calls back is left open (`keeps`).

`comes_to_rest` — once no further call comes in and no thread wakes up spuriously any more,
the threads stop after finitely many steps, none of them waiting for another one, and the
graph has been written as it is.
-/

namespace MicroRosAgent.GraphManager.Locking

open Interleaving Agent Publisher

inductive Thread where
  | caller
  | other (index : Nat)
  deriving DecidableEq, Repr

abbrev Threads (Cache : Type) : Type :=
  Monitor.State Thread Query Query.Result (Manager Cache) GraphMessage

/-- `caller` is the callback that constructs the manager. -/
structure State (Cache : Type) where
  threads : Threads Cache
  participantCreated : Bool := false
  caller : StartupProgram Unit

inductive Event where
  | caller
  | other (index : Nat) (call : Call)
  | advance (thread : Thread)
  | publisher
  | spurious

variable {Cache : Type} [NotifyingCache Cache] [Rmw]

def answerOf (query : Query) (manager : Manager Cache) : query.Result :=
  answer query manager.graphCache

abbrev move (keeps : Bool) :
    Threads Cache → Monitor.Event Thread (Manager Cache) → Option (Threads Cache) :=
  Monitor.step keeps answerOf publishMicrorosGraph

/-- A call, as far as the mutexes are concerned: only a mutator needs one. -/
def eventOf (thread : Thread) (call : Call) (manager after : Manager Cache) :
    Monitor.Event Thread (Manager Cache) :=
  match call with
  | .cache _ => .change thread after (notifies manager call)
  | _ => .touch after

/-- The thread makes a call, unless it is still inside of its last one. -/
def makeCall (keeps : Bool) (threads : Threads Cache) (thread : Thread) (call : Call) :
    Option (call.Result × Threads Cache) :=
  match threads.stage thread with
  | .outside =>
      (handle call threads.data).bind fun answer =>
        (move keeps threads (eventOf thread call threads.data answer.2)).map fun after =>
          (answer.1, after)
  | _ => none

def step (keeps : Bool) (state : State Cache) : Event → Option (State Cache)
  | .caller =>
      match state.threads.stage .caller, state.caller with
      | .outside, .call .createParticipant next =>
          some { state with participantCreated := true, caller := next () }
      | .outside, .call .setOnChangeCallback next =>
          (move keeps state.threads .install).map fun threads =>
            { state with threads, caller := next () }
      | .outside, .call .startPublisher next =>
          (move keeps state.threads .start).map fun threads =>
            { state with threads, caller := next () }
      | .outside, .call (.member call) next =>
          (makeCall keeps state.threads .caller call).map fun answer =>
            { state with threads := answer.2, caller := next answer.1 }
      | _, _ => none
  | .other index call =>
      if state.participantCreated then
        (makeCall keeps state.threads (.other index) call).map fun answer =>
          { state with threads := answer.2 }
      else none
  | .advance thread =>
      (move keeps state.threads (.advance thread)).map fun threads => { state with threads }
  | .publisher => (move keeps state.threads .reader).map fun threads => { state with threads }
  | .spurious => (move keeps state.threads .spurious).map fun threads => { state with threads }

def system (Cache : Type) [NotifyingCache Cache] (keeps : Bool) : Lts (State Cache) Event :=
  ⟨step keeps⟩

def start (Cache : Type) [NotifyingCache Cache] (participant : DomainParticipant) : State Cache :=
  { threads := { data := { graphCache := GraphCache.empty } }
    caller := onFirstCreateParticipant participant }

/-- A thread goes on with a call, or the publisher with its loop. -/
def Event.Internal : Event → Prop
  | .advance _ | .publisher => True
  | .caller | .other .. | .spurious => False

/-! ## As a monitor -/

abbrev monitor (Cache : Type) [NotifyingCache Cache] (keeps : Bool) :
    Lts (Threads Cache) (Monitor.Event Thread (Manager Cache)) :=
  Monitor.system keeps answerOf publishMicrorosGraph

variable {keeps : Bool} {state after : State Cache}

theorem makeCall_cases {threads threadsAfter : Threads Cache} {thread : Thread} {call : Call}
    {result : call.Result} (made : makeCall keeps threads thread call = some (result, threadsAfter)) :
    ∃ manager, handle call threads.data = some (result, manager) ∧
      move keeps threads (eventOf thread call threads.data manager) = some threadsAfter := by
  unfold makeCall at made
  split at made
  · obtain ⟨⟨value, manager⟩, handled, made⟩ := Option.bind_eq_some_iff.mp made
    obtain ⟨moved, isMoved, equal⟩ := Option.map_eq_some_iff.mp made
    cases equal
    exact ⟨manager, handled, isMoved⟩
  · cases made

omit [Rmw] in
/-- The change a call makes is one that no query sees, if it does not invoke the callback. -/
theorem honest_eventOf [LawfulNotifications Cache] {threads : Threads Cache} {thread : Thread}
    {call : Call} {result : call.Result} {manager : Manager Cache}
    (handled : handle call threads.data = some (result, manager)) :
    Monitor.Honest answerOf threads (eventOf thread call threads.data manager) := by
  have unseen : notifies threads.data call = false → ∀ query,
      answerOf query manager = answerOf query threads.data := by
    intro silent query
    rw [answerOf, handle_unnotified handled silent]
    rfl
  cases call with
  | cache mutator => exact unseen
  | findDatawriter | createDatawriter | insertDatawriter | write | deleteDatawriter
  | eraseDatawriter | takeNextSample => exact unseen rfl

/-- What a step is for the monitor: one of its events, or none. -/
theorem threads_step {event : Event} [LawfulNotifications Cache]
    (stepped : step keeps state event = some after) :
    after.threads = state.threads ∨
      ∃ moved, move keeps state.threads moved = some after.threads ∧
        Monitor.Honest answerOf state.threads moved := by
  have called : ∀ {thread call result threads},
      makeCall keeps state.threads thread call = some (result, threads) →
      ∃ moved, move keeps state.threads moved = some threads ∧
        Monitor.Honest answerOf state.threads moved := by
    intro thread call result threads made
    obtain ⟨manager, handled, isMoved⟩ := makeCall_cases made
    exact ⟨_, isMoved, honest_eventOf handled⟩
  cases event with
  | caller =>
    simp only [step] at stepped
    split at stepped
    · cases stepped
      exact Or.inl rfl
    · obtain ⟨threads, isMoved, rfl⟩ := Option.map_eq_some_iff.mp stepped
      exact Or.inr ⟨_, isMoved, trivial⟩
    · obtain ⟨threads, isMoved, rfl⟩ := Option.map_eq_some_iff.mp stepped
      exact Or.inr ⟨_, isMoved, trivial⟩
    · obtain ⟨⟨result, threads⟩, made, rfl⟩ := Option.map_eq_some_iff.mp stepped
      exact Or.inr (called made)
    · cases stepped
  | other index call =>
    simp only [step] at stepped
    split at stepped
    · obtain ⟨⟨result, threads⟩, made, rfl⟩ := Option.map_eq_some_iff.mp stepped
      exact Or.inr (called made)
    · cases stepped
  | advance thread =>
    obtain ⟨threads, isMoved, rfl⟩ := Option.map_eq_some_iff.mp stepped
    exact Or.inr ⟨_, isMoved, trivial⟩
  | publisher =>
    obtain ⟨threads, isMoved, rfl⟩ := Option.map_eq_some_iff.mp stepped
    exact Or.inr ⟨_, isMoved, trivial⟩
  | spurious =>
    obtain ⟨threads, isMoved, rfl⟩ := Option.map_eq_some_iff.mp stepped
    exact Or.inr ⟨_, isMoved, trivial⟩

abbrev freshThreads (Cache : Type) [NotifyingCache Cache] : Threads Cache :=
  { data := { graphCache := GraphCache.empty } }

/-- The threads of a run make a run of the monitor. -/
theorem threads_run [LawfulNotifications Cache] {participant : DomainParticipant}
    {events : List Event}
    (reached : (system Cache keeps).exec (start Cache participant) events = some state) :
    ∃ moves, (monitor Cache keeps).exec (freshThreads Cache) moves = some state.threads ∧
      (monitor Cache keeps).Along (Monitor.Honest answerOf) (freshThreads Cache) moves := by
  let related (state : State Cache) (threads : Threads Cache) : Prop := threads = state.threads
  have matched : ∀ state event after threads, related state threads →
      (system Cache keeps).step state event = some after →
        (monitor Cache keeps).Matches (Monitor.Honest answerOf) (related after) True threads := by
    rintro state event after _ rfl stepped
    obtain same | ⟨moved, isMoved, honest⟩ := threads_step stepped
    · exact Lts.matches_by_nothing _ same.symm trivial
    · exact Lts.matches_by_step _ moved isMoved rfl (iff_of_true trivial honest)
  have initial : related (start Cache participant) (freshThreads Cache) := rfl
  obtain ⟨moves, threads, ran, rfl, honest⟩ :=
    Lts.simulation_along (system Cache keeps) (monitor Cache keeps) matched initial reached
  exact ⟨moves, ran, honest.mp trivial⟩

/-! ## The first callback -/

/-- How far the first callback has come. -/
inductive Startup (participant : DomainParticipant) (state : State Cache) : Prop
  | created (caller : state.caller = onFirstCreateParticipant participant)
  | installing (caller : state.caller = .call .setOnChangeCallback fun _ =>
        .call .startPublisher fun _ => member (addParticipant participant))
  | starting (caller : state.caller = .call .startPublisher fun _ =>
        member (addParticipant participant))
      (installed : state.threads.installed = true)
  | adding (caller : state.caller = member (addParticipant participant))
      (installed : state.threads.installed = true) (started : state.threads.reader ≠ .unstarted)
  | added (program : ManagerProgram Unit) (caller : state.caller = member program)
      (seen : state.threads.announced = true) (started : state.threads.reader ≠ .unstarted)

omit [NotifyingCache Cache] in
theorem Startup.kept {participant : DomainParticipant} (startup : Startup participant state)
    (caller : after.caller = state.caller) (grown : Monitor.Grown state.threads after.threads) :
    Startup participant after := by
  cases startup with
  | created here => exact .created (caller.trans here)
  | installing here => exact .installing (caller.trans here)
  | starting here installed => exact .starting (caller.trans here) (grown.installed installed)
  | adding here installed started =>
    exact .adding (caller.trans here) (grown.installed installed) (grown.started started)
  | added program here seen started =>
    exact .added program (caller.trans here) (grown.announced seen) (grown.started started)

theorem startup_caller [LawfulNotifications Cache] {participant : DomainParticipant}
    (startup : Startup participant state) (stepped : step keeps state .caller = some after) :
    Startup participant after := by
  have outside : state.threads.stage .caller = .outside := by
    cases here : state.threads.stage .caller with
    | outside => rfl
    | _ => simp [step, here] at stepped
  cases startup with
  | created here =>
    have made : some { state with
        participantCreated := true
        caller := .call .setOnChangeCallback fun _ =>
          .call .startPublisher fun _ => member (addParticipant participant) } = some after := by
      rw [← stepped, step, outside, here]
      rfl
    cases made
    exact .installing rfl
  | installing here =>
    simp only [step, outside, here] at stepped
    obtain ⟨threads, isMoved, rfl⟩ := Option.map_eq_some_iff.mp stepped
    refine .starting rfl ?_
    simp only [move, Monitor.step] at isMoved
    split at isMoved
    · cases isMoved
      rfl
    · cases isMoved
  | starting here installed =>
    simp only [step, outside, here] at stepped
    obtain ⟨threads, isMoved, rfl⟩ := Option.map_eq_some_iff.mp stepped
    refine .adding rfl ((Monitor.grown_step isMoved).installed installed) ?_
    simp only [move, Monitor.step] at isMoved
    split at isMoved
    · cases isMoved
      intro unstarted
      cases unstarted
    · cases isMoved
  | adding here installed started =>
    rw [addParticipant] at here
    simp only [step, outside, here] at stepped
    obtain ⟨⟨result, threads⟩, made, rfl⟩ := Option.map_eq_some_iff.mp stepped
    obtain ⟨manager, _, isMoved⟩ := makeCall_cases made
    refine .added _ rfl ?_ ((Monitor.grown_step isMoved).started started)
    -- `add_participant` always invokes the callback, which has been installed
    obtain ⟨_, _, rfl⟩ := Monitor.change_of_step isMoved
    have notified : notifies state.threads.data (.cache (.addParticipant participant.gid ['/'])) =
        true := LawfulNotifications.notifies_addParticipant _ _ _
    simp [notified, installed]
  | added program here seen started =>
    cases program with
    | done value => simp [step, outside, here, member] at stepped
    | call operation next =>
      simp only [step, outside, here, member] at stepped
      obtain ⟨⟨result, threads⟩, made, rfl⟩ := Option.map_eq_some_iff.mp stepped
      obtain ⟨manager, _, isMoved⟩ := makeCall_cases made
      have grown := Monitor.grown_step isMoved
      exact .added _ rfl (grown.announced seen) (grown.started started)
    | fault => simp [step, outside, here, member] at stepped

theorem startup_step [LawfulNotifications Cache] {participant : DomainParticipant} {event : Event}
    (startup : Startup participant state) (stepped : step keeps state event = some after) :
    Startup participant after := by
  cases event with
  | caller => exact startup_caller startup stepped
  | other index call =>
    simp only [step] at stepped
    split at stepped
    · obtain ⟨⟨result, threads⟩, made, rfl⟩ := Option.map_eq_some_iff.mp stepped
      obtain ⟨manager, _, isMoved⟩ := makeCall_cases made
      exact startup.kept rfl (Monitor.grown_step isMoved)
    · cases stepped
  | advance thread =>
    obtain ⟨threads, isMoved, rfl⟩ := Option.map_eq_some_iff.mp stepped
    exact startup.kept rfl (Monitor.grown_step isMoved)
  | publisher =>
    obtain ⟨threads, isMoved, rfl⟩ := Option.map_eq_some_iff.mp stepped
    exact startup.kept rfl (Monitor.grown_step isMoved)
  | spurious =>
    obtain ⟨threads, isMoved, rfl⟩ := Option.map_eq_some_iff.mp stepped
    exact startup.kept rfl (Monitor.grown_step isMoved)

/-! ## The loop body goes on to its end -/

omit [NotifyingCache Cache] in
theorem faultless_buildNode (nodeName nodeNamespace : Text) :
    (buildNode nodeName nodeNamespace).Faultless := by
  refine .call fun writers => ?_
  cases writers with
  | none => exact .done _
  | some writers =>
    refine .call fun readers => ?_
    cases readers with
    | none => exact .done _
    | some readers =>
      refine .call fun servers => ?_
      cases servers with
      | none => exact .done _
      | some servers =>
        refine .call fun clients => ?_
        cases clients <;> exact .done _

theorem faultless_buildNodes (nodeNames : List (Text × Text)) :
    (buildNodes nodeNames).Faultless := by
  induction nodeNames with
  | nil => exact .done _
  | cons key nodeNames ih =>
    rw [buildNodes]
    refine (faultless_buildNode key.1 key.2).bind fun built => ?_
    cases built with
    | none => exact .done _
    | some message => exact ih.bind fun others => .done _

theorem faultless_publishMicrorosGraph : publishMicrorosGraph.Faultless :=
  .call fun nodeNames => (faultless_buildNodes nodeNames).bind fun _ => .done _

/-! ## At rest -/

/-- What holds in every state of the threads. -/
structure Invariant (keeps : Bool) (threads : Threads Cache) : Prop where
  sound : Monitor.Sound keeps threads
  readsOn : Monitor.ReadsOn threads.reader
  confined : ∃ active, Monitor.Confined active threads

theorem invariant_run {moves : List (Monitor.Event Thread (Manager Cache))} {threads : Threads Cache}
    (reached : (monitor Cache keeps).exec (freshThreads Cache) moves = some threads) :
    Invariant keeps threads := by
  refine (monitor Cache keeps).exec_invariant ?_ ?_ reached
  · intro threads event after invariant stepped
    obtain ⟨active, confined⟩ := invariant.confined
    exact ⟨invariant.sound.step stepped,
      Monitor.readsOn_step faultless_publishMicrorosGraph invariant.readsOn stepped,
      Monitor.confined_step confined stepped⟩
  · exact ⟨Monitor.sound_initial keeps _, nofun, ∅, fun _ _ => rfl⟩

/-- An internal step is one of the monitor. -/
theorem internal_step {event : Event} (internal : event.Internal)
    (stepped : step keeps state event = some after) :
    Monitor.InternalStep keeps answerOf publishMicrorosGraph after.threads state.threads := by
  cases event with
  | advance thread =>
    obtain ⟨threads, isMoved, rfl⟩ := Option.map_eq_some_iff.mp stepped
    exact ⟨.advance thread, trivial, isMoved⟩
  | publisher =>
    obtain ⟨threads, isMoved, rfl⟩ := Option.map_eq_some_iff.mp stepped
    exact ⟨.reader, trivial, isMoved⟩
  | caller | other | spurious => cases internal

theorem atRest_of_stuck (invariant : Invariant keeps state.threads)
    (stuck : ∀ event, event.Internal → step keeps state event = none) :
    Monitor.AtRest state.threads := by
  have moves : (∃ event : Monitor.Event Thread (Manager Cache), event.Internal ∧
      (move keeps state.threads event).isSome) ∨ Monitor.AtRest state.threads :=
    Monitor.moves_or_rests invariant.sound invariant.readsOn
  refine moves.resolve_left ?_
  rintro ⟨event, internal, moves⟩
  obtain ⟨threads, isMoved⟩ := Option.isSome_iff_exists.mp moves
  cases event with
  | advance thread =>
    have here := stuck (.advance thread) trivial
    simp [step, isMoved] at here
  | reader =>
    have here := stuck .publisher trivial
    simp [step, isMoved] at here
  | touch | change | install | start | spurious => cases internal

variable [LawfulNotifications Cache]

/-- Without further calls and further spurious wake-ups the threads come to rest after finitely
many steps; in a state that has no further step no mutex is taken, the publisher sleeps, and
once the first callback has returned the last message written is the one the loop body builds
from the cache as it is. -/
theorem comes_to_rest (keeps : Bool) (participant : DomainParticipant) (events : List Event)
    {final : State Cache}
    (reached : (system Cache keeps).exec (start Cache participant) events = some final) :
    (¬ ∃ run : Nat → State Cache, run 0 = final ∧
      ∀ n, ∃ event, event.Internal ∧ step keeps (run n) event = some (run (n + 1))) ∧
    ((∀ event, event.Internal → step keeps final event = none) →
      Monitor.AtRest final.threads ∧
        (final.caller = .done () →
          ∃ graph, final.threads.published = some graph ∧
            publishMicrorosGraph.eval answer final.threads.data.graphCache = some graph)) := by
  obtain ⟨moves, ran, honest⟩ := threads_run reached
  have invariant := invariant_run ran
  constructor
  · rintro ⟨run, rfl, steps⟩
    obtain ⟨active, confined⟩ := invariant.confined
    have acc : Acc (Monitor.InternalStep keeps answerOf publishMicrorosGraph) (run 0).threads :=
      Monitor.acc_internal invariant.sound confined
    refine (acc_iff_isEmpty_descending_chain.mp acc).false ⟨fun n => (run n).threads, rfl, ?_⟩
    intro n
    obtain ⟨event, internal, stepped⟩ := steps n
    exact internal_step internal stepped
  · intro stuck
    have atRest := atRest_of_stuck invariant stuck
    refine ⟨atRest, fun returned => ?_⟩
    have startup : Startup participant final :=
      (system Cache keeps).exec_invariant (fun _ _ _ startup stepped => startup_step startup stepped)
        (.created rfl) reached
    cases startup with
    | created here | installing here | starting here | adding here => cases here.symm.trans returned
    | added program _ seen started =>
      obtain ⟨graph, published, built⟩ := Monitor.rest_published ran honest atRest started seen
      refine ⟨graph, published, ?_⟩
      rw [← Program.eval_view]
      exact built

end MicroRosAgent.GraphManager.Locking

/-! ## A participant is added -/

namespace MicroRosAgent.GraphManager.Locking

open Interleaving Publisher

attribute [local instance] referenceRmw

/-- The publisher sleeps before the first mutator has called back, and is woken twice. -/
def sampleRun : List Event :=
  let addition := Event.caller :: List.replicate 6 (Event.advance .caller)
  [.caller, .caller, .caller, .publisher, .publisher] ++ addition ++
    List.replicate 8 Event.publisher ++ addition ++ List.replicate 12 Event.publisher ++
    List.replicate 4 Event.caller

theorem comes_to_rest_sampleRun : ∃ final,
    (system ReferenceCache true).exec (start ReferenceCache sampleParticipant) sampleRun =
        some final ∧
      ∃ graph, final.threads.published = some graph ∧
        publishMicrorosGraph.eval answer final.threads.data.graphCache = some graph := by
  obtain ⟨final, reached⟩ := Option.isSome_iff_exists.mp <|
    show ((system ReferenceCache true).exec (start ReferenceCache sampleParticipant)
      sampleRun).isSome = true by decide +kernel
  have stuck : ∀ event, event.Internal → step true final event = none := by
    cases reached
    intro event internal
    cases event with
    | advance thread => cases thread <;> rfl
    | publisher => rfl
    | caller | other | spurious => cases internal
  have returned : final.caller = .done () := by
    cases reached
    rfl
  have rests := comes_to_rest true sampleParticipant sampleRun reached
  exact ⟨final, reached, (rests.2 stuck).2 returned⟩

end MicroRosAgent.GraphManager.Locking
