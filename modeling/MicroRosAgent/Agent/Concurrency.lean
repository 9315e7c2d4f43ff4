import MicroRosAgent.Agent.Callbacks
import MicroRosAgent.GraphCache.NodeTables
import MicroRosAgent.GraphManager.EndpointDiscovery
import MicroRosAgent.Interleaving.Lts
import MicroRosAgent.Interleaving.RelyGuarantee

/-! # Everything that runs on one graph manager

The callbacks of the agent, those of the participant listener and the runs of
`on_data_available`, any number of each at the same time and of any participants, call by
call.  Samples the manager has written and samples of other participants arrive in the
reader's history, each in place of what is still there, and wait until a run takes them.

Each call is atomic.  For the mutators of the cache this is its lock; the accesses to
`micro_ros_graph_datawriters_`, which no lock protects, are assumed not to overlap.

The module has the system and what one call does in it: to the node lists
(`nodes_handle`) and to the samples (`written_handle`).
-/

namespace MicroRosAgent.Agent.Concurrency

open Interleaving GraphManager

variable {Cache : Type} [GraphCache Cache]

abbrev State (Cache : Type) : Type := Pool Call Call.Result (Manager Cache)

inductive Event where
  | start (callback : Callback)
  | participantDiscovery (reason : ParticipantDiscoveryStatus) (guid : Guid) (userData : List UInt8)
  | endpointDiscovery (isReader : Bool) (reason : EndpointDiscoveryStatus) (info : BuiltinTopicData)
  -- the oldest sample in flight of a participant arrives
  | deliver (gid : Gid) (alive : Bool)
  -- a sample arrives that another participant has written
  | receive (sample : Sample)
  | onDataAvailable
  | advance (index : Nat)

variable [Rmw]

def step (state : State Cache) : Event → Option (State Cache)
  | .start callback => some (state.spawn callback.program)
  | .participantDiscovery reason guid userData =>
      some (state.spawn (onParticipantDiscovery reason guid userData))
  | .endpointDiscovery isReader reason info =>
      some (state.spawn (onEndpointDiscovery isReader reason info))
  | .deliver gid alive =>
      (state.shared.deliver gid alive).map fun manager => { state with shared := manager }
  | .receive sample => some { state with shared := state.shared.arrive sample }
  | .onDataAvailable => some (state.spawn onDataAvailable)
  | .advance index => state.advance handle index

def system (Cache : Type) [GraphCache Cache] : Lts (State Cache) Event := ⟨step⟩

/-- A new graph manager. -/
def initial (Cache : Type) [GraphCache Cache] : State Cache := ⟨{ graphCache := GraphCache.empty }, []⟩

/-- Nothing is running, in flight or waiting in the history. -/
structure AtRest (state : State Cache) : Prop where
  idle : state.Idle
  delivered : state.shared.inFlight = []
  taken : state.shared.history = []

/-! ## One call -/

/-- The node lists after a call that has returned. -/
def nodesAfter : Call → (Gid → Option (List NodeEntitiesInfo)) → Gid → Option (List NodeEntitiesInfo)
  | .cache mutator, nodes => mutator.nodesAfter nodes
  | _, nodes => nodes

/-- The samples a call writes. -/
def writes : Call → List ParticipantEntitiesInfo
  | .write _ info => [info]
  | _ => []

omit [Rmw] in
theorem nodes_handle [LawfulMutators Cache] [LawfulPreconditions Cache] {operation : Call}
    {manager after : Manager Cache} {result : operation.Result}
    (handled : handle operation manager = some (result, after)) :
    GraphCache.nodes after.graphCache =
      nodesAfter operation (GraphCache.nodes manager.graphCache) := by
  cases operation with
  | cache mutator =>
    obtain ⟨⟨answer, cache⟩, performed, answered⟩ := Option.map_eq_some_iff.mp handled
    cases answered
    exact nodes_perform performed
  | takeNextSample =>
    simp only [handle] at handled
    split at handled <;> cases handled <;> rfl
  | findDatawriter | createDatawriter | insertDatawriter | write | deleteDatawriter
  | eraseDatawriter =>
    cases handled
    rfl

omit [Rmw] in
theorem written_handle {operation : Call} {manager after : Manager Cache} {result : operation.Result}
    (handled : handle operation manager = some (result, after)) :
    after.written = manager.written ++ writes operation ∧
      after.inFlight = manager.inFlight ++ writes operation := by
  cases operation with
  | cache mutator =>
    obtain ⟨⟨answer, cache⟩, _, answered⟩ := Option.map_eq_some_iff.mp handled
    cases answered
    exact ⟨(List.append_nil _).symm, (List.append_nil _).symm⟩
  | takeNextSample =>
    simp only [handle] at handled
    split at handled <;> cases handled <;> simp [writes]
  | write =>
    cases handled
    exact ⟨rfl, rfl⟩
  | findDatawriter | createDatawriter | insertDatawriter | deleteDatawriter | eraseDatawriter =>
    cases handled
    exact ⟨(List.append_nil _).symm, (List.append_nil _).symm⟩

omit [Rmw] in
/-- A call adds nothing to the history. -/
theorem history_handle {operation : Call} {manager after : Manager Cache} {result : operation.Result}
    (handled : handle operation manager = some (result, after)) :
    after.history ⊆ manager.history := by
  cases operation with
  | cache mutator =>
    obtain ⟨⟨answer, cache⟩, _, answered⟩ := Option.map_eq_some_iff.mp handled
    cases answered
    exact List.Subset.refl _
  | takeNextSample =>
    simp only [handle] at handled
    split at handled
    · cases handled
      exact List.Subset.refl _
    · rename_i sample later waits
      cases handled
      rw [waits]
      exact List.subset_cons_self _ _
  | findDatawriter | createDatawriter | insertDatawriter | write | deleteDatawriter
  | eraseDatawriter =>
    cases handled
    exact List.Subset.refl _

/-! ## One event -/

section
variable {state after : State Cache} {event : Event}

/-- All an event can do. -/
inductive Stepped (state : State Cache) : Event → State Cache → Prop
  | start (callback : Callback) : Stepped state (.start callback) (state.spawn callback.program)
  | participantDiscovery (reason : ParticipantDiscoveryStatus) (guid : Guid)
      (userData : List UInt8) : Stepped state (.participantDiscovery reason guid userData)
        (state.spawn (onParticipantDiscovery reason guid userData))
  | endpointDiscovery (isReader : Bool) (reason : EndpointDiscoveryStatus)
      (info : BuiltinTopicData) : Stepped state (.endpointDiscovery isReader reason info)
        (state.spawn (onEndpointDiscovery isReader reason info))
  | deliver {gid : Gid} {alive : Bool} {info : ParticipantEntitiesInfo}
      {first later : List ParticipantEntitiesInfo} (own : info.gid = gid)
      (others : ∀ other ∈ first, other.gid ≠ gid)
      (sent : state.shared.inFlight = first ++ info :: later) :
      Stepped state (.deliver gid alive) ⟨{ state.shared with
        inFlight := first ++ later, history := [⟨info, alive⟩] }, state.threads⟩
  | receive (sample : Sample) :
      Stepped state (.receive sample) ⟨{ state.shared with history := [sample] }, state.threads⟩
  | onDataAvailable : Stepped state .onDataAvailable (state.spawn onDataAvailable)
  | advance (index : Nat) {after : State Cache} (advanced : state.advance handle index = some after) :
      Stepped state (.advance index) after

theorem stepped_of_step (stepped : step state event = some after) : Stepped state event after := by
  cases event with
  | start callback =>
    cases stepped
    exact .start callback
  | participantDiscovery reason guid userData =>
    cases stepped
    exact .participantDiscovery reason guid userData
  | endpointDiscovery isReader reason info =>
    cases stepped
    exact .endpointDiscovery isReader reason info
  | deliver gid alive =>
    obtain ⟨manager, delivered, rfl⟩ := Option.map_eq_some_iff.mp stepped
    obtain ⟨info, first, later, own, others, sent, rfl⟩ := deliver_cases delivered
    exact .deliver own others sent
  | receive sample =>
    cases stepped
    rw [arrive_eq]
    exact .receive sample
  | onDataAvailable =>
    cases stepped
    exact .onDataAvailable
  | advance index => exact .advance index stepped

end

end MicroRosAgent.Agent.Concurrency
