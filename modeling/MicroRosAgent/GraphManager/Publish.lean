import MicroRosAgent.Utils.Demangle
import MicroRosAgent.Interleaving.Program

/-! # The loop body of the publisher thread

`publish_microros_graph` builds one `Graph` message each time the cache has changed.
Between the reset of `graph_changed_` and the write it only reads the cache, in one query
for the node names and four for each node; `publishMicrorosGraph` is that part, as a
program over the queries.  A failing query by node ends the loop over the nodes (`break`),
and the message is written as it is.

`publishMicrorosGraph_eval` is its outcome on a cache that does not change.
-/

namespace MicroRosAgent.GraphManager

open Interleaving Utils

/-! ## The message -/

/-- The constants of `micro_ros_msgs::msg::Entity`. -/
inductive EntityType where
  | publisher | subscriber | serviceServer | serviceClient
  deriving DecidableEq, Repr

structure EntityMessage where
  entityType : EntityType
  name : Text
  types : List Text
  deriving DecidableEq, Repr

structure NodeMessage where
  nodeNamespace : Text
  nodeName : Text
  entities : List EntityMessage
  deriving DecidableEq, Repr

structure GraphMessage where
  nodes : List NodeMessage
  deriving DecidableEq, Repr

def NodeMessage.key (message : NodeMessage) : Text × Text := (message.nodeName, message.nodeNamespace)

/-- The names and types under which a node lists entities of one kind. -/
def NodeMessage.entitiesOf (message : NodeMessage) (entityType : EntityType) : NamesAndTypes :=
  (message.entities.filter fun entity => entity.entityType = entityType).map fun entity =>
    (entity.name, entity.types)

theorem mem_entitiesOf {message : NodeMessage} {entity : EntityMessage}
    (member : entity ∈ message.entities) :
    (entity.name, entity.types) ∈ message.entitiesOf entity.entityType :=
  List.mem_map.mpr ⟨entity, List.mem_filter.mpr ⟨member, by simp⟩, rfl⟩

def entityMessages (entityType : EntityType) (namesAndTypes : NamesAndTypes) : List EntityMessage :=
  namesAndTypes.map fun entry => ⟨entityType, entry.1, entry.2⟩

def nodeMessage (nodeName nodeNamespace : Text) (writers readers servers clients : NamesAndTypes) :
    NodeMessage :=
  { nodeNamespace
    nodeName
    entities := entityMessages .publisher writers ++ entityMessages .subscriber readers ++
      entityMessages .serviceServer servers ++ entityMessages .serviceClient clients }

theorem entitiesOf_entityMessages (first second : EntityType) (namesAndTypes : NamesAndTypes) :
    ((entityMessages first namesAndTypes).filter fun entity => entity.entityType = second).map
        (fun entity => (entity.name, entity.types)) =
      if first = second then namesAndTypes else [] := by
  induction namesAndTypes with
  | nil => simp [entityMessages]
  | cons entry rest ih =>
    simp only [entityMessages] at ih
    by_cases same : first = second
    · simpa [entityMessages, same] using ih
    · simpa [entityMessages, same] using ih

theorem entitiesOf_nodeMessage (nodeName nodeNamespace : Text)
    (writers readers servers clients : NamesAndTypes) (entityType : EntityType) :
    (nodeMessage nodeName nodeNamespace writers readers servers clients).entitiesOf entityType =
      match entityType with
      | .publisher => writers
      | .subscriber => readers
      | .serviceServer => servers
      | .serviceClient => clients := by
  cases entityType <;>
    simp [NodeMessage.entitiesOf, nodeMessage, entitiesOf_entityMessages]

/-! ## The queries -/

inductive Query where
  | getNodeNames
  | getWriterNamesAndTypesByNode (nodeName nodeNamespace : Text)
      (demangleTopic demangleType : DemangleFunction)
  | getReaderNamesAndTypesByNode (nodeName nodeNamespace : Text)
      (demangleTopic demangleType : DemangleFunction)
  | getNamesAndTypes (demangleTopic demangleType : DemangleFunction)

abbrev Query.Result : Query → Type
  | .getNodeNames => List (Text × Text)
  | _ => Option NamesAndTypes

variable {Cache : Type} [GraphCache Cache]

def answer : (query : Query) → Cache → query.Result
  | .getNodeNames, cache => GraphCache.getNodeNames cache
  | .getWriterNamesAndTypesByNode name nodeNamespace demangleTopic demangleType, cache =>
      GraphCache.getWriterNamesAndTypesByNode name nodeNamespace demangleTopic demangleType cache
  | .getReaderNamesAndTypesByNode name nodeNamespace demangleTopic demangleType, cache =>
      GraphCache.getReaderNamesAndTypesByNode name nodeNamespace demangleTopic demangleType cache
  | .getNamesAndTypes demangleTopic demangleType, cache =>
      GraphCache.getNamesAndTypes demangleTopic demangleType cache

abbrev Reading (α : Type) : Type := Program Query Query.Result α

abbrev ask (query : Query) : Reading query.Result := Program.perform query

/-! ## The loop -/

variable [Rmw]

/-- The body of the loop over the nodes; `none` is one of its four `break`s. -/
def buildNode (nodeName nodeNamespace : Text) : Reading (Option NodeMessage) := do
  let writers ← ask (.getWriterNamesAndTypesByNode nodeName nodeNamespace
    demangleRosTopicFromTopic demangleIfRosType)
  match writers with
  | none => pure none
  | some writers =>
    let readers ← ask (.getReaderNamesAndTypesByNode nodeName nodeNamespace
      demangleRosTopicFromTopic demangleIfRosType)
    match readers with
    | none => pure none
    | some readers =>
      let servers ← ask (.getNamesAndTypes demangleServiceRequestFromTopic demangleServiceTypeOnly)
      match servers with
      | none => pure none
      | some servers =>
        let clients ← ask (.getNamesAndTypes demangleServiceReplyFromTopic demangleServiceTypeOnly)
        match clients with
        | none => pure none
        | some clients =>
          pure (some (nodeMessage nodeName nodeNamespace writers readers servers clients))

def buildNodes : List (Text × Text) → Reading (List NodeMessage)
  | [] => pure []
  | (nodeName, nodeNamespace) :: nodeNames => do
      let built ← buildNode nodeName nodeNamespace
      match built with
      | none => pure []
      | some nodeMessage => do
          let others ← buildNodes nodeNames
          pure (nodeMessage :: others)

def publishMicrorosGraph : Reading GraphMessage := do
  let nodeNames ← ask .getNodeNames
  let nodes ← buildNodes nodeNames
  pure ⟨nodes⟩

/-! ## On a cache that does not change -/

/-- The message is what the four queries return for the node of that name. -/
structure Describes (cache : Cache) (key : Text × Text) (message : NodeMessage) : Prop where
  named : message.key = key
  writers : GraphCache.getWriterNamesAndTypesByNode key.1 key.2 demangleRosTopicFromTopic
    demangleIfRosType cache = some (message.entitiesOf .publisher)
  readers : GraphCache.getReaderNamesAndTypesByNode key.1 key.2 demangleRosTopicFromTopic
    demangleIfRosType cache = some (message.entitiesOf .subscriber)
  servers : GraphCache.getNamesAndTypes demangleServiceRequestFromTopic demangleServiceTypeOnly
    cache = some (message.entitiesOf .serviceServer)
  clients : GraphCache.getNamesAndTypes demangleServiceReplyFromTopic demangleServiceTypeOnly
    cache = some (message.entitiesOf .serviceClient)

theorem buildNode_eval [LawfulQueries Cache] {cache : Cache} {gid : Gid} {key : Text × Text}
    (present : HasNode cache gid key) :
    ∃ message, (buildNode key.1 key.2).eval answer cache = some (some message) ∧
      Describes cache key message := by
  have found : ∀ result : Option NamesAndTypes, (result = none ↔ ∀ gid, ¬ HasNode cache gid key) →
      ∃ namesAndTypes, result = some namesAndTypes := by
    intro result missing
    cases result with
    | none => exact absurd present (missing.mp rfl gid)
    | some namesAndTypes => exact ⟨namesAndTypes, rfl⟩
  obtain ⟨writers, gotWriters⟩ := found _ (LawfulQueries.getWriters_none key.1 key.2
    demangleRosTopicFromTopic demangleIfRosType cache)
  obtain ⟨readers, gotReaders⟩ := found _ (LawfulQueries.getReaders_none key.1 key.2
    demangleRosTopicFromTopic demangleIfRosType cache)
  obtain ⟨servers, gotServers, _⟩ := LawfulQueries.getNamesAndTypes
    demangleServiceRequestFromTopic demangleServiceTypeOnly cache
  obtain ⟨clients, gotClients, _⟩ := LawfulQueries.getNamesAndTypes
    demangleServiceReplyFromTopic demangleServiceTypeOnly cache
  refine ⟨nodeMessage key.1 key.2 writers readers servers clients, ?_, ?_⟩
  · simp only [buildNode, ask, Program.perform_bind, Program.eval_call, answer, gotWriters, gotReaders,
      gotServers, gotClients, Program.pure_eq, Program.eval_done]
  · refine ⟨rfl, ?_, ?_, ?_, ?_⟩
    · rw [entitiesOf_nodeMessage, gotWriters]
    · rw [entitiesOf_nodeMessage, gotReaders]
    · rw [entitiesOf_nodeMessage, gotServers]
    · rw [entitiesOf_nodeMessage, gotClients]

theorem buildNodes_eval [LawfulQueries Cache] {cache : Cache} {nodeNames : List (Text × Text)}
    (present : ∀ key ∈ nodeNames, ∃ gid, HasNode cache gid key) :
    ∃ nodes, (buildNodes nodeNames).eval answer cache = some nodes ∧
      List.Forall₂ (Describes cache) nodeNames nodes := by
  induction nodeNames with
  | nil => exact ⟨[], rfl, List.Forall₂.nil⟩
  | cons key nodeNames ih =>
    obtain ⟨gid, here⟩ := present key (by simp)
    obtain ⟨message, built, describes⟩ := buildNode_eval here
    obtain ⟨others, rest, describesRest⟩ :=
      ih fun other member => present other (by simp [member])
    refine ⟨message :: others, ?_, List.Forall₂.cons describes describesRest⟩
    simp only [buildNodes, Program.eval_bind, built, rest, Option.bind_some, Program.pure_eq,
      Program.eval_done]

/-- The message has one entry for each node name, and each entry is what the queries
return for that name. -/
theorem publishMicrorosGraph_eval [LawfulQueries Cache] (cache : Cache) :
    ∃ graph, publishMicrorosGraph.eval answer cache = some graph ∧
      List.Forall₂ (Describes cache) (GraphCache.getNodeNames cache) graph.nodes := by
  obtain ⟨nodes, built, describes⟩ :=
    buildNodes_eval fun key listed => (mem_getNodeNames cache key).mp listed
  refine ⟨⟨nodes⟩, ?_, describes⟩
  simp only [publishMicrorosGraph, ask, Program.perform_bind, Program.eval_call, answer,
    Program.eval_bind, built, Option.bind_some, Program.pure_eq, Program.eval_done]

/-! ## On a cache that changes -/

/-- Each part of the entry is what a query returned on one of the snapshots. -/
structure DescribesSome (snapshots : List Cache) (message : NodeMessage) : Prop where
  writers : ∃ cache ∈ snapshots, GraphCache.getWriterNamesAndTypesByNode message.key.1 message.key.2
    demangleRosTopicFromTopic demangleIfRosType cache = some (message.entitiesOf .publisher)
  readers : ∃ cache ∈ snapshots, GraphCache.getReaderNamesAndTypesByNode message.key.1 message.key.2
    demangleRosTopicFromTopic demangleIfRosType cache = some (message.entitiesOf .subscriber)
  servers : ∃ cache ∈ snapshots, GraphCache.getNamesAndTypes demangleServiceRequestFromTopic
    demangleServiceTypeOnly cache = some (message.entitiesOf .serviceServer)
  clients : ∃ cache ∈ snapshots, GraphCache.getNamesAndTypes demangleServiceReplyFromTopic
    demangleServiceTypeOnly cache = some (message.entitiesOf .serviceClient)

theorem DescribesSome.mono {snapshots more : List Cache} {message : NodeMessage}
    (describes : DescribesSome snapshots message) (subset : snapshots ⊆ more) :
    DescribesSome more message := by
  obtain ⟨⟨first, inFirst, writers⟩, ⟨second, inSecond, readers⟩, ⟨third, inThird, servers⟩,
    ⟨fourth, inFourth, clients⟩⟩ := describes
  exact ⟨⟨first, subset inFirst, writers⟩, ⟨second, subset inSecond, readers⟩,
    ⟨third, subset inThird, servers⟩, ⟨fourth, subset inFourth, clients⟩⟩

theorem buildNode_describesSome {nodeName nodeNamespace : Text} {snapshots : List Cache}
    {message : NodeMessage}
    (replayed : (buildNode nodeName nodeNamespace).replay answer snapshots = some (some message)) :
    DescribesSome snapshots message := by
  have stopped : ∀ {later : List Cache},
      (Program.done none : Reading (Option NodeMessage)).replay answer later ≠ some (some message) := by
    intro later finished
    cases (Program.replay_done_eq_some finished).2
  simp only [buildNode, ask, Program.perform_bind, Program.pure_eq] at replayed
  obtain ⟨first, later, rfl, afterFirst⟩ := Program.replay_call_eq_some replayed
  cases writers : answer (.getWriterNamesAndTypesByNode nodeName nodeNamespace
      demangleRosTopicFromTopic demangleIfRosType) first with
  | none =>
    rw [writers] at afterFirst
    exact absurd afterFirst stopped
  | some foundWriters =>
    rw [writers] at afterFirst
    obtain ⟨second, later, rfl, afterSecond⟩ := Program.replay_call_eq_some afterFirst
    cases readers : answer (.getReaderNamesAndTypesByNode nodeName nodeNamespace
        demangleRosTopicFromTopic demangleIfRosType) second with
    | none =>
      rw [readers] at afterSecond
      exact absurd afterSecond stopped
    | some foundReaders =>
      rw [readers] at afterSecond
      obtain ⟨third, later, rfl, afterThird⟩ := Program.replay_call_eq_some afterSecond
      cases servers : answer (.getNamesAndTypes demangleServiceRequestFromTopic
          demangleServiceTypeOnly) third with
      | none =>
        rw [servers] at afterThird
        exact absurd afterThird stopped
      | some foundServers =>
        rw [servers] at afterThird
        obtain ⟨fourth, later, rfl, afterFourth⟩ := Program.replay_call_eq_some afterThird
        cases clients : answer (.getNamesAndTypes demangleServiceReplyFromTopic
            demangleServiceTypeOnly) fourth with
        | none =>
          rw [clients] at afterFourth
          exact absurd afterFourth stopped
        | some foundClients =>
          rw [clients] at afterFourth
          cases (Program.replay_done_eq_some afterFourth).2
          refine ⟨⟨first, by simp, ?_⟩, ⟨second, by simp, ?_⟩, ⟨third, by simp, ?_⟩,
            ⟨fourth, by simp, ?_⟩⟩
          · rw [entitiesOf_nodeMessage]
            exact writers
          · rw [entitiesOf_nodeMessage]
            exact readers
          · rw [entitiesOf_nodeMessage]
            exact servers
          · rw [entitiesOf_nodeMessage]
            exact clients

theorem buildNodes_describesSome {nodeNames : List (Text × Text)} {snapshots : List Cache}
    {nodes : List NodeMessage}
    (replayed : (buildNodes nodeNames).replay answer snapshots = some nodes) :
    ∀ message ∈ nodes, DescribesSome snapshots message := by
  induction nodeNames generalizing snapshots nodes with
  | nil =>
    cases (Program.replay_done_eq_some replayed).2
    simp
  | cons key nodeNames ih =>
    obtain ⟨here, later, built, rfl, ran, replayed⟩ := Program.replay_bind_eq_some replayed
    cases built with
    | none =>
      cases (Program.replay_done_eq_some replayed).2
      simp
    | some entry =>
      obtain ⟨others, last, rest, rfl, rebuilt, replayed⟩ := Program.replay_bind_eq_some replayed
      cases (Program.replay_done_eq_some replayed).2
      intro message member
      obtain rfl | member := List.mem_cons.mp member
      · exact (buildNode_describesSome ran).mono (by simp)
      · exact (ih rebuilt message member).mono (by simp)

/-- Whatever happens between the queries, the message holds nothing that no query has
returned. -/
theorem publishMicrorosGraph_describesSome {snapshots : List Cache} {graph : GraphMessage}
    (replayed : publishMicrorosGraph.replay answer snapshots = some graph) :
    ∀ message ∈ graph.nodes, DescribesSome snapshots message := by
  simp only [publishMicrorosGraph, ask, Program.perform_bind] at replayed
  obtain ⟨first, later, rfl, replayed⟩ := Program.replay_call_eq_some replayed
  obtain ⟨during, last, nodes, rfl, built, replayed⟩ := Program.replay_bind_eq_some replayed
  cases (Program.replay_done_eq_some replayed).2
  intro message member
  refine (buildNodes_describesSome built message member).mono ?_
  intro cache inside
  exact List.mem_cons_of_mem _ (List.mem_append_left _ inside)

end MicroRosAgent.GraphManager
