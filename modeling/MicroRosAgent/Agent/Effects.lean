import MicroRosAgent.Agent.Callbacks

/-! # What a callback does to its graph manager

One specification for each kind of callback, for a callback that runs without
interruption: the node list it leaves in the cache, the samples it writes, the entry of
`micro_ros_graph_datawriters_` it changes.  Everything said later about sequences of
callbacks uses these and does not look at the programs again.
-/

namespace MicroRosAgent.Agent

open Interleaving GraphManager

/-! ## The node of one participant -/

/-- The node `add_participant` adds. -/
def nodeOf (participant : DomainParticipant) : NodeEntitiesInfo :=
  { nodeName := (nodeKey participant).1, nodeNamespace := (nodeKey participant).2 }

/-- The gids of the writers, or of the readers, among the listed entities. -/
def gidsOf (isReader : Bool) (entities : List (Bool × Gid)) : List Gid :=
  (entities.filter fun entity => entity.1 = isReader).map Prod.snd

/-- The participant's node with the given entities, in the order of their association. -/
def nodeListing (participant : DomainParticipant) (entities : List (Bool × Gid)) :
    NodeEntitiesInfo :=
  { nodeName := (nodeKey participant).1
    nodeNamespace := (nodeKey participant).2
    readerGidSeq := gidsOf true entities
    writerGidSeq := gidsOf false entities }

theorem key_nodeListing (participant : DomainParticipant) (entities : List (Bool × Gid)) :
    (nodeListing participant entities).key = nodeKey participant := rfl

theorem addEntity_nodeListing (participant : DomainParticipant) (entities : List (Bool × Gid))
    (isReader : Bool) (gid : Gid) :
    (nodeListing participant entities).addEntity isReader gid =
      nodeListing participant (entities ++ [(isReader, gid)]) := by
  cases isReader <;>
    simp [NodeEntitiesInfo.addEntity, NodeEntitiesInfo.addReader, NodeEntitiesInfo.addWriter,
      nodeListing, gidsOf]

theorem modifyNode_nodeListing (participant : DomainParticipant) (entities : List (Bool × Gid))
    (isReader : Bool) (gid : Gid) :
    modifyNode (nodeKey participant) (·.addEntity isReader gid) [nodeListing participant entities] =
      [nodeListing participant (entities ++ [(isReader, gid)])] := by
  simp [modifyNode, key_nodeListing, addEntity_nodeListing]

theorem mem_gidsOf (isReader : Bool) (entities : List (Bool × Gid)) (gid : Gid) :
    gid ∈ gidsOf isReader entities ↔ (isReader, gid) ∈ entities := by
  simp [gidsOf]

/-! ## Effects -/

variable [Rmw] {Cache : Type} [GraphCache Cache]

/-- The node list of one participant becomes `nodes`, `sent` is written, and the
    datawriters become `datawriters`. -/
structure Effect (before : Manager Cache) (gid : Gid) (nodes : Option (List NodeEntitiesInfo))
    (sent : List ParticipantEntitiesInfo) (datawriters : Nat → Option Nat)
    (after : Manager Cache) : Prop where
  nodes : GraphCache.nodes after.graphCache =
    Function.update (GraphCache.nodes before.graphCache) gid nodes
  written : after.written = before.written ++ sent
  inFlight : after.inFlight = before.inFlight ++ sent
  history : after.history = before.history
  datawriters : after.datawriters = datawriters

/-- The cache and the datawriters have what the entities of the participant need. -/
structure Registered (manager : Manager Cache) (participant : DomainParticipant)
    (nodes : List NodeEntitiesInfo) : Prop where
  cached : GraphCache.nodes manager.graphCache participant.gid = some nodes
  named : ∃ node ∈ nodes, node.key = nodeKey participant
  announced : (manager.datawriters participant.handle).isSome

omit [Rmw] in
theorem run_writeUnchecked (participant : DomainParticipant) (info : ParticipantEntitiesInfo)
    (manager : Manager Cache) :
    (writeUnchecked participant info).run handle manager =
      if (manager.datawriters participant.handle).isSome then
        some ((), { manager with
          written := manager.written ++ [info], inFlight := manager.inFlight ++ [info] })
      else none := by
  cases found : manager.datawriters participant.handle <;>
    simp [writeUnchecked, handle, found]

variable [LawfulMutators Cache]

/-! ## Entities -/

theorem createEndpoint_effect (participant : DomainParticipant) (isReader : Bool)
    (endpoint : Endpoint) {manager : Manager Cache} {nodes : List NodeEntitiesInfo}
    (registered : Registered manager participant nodes) :
    ∃ after, (createEndpoint participant isReader endpoint).run handle manager = some ((), after) ∧
      Effect manager participant.gid
        (some (modifyNode (nodeKey participant) (·.addEntity isReader endpoint.gid) nodes))
        [⟨participant.gid, modifyNode (nodeKey participant) (·.addEntity isReader endpoint.gid) nodes⟩]
        manager.datawriters after := by
  have added := LawfulMutators.addEntity (gidOf endpoint.guid)
    ⟨endpoint.topicName, endpoint.typeName, {}, gidOf participant.guid, fastddsQosToRmwQos endpoint.qos⟩
    isReader manager.graphCache
  have cached := registered.cached
  rw [← added.nodes] at cached
  obtain ⟨cache, performed, sets⟩ := perform_associate isReader (gidOf endpoint.guid) participant.gid
    (nodeKey participant).1 (nodeKey participant).2 cached registered.named
  let changed := modifyNode (nodeKey participant) (·.addEntity isReader endpoint.gid) nodes
  refine ⟨{ manager with
    graphCache := cache
    written := manager.written ++ [⟨participant.gid, changed⟩]
    inFlight := manager.inFlight ++ [⟨participant.gid, changed⟩] }, ?_, ?_⟩
  · have announced := registered.announced
    simp only [createEndpoint, addEndpoint, associateEntity_eq, Program.run_bind, Program.run_perform,
      handle, perform_addEntity, Option.map_some, Option.bind_some, performed, run_writeUnchecked,
      announced, if_true]
    rfl
  · refine ⟨?_, rfl, rfl, rfl, rfl⟩
    rw [← added.nodes]
    exact sets.nodes

omit [LawfulMutators Cache] in
/-- Without a discovery writer a creation does not return: either the association fails
or `end()` is dereferenced. -/
theorem createEndpoint_none (participant : DomainParticipant) (isReader : Bool) (endpoint : Endpoint)
    {manager : Manager Cache} (missing : manager.datawriters participant.handle = none) :
    (createEndpoint participant isReader endpoint).run handle manager = none := by
  simp only [createEndpoint, addEndpoint, associateEntity_eq, Program.run_bind, Program.run_perform,
    handle, perform_addEntity, Option.map_some, Option.bind_some]
  cases performed : (Mutator.associate isReader (gidOf endpoint.guid) participant.gid
      (nodeKey participant).1 (nodeKey participant).2).perform
      (GraphCache.addEntity (gidOf endpoint.guid) ⟨endpoint.topicName, endpoint.typeName, {},
        gidOf participant.guid, fastddsQosToRmwQos endpoint.qos⟩ isReader manager.graphCache) with
  | none => rfl
  | some answer => simp [run_writeUnchecked, missing]

theorem deleteEndpoint_effect (gid : Gid) (isReader : Bool) (endpoint : Endpoint)
    (manager : Manager Cache) :
    ∃ after, (deleteEndpoint isReader endpoint).run handle manager = some ((), after) ∧
      Effect manager gid (GraphCache.nodes manager.graphCache gid) [] manager.datawriters after := by
  have removed := LawfulMutators.removeEntity endpoint.gid isReader manager.graphCache
  refine ⟨{ manager with
    graphCache := GraphCache.removeEntity endpoint.gid isReader manager.graphCache }, rfl, ?_⟩
  refine ⟨?_, by simp, by simp, rfl, rfl⟩
  rw [Function.update_eq_self]
  exact removed.nodes

/-! ## Participants -/

theorem addParticipant_effect (participant : DomainParticipant) (enclave : Text)
    (manager : Manager Cache) (named : participant.name ≠ ['/']) :
    ∃ after datawriter,
      (addParticipant participant true enclave).run handle manager = some ((), after) ∧
      Effect manager participant.gid
        (some ((GraphCache.nodes manager.graphCache participant.gid).getD [] ++ [nodeOf participant]))
        [⟨participant.gid,
          (GraphCache.nodes manager.graphCache participant.gid).getD [] ++ [nodeOf participant]⟩]
        (Function.update manager.datawriters participant.handle (some datawriter)) after := by
  have added := LawfulMutators.addParticipant participant.gid enclave manager.graphCache
  have cached : GraphCache.nodes (GraphCache.addParticipant participant.gid enclave manager.graphCache)
      participant.gid = some ((GraphCache.nodes manager.graphCache participant.gid).getD []) := by
    rw [added.nodes, Function.update_self]
  obtain ⟨cache, performed, sets⟩ := LawfulMutators.addNode participant.gid (nodeKey participant).1
    (nodeKey participant).2 _ _ cached
  have nodes : GraphCache.nodes cache = Function.update (GraphCache.nodes manager.graphCache)
      participant.gid
      (some ((GraphCache.nodes manager.graphCache participant.gid).getD [] ++ [nodeOf participant])) := by
    rw [sets.nodes, added.nodes, Function.update_idem]
    rfl
  let info : ParticipantEntitiesInfo := ⟨participant.gid,
    (GraphCache.nodes manager.graphCache participant.gid).getD [] ++ [nodeOf participant]⟩
  simp only [nodeKey] at performed
  cases found : manager.datawriters participant.handle with
  | some datawriter =>
    refine ⟨{ manager with
      graphCache := cache
      written := manager.written ++ [info]
      inFlight := manager.inFlight ++ [info] }, datawriter, ?_, ⟨nodes, rfl, rfl, rfl, ?_⟩⟩
    · simp only [addParticipant, Program.run_bind, Program.run_perform, handle,
        perform_addParticipant, perform_addNode, Option.map_some, Option.bind_some, named, ne_eq,
        not_false_eq_true, and_self, if_true, performed, found]
      rfl
    · rw [← found, Function.update_eq_self]
  | none =>
    refine ⟨{ manager with
      graphCache := cache
      datawriters := Function.update manager.datawriters participant.handle (some manager.created)
      created := manager.created + 1
      written := manager.written ++ [info]
      inFlight := manager.inFlight ++ [info] }, manager.created, ?_, ⟨nodes, rfl, rfl, rfl, rfl⟩⟩
    simp only [addParticipant, Program.run_bind, Program.run_perform, handle,
      perform_addParticipant, perform_addNode, Option.map_some, Option.bind_some, named, ne_eq,
      not_false_eq_true, and_self, if_true, performed, found]
    rfl

theorem addParticipant_root (participant : DomainParticipant) (enclave : Text)
    (manager : Manager Cache) (root : participant.name = ['/']) :
    ∃ after, (addParticipant participant true enclave).run handle manager = some ((), after) ∧
      Effect manager participant.gid
        (some ((GraphCache.nodes manager.graphCache participant.gid).getD [])) []
        manager.datawriters after := by
  have added := LawfulMutators.addParticipant participant.gid enclave manager.graphCache
  refine ⟨{ manager with
    graphCache := GraphCache.addParticipant participant.gid enclave manager.graphCache }, ?_, ?_⟩
  · simp [addParticipant, root, handle]
  · exact ⟨added.nodes, by simp, by simp, rfl, rfl⟩

theorem removeParticipant_effect (participant : DomainParticipant) {manager : Manager Cache}
    (announced : (manager.datawriters participant.handle).isSome) :
    ∃ after, (removeParticipant participant).run handle manager = some ((), after) ∧
      Effect manager participant.gid none [⟨participant.gid, []⟩]
        (Function.update manager.datawriters participant.handle none) after := by
  have removed := LawfulMutators.removeParticipant participant.gid manager.graphCache
  obtain ⟨datawriter, found⟩ := Option.isSome_iff_exists.mp announced
  refine ⟨{ manager with
    graphCache := GraphCache.removeParticipant participant.gid manager.graphCache
    datawriters := Function.update manager.datawriters participant.handle none
    written := manager.written ++ [⟨participant.gid, []⟩]
    inFlight := manager.inFlight ++ [⟨participant.gid, []⟩] }, ?_, ?_⟩
  · simp [removeParticipant, handle, found]
  · exact ⟨removed.nodes, rfl, rfl, rfl, rfl⟩

omit [LawfulMutators Cache] in
theorem removeParticipant_none (participant : DomainParticipant) {manager : Manager Cache}
    (missing : manager.datawriters participant.handle = none) :
    (removeParticipant participant).run handle manager = none := by
  simp [removeParticipant, handle, missing]

end MicroRosAgent.Agent
