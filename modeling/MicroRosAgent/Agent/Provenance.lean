import MicroRosAgent.Agent.Concurrency
import MicroRosAgent.Agent.EntityPaths
import MicroRosAgent.GraphManager.PublishedGraph

/-! # Where the published topics come from

Whatever runs at the same time, and whatever changes between the queries of the publisher
thread: a node is published only if a CREATE_PARTICIPANT callback or a sample of another
participant has brought it, and a topic under it only if an endpoint is behind it that was
associated with that node, by a CREATE_ callback or by a sample of another participant, and
whose topic and type a CREATE_ callback or the discovery has reported.  A service is
published only if some endpoint on its topic was reported (`published_founded`).

`Sound` is the invariant of the manager: its node lists, cached or on their way through the
topic, and its entity tables hold nothing else.  The callbacks keep it because each of their
calls is one that `Permitted` allows, and returns what `Promised` says.
-/

namespace MicroRosAgent.Agent.Concurrency

open Interleaving GraphManager Utils

variable [Rmw]

/-! ## The origin of a node and of an endpoint -/

/-- A CREATE_PARTICIPANT callback or a sample of another participant brings the node. -/
def Introduced (events : List Event) (gid : Gid) (key : Text × Text) : Prop :=
  (∃ participant, Event.start (.createParticipant participant) ∈ events ∧
      participant.name ≠ ['/'] ∧ participant.gid = gid ∧ nodeKey participant = key) ∨
    ∃ sample, Event.receive sample ∈ events ∧ sample.info.gid = gid ∧
      ∃ node ∈ sample.info.nodeEntitiesInfoSeq, node.key = key

/-- A CREATE_ callback of the participant with that gid and that node, or a sample of that
    participant, associates the endpoint with the node. -/
def Associated (events : List Event) (gid : Gid) (key : Text × Text) (isReader : Bool)
    (entityGid : Gid) : Prop :=
  (∃ callback endpoint, Event.start callback ∈ events ∧ callback.participant.gid = gid ∧
      nodeKey callback.participant = key ∧ (isReader, endpoint) ∈ callback.created ∧
      endpoint.gid = entityGid) ∨
    ∃ sample, Event.receive sample ∈ events ∧ sample.info.gid = gid ∧
      ∃ node ∈ sample.info.nodeEntitiesInfoSeq, node.key = key ∧ entityGid ∈ node.gidSeq isReader

/-- A CREATE_ callback or the discovery reports the endpoint with that topic and type. -/
def Reported (events : List Event) (isReader : Bool) (entityGid : Gid) (info : EntityInfo) : Prop :=
  (∃ callback endpoint, Event.start callback ∈ events ∧ (isReader, endpoint) ∈ callback.created ∧
      endpoint.gid = entityGid ∧ endpoint.topicName = info.topicName ∧
      endpoint.typeName = info.topicType) ∨
    ∃ data, Event.endpointDiscovery isReader .discovered data ∈ events ∧
      gidOf data.guid = entityGid ∧ data.topicName = info.topicName ∧ data.typeName = info.topicType

/-- The nodes have an origin and list only what was associated with them. -/
def Lists (events : List Event) (gid : Gid) (nodes : List NodeEntitiesInfo) : Prop :=
  ∀ node ∈ nodes, Introduced events gid node.key ∧
    ∀ isReader, ∀ entityGid ∈ node.gidSeq isReader,
      Associated events gid node.key isReader entityGid

theorem lists_nil (events : List Event) (gid : Gid) : Lists events gid [] := by
  simp [Lists]

theorem lists_addNode {events : List Event} {gid : Gid} {nodes : List NodeEntitiesInfo}
    (lists : Lists events gid nodes) {name nodeNamespace : Text}
    (introduced : Introduced events gid (name, nodeNamespace)) :
    Lists events gid (nodes ++ [{ nodeName := name, nodeNamespace }]) := by
  intro node member
  obtain old | new := List.mem_append.mp member
  · exact lists node old
  · rw [List.mem_singleton.mp new]
    refine ⟨introduced, ?_⟩
    intro isReader entityGid listed
    cases isReader <;> cases listed

theorem lists_associate {events : List Event} {gid : Gid} {nodes : List NodeEntitiesInfo}
    (lists : Lists events gid nodes) {key : Text × Text} {isReader : Bool} {entityGid : Gid}
    (associated : Associated events gid key isReader entityGid) :
    Lists events gid (modifyNode key (·.addEntity isReader entityGid) nodes) := by
  intro node member
  obtain old | ⟨old, inside, rfl, rfl⟩ := mem_modifyNode member
  · exact lists node old
  · obtain ⟨introduced, before⟩ := lists old inside
    rw [key_addEntity]
    refine ⟨introduced, ?_⟩
    intro which other listed
    rw [mem_gidSeq_addEntity] at listed
    obtain listed | ⟨rfl, rfl⟩ := listed
    · exact before which other listed
    · exact associated

theorem lists_receive {events : List Event} {sample : Sample}
    (received : Event.receive sample ∈ events) :
    Lists events sample.info.gid sample.info.nodeEntitiesInfoSeq := by
  intro node member
  refine ⟨Or.inr ⟨sample, received, rfl, node, member, rfl⟩, ?_⟩
  intro isReader entityGid listed
  exact Or.inr ⟨sample, received, rfl, node, member, rfl, listed⟩

/-! ## The invariant -/

variable {Cache : Type} [GraphCache Cache] {events : List Event}

structure Sound (events : List Event) (manager : Manager Cache) : Prop where
  nodes : ∀ gid nodes, GraphCache.nodes manager.graphCache gid = some nodes → Lists events gid nodes
  inFlight : ∀ info ∈ manager.inFlight, Lists events info.gid info.nodeEntitiesInfoSeq
  history : ∀ sample ∈ manager.history, Lists events sample.info.gid sample.info.nodeEntitiesInfoSeq
  entities : ∀ isReader gid info, entities manager.graphCache isReader gid = some info →
    Reported events isReader gid info

/-- The calls that keep `Sound`. -/
def Permitted (events : List Event) : Call → Prop
  | .cache (.addNode gid name nodeNamespace) => Introduced events gid (name, nodeNamespace)
  | .cache (.associate isReader entityGid gid name nodeNamespace) =>
      Associated events gid (name, nodeNamespace) isReader entityGid
  | .cache (.addEntity gid info isReader) => Reported events isReader gid info
  | .cache (.updateParticipantEntities info) | .write _ info =>
      Lists events info.gid info.nodeEntitiesInfoSeq
  | _ => True

def Promised (events : List Event) : (operation : Call) → operation.Result → Prop
  | .cache (.addNode ..), message => Lists events message.gid message.nodeEntitiesInfoSeq
  | .cache (.associate ..), message => Lists events message.gid message.nodeEntitiesInfoSeq
  | .takeNextSample, taken => ∀ sample, taken = some sample →
      Lists events sample.info.gid sample.info.nodeEntitiesInfoSeq
  | _, _ => True

section
variable [LawfulMutators Cache] [LawfulPreconditions Cache]

omit [LawfulMutators Cache] [LawfulPreconditions Cache] in
/-- A list that is replaced for one participant. -/
theorem lists_of_setsNodes {cache after : Cache} {gid : Gid} {set : Option (List NodeEntitiesInfo)}
    (lists : ∀ gid nodes, GraphCache.nodes cache gid = some nodes → Lists events gid nodes)
    (sets : SetsNodes cache gid set after)
    (own : ∀ nodes, set = some nodes → Lists events gid nodes) :
    ∀ other nodes, GraphCache.nodes after other = some nodes → Lists events other nodes := by
  intro other nodes known
  rw [sets.nodes] at known
  by_cases same : other = gid
  · subst same
    rw [Function.update_self] at known
    exact own nodes known
  · rw [Function.update_of_ne same] at known
    exact lists other nodes known

theorem lists_handle {operation : Call} {manager after : Manager Cache} {result : operation.Result}
    (sound : Sound events manager) (permitted : Permitted events operation)
    (handled : handle operation manager = some (result, after)) :
    (∀ gid nodes, GraphCache.nodes after.graphCache gid = some nodes → Lists events gid nodes) ∧
      Promised events operation result := by
  cases operation with
  | cache mutator =>
    obtain ⟨⟨answer, cache⟩, performed, answered⟩ := Option.map_eq_some_iff.mp handled
    cases answered
    cases mutator with
    | addParticipant gid enclave =>
      cases performed
      refine ⟨lists_of_setsNodes sound.nodes
        (LawfulMutators.addParticipant gid enclave manager.graphCache) ?_, trivial⟩
      intro nodes equal
      cases known : GraphCache.nodes manager.graphCache gid with
      | none =>
        rw [known, Option.getD_none] at equal
        cases equal
        exact lists_nil events gid
      | some old =>
        rw [known, Option.getD_some] at equal
        cases equal
        exact sound.nodes gid nodes known
    | removeParticipant gid =>
      cases performed
      refine ⟨lists_of_setsNodes sound.nodes
        (LawfulMutators.removeParticipant gid manager.graphCache) ?_, trivial⟩
      intro nodes equal
      cases equal
    | addNode gid name nodeNamespace =>
      obtain ⟨old, known, rfl, sets⟩ := perform_addNode_of_some performed
      have lists := lists_addNode (sound.nodes gid old known) permitted
      refine ⟨lists_of_setsNodes sound.nodes sets ?_, lists⟩
      intro nodes equal
      cases equal
      exact lists
    | associate isReader entityGid gid name nodeNamespace =>
      obtain ⟨old, known, rfl, sets⟩ := perform_associate_of_some performed
      have lists := lists_associate (sound.nodes gid old known) permitted
      refine ⟨lists_of_setsNodes sound.nodes sets ?_, lists⟩
      intro nodes equal
      cases equal
      exact lists
    | addEntity | removeEntity =>
      have same := nodes_perform performed
      refine ⟨?_, trivial⟩
      rw [same]
      exact sound.nodes
    | updateParticipantEntities message =>
      cases performed
      refine ⟨lists_of_setsNodes sound.nodes
        (LawfulMutators.updateParticipantEntities message manager.graphCache) ?_, trivial⟩
      intro nodes equal
      cases equal
      exact permitted
  | takeNextSample =>
    simp only [handle] at handled
    split at handled
    · cases handled
      refine ⟨sound.nodes, ?_⟩
      rintro _ ⟨⟩
    · rename_i sample later waits
      cases handled
      refine ⟨sound.nodes, ?_⟩
      rintro _ ⟨⟩
      exact sound.history sample (by simp [waits])
  | findDatawriter | createDatawriter | insertDatawriter | write | deleteDatawriter
  | eraseDatawriter =>
    cases handled
    exact ⟨sound.nodes, trivial⟩

omit [LawfulPreconditions Cache] in
theorem reported_handle [LawfulNodeMutators Cache] {operation : Call} {manager after : Manager Cache}
    {result : operation.Result} (sound : Sound events manager)
    (permitted : Permitted events operation)
    (handled : handle operation manager = some (result, after)) :
    ∀ isReader gid info, entities after.graphCache isReader gid = some info →
      Reported events isReader gid info := by
  by_cases leaves : EntityPaths.LeavesEntities operation
  · intro isReader gid info known
    rw [EntityPaths.sameEntities_handle leaves handled isReader] at known
    exact sound.entities isReader gid info known
  · cases operation with
    | cache mutator =>
      obtain ⟨⟨answer, cache⟩, performed, answered⟩ := Option.map_eq_some_iff.mp handled
      cases answered
      cases mutator with
      | addEntity own added isReader =>
        cases performed
        have sets := LawfulMutators.addEntity own added isReader manager.graphCache
        intro which gid info known
        by_cases same : gid = own
        · subst same
          by_cases table : which = isReader
          · subst table
            rw [sets.entities_self, Function.update_self] at known
            -- an entry that is there already has been reported before
            cases before : entities manager.graphCache which gid with
            | none =>
              rw [before, Option.getD_none] at known
              cases known
              exact permitted
            | some old =>
              rw [before, Option.getD_some] at known
              cases known
              exact sound.entities which gid info before
          · rw [Bool.eq_not_of_ne table, sets.entities_other, ← Bool.eq_not_of_ne table] at known
            exact sound.entities which gid info known
        · rw [sets.entities_of_ne same which] at known
          exact sound.entities which gid info known
      | removeEntity own isReader =>
        cases performed
        have sets := LawfulMutators.removeEntity own isReader manager.graphCache
        intro which gid info known
        by_cases same : gid = own
        · subst same
          by_cases table : which = isReader
          · subst table
            rw [sets.entities_self, Function.update_self] at known
            cases known
          · rw [Bool.eq_not_of_ne table, sets.entities_other, ← Bool.eq_not_of_ne table] at known
            exact sound.entities which gid info known
        · rw [sets.entities_of_ne same which] at known
          exact sound.entities which gid info known
      | addParticipant | removeParticipant | addNode | associate | updateParticipantEntities =>
        exact absurd trivial leaves
    | takeNextSample | findDatawriter | createDatawriter | insertDatawriter | write
    | deleteDatawriter | eraseDatawriter => exact absurd trivial leaves

theorem sound_handle [LawfulNodeMutators Cache] {operation : Call} {manager after : Manager Cache}
    {result : operation.Result} (sound : Sound events manager)
    (permitted : Permitted events operation)
    (handled : handle operation manager = some (result, after)) :
    Sound events after ∧ Promised events operation result := by
  obtain ⟨lists, promised⟩ := lists_handle sound permitted handled
  have history : ∀ sample ∈ after.history, Lists events sample.info.gid
      sample.info.nodeEntitiesInfoSeq :=
    fun sample waits => sound.history sample (history_handle handled waits)
  refine ⟨⟨lists, ?_, history, reported_handle sound permitted handled⟩, promised⟩
  intro info member
  rw [(written_handle handled).2] at member
  obtain old | new := List.mem_append.mp member
  · exact sound.inFlight info old
  · cases operation with
    | write datawriter sent =>
      cases List.mem_singleton.mp new
      exact permitted
    | cache | takeNextSample | findDatawriter | createDatawriter | insertDatawriter
    | deleteDatawriter | eraseDatawriter => cases new

omit [LawfulMutators Cache] [LawfulPreconditions Cache] in
/-- A sample of known origin arrives. -/
theorem sound_arrival {sample : Sample} {manager : Manager Cache} (sound : Sound events manager)
    (lists : Lists events sample.info.gid sample.info.nodeEntitiesInfoSeq)
    {inFlight : List ParticipantEntitiesInfo} (still : inFlight ⊆ manager.inFlight) :
    Sound events { manager with inFlight := inFlight, history := [sample] } := by
  refine ⟨sound.nodes, fun info member => sound.inFlight info (still member), ?_, sound.entities⟩
  intro other member
  rw [List.mem_singleton.mp member]
  exact lists

end

/-! ## The callbacks -/

abbrev Guaranteed (events : List Event) (program : ManagerProgram Unit) : Prop :=
  program.Guarantees (Promised events) (Permitted events)

omit [GraphCache Cache] in
theorem guaranteed_writeUnchecked (participant : DomainParticipant) {info : ParticipantEntitiesInfo}
    (lists : Lists events info.gid info.nodeEntitiesInfoSeq) :
    Guaranteed events (writeUnchecked participant info) := by
  refine ⟨trivial, ?_⟩
  intro found _
  cases found with
  | none => trivial
  | some datawriter => exact ⟨lists, fun _ _ => trivial⟩

theorem guaranteed_addParticipant {participant : DomainParticipant}
    (started : Event.start (.createParticipant participant) ∈ events) :
    Guaranteed events (onCreateParticipant participant) := by
  refine ⟨trivial, ?_⟩
  intro _ _
  split
  · rename_i named
    refine ⟨Or.inl ⟨participant, started, named.1, rfl, rfl⟩, ?_⟩
    intro message lists
    refine ⟨trivial, ?_⟩
    intro found _
    cases found with
    | some datawriter => exact ⟨lists, fun _ _ => trivial⟩
    | none =>
      exact ⟨trivial, fun _ _ => ⟨trivial, fun _ _ => ⟨lists, fun _ _ => trivial⟩⟩⟩
  · trivial

theorem guaranteed_removeParticipant (participant : DomainParticipant) :
    Guaranteed events (onDeleteParticipant participant) := by
  refine ⟨trivial, fun _ _ => ⟨trivial, ?_⟩⟩
  intro found _
  cases found with
  | none => trivial
  | some datawriter =>
    exact ⟨lists_nil events _, fun _ _ => ⟨trivial, fun _ _ => ⟨trivial, fun _ _ => trivial⟩⟩⟩

theorem guaranteed_createEndpoint {callback : Callback} (started : Event.start callback ∈ events)
    {isReader : Bool} {endpoint : Endpoint} (created : (isReader, endpoint) ∈ callback.created) :
    Guaranteed events (createEndpoint callback.participant isReader endpoint) := by
  refine ⟨Or.inl ⟨callback, endpoint, started, created, rfl, rfl, rfl⟩, ?_⟩
  intro _ _
  show Guaranteed events (associateEntity endpoint.guid callback.participant
    (if isReader then .datareader else .datawriter))
  rw [associateEntity_eq]
  refine ⟨Or.inl ⟨callback, endpoint, started, rfl, rfl, created, rfl⟩, ?_⟩
  intro message lists
  exact guaranteed_writeUnchecked callback.participant lists

theorem guaranteed_createEndpoints {callback : Callback} (started : Event.start callback ∈ events)
    {created : List (Bool × Endpoint)} (subset : created ⊆ callback.created) :
    Guaranteed events (createEndpoints callback.participant created) := by
  induction created with
  | nil => trivial
  | cons entity rest ih =>
    have first := guaranteed_createEndpoint started (subset List.mem_cons_self)
    exact first.bind fun _ => ih fun other member => subset (List.mem_cons_of_mem _ member)

theorem guaranteed_deleteEndpoints (deleted : List (Bool × Endpoint)) :
    Guaranteed events (deleteEndpoints deleted) := by
  induction deleted with
  | nil => trivial
  | cons entity rest ih => exact ⟨trivial, fun _ _ => ih⟩

theorem guaranteed_callback {callback : Callback} (started : Event.start callback ∈ events) :
    Guaranteed events callback.program := by
  by_cases creates : callback.created = []
  · by_cases deletes : callback.deleted = []
    · cases callback with
      | createParticipant participant => exact guaranteed_addParticipant started
      | deleteParticipant participant => exact guaranteed_removeParticipant participant
      | createDatawriter | createDatareader | createRequester | createReplier =>
        simp [Callback.created] at creates
      | deleteDatawriter | deleteDatareader | deleteRequester | deleteReplier =>
        simp [Callback.deleted] at deletes
    · rw [program_eq_deleteEndpoints callback deletes]
      exact guaranteed_deleteEndpoints callback.deleted
  · rw [program_eq_createEndpoints callback creates]
    exact guaranteed_createEndpoints started fun _ => id

theorem guaranteed_participantDiscovery (reason : ParticipantDiscoveryStatus) (guid : Guid)
    (userData : List UInt8) : Guaranteed events (onParticipantDiscovery reason guid userData) := by
  cases reason with
  | discovered =>
    simp only [onParticipantDiscovery]
    split
    · trivial
    · exact ⟨trivial, fun _ _ => trivial⟩
  | removed | dropped => exact ⟨trivial, fun _ _ => trivial⟩
  | changedQos | ignored => trivial

theorem guaranteed_endpointDiscovery {isReader : Bool} {reason : EndpointDiscoveryStatus}
    {data : BuiltinTopicData} (reported : Event.endpointDiscovery isReader reason data ∈ events) :
    Guaranteed events (onEndpointDiscovery isReader reason data) := by
  cases reason with
  | discovered =>
    rw [onEndpointDiscovery_discovered]
    exact ⟨Or.inr ⟨data, reported, rfl, rfl, rfl⟩, fun _ _ => trivial⟩
  | changedQos =>
    rw [onEndpointDiscovery_changedQos]
    trivial
  | removed =>
    rw [onEndpointDiscovery_removal isReader (Or.inl rfl)]
    exact ⟨trivial, fun _ _ => trivial⟩
  | ignored =>
    rw [onEndpointDiscovery_removal isReader (Or.inr rfl)]
    exact ⟨trivial, fun _ _ => trivial⟩

omit [GraphCache Cache] in
/-- A run of the reader's listener applies what was in the history. -/
theorem guaranteed_onDataAvailable : Guaranteed events onDataAvailable := by
  rw [onDataAvailable_eq]
  refine ⟨trivial, ?_⟩
  intro taken lists
  obtain ⟨sample, isTaken, _, applies⟩ | ⟨_, returns⟩ := afterTake_cases taken
  · rw [applies]
    exact ⟨lists sample isTaken, fun _ _ => trivial⟩
  · rw [returns]
    trivial

/-! ## Runs -/

variable [LawfulMutators Cache] [LawfulPreconditions Cache] [LawfulNodeMutators Cache]

abbrev Secured (events : List Event) (state : State Cache) : Prop :=
  state.Secure (Sound events) (Promised events) (Permitted events)

theorem secured_step {state after : State Cache} {event : Event} (secured : Secured events state)
    (member : event ∈ events) (stepped : step state event = some after) : Secured events after := by
  cases stepped_of_step stepped with
  | start callback => exact secured.spawn (guaranteed_callback member)
  | participantDiscovery reason guid userData =>
    exact secured.spawn (guaranteed_participantDiscovery reason guid userData)
  | endpointDiscovery => exact secured.spawn (guaranteed_endpointDiscovery member)
  | @deliver gid alive info first later own others sent =>
    refine ⟨sound_arrival secured.shared (secured.shared.inFlight info (by simp [sent])) ?_,
      secured.threads⟩
    rw [sent]
    exact (List.sublist_cons_self info later).append_left first |>.subset
  | receive sample =>
    exact ⟨sound_arrival secured.shared (lists_receive member) (List.Subset.refl _), secured.threads⟩
  | onDataAvailable => exact secured.spawn guaranteed_onDataAvailable
  | advance index advanced =>
    exact secured.advance (fun _ _ _ permitted handled => sound_handle secured.shared permitted handled)
      advanced

theorem secured_run {before : List Event} {state : State Cache}
    (reached : (system Cache).exec (initial Cache) before = some state) (subset : before ⊆ events) :
    Secured events state := by
  refine (system Cache).exec_induction (motive := fun before state =>
    before ⊆ events → Secured events state) ?_ ?_ reached subset
  · intro _
    refine ⟨⟨?_, by simp [initial], by simp [initial], ?_⟩, by simp [initial]⟩
    · intro gid nodes known
      rw [initial, LawfulMutators.nodes_empty] at known
      cases known
    · intro isReader gid info known
      cases isReader with
      | false =>
        have absent : entities (GraphCache.empty : Cache) false gid = none :=
          LawfulMutators.writers_empty gid
        cases absent.symm.trans known
      | true =>
        have absent : entities (GraphCache.empty : Cache) true gid = none :=
          LawfulMutators.readers_empty gid
        cases absent.symm.trans known
  · intro before state event after reached ih stepped subset
    exact secured_step (ih fun other member => subset (by simp [member])) (subset (by simp)) stepped

/-! ## The published graph -/

/-- A topic of the node has an endpoint behind it. -/
def TopicFrom (events : List Event) (key : Text × Text) (isReader : Bool) (name type : Text) : Prop :=
  ∃ gid entityGid info, Associated events gid key isReader entityGid ∧
    Reported events isReader entityGid info ∧ ['/'] <+: name ∧
    info.topicName = "rt".toList ++ name ∧ demangleIfRosType info.topicType = type

/-- A service has an endpoint, a reader or a writer, behind it. -/
def ServiceFrom (events : List Event) (servicePrefix suffix name type : Text) : Prop :=
  ∃ isReader entityGid info, Reported events isReader entityGid info ∧ ['/'] <+: name ∧
    info.topicName = servicePrefix ++ name ++ suffix ∧ demangleServiceTypeOnly info.topicType = type

/-- What is behind an entity under one of its types. -/
def EntityFrom (events : List Event) (key : Text × Text) (entity : EntityMessage) (type : Text) :
    Prop :=
  match entity.entityType with
  | .publisher => TopicFrom events key false entity.name type
  | .subscriber => TopicFrom events key true entity.name type
  | .serviceServer => ServiceFrom events "rq".toList "Request".toList entity.name type
  | .serviceClient => ServiceFrom events "rr".toList "Reply".toList entity.name type

/-- The node has an origin, and every entity listed under it has one for each of its types,
    of which there is at least one. -/
structure Founded (events : List Event) (message : NodeMessage) : Prop where
  node : ∃ gid, Introduced events gid message.key
  entities : ∀ entity ∈ message.entities, entity.types ≠ [] ∧
    ∀ type ∈ entity.types, EntityFrom events message.key entity type

/-- Each entry has a type, and each of its types an origin. -/
def AllFrom (origin : Text → Text → Prop) (result : NamesAndTypes) : Prop :=
  ∀ entry ∈ result, entry.2 ≠ [] ∧ ∀ type ∈ entry.2, origin entry.1 type

omit [Rmw] in
theorem allFrom_of_collects {origin pairs : Text → Text → Prop} {result : NamesAndTypes}
    (collects : Collects result pairs) (known : ∀ name type, pairs name type → origin name type) :
    AllFrom origin result := by
  intro entry member
  refine ⟨collects.types_ne_nil entry member, ?_⟩
  intro type typed
  exact known entry.1 type ((collects.typed entry member type).mp typed)

section
variable [LawfulQueries Cache] [LawfulNamespacePrefix] {manager : Manager Cache}
  {key : Text × Text} {result : NamesAndTypes}

omit [LawfulMutators Cache] [LawfulPreconditions Cache] [LawfulNodeMutators Cache]
  [LawfulQueries Cache] in
theorem topicFrom_of_node (sound : Sound events manager) {isReader : Bool} {gid : Gid}
    {nodes : List NodeEntitiesInfo} {node : NodeEntitiesInfo}
    (known : GraphCache.nodes manager.graphCache gid = some nodes) (member : node ∈ nodes)
    (collects : Collects result (NodeContributes (entities manager.graphCache isReader)
      (node.gidSeq isReader) demangleRosTopicFromTopic demangleIfRosType)) :
    (∃ gid, Introduced events gid node.key) ∧ AllFrom (TopicFrom events node.key isReader) result := by
  obtain ⟨introduced, associated⟩ := sound.nodes gid nodes known node member
  refine ⟨⟨gid, introduced⟩, allFrom_of_collects collects ?_⟩
  intro name type contributes
  obtain ⟨entityGid, listed, info, found, slash, topic, demangled⟩ :=
    (nodeContributes_iff_topicOf _ _ _ _).mp contributes
  exact ⟨gid, entityGid, info, associated isReader entityGid listed,
    sound.entities isReader entityGid info found, slash, topic, demangled⟩

omit [LawfulMutators Cache] [LawfulPreconditions Cache] [LawfulNodeMutators Cache] in
theorem topicFrom_of_writers (sound : Sound events manager)
    (queried : GraphCache.getWriterNamesAndTypesByNode key.1 key.2 demangleRosTopicFromTopic
      demangleIfRosType manager.graphCache = some result) :
    (∃ gid, Introduced events gid key) ∧ AllFrom (TopicFrom events key false) result := by
  obtain ⟨gid, nodes, node, known, member, named, collects⟩ :=
    LawfulQueries.getWriters_some _ _ _ _ _ _ queried
  obtain rfl : key = node.key := named.symm
  exact topicFrom_of_node sound known member collects

omit [LawfulMutators Cache] [LawfulPreconditions Cache] [LawfulNodeMutators Cache] in
theorem topicFrom_of_readers (sound : Sound events manager)
    (queried : GraphCache.getReaderNamesAndTypesByNode key.1 key.2 demangleRosTopicFromTopic
      demangleIfRosType manager.graphCache = some result) :
    AllFrom (TopicFrom events key true) result := by
  obtain ⟨gid, nodes, node, known, member, named, collects⟩ :=
    LawfulQueries.getReaders_some _ _ _ _ _ _ queried
  obtain rfl : key = node.key := named.symm
  exact (topicFrom_of_node sound known member collects).2

omit [LawfulMutators Cache] [LawfulPreconditions Cache] [LawfulNodeMutators Cache]
  [LawfulNamespacePrefix] in
theorem serviceFrom_of_query (sound : Sound events manager) {demangleTopic : DemangleFunction}
    {servicePrefix suffix : Text}
    (accepts : ∀ {topicName service : Text}, service ≠ [] → (demangleTopic topicName = service ↔
      ['/'] <+: service ∧ topicName = servicePrefix ++ service ++ suffix))
    (queried : GraphCache.getNamesAndTypes demangleTopic demangleServiceTypeOnly
      manager.graphCache = some result) :
    AllFrom (ServiceFrom events servicePrefix suffix) result := by
  obtain ⟨answered, equal, collects⟩ :=
    LawfulQueries.getNamesAndTypes demangleTopic demangleServiceTypeOnly manager.graphCache
  cases queried.symm.trans equal
  refine allFrom_of_collects collects ?_
  intro name type ⟨isReader, gid, info, found, demangled, nonempty, typeName⟩
  obtain ⟨slash, topic⟩ := (accepts nonempty).mp demangled
  exact ⟨isReader, gid, info, sound.entities isReader gid info found, slash, topic, typeName⟩

end

/-- Each query of an iteration of the publisher sees the cache as some part of the run has
left it.  Every node of the message, and every topic and service under it, is founded on
the events of the run. -/
theorem published_founded [LawfulQueries Cache] [LawfulNamespacePrefix] {snapshots : List Cache}
    {graph : GraphMessage}
    (seen : ∀ cache ∈ snapshots, ∃ before later state, events = before ++ later ∧
      (system Cache).exec (initial Cache) before = some state ∧ state.shared.graphCache = cache)
    (published : publishMicrorosGraph.replay answer snapshots = some graph) :
    ∀ message ∈ graph.nodes, Founded events message := by
  have sound : ∀ cache ∈ snapshots, ∃ manager : Manager Cache,
      manager.graphCache = cache ∧ Sound events manager := by
    intro cache member
    obtain ⟨before, later, state, split, reached, rfl⟩ := seen cache member
    have subset : before ⊆ events := by
      rw [split]
      exact List.subset_append_left _ _
    exact ⟨state.shared, rfl, (secured_run reached subset).shared⟩
  intro message member
  obtain ⟨⟨first, inFirst, writers⟩, ⟨second, inSecond, readers⟩, ⟨third, inThird, servers⟩,
    ⟨fourth, inFourth, clients⟩⟩ := publishMicrorosGraph_describesSome published message member
  obtain ⟨firstManager, rfl, firstSound⟩ := sound first inFirst
  obtain ⟨secondManager, rfl, secondSound⟩ := sound second inSecond
  obtain ⟨thirdManager, rfl, thirdSound⟩ := sound third inThird
  obtain ⟨fourthManager, rfl, fourthSound⟩ := sound fourth inFourth
  obtain ⟨introduced, publishers⟩ := topicFrom_of_writers firstSound writers
  have subscribers := topicFrom_of_readers secondSound readers
  have serving := serviceFrom_of_query thirdSound demangleServiceRequestFromTopic_eq_iff servers
  have calling := serviceFrom_of_query fourthSound demangleServiceReplyFromTopic_eq_iff clients
  refine ⟨introduced, ?_⟩
  intro entity inside
  have listed : (entity.name, entity.types) ∈ message.entitiesOf entity.entityType :=
    mem_entitiesOf inside
  unfold EntityFrom
  cases kind : entity.entityType with
  | publisher => exact publishers _ (kind ▸ listed)
  | subscriber => exact subscribers _ (kind ▸ listed)
  | serviceServer => exact serving _ (kind ▸ listed)
  | serviceClient => exact calling _ (kind ▸ listed)

end MicroRosAgent.Agent.Concurrency

/-! ## A datawriter -/

namespace MicroRosAgent.Agent.Concurrency

open Interleaving GraphManager

attribute [local instance] referenceRmw referenceRmw_lawfulNamespacePrefix

abbrev announcer : DomainParticipant := ReferenceRmw.participant 1 "/node".toList

abbrev announced : Endpoint :=
  ReferenceRmw.endpoint 2 "rt/chatter".toList "std_msgs::msg::dds_::String_".toList

def creation : List Event :=
  [.start (.createParticipant announcer), .advance 0, .advance 0, .advance 0, .advance 0,
    .advance 0, .advance 0, .deliver announcer.gid true, .onDataAvailable, .advance 1, .advance 1,
    .start (.createDatawriter announcer announced), .advance 2, .advance 2, .advance 2, .advance 2,
    .deliver announcer.gid true, .onDataAvailable, .advance 3, .advance 3]

/-- The cache after the events of `creation`. -/
def createdCache : ReferenceCache :=
  (((system ReferenceCache).exec (initial ReferenceCache) creation).map fun state =>
    state.shared.graphCache).getD GraphCache.empty

theorem published_founded_creation : ∃ graph,
    publishMicrorosGraph.replay answer (List.replicate 5 createdCache) = some graph ∧
      graph.nodes ≠ [] ∧ ∀ message ∈ graph.nodes, Founded creation message := by
  have iteration : ∃ graph,
      publishMicrorosGraph.replay answer (List.replicate 5 createdCache) = some graph ∧
        graph.nodes ≠ [] := ⟨_, rfl, List.cons_ne_nil _ _⟩
  obtain ⟨graph, published, some⟩ := iteration
  refine ⟨graph, published, some, published_founded ?_ published⟩
  intro cache member
  obtain rfl := List.eq_of_mem_replicate member
  exact ⟨creation, [], _, rfl, rfl, rfl⟩

end MicroRosAgent.Agent.Concurrency
