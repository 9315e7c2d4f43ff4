import MicroRosAgent.GraphManager.Publish
import MicroRosAgent.GraphCache.NamesAndTypes
import MicroRosAgent.GraphCache.Reference
import Mathlib.Data.List.Nodup

/-! # What the published graph says of a cache

One `Graph` message against the cache it was built from, when no two nodes share name and
namespace.  The topics come from queries by node and are exact (`topics_exact`).  The
services come from a query over the whole cache, repeated for each node: they are exact
only if every node serves every service endpoint there is (`services_exact_iff`).
-/

namespace MicroRosAgent.GraphManager

open Utils

variable {Cache : Type} [GraphCache Cache]

/-- No two nodes share name and namespace. -/
structure UniqueNodes (cache : Cache) : Prop where
  within : ∀ gid nodes, GraphCache.nodes cache gid = some nodes →
    (nodes.map NodeEntitiesInfo.key).Nodup
  across : ∀ gid other key, HasNode cache gid key → HasNode cache other key → gid = other

/-- The node is cached for some participant. -/
def Cached (cache : Cache) (node : NodeEntitiesInfo) : Prop :=
  ∃ gid nodes, GraphCache.nodes cache gid = some nodes ∧ node ∈ nodes

theorem UniqueNodes.eq_of_key {cache : Cache} (unique : UniqueNodes cache)
    {first second : NodeEntitiesInfo} (firstCached : Cached cache first)
    (secondCached : Cached cache second) (equal : first.key = second.key) : first = second := by
  obtain ⟨gid, nodes, known, member⟩ := firstCached
  obtain ⟨other, otherNodes, otherKnown, otherMember⟩ := secondCached
  have same : gid = other := unique.across gid other first.key ⟨nodes, known, first, member, rfl⟩
    ⟨otherNodes, otherKnown, second, otherMember, equal.symm⟩
  subst same
  rw [known] at otherKnown
  cases otherKnown
  exact List.inj_on_of_nodup_map (unique.within gid nodes known) member otherMember equal

theorem UniqueNodes.getNodeNames_nodup [LawfulQueries Cache] {cache : Cache}
    (unique : UniqueNodes cache) : (GraphCache.getNodeNames cache).Nodup := by
  obtain ⟨gids, nodup, _, names⟩ := LawfulQueries.getNodeNames cache
  have listed : ∀ gid key, key ∈ ((GraphCache.nodes cache gid).getD []).map NodeEntitiesInfo.key →
      HasNode cache gid key := by
    intro gid key member
    cases known : GraphCache.nodes cache gid with
    | none => simp [known] at member
    | some nodes =>
      rw [known, Option.getD_some] at member
      obtain ⟨node, inside, named⟩ := List.mem_map.mp member
      exact ⟨nodes, known, node, inside, named⟩
  rw [names, List.nodup_flatMap]
  refine ⟨?_, nodup.imp ?_⟩
  · intro gid _
    cases known : GraphCache.nodes cache gid with
    | none => simp
    | some nodes => simpa using unique.within gid nodes known
  · intro gid other different key member otherMember
    exact different (unique.across gid other key (listed gid key member) (listed other key otherMember))

/-! ## Topics -/

variable [Rmw]

/-- Some entity of the list is in the table, on the ROS topic `name`, with a type that
    demangles to `type`. -/
def TopicOf (table : Gid → Option EntityInfo) (gids : List Gid) (name type : Text) : Prop :=
  ∃ gid ∈ gids, ∃ info, table gid = some info ∧ ['/'] <+: name ∧
    info.topicName = "rt".toList ++ name ∧ demangleIfRosType info.topicType = type

/-- The topics of a node are those of its associated entities, each once, with exactly
    the types of these entities. -/
structure TopicsExact (cache : Cache) (node : NodeEntitiesInfo) (message : NodeMessage) : Prop where
  publishers : Collects (message.entitiesOf .publisher)
    (TopicOf (GraphCache.writers cache) node.writerGidSeq)
  subscribers : Collects (message.entitiesOf .subscriber)
    (TopicOf (GraphCache.readers cache) node.readerGidSeq)

omit [GraphCache Cache] in
theorem nodeContributes_iff_topicOf [LawfulNamespacePrefix] (table : Gid → Option EntityInfo)
    (gids : List Gid) (name type : Text) :
    NodeContributes table gids demangleRosTopicFromTopic demangleIfRosType name type ↔
      TopicOf table gids name type := by
  constructor
  · intro ⟨gid, member, info, known, demangled, nonempty, typed⟩
    obtain ⟨slash, topic⟩ := (demangleRosTopicFromTopic_eq_iff nonempty).mp demangled
    exact ⟨gid, member, info, known, slash, topic, typed⟩
  · intro ⟨gid, member, info, known, slash, topic, typed⟩
    have nonempty : name ≠ [] := by
      intro empty
      simp [empty] at slash
    exact ⟨gid, member, info, known, (demangleRosTopicFromTopic_eq_iff nonempty).mpr ⟨slash, topic⟩,
      nonempty, typed⟩

theorem topicsExact_of_describes [LawfulQueries Cache] [LawfulNamespacePrefix] {cache : Cache}
    (unique : UniqueNodes cache) {key : Text × Text} {message : NodeMessage}
    (describes : Describes cache key message) {node : NodeEntitiesInfo} (cached : Cached cache node)
    (named : node.key = message.key) : TopicsExact cache node message := by
  constructor
  · obtain ⟨gid, nodes, found, known, member, foundNamed, collects⟩ :=
      LawfulQueries.getWriters_some _ _ _ _ _ _ describes.writers
    have same : found = node := unique.eq_of_key ⟨gid, nodes, known, member⟩ cached
      (foundNamed.trans (describes.named.symm.trans named.symm))
    subst same
    exact collects.congr (nodeContributes_iff_topicOf _ _)
  · obtain ⟨gid, nodes, found, known, member, foundNamed, collects⟩ :=
      LawfulQueries.getReaders_some _ _ _ _ _ _ describes.readers
    have same : found = node := unique.eq_of_key ⟨gid, nodes, known, member⟩ cached
      (foundNamed.trans (describes.named.symm.trans named.symm))
    subst same
    exact collects.congr (nodeContributes_iff_topicOf _ _)

theorem describes_of_mem {cache : Cache} {keys : List (Text × Text)} {messages : List NodeMessage}
    (described : List.Forall₂ (Describes cache) keys messages) {message : NodeMessage}
    (member : message ∈ messages) : ∃ key, Describes cache key message := by
  induction described with
  | nil => cases member
  | cons here _ ih =>
    obtain rfl | member := List.mem_cons.mp member
    · exact ⟨_, here⟩
    · exact ih member

theorem keys_of_describes {cache : Cache} {keys : List (Text × Text)} {messages : List NodeMessage}
    (described : List.Forall₂ (Describes cache) keys messages) :
    messages.map NodeMessage.key = keys := by
  induction described with
  | nil => rfl
  | cons here _ ih => rw [List.map_cons, here.named, ih]

/-- The message has one node for each cached node, and its publishers and subscribers are
exactly the topics of the entities associated with that node. -/
theorem topics_exact [LawfulQueries Cache] [LawfulNamespacePrefix] (cache : Cache)
    (unique : UniqueNodes cache) :
    ∃ graph, publishMicrorosGraph.eval answer cache = some graph ∧
      (graph.nodes.map NodeMessage.key).Nodup ∧
      (∀ key, key ∈ graph.nodes.map NodeMessage.key ↔ ∃ node, Cached cache node ∧ node.key = key) ∧
      ∀ message ∈ graph.nodes, ∀ node, Cached cache node → node.key = message.key →
        TopicsExact cache node message := by
  obtain ⟨graph, published, described⟩ := publishMicrorosGraph_eval cache
  refine ⟨graph, published, ?_, ?_, ?_⟩
  · rw [keys_of_describes described]
    exact unique.getNodeNames_nodup
  · intro key
    rw [keys_of_describes described, mem_getNodeNames]
    constructor
    · intro ⟨gid, nodes, known, node, member, named⟩
      exact ⟨node, ⟨gid, nodes, known, member⟩, named⟩
    · intro ⟨node, ⟨gid, nodes, known, member⟩, named⟩
      exact ⟨gid, nodes, known, node, member, named⟩
  · intro message member node cached named
    obtain ⟨key, describes⟩ := describes_of_mem described member
    exact topicsExact_of_describes unique describes cached named

/-! ## Services -/

/-- A ROS service type: its request or its response, with the `dds_::` namespace. -/
def RosServiceType (type : Text) : Prop :=
  ddsPrefix <:+: type ∧ ("_Request_".toList <:+ type ∨ "_Response_".toList <:+ type)

/-- A reader of the node is on the topic of the service `name`, with a ROS service type
    that demangles to `type`. -/
def ServiceOf (cache : Cache) (node : NodeEntitiesInfo) (servicePrefix suffix name type : Text) :
    Prop :=
  ∃ gid ∈ node.readerGidSeq, ∃ info, GraphCache.readers cache gid = some info ∧ ['/'] <+: name ∧
    info.topicName = servicePrefix ++ name ++ suffix ∧ RosServiceType info.topicType ∧
    demangleServiceTypeOnly info.topicType = type

/-- The servers of a node are the services it has a request reader for, and its clients
    those it has a reply reader for. -/
structure ServicesExact (cache : Cache) (node : NodeEntitiesInfo) (message : NodeMessage) : Prop where
  servers : Collects (message.entitiesOf .serviceServer)
    (ServiceOf cache node "rq".toList "Request".toList)
  clients : Collects (message.entitiesOf .serviceClient)
    (ServiceOf cache node "rr".toList "Reply".toList)

/-- For every entity of the cache, reader or writer, on the topic of a service, the node
    has a reader on the same topic with a ROS service type that demangles alike. -/
def ServesAll (cache : Cache) (servicePrefix suffix : Text) (node : NodeEntitiesInfo) : Prop :=
  ∀ isReader gid info name, entities cache isReader gid = some info → ['/'] <+: name →
    info.topicName = servicePrefix ++ name ++ suffix →
      ∃ own ∈ node.readerGidSeq, ∃ ownInfo, GraphCache.readers cache own = some ownInfo ∧
        ownInfo.topicName = info.topicName ∧ RosServiceType ownInfo.topicType ∧
        demangleServiceTypeOnly ownInfo.topicType = demangleServiceTypeOnly info.topicType

/-- A query over the whole cache is right for one node only if that node serves all. -/
theorem collects_serviceOf_iff {cache : Cache} {node : NodeEntitiesInfo}
    {demangleTopic : DemangleFunction} {servicePrefix suffix : Text} {result : NamesAndTypes}
    (accepts : ∀ {topicName service : Text}, service ≠ [] → (demangleTopic topicName = service ↔
      ['/'] <+: service ∧ topicName = servicePrefix ++ service ++ suffix))
    (collects : Collects result fun name type => ∃ isReader gid,
      Contributes (entities cache isReader) gid demangleTopic demangleServiceTypeOnly name type) :
    Collects result (ServiceOf cache node servicePrefix suffix) ↔
      ServesAll cache servicePrefix suffix node := by
  have nonempty : ∀ {name : Text}, ['/'] <+: name → name ≠ [] := by
    intro name slash empty
    simp [empty] at slash
  constructor
  · intro exactly isReader gid info name known slash topic
    have contributes : ∃ isReader gid, Contributes (entities cache isReader) gid demangleTopic
        demangleServiceTypeOnly name (demangleServiceTypeOnly info.topicType) :=
      ⟨isReader, gid, info, known, (accepts (nonempty slash)).mpr ⟨slash, topic⟩, nonempty slash, rfl⟩
    obtain ⟨own, member, ownInfo, ownKnown, _, ownTopic, serviceType, typed⟩ :=
      (collects.pairs_unique exactly _ _).mp contributes
    exact ⟨own, member, ownInfo, ownKnown, ownTopic.trans topic.symm, serviceType, typed⟩
  · intro servesAll
    refine collects.congr ?_
    intro name type
    constructor
    · intro ⟨isReader, gid, info, known, demangled, nameSome, typed⟩
      obtain ⟨slash, topic⟩ := (accepts nameSome).mp demangled
      obtain ⟨own, member, ownInfo, ownKnown, ownTopic, serviceType, ownTyped⟩ :=
        servesAll isReader gid info name known slash topic
      exact ⟨own, member, ownInfo, ownKnown, slash, ownTopic.trans topic, serviceType,
        ownTyped.trans typed⟩
    · intro ⟨own, _, ownInfo, ownKnown, slash, topic, _, typed⟩
      exact ⟨true, own, ownInfo, ownKnown, (accepts (nonempty slash)).mpr ⟨slash, topic⟩,
        nonempty slash, typed⟩

theorem servicesExact_iff_of_describes [LawfulQueries Cache] [LawfulNamespacePrefix] {cache : Cache}
    {key : Text × Text} {message : NodeMessage} (describes : Describes cache key message)
    (node : NodeEntitiesInfo) :
    ServicesExact cache node message ↔
      ServesAll cache "rq".toList "Request".toList node ∧
        ServesAll cache "rr".toList "Reply".toList node := by
  obtain ⟨servers, gotServers, collectsServers⟩ := LawfulQueries.getNamesAndTypes
    demangleServiceRequestFromTopic demangleServiceTypeOnly cache
  obtain ⟨clients, gotClients, collectsClients⟩ := LawfulQueries.getNamesAndTypes
    demangleServiceReplyFromTopic demangleServiceTypeOnly cache
  cases describes.servers.symm.trans gotServers
  cases describes.clients.symm.trans gotClients
  rw [← collects_serviceOf_iff demangleServiceRequestFromTopic_eq_iff collectsServers,
    ← collects_serviceOf_iff demangleServiceReplyFromTopic_eq_iff collectsClients]
  constructor
  · intro exactly
    exact ⟨exactly.servers, exactly.clients⟩
  · intro ⟨servers, clients⟩
    exact ⟨servers, clients⟩

/-- Every node of the message has exactly its own services if and only if every cached
node serves, and is a client of, every service that has an endpoint in the cache. -/
theorem services_exact_iff [LawfulQueries Cache] [LawfulNamespacePrefix] (cache : Cache) :
    ∃ graph, publishMicrorosGraph.eval answer cache = some graph ∧
      ((∀ message ∈ graph.nodes, ∀ node, Cached cache node → node.key = message.key →
          ServicesExact cache node message) ↔
        ∀ node, Cached cache node → ServesAll cache "rq".toList "Request".toList node ∧
          ServesAll cache "rr".toList "Reply".toList node) := by
  obtain ⟨graph, published, described⟩ := publishMicrorosGraph_eval cache
  refine ⟨graph, published, ?_⟩
  constructor
  · intro exactly node cached
    obtain ⟨gid, nodes, known, member⟩ := cached
    have listed : node.key ∈ graph.nodes.map NodeMessage.key := by
      rw [keys_of_describes described, mem_getNodeNames]
      exact ⟨gid, nodes, known, node, member, rfl⟩
    obtain ⟨message, inside, named⟩ := List.mem_map.mp listed
    obtain ⟨key, describes⟩ := describes_of_mem described inside
    exact (servicesExact_iff_of_describes describes node).mp
      (exactly message inside node ⟨gid, nodes, known, member⟩ named.symm)
  · intro servesAll message inside node cached _
    obtain ⟨key, describes⟩ := describes_of_mem described inside
    exact (servicesExact_iff_of_describes describes node).mpr (servesAll node cached)

end MicroRosAgent.GraphManager

/-! ## A node that publishes and serves -/

namespace MicroRosAgent.GraphManager

open Utils

attribute [local instance] referenceRmw referenceRmw_lawfulNamespacePrefix

def sampleInfo (topicName topicType : String) : EntityInfo :=
  ⟨topicName.toList, topicType.toList, {}, ⟨1⟩,
    fastddsQosToRmwQos (ReferenceRmw.endpoint 0 [] []).qos⟩

/-- A node that publishes `/chatter` and serves `/add`. -/
def sampleNode : NodeEntitiesInfo :=
  { nodeNamespace := ['/'], nodeName := "node".toList, readerGidSeq := [⟨2⟩],
    writerGidSeq := [⟨3⟩, ⟨4⟩] }

def sampleEntities : ReferenceCache :=
  GraphCache.addEntity ⟨4⟩ (sampleInfo "rt/chatter" "std_msgs::msg::dds_::String_") false
    (GraphCache.addEntity ⟨3⟩ (sampleInfo "rr/addReply" "pkg::srv::dds_::Add_Response_") false
      (GraphCache.addEntity ⟨2⟩ (sampleInfo "rq/addRequest" "pkg::srv::dds_::Add_Request_") true
        GraphCache.empty))

def sampleCache : ReferenceCache :=
  GraphCache.updateParticipantEntities ⟨⟨1⟩, [sampleNode]⟩ sampleEntities

theorem nodes_sampleCache :
    GraphCache.nodes sampleCache =
      Function.update (GraphCache.nodes sampleEntities) ⟨1⟩ (some [sampleNode]) :=
  (LawfulMutators.updateParticipantEntities ⟨⟨1⟩, [sampleNode]⟩ sampleEntities).nodes

theorem uniqueNodes_sampleCache : UniqueNodes sampleCache := by
  have only : ∀ gid nodes, GraphCache.nodes sampleCache gid = some nodes →
      gid = ⟨1⟩ ∧ nodes = [sampleNode] := by
    intro gid nodes known
    rw [nodes_sampleCache] at known
    by_cases same : gid = ⟨1⟩
    · subst same
      simpa using known.symm
    · rw [Function.update_of_ne same] at known
      cases known
  constructor
  · intro gid nodes known
    rw [(only gid nodes known).2]
    simp
  · intro gid other key ⟨nodes, known, _⟩ ⟨otherNodes, otherKnown, _⟩
    rw [(only gid nodes known).1, (only other otherNodes otherKnown).1]

/-- A node that publishes `/chatter` with two types, and lists a gid that is not cached. -/
def talker : NodeEntitiesInfo :=
  { nodeNamespace := ['/'], nodeName := "talker".toList, writerGidSeq := [⟨3⟩, ⟨9⟩, ⟨4⟩] }

/-- A node of another participant that subscribes to `/chatter`. -/
def listener : NodeEntitiesInfo :=
  { nodeNamespace := ['/'], nodeName := "listener".toList, readerGidSeq := [⟨5⟩] }

def conversation : ReferenceCache :=
  GraphCache.addEntity ⟨5⟩ (sampleInfo "rt/chatter" "std_msgs::msg::dds_::String_") true
    (GraphCache.addEntity ⟨4⟩ (sampleInfo "rt/chatter" "std_msgs::msg::dds_::Int32_") false
      (GraphCache.addEntity ⟨3⟩ (sampleInfo "rt/chatter" "std_msgs::msg::dds_::String_") false
        GraphCache.empty))

def twoNodes : ReferenceCache :=
  GraphCache.updateParticipantEntities ⟨⟨2⟩, [listener]⟩
    (GraphCache.updateParticipantEntities ⟨⟨1⟩, [talker]⟩ conversation)

theorem nodes_twoNodes : GraphCache.nodes twoNodes =
    Function.update (Function.update (GraphCache.nodes conversation) ⟨1⟩ (some [talker])) ⟨2⟩
      (some [listener]) := by
  unfold twoNodes
  rw [(LawfulMutators.updateParticipantEntities ⟨⟨2⟩, [listener]⟩ _).nodes,
    (LawfulMutators.updateParticipantEntities ⟨⟨1⟩, [talker]⟩ conversation).nodes]

theorem uniqueNodes_twoNodes : UniqueNodes twoNodes := by
  have only : ∀ gid nodes, GraphCache.nodes twoNodes gid = some nodes →
      (gid = ⟨1⟩ ∧ nodes = [talker]) ∨ (gid = ⟨2⟩ ∧ nodes = [listener]) := by
    intro gid nodes known
    rw [nodes_twoNodes] at known
    by_cases second : gid = ⟨2⟩
    · subst second
      exact Or.inr ⟨rfl, by simpa using known.symm⟩
    · rw [Function.update_of_ne second] at known
      by_cases first : gid = ⟨1⟩
      · subst first
        exact Or.inl ⟨rfl, by simpa using known.symm⟩
      · rw [Function.update_of_ne first] at known
        cases known
  constructor
  · intro gid nodes known
    obtain ⟨_, rfl⟩ | ⟨_, rfl⟩ := only gid nodes known <;> simp
  · intro gid other key ⟨nodes, known, node, member, named⟩
      ⟨otherNodes, otherKnown, otherNode, otherMember, otherNamed⟩
    subst named
    obtain ⟨rfl, rfl⟩ | ⟨rfl, rfl⟩ := only gid nodes known <;>
      obtain ⟨rfl, rfl⟩ | ⟨rfl, rfl⟩ := only other otherNodes otherKnown <;>
      obtain rfl := List.mem_singleton.mp member <;>
      obtain rfl := List.mem_singleton.mp otherMember
    · rfl
    · exact absurd otherNamed (by decide)
    · exact absurd otherNamed (by decide)
    · rfl

theorem topics_exact_twoNodes :
    ∃ graph, publishMicrorosGraph.eval answer twoNodes = some graph ∧
      (graph.nodes.map NodeMessage.key).Nodup ∧
      (∀ key, key ∈ graph.nodes.map NodeMessage.key ↔
        ∃ node, Cached twoNodes node ∧ node.key = key) ∧
      ∀ message ∈ graph.nodes, ∀ node, Cached twoNodes node → node.key = message.key →
        TopicsExact twoNodes node message :=
  topics_exact twoNodes uniqueNodes_twoNodes

/-- The topic is listed once with both types, and nothing for the gid that is not cached. -/
example : publishMicrorosGraph.eval answer twoNodes = some
    ⟨[⟨['/'], "talker".toList, [⟨.publisher, "/chatter".toList,
        ["std_msgs/msg/Int32".toList, "std_msgs/msg/String".toList]⟩]⟩,
      ⟨['/'], "listener".toList, [⟨.subscriber, "/chatter".toList,
        ["std_msgs/msg/String".toList]⟩]⟩]⟩ := rfl

theorem services_exact_iff_sampleCache :
    ∃ graph, publishMicrorosGraph.eval answer sampleCache = some graph ∧
      ((∀ message ∈ graph.nodes, ∀ node, Cached sampleCache node → node.key = message.key →
          ServicesExact sampleCache node message) ↔
        ∀ node, Cached sampleCache node → ServesAll sampleCache "rq".toList "Request".toList node ∧
          ServesAll sampleCache "rr".toList "Reply".toList node) :=
  services_exact_iff sampleCache

/-- The server is listed as a client of its own service: it has no reply reader. -/
theorem server_listed_as_client : UniqueNodes sampleCache ∧
    ∃ graph, publishMicrorosGraph.eval answer sampleCache = some graph ∧
      ¬ ∀ message ∈ graph.nodes, ∀ node, Cached sampleCache node → node.key = message.key →
        ServicesExact sampleCache node message := by
  have published : publishMicrorosGraph.eval answer sampleCache = some
      ⟨[⟨['/'], "node".toList,
        [⟨.publisher, "/chatter".toList, ["std_msgs/msg/String".toList]⟩,
          ⟨.serviceServer, "/add".toList, ["pkg/srv/Add".toList]⟩,
          ⟨.serviceClient, "/add".toList, ["pkg/srv/Add".toList]⟩]⟩]⟩ := rfl
  refine ⟨uniqueNodes_sampleCache, _, published, ?_⟩
  intro exactly
  have cached : Cached sampleCache sampleNode :=
    ⟨⟨1⟩, [sampleNode], by rw [nodes_sampleCache, Function.update_self], by simp⟩
  have clients := (exactly _ List.mem_cons_self sampleNode cached rfl).clients
  obtain ⟨_, gid, member, info, known, _, topic, _⟩ :=
    (clients.named "/add".toList).mp (by simp [NodeMessage.entitiesOf])
  cases List.mem_singleton.mp member
  cases known
  exact absurd topic (by decide)

end MicroRosAgent.GraphManager
