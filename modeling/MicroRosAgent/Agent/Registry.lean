import MicroRosAgent.Agent.EntityPaths
import MicroRosAgent.Agent.Lifecycle
import MicroRosAgent.GraphManager.PublishedGraph

/-! # The graph the clients have made

`Registry` is what the agent is to publish, without managers, samples or caches: the
participants that exist and the endpoints that were created for them and not deleted since.
`Registry.Describes` reads a graph message off it.

The registry changes with the callbacks (`Registry.step`); the module after the next says
that the agent publishes what it describes.
-/

namespace MicroRosAgent.Agent

open Interleaving GraphManager Utils

open EntityPaths (Entity)

variable [Rmw]

/-! ## The registry -/

structure Registry where
  participants : List DomainParticipant := []
  entities : List Entity := []

def entitiesOf (participant : DomainParticipant) (endpoints : List (Bool × Endpoint)) : List Entity :=
  endpoints.map fun endpoint => ⟨endpoint.1, participant, endpoint.2⟩

/-- The entities a callback creates. -/
def Callback.entities (callback : Callback) : List Entity :=
  entitiesOf callback.participant callback.created

/-- The callback deletes the entity: the kind, the guid and the domain are those of one it is
    about. -/
def Callback.Deletes (callback : Callback) (entity : Entity) : Prop :=
  entity.participant.domainId = callback.participant.domainId ∧
    ∃ deleted ∈ callback.deleted, deleted.1 = entity.isReader ∧ deleted.2.guid = entity.endpoint.guid

instance (callback : Callback) (entity : Entity) : Decidable (callback.Deletes entity) :=
  inferInstanceAs (Decidable (_ ∧ _))

def Registry.step (registry : Registry) : Event → Registry
  | .callback callback =>
      { participants := liveAfter registry.participants (.callback callback)
        entities := registry.entities.filter (fun entity => ¬ callback.Deletes entity) ++
          callback.entities }
  | .loopback _ => registry

/-- What the events have created and not deleted. -/
def registryOf (events : List Event) : Registry := events.foldl Registry.step {}

/-- A participant's endpoint is on the ROS topic `name`, with a type that demangles to `type`. -/
def Registry.HasTopic (registry : Registry) (participant : DomainParticipant) (isReader : Bool)
    (name type : Text) : Prop :=
  ∃ entity ∈ registry.entities, entity.participant = participant ∧ entity.isReader = isReader ∧
    ['/'] <+: name ∧ entity.endpoint.topicName = "rt".toList ++ name ∧
    demangleIfRosType entity.endpoint.typeName = type

/-- An endpoint of the domain, of whatever participant, is on the topic of the service. -/
def Registry.HasService (registry : Registry) (domainId : Nat) (servicePrefix suffix name type : Text) :
    Prop :=
  ∃ entity ∈ registry.entities, entity.participant.domainId = domainId ∧ ['/'] <+: name ∧
    entity.endpoint.topicName = servicePrefix ++ name ++ suffix ∧
    demangleServiceTypeOnly entity.endpoint.typeName = type

/-- The participants of the domain have different nodes. -/
def Registry.UniqueNames (registry : Registry) (domainId : Nat) : Prop :=
  ∀ first second, OfDomain registry.participants domainId first →
    OfDomain registry.participants domainId second → nodeKey first = nodeKey second → first = second

/-- One node for each participant that has one, with exactly the topics of its endpoints and
    the services of the domain. -/
structure Registry.Describes (registry : Registry) (domainId : Nat) (graph : GraphMessage) : Prop where
  nodup : (graph.nodes.map NodeMessage.key).Nodup
  keys : ∀ key, key ∈ graph.nodes.map NodeMessage.key ↔
    ∃ participant, OfDomain registry.participants domainId participant ∧ nodeKey participant = key
  publishers : ∀ message ∈ graph.nodes, ∀ participant,
    OfDomain registry.participants domainId participant → nodeKey participant = message.key →
      Collects (message.entitiesOf .publisher) (registry.HasTopic participant false)
  subscribers : ∀ message ∈ graph.nodes, ∀ participant,
    OfDomain registry.participants domainId participant → nodeKey participant = message.key →
      Collects (message.entitiesOf .subscriber) (registry.HasTopic participant true)
  servers : ∀ message ∈ graph.nodes, Collects (message.entitiesOf .serviceServer)
    (registry.HasService domainId "rq".toList "Request".toList)
  clients : ∀ message ∈ graph.nodes, Collects (message.entitiesOf .serviceClient)
    (registry.HasService domainId "rr".toList "Reply".toList)

end MicroRosAgent.Agent
