import MicroRosAgent.Text.Search
import MicroRosAgent.GraphManager.Qos
import Mathlib.Logic.Function.Basic

/-! # The graph cache the agent works on

`rmw_dds_common::GraphCache` is not part of this repository.  `GraphCache` lists
the members the agent calls and three observers, the tables behind those members;
the `Lawful…` classes state the documented behaviour, one group of members each:

* `LawfulMutators` — what each mutator does to the tables;
* `LawfulNodeMutators` — which mutators leave the entity tables as they are;
* `LawfulQueries` — what the graph queries report of the tables;
* `LawfulNotifications` — when a mutator calls the on-change callback.

`none` of a partial member is a violated precondition (an assertion there).
-/

namespace MicroRosAgent

open GraphManager (RmwQosProfile)

/-- `rmw_gid_t`, up to the bytes its comparison looks at. -/
structure Gid where
  data : Nat
  deriving DecidableEq, Repr

structure TypeHash where
  version : Nat := 0
  value : Nat := 0
  deriving DecidableEq, Repr

structure EntityInfo where
  topicName : Text
  topicType : Text
  topicTypeHash : TypeHash
  participantGid : Gid
  qos : RmwQosProfile
  deriving DecidableEq, Repr

/-- `rmw_dds_common::msg::NodeEntitiesInfo`. -/
structure NodeEntitiesInfo where
  nodeNamespace : Text
  nodeName : Text
  readerGidSeq : List Gid := []
  writerGidSeq : List Gid := []
  deriving DecidableEq, Repr

/-- What identifies a node: its name and its namespace. -/
def NodeEntitiesInfo.key (node : NodeEntitiesInfo) : Text × Text :=
  (node.nodeName, node.nodeNamespace)

/-- `rmw_dds_common::msg::ParticipantEntitiesInfo`. -/
structure ParticipantEntitiesInfo where
  gid : Gid
  nodeEntitiesInfoSeq : List NodeEntitiesInfo := []
  deriving DecidableEq, Repr

/-- `rmw_names_and_types_t`: names, each with its types. -/
abbrev NamesAndTypes : Type := List (Text × List Text)

abbrev DemangleFunction : Type := Text → Text

class GraphCache (Cache : Type) where
  empty : Cache
  -- mutators
  addParticipant : Gid → Text → Cache → Cache
  removeParticipant : Gid → Cache → Cache
  addNode : Gid → Text → Text → Cache → Option (ParticipantEntitiesInfo × Cache)
  associateWriter : Gid → Gid → Text → Text → Cache → Option (ParticipantEntitiesInfo × Cache)
  associateReader : Gid → Gid → Text → Text → Cache → Option (ParticipantEntitiesInfo × Cache)
  addEntity : Gid → EntityInfo → Bool → Cache → Cache
  removeEntity : Gid → Bool → Cache → Cache
  updateParticipantEntities : ParticipantEntitiesInfo → Cache → Cache
  -- queries; `none` is a return code other than RMW_RET_OK
  getNodeNames : Cache → List (Text × Text)
  getWriterNamesAndTypesByNode :
    Text → Text → DemangleFunction → DemangleFunction → Cache → Option NamesAndTypes
  getReaderNamesAndTypesByNode :
    Text → Text → DemangleFunction → DemangleFunction → Cache → Option NamesAndTypes
  getNamesAndTypes : DemangleFunction → DemangleFunction → Cache → Option NamesAndTypes
  -- tables
  nodes : Cache → Gid → Option (List NodeEntitiesInfo)
  writers : Cache → Gid → Option EntityInfo
  readers : Cache → Gid → Option EntityInfo

/-! ## Mutators -/

/-- A call of a mutator with its arguments. -/
inductive Mutator where
  | addParticipant (gid : Gid) (enclave : Text)
  | removeParticipant (gid : Gid)
  | addNode (participantGid : Gid) (nodeName nodeNamespace : Text)
  | associate (isReader : Bool) (gid participantGid : Gid) (nodeName nodeNamespace : Text)
  | addEntity (gid : Gid) (info : EntityInfo) (isReader : Bool)
  | removeEntity (gid : Gid) (isReader : Bool)
  | updateParticipantEntities (message : ParticipantEntitiesInfo)

abbrev Mutator.associateWriter : Gid → Gid → Text → Text → Mutator := .associate false

abbrev Mutator.associateReader : Gid → Gid → Text → Text → Mutator := .associate true

/-- What the agent uses of a mutator's return value. -/
abbrev Mutator.Result : Mutator → Type
  | .addNode .. | .associate .. => ParticipantEntitiesInfo
  | _ => Unit

variable {Cache : Type} [GraphCache Cache]

def Mutator.perform : (mutator : Mutator) → Cache → Option (mutator.Result × Cache)
  | .addParticipant gid enclave, cache => some ((), GraphCache.addParticipant gid enclave cache)
  | .removeParticipant gid, cache => some ((), GraphCache.removeParticipant gid cache)
  | .addNode gid name nodeNamespace, cache => GraphCache.addNode gid name nodeNamespace cache
  | .associate false writer gid name nodeNamespace, cache =>
      GraphCache.associateWriter writer gid name nodeNamespace cache
  | .associate true reader gid name nodeNamespace, cache =>
      GraphCache.associateReader reader gid name nodeNamespace cache
  | .addEntity gid info isReader, cache => some ((), GraphCache.addEntity gid info isReader cache)
  | .removeEntity gid isReader, cache => some ((), GraphCache.removeEntity gid isReader cache)
  | .updateParticipantEntities message, cache =>
      some ((), GraphCache.updateParticipantEntities message cache)

@[simp] theorem perform_addParticipant (gid : Gid) (enclave : Text) (cache : Cache) :
    (Mutator.addParticipant gid enclave).perform cache =
      some ((), GraphCache.addParticipant gid enclave cache) := rfl

@[simp] theorem perform_removeParticipant (gid : Gid) (cache : Cache) :
    (Mutator.removeParticipant gid).perform cache =
      some ((), GraphCache.removeParticipant gid cache) := rfl

@[simp] theorem perform_addNode (gid : Gid) (name nodeNamespace : Text) (cache : Cache) :
    (Mutator.addNode gid name nodeNamespace).perform cache =
      GraphCache.addNode gid name nodeNamespace cache := rfl

@[simp] theorem perform_addEntity (gid : Gid) (info : EntityInfo) (isReader : Bool) (cache : Cache) :
    (Mutator.addEntity gid info isReader).perform cache =
      some ((), GraphCache.addEntity gid info isReader cache) := rfl

@[simp] theorem perform_removeEntity (gid : Gid) (isReader : Bool) (cache : Cache) :
    (Mutator.removeEntity gid isReader).perform cache =
      some ((), GraphCache.removeEntity gid isReader cache) := rfl

@[simp] theorem perform_updateParticipantEntities (message : ParticipantEntitiesInfo)
    (cache : Cache) :
    (Mutator.updateParticipantEntities message).perform cache =
      some ((), GraphCache.updateParticipantEntities message cache) := rfl

/-- Change the first node with the given key. -/
def modifyNode (key : Text × Text) (change : NodeEntitiesInfo → NodeEntitiesInfo) :
    List NodeEntitiesInfo → List NodeEntitiesInfo
  | [] => []
  | node :: nodes => if node.key = key then change node :: nodes else node :: modifyNode key change nodes

def NodeEntitiesInfo.addWriter (gid : Gid) (node : NodeEntitiesInfo) : NodeEntitiesInfo :=
  { node with writerGidSeq := node.writerGidSeq ++ [gid] }

def NodeEntitiesInfo.addReader (gid : Gid) (node : NodeEntitiesInfo) : NodeEntitiesInfo :=
  { node with readerGidSeq := node.readerGidSeq ++ [gid] }

def NodeEntitiesInfo.addEntity (isReader : Bool) (gid : Gid) (node : NodeEntitiesInfo) :
    NodeEntitiesInfo :=
  if isReader then node.addReader gid else node.addWriter gid

theorem map_key_modifyNode (key : Text × Text) (isReader : Bool) (gid : Gid)
    (nodes : List NodeEntitiesInfo) :
    (modifyNode key (·.addEntity isReader gid) nodes).map NodeEntitiesInfo.key =
      nodes.map NodeEntitiesInfo.key := by
  have same : ∀ node : NodeEntitiesInfo, (node.addEntity isReader gid).key = node.key := by
    intro node
    cases isReader <;> rfl
  induction nodes with
  | nil => rfl
  | cons node nodes ih =>
    simp only [modifyNode]
    split
    · rw [List.map_cons, List.map_cons, same]
    · rw [List.map_cons, List.map_cons, ih]

theorem named_modifyNode {name : Text × Text} (key : Text × Text) (isReader : Bool) (gid : Gid)
    {nodes : List NodeEntitiesInfo} (named : ∃ node ∈ nodes, node.key = name) :
    ∃ node ∈ modifyNode key (·.addEntity isReader gid) nodes, node.key = name := by
  have kept := map_key_modifyNode key isReader gid nodes
  rw [← List.mem_map] at named ⊢
  rwa [kept]

/-- The participant is cached with a node of that name and namespace. -/
def HasNode (cache : Cache) (gid : Gid) (key : Text × Text) : Prop :=
  ∃ nodes, GraphCache.nodes cache gid = some nodes ∧ ∃ node ∈ nodes, node.key = key

/-- The node list of one participant changes and nothing else. -/
structure SetsNodes (before : Cache) (gid : Gid) (nodes : Option (List NodeEntitiesInfo))
    (after : Cache) : Prop where
  nodes : GraphCache.nodes after = Function.update (GraphCache.nodes before) gid nodes
  writers : GraphCache.writers after = GraphCache.writers before
  readers : GraphCache.readers after = GraphCache.readers before

/-- One entry of one entity table changes and nothing else. -/
structure SetsEntity (before : Cache) (gid : Gid) (isReader : Bool) (info : Option EntityInfo)
    (after : Cache) : Prop where
  nodes : GraphCache.nodes after = GraphCache.nodes before
  writers : GraphCache.writers after =
    if isReader then GraphCache.writers before
    else Function.update (GraphCache.writers before) gid info
  readers : GraphCache.readers after =
    if isReader then Function.update (GraphCache.readers before) gid info
    else GraphCache.readers before

/-- The entity table `isReader` selects. -/
def entities (cache : Cache) (isReader : Bool) : Gid → Option EntityInfo :=
  if isReader then GraphCache.readers cache else GraphCache.writers cache

class LawfulMutators (Cache : Type) [GraphCache Cache] : Prop where
  nodes_empty : ∀ gid, GraphCache.nodes (GraphCache.empty : Cache) gid = none
  writers_empty : ∀ gid, GraphCache.writers (GraphCache.empty : Cache) gid = none
  readers_empty : ∀ gid, GraphCache.readers (GraphCache.empty : Cache) gid = none
  addParticipant : ∀ gid enclave (cache : Cache),
    SetsNodes cache gid (some ((GraphCache.nodes cache gid).getD []))
      (GraphCache.addParticipant gid enclave cache)
  removeParticipant : ∀ gid (cache : Cache),
    SetsNodes cache gid none (GraphCache.removeParticipant gid cache)
  addNode : ∀ gid name nodeNamespace nodes (cache : Cache), GraphCache.nodes cache gid = some nodes →
    ∃ after, GraphCache.addNode gid name nodeNamespace cache =
        some (⟨gid, nodes ++ [{ nodeName := name, nodeNamespace }]⟩, after) ∧
      SetsNodes cache gid (some (nodes ++ [{ nodeName := name, nodeNamespace }])) after
  associateWriter : ∀ writer gid name nodeNamespace nodes (cache : Cache),
    GraphCache.nodes cache gid = some nodes → (∃ node ∈ nodes, node.key = (name, nodeNamespace)) →
      ∃ after, GraphCache.associateWriter writer gid name nodeNamespace cache =
          some (⟨gid, modifyNode (name, nodeNamespace) (·.addWriter writer) nodes⟩, after) ∧
        SetsNodes cache gid
          (some (modifyNode (name, nodeNamespace) (·.addWriter writer) nodes)) after
  associateReader : ∀ reader gid name nodeNamespace nodes (cache : Cache),
    GraphCache.nodes cache gid = some nodes → (∃ node ∈ nodes, node.key = (name, nodeNamespace)) →
      ∃ after, GraphCache.associateReader reader gid name nodeNamespace cache =
          some (⟨gid, modifyNode (name, nodeNamespace) (·.addReader reader) nodes⟩, after) ∧
        SetsNodes cache gid
          (some (modifyNode (name, nodeNamespace) (·.addReader reader) nodes)) after
  -- `map::emplace`: an entry that is there already stays
  addEntity : ∀ gid info isReader (cache : Cache),
    SetsEntity cache gid isReader (some ((entities cache isReader gid).getD info))
      (GraphCache.addEntity gid info isReader cache)
  removeEntity : ∀ gid isReader (cache : Cache),
    SetsEntity cache gid isReader none (GraphCache.removeEntity gid isReader cache)
  updateParticipantEntities : ∀ message (cache : Cache),
    SetsNodes cache message.gid (some message.nodeEntitiesInfoSeq)
      (GraphCache.updateParticipantEntities message cache)

section
variable [LawfulMutators Cache]

theorem perform_associate (isReader : Bool) (entityGid gid : Gid) (name nodeNamespace : Text)
    {nodes : List NodeEntitiesInfo} {cache : Cache} (known : GraphCache.nodes cache gid = some nodes)
    (named : ∃ node ∈ nodes, node.key = (name, nodeNamespace)) :
    ∃ after, (Mutator.associate isReader entityGid gid name nodeNamespace).perform cache =
        some (⟨gid, modifyNode (name, nodeNamespace) (·.addEntity isReader entityGid) nodes⟩, after) ∧
      SetsNodes cache gid
        (some (modifyNode (name, nodeNamespace) (·.addEntity isReader entityGid) nodes)) after := by
  cases isReader with
  | false => exact LawfulMutators.associateWriter entityGid gid name nodeNamespace nodes cache known named
  | true => exact LawfulMutators.associateReader entityGid gid name nodeNamespace nodes cache known named

end

/-! ## Entity tables -/

def SameEntities (before after : Cache) : Prop :=
  ∀ isReader, entities after isReader = entities before isReader

theorem SetsNodes.sameEntities {before after : Cache} {gid : Gid}
    {nodes : Option (List NodeEntitiesInfo)} (sets : SetsNodes before gid nodes after) :
    SameEntities before after := by
  intro isReader
  cases isReader with
  | false => exact sets.writers
  | true => exact sets.readers

theorem SetsEntity.entities_self {before after : Cache} {gid : Gid} {isReader : Bool}
    {info : Option EntityInfo} (sets : SetsEntity before gid isReader info after) :
    entities after isReader = Function.update (entities before isReader) gid info := by
  cases isReader with
  | false => exact sets.writers
  | true => exact sets.readers

theorem SetsEntity.entities_other {before after : Cache} {gid : Gid} {isReader : Bool}
    {info : Option EntityInfo} (sets : SetsEntity before gid isReader info after) :
    entities after (!isReader) = entities before (!isReader) := by
  cases isReader with
  | false => exact sets.readers
  | true => exact sets.writers

theorem SetsEntity.entities_of_ne {before after : Cache} {gid other : Gid} {isReader : Bool}
    {info : Option EntityInfo} (sets : SetsEntity before gid isReader info after)
    (different : other ≠ gid) (which : Bool) :
    entities after which other = entities before which other := by
  by_cases same : which = isReader
  · subst same
    rw [sets.entities_self, Function.update_of_ne different]
  · rw [Bool.eq_not_of_ne same, sets.entities_other]

/-- The members that work on nodes leave the entities alone.  The laws above say so where
    the participant is cached. -/
class LawfulNodeMutators (Cache : Type) [GraphCache Cache] : Prop where
  addNode : ∀ gid name nodeNamespace message (cache after : Cache),
    GraphCache.addNode gid name nodeNamespace cache = some (message, after) →
      SameEntities cache after
  associateWriter : ∀ writer gid name nodeNamespace message (cache after : Cache),
    GraphCache.associateWriter writer gid name nodeNamespace cache = some (message, after) →
      SameEntities cache after
  associateReader : ∀ reader gid name nodeNamespace message (cache after : Cache),
    GraphCache.associateReader reader gid name nodeNamespace cache = some (message, after) →
      SameEntities cache after

def Mutator.WorksOnNodes : Mutator → Prop
  | .addEntity .. | .removeEntity .. => False
  | _ => True

theorem sameEntities_perform [LawfulMutators Cache] [LawfulNodeMutators Cache] {mutator : Mutator}
    (worksOnNodes : mutator.WorksOnNodes) {cache after : Cache} {result : mutator.Result}
    (performed : mutator.perform cache = some (result, after)) : SameEntities cache after := by
  cases mutator with
  | addEntity | removeEntity => exact absurd worksOnNodes id
  | addParticipant gid enclave =>
    cases performed
    exact (LawfulMutators.addParticipant gid enclave cache).sameEntities
  | removeParticipant gid =>
    cases performed
    exact (LawfulMutators.removeParticipant gid cache).sameEntities
  | updateParticipantEntities message =>
    cases performed
    exact (LawfulMutators.updateParticipantEntities message cache).sameEntities
  | addNode => exact LawfulNodeMutators.addNode _ _ _ _ _ _ performed
  | associate isReader =>
    cases isReader with
    | false => exact LawfulNodeMutators.associateWriter _ _ _ _ _ _ _ performed
    | true => exact LawfulNodeMutators.associateReader _ _ _ _ _ _ _ performed

/-! ## Queries -/

/-- A query's result holds exactly the given pairs of name and type, each name
    once and no type twice under one name. -/
structure Collects (result : NamesAndTypes) (pairs : Text → Text → Prop) : Prop where
  namesNodup : (result.map Prod.fst).Nodup
  typesNodup : ∀ entry ∈ result, entry.2.Nodup
  named : ∀ name, name ∈ result.map Prod.fst ↔ ∃ type, pairs name type
  typed : ∀ entry ∈ result, ∀ type, type ∈ entry.2 ↔ pairs entry.1 type

/-- The pair of name and type an entity of the table contributes to a query; a
    topic the demangler maps to the empty string is skipped. -/
def Contributes (table : Gid → Option EntityInfo) (gid : Gid)
    (demangleTopic demangleType : DemangleFunction) (name type : Text) : Prop :=
  ∃ info, table gid = some info ∧ demangleTopic info.topicName = name ∧ name ≠ [] ∧
    demangleType info.topicType = type

/-- What the queries by node report: the entities of the node that are in the table. -/
def NodeContributes (table : Gid → Option EntityInfo) (gids : List Gid)
    (demangleTopic demangleType : DemangleFunction) (name type : Text) : Prop :=
  ∃ gid ∈ gids, Contributes table gid demangleTopic demangleType name type

class LawfulQueries (Cache : Type) [GraphCache Cache] : Prop where
  getNodeNames : ∀ cache : Cache, ∃ gids : List Gid, gids.Nodup ∧
    (∀ gid, gid ∈ gids ↔ (GraphCache.nodes cache gid).isSome) ∧
    GraphCache.getNodeNames cache =
      gids.flatMap fun gid => ((GraphCache.nodes cache gid).getD []).map NodeEntitiesInfo.key
  getWriters_none : ∀ name nodeNamespace demangleTopic demangleType (cache : Cache),
    GraphCache.getWriterNamesAndTypesByNode name nodeNamespace demangleTopic demangleType cache =
      none ↔ ∀ gid, ¬ HasNode cache gid (name, nodeNamespace)
  getWriters_some : ∀ name nodeNamespace demangleTopic demangleType (cache : Cache) result,
    GraphCache.getWriterNamesAndTypesByNode name nodeNamespace demangleTopic demangleType cache =
      some result →
    ∃ gid nodes node, GraphCache.nodes cache gid = some nodes ∧ node ∈ nodes ∧
      node.key = (name, nodeNamespace) ∧
      Collects result (NodeContributes (GraphCache.writers cache) node.writerGidSeq
        demangleTopic demangleType)
  getReaders_none : ∀ name nodeNamespace demangleTopic demangleType (cache : Cache),
    GraphCache.getReaderNamesAndTypesByNode name nodeNamespace demangleTopic demangleType cache =
      none ↔ ∀ gid, ¬ HasNode cache gid (name, nodeNamespace)
  getReaders_some : ∀ name nodeNamespace demangleTopic demangleType (cache : Cache) result,
    GraphCache.getReaderNamesAndTypesByNode name nodeNamespace demangleTopic demangleType cache =
      some result →
    ∃ gid nodes node, GraphCache.nodes cache gid = some nodes ∧ node ∈ nodes ∧
      node.key = (name, nodeNamespace) ∧
      Collects result (NodeContributes (GraphCache.readers cache) node.readerGidSeq
        demangleTopic demangleType)
  -- over all entities, the readers and the writers of every participant
  getNamesAndTypes : ∀ demangleTopic demangleType (cache : Cache), ∃ result,
    GraphCache.getNamesAndTypes demangleTopic demangleType cache = some result ∧
      Collects result fun name type => ∃ isReader gid,
        Contributes (entities cache isReader) gid demangleTopic demangleType name type

theorem mem_getNodeNames [LawfulQueries Cache] (cache : Cache) (key : Text × Text) :
    key ∈ GraphCache.getNodeNames cache ↔ ∃ gid, HasNode cache gid key := by
  obtain ⟨gids, _, cached, names⟩ := LawfulQueries.getNodeNames cache
  rw [names, List.mem_flatMap]
  constructor
  · intro ⟨gid, member, listed⟩
    obtain ⟨nodes, known⟩ := Option.isSome_iff_exists.mp ((cached gid).mp member)
    rw [known, Option.getD_some] at listed
    obtain ⟨node, inside, named⟩ := List.mem_map.mp listed
    exact ⟨gid, nodes, known, node, inside, named⟩
  · intro ⟨gid, nodes, known, node, inside, named⟩
    refine ⟨gid, (cached gid).mpr (by simp [known]), ?_⟩
    rw [known, Option.getD_some]
    exact List.mem_map.mpr ⟨node, inside, named⟩

/-! ## Notifications -/

/-- Whether a mutator calls the on-change callback in a given state. -/
class NotifyingCache (Cache : Type) extends GraphCache Cache where
  notifies : Mutator → Cache → Bool

class LawfulNotifications (Cache : Type) [NotifyingCache Cache] : Prop where
  notifies_of_change : ∀ (mutator : Mutator) (cache after : Cache) result,
    mutator.perform cache = some (result, after) → after ≠ cache →
      NotifyingCache.notifies mutator cache = true
  notifies_addParticipant : ∀ gid enclave (cache : Cache),
    NotifyingCache.notifies (.addParticipant gid enclave) cache = true

end MicroRosAgent
