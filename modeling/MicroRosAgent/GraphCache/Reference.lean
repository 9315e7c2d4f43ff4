import MicroRosAgent.GraphCache.NamesAndTypes
import Mathlib.Data.List.AList
import Mathlib.Data.List.Sort

/-! # A lawful graph cache

The three tables as association lists, each member of the interface written out.
The laws hold of it, so they can be met together, and runs of the agent on concrete
inputs can be computed.
-/

namespace MicroRosAgent

structure ParticipantInfo where
  enclave : Text
  nodeEntitiesInfoSeq : List NodeEntitiesInfo
  deriving DecidableEq, Repr

/-- A map from gids, iterated in the order of the gids. -/
abbrev GidMap (α : Type) : Type := AList fun _ : Gid => α

def GidMap.gids {α : Type} (map : GidMap α) : List Gid :=
  map.keys.insertionSort fun first second => first.data ≤ second.data

structure ReferenceCache where
  participants : GidMap ParticipantInfo
  dataWriters : GidMap EntityInfo
  dataReaders : GidMap EntityInfo

namespace ReferenceCache

def nodes (cache : ReferenceCache) (gid : Gid) : Option (List NodeEntitiesInfo) :=
  (cache.participants.lookup gid).map ParticipantInfo.nodeEntitiesInfoSeq

def writers (cache : ReferenceCache) (gid : Gid) : Option EntityInfo := cache.dataWriters.lookup gid

def readers (cache : ReferenceCache) (gid : Gid) : Option EntityInfo := cache.dataReaders.lookup gid

/-- Store the node list of a participant, which keeps its enclave. -/
def setNodes (gid : Gid) (nodes : List NodeEntitiesInfo) (cache : ReferenceCache) : ReferenceCache :=
  let enclave := ((cache.participants.lookup gid).map ParticipantInfo.enclave).getD []
  { cache with participants := cache.participants.insert gid ⟨enclave, nodes⟩ }

def addParticipant (gid : Gid) (enclave : Text) (cache : ReferenceCache) : ReferenceCache :=
  { cache with
    participants := cache.participants.insert gid ⟨enclave, (cache.nodes gid).getD []⟩ }

def removeParticipant (gid : Gid) (cache : ReferenceCache) : ReferenceCache :=
  match cache.participants.lookup gid with
  | some _ => { cache with participants := cache.participants.erase gid }
  | none => cache

def addNode (gid : Gid) (name nodeNamespace : Text) (cache : ReferenceCache) :
    Option (ParticipantEntitiesInfo × ReferenceCache) :=
  (cache.nodes gid).map fun nodes =>
    let nodes := nodes ++ [{ nodeName := name, nodeNamespace }]
    (⟨gid, nodes⟩, cache.setNodes gid nodes)

def associate (change : NodeEntitiesInfo → NodeEntitiesInfo) (gid : Gid) (name nodeNamespace : Text)
    (cache : ReferenceCache) : Option (ParticipantEntitiesInfo × ReferenceCache) :=
  (cache.nodes gid).bind fun nodes =>
    if ∃ node ∈ nodes, node.key = (name, nodeNamespace) then
      let nodes := modifyNode (name, nodeNamespace) change nodes
      some (⟨gid, nodes⟩, cache.setNodes gid nodes)
    else none

def emplace (gid : Gid) (info : EntityInfo) (table : GidMap EntityInfo) : GidMap EntityInfo :=
  match table.lookup gid with
  | some _ => table
  | none => table.insert gid info

def remove (gid : Gid) (table : GidMap EntityInfo) : GidMap EntityInfo :=
  match table.lookup gid with
  | some _ => table.erase gid
  | none => table

def addEntity (gid : Gid) (info : EntityInfo) (isReader : Bool) (cache : ReferenceCache) :
    ReferenceCache :=
  if isReader then { cache with dataReaders := emplace gid info cache.dataReaders }
  else { cache with dataWriters := emplace gid info cache.dataWriters }

def removeEntity (gid : Gid) (isReader : Bool) (cache : ReferenceCache) : ReferenceCache :=
  if isReader then { cache with dataReaders := remove gid cache.dataReaders }
  else { cache with dataWriters := remove gid cache.dataWriters }

def allNodes (cache : ReferenceCache) : List NodeEntitiesInfo :=
  cache.participants.gids.flatMap fun gid => (cache.nodes gid).getD []

def namesAndTypesByNode (cache : ReferenceCache) (table : Gid → Option EntityInfo)
    (entities : NodeEntitiesInfo → List Gid) (name nodeNamespace : Text)
    (demangleTopic demangleType : DemangleFunction) : Option NamesAndTypes :=
  (cache.allNodes.find? fun node => node.key = (name, nodeNamespace)).map fun node =>
    collect (contributions table (entities node) demangleTopic demangleType)

def getNamesAndTypes (demangleTopic demangleType : DemangleFunction) (cache : ReferenceCache) :
    Option NamesAndTypes :=
  some (collect
    (contributions cache.readers cache.dataReaders.gids demangleTopic demangleType ++
      contributions cache.writers cache.dataWriters.gids demangleTopic demangleType))

/-- The entity tables notify on an actual change, all other mutators always, except
    for a participant that is not there to be removed. -/
def notifies : Mutator → ReferenceCache → Bool
  | .removeParticipant gid, cache => (cache.participants.lookup gid).isSome
  | .addEntity gid _ isReader, cache =>
      if isReader then (cache.readers gid).isNone else (cache.writers gid).isNone
  | .removeEntity gid isReader, cache =>
      if isReader then (cache.readers gid).isSome else (cache.writers gid).isSome
  | _, _ => true

instance : GraphCache ReferenceCache where
  empty := ⟨∅, ∅, ∅⟩
  addParticipant := addParticipant
  removeParticipant := removeParticipant
  addNode := addNode
  associateWriter writer := associate (·.addWriter writer)
  associateReader reader := associate (·.addReader reader)
  addEntity := addEntity
  removeEntity := removeEntity
  updateParticipantEntities message := setNodes message.gid message.nodeEntitiesInfoSeq
  getNodeNames cache := cache.allNodes.map NodeEntitiesInfo.key
  getWriterNamesAndTypesByNode name nodeNamespace demangleTopic demangleType cache :=
    cache.namesAndTypesByNode cache.writers NodeEntitiesInfo.writerGidSeq name nodeNamespace
      demangleTopic demangleType
  getReaderNamesAndTypesByNode name nodeNamespace demangleTopic demangleType cache :=
    cache.namesAndTypesByNode cache.readers NodeEntitiesInfo.readerGidSeq name nodeNamespace
      demangleTopic demangleType
  getNamesAndTypes := getNamesAndTypes
  nodes := nodes
  writers := writers
  readers := readers

instance : NotifyingCache ReferenceCache where
  notifies := notifies

/-! ## The laws -/

theorem setsNodes_setNodes (gid : Gid) (nodes : List NodeEntitiesInfo) (cache : ReferenceCache) :
    SetsNodes cache gid (some nodes) (cache.setNodes gid nodes) := by
  refine ⟨?_, rfl, rfl⟩
  funext other
  by_cases same : other = gid
  · subst same
    simp [GraphCache.nodes, ReferenceCache.nodes, setNodes]
  · simp [GraphCache.nodes, ReferenceCache.nodes, setNodes, same, AList.lookup_insert_ne]

theorem lookup_emplace (gid : Gid) (info : EntityInfo) (table : GidMap EntityInfo) :
    (emplace gid info table).lookup =
      Function.update table.lookup gid (some ((table.lookup gid).getD info)) := by
  funext other
  unfold emplace
  cases known : table.lookup gid with
  | some old =>
    by_cases same : other = gid
    · subst same; simp [known]
    · simp [same]
  | none =>
    by_cases same : other = gid
    · subst same; simp
    · simp [same, AList.lookup_insert_ne]

theorem lookup_remove (gid : Gid) (table : GidMap EntityInfo) :
    (remove gid table).lookup = Function.update table.lookup gid none := by
  funext other
  unfold remove
  cases known : table.lookup gid with
  | some old =>
    by_cases same : other = gid
    · subst same; simp
    · simp [same, AList.lookup_erase_ne]
  | none =>
    by_cases same : other = gid
    · subst same; simp [known]
    · simp [same]

theorem associate_some (change : NodeEntitiesInfo → NodeEntitiesInfo) (gid : Gid)
    (name nodeNamespace : Text) (nodes : List NodeEntitiesInfo) (cache : ReferenceCache)
    (known : cache.nodes gid = some nodes)
    (named : ∃ node ∈ nodes, node.key = (name, nodeNamespace)) :
    ∃ after, associate change gid name nodeNamespace cache =
        some (⟨gid, modifyNode (name, nodeNamespace) change nodes⟩, after) ∧
      SetsNodes cache gid (some (modifyNode (name, nodeNamespace) change nodes)) after := by
  refine ⟨_, ?_, setsNodes_setNodes gid _ cache⟩
  simp [associate, known, named]

instance : LawfulMutators ReferenceCache where
  nodes_empty _ := rfl
  writers_empty _ := rfl
  readers_empty _ := rfl
  addParticipant gid enclave cache := by
    refine ⟨?_, rfl, rfl⟩
    funext other
    by_cases same : other = gid
    · subst same
      simp [GraphCache.nodes, GraphCache.addParticipant, ReferenceCache.nodes, addParticipant]
    · simp [GraphCache.nodes, GraphCache.addParticipant, ReferenceCache.nodes, addParticipant, same,
        AList.lookup_insert_ne]
  removeParticipant gid cache := by
    refine ⟨?_, ?_, ?_⟩
    · funext other
      simp only [GraphCache.nodes, GraphCache.removeParticipant, ReferenceCache.nodes, removeParticipant]
      by_cases same : other = gid
      · subst same
        split <;> simp_all
      · split <;> simp [same, AList.lookup_erase_ne, ReferenceCache.nodes]
    · simp only [GraphCache.writers, GraphCache.removeParticipant, removeParticipant]
      split <;> rfl
    · simp only [GraphCache.readers, GraphCache.removeParticipant, removeParticipant]
      split <;> rfl
  addNode gid name nodeNamespace nodes cache known := by
    refine ⟨_, ?_, setsNodes_setNodes gid _ cache⟩
    simp only [GraphCache.nodes] at known
    simp [GraphCache.addNode, addNode, known]
  associateWriter writer gid name nodeNamespace nodes cache :=
    associate_some (·.addWriter writer) gid name nodeNamespace nodes cache
  associateReader reader gid name nodeNamespace nodes cache :=
    associate_some (·.addReader reader) gid name nodeNamespace nodes cache
  addEntity gid info isReader cache := by
    cases isReader with
    | true => exact ⟨rfl, rfl, lookup_emplace gid info cache.dataReaders⟩
    | false => exact ⟨rfl, lookup_emplace gid info cache.dataWriters, rfl⟩
  removeEntity gid isReader cache := by
    cases isReader with
    | true => exact ⟨rfl, rfl, lookup_remove gid cache.dataReaders⟩
    | false => exact ⟨rfl, lookup_remove gid cache.dataWriters, rfl⟩
  updateParticipantEntities message cache :=
    setsNodes_setNodes message.gid message.nodeEntitiesInfoSeq cache

theorem sameEntities_setNodes (gid : Gid) (nodes : List NodeEntitiesInfo) (cache : ReferenceCache) :
    SameEntities cache (cache.setNodes gid nodes) :=
  (setsNodes_setNodes gid nodes cache).sameEntities

theorem sameEntities_associate {change : NodeEntitiesInfo → NodeEntitiesInfo} {gid : Gid}
    {name nodeNamespace : Text} {message : ParticipantEntitiesInfo} {cache after : ReferenceCache}
    (associated : associate change gid name nodeNamespace cache = some (message, after)) :
    SameEntities cache after := by
  obtain ⟨nodes, _, found⟩ := Option.bind_eq_some_iff.mp associated
  split at found
  · cases found
    exact sameEntities_setNodes _ _ _
  · cases found

instance : LawfulNodeMutators ReferenceCache where
  addNode gid name nodeNamespace message cache after added := by
    obtain ⟨nodes, _, found⟩ := Option.map_eq_some_iff.mp added
    cases found
    exact sameEntities_setNodes _ _ _
  associateWriter _ _ _ _ _ _ _ := sameEntities_associate
  associateReader _ _ _ _ _ _ _ := sameEntities_associate

theorem gids_nodup {α : Type} (map : GidMap α) : map.gids.Nodup :=
  (List.perm_insertionSort _ map.keys).nodup_iff.mpr map.keys_nodup

theorem mem_gids {α : Type} (map : GidMap α) (gid : Gid) :
    gid ∈ map.gids ↔ (map.lookup gid).isSome := by
  rw [AList.lookup_isSome, AList.mem_keys]
  exact List.mem_insertionSort _

theorem nodes_isSome (cache : ReferenceCache) (gid : Gid) :
    gid ∈ cache.participants.gids ↔ (cache.nodes gid).isSome := by
  rw [mem_gids]
  simp [ReferenceCache.nodes]

theorem mem_allNodes (cache : ReferenceCache) (node : NodeEntitiesInfo) :
    node ∈ cache.allNodes ↔ ∃ gid nodes, cache.nodes gid = some nodes ∧ node ∈ nodes := by
  simp only [allNodes, List.mem_flatMap, nodes_isSome]
  constructor
  · rintro ⟨gid, cached, member⟩
    obtain ⟨nodes, known⟩ := Option.isSome_iff_exists.mp cached
    exact ⟨gid, nodes, known, by simpa [known] using member⟩
  · rintro ⟨gid, nodes, known, member⟩
    exact ⟨gid, by simp [known], by simpa [known] using member⟩

theorem namesAndTypesByNode_none (cache : ReferenceCache) (table : Gid → Option EntityInfo)
    (entities : NodeEntitiesInfo → List Gid) (name nodeNamespace : Text)
    (demangleTopic demangleType : DemangleFunction) :
    cache.namesAndTypesByNode table entities name nodeNamespace demangleTopic demangleType = none ↔
      ∀ gid, ¬ HasNode cache gid (name, nodeNamespace) := by
  simp only [namesAndTypesByNode, Option.map_eq_none_iff, List.find?_eq_none, mem_allNodes,
    decide_eq_true_eq]
  constructor
  · rintro absent gid ⟨nodes, known, node, member, named⟩
    exact absent node ⟨gid, nodes, known, member⟩ named
  · rintro absent node ⟨gid, nodes, known, member⟩ named
    exact absent gid ⟨nodes, known, node, member, named⟩

theorem namesAndTypesByNode_some (cache : ReferenceCache) (table : Gid → Option EntityInfo)
    (entities : NodeEntitiesInfo → List Gid) (name nodeNamespace : Text)
    (demangleTopic demangleType : DemangleFunction) (result : NamesAndTypes)
    (found : cache.namesAndTypesByNode table entities name nodeNamespace demangleTopic demangleType =
      some result) :
    ∃ gid nodes node, cache.nodes gid = some nodes ∧ node ∈ nodes ∧
      node.key = (name, nodeNamespace) ∧
      Collects result (NodeContributes table (entities node) demangleTopic demangleType) := by
  obtain ⟨node, first, rfl⟩ := Option.map_eq_some_iff.mp found
  obtain ⟨gid, nodes, known, member⟩ := (mem_allNodes cache node).mp (List.mem_of_find?_eq_some first)
  have named : node.key = (name, nodeNamespace) := by simpa using List.find?_some first
  exact ⟨gid, nodes, node, known, member, named,
    (collects_collect _).congr (mem_contributions table (entities node) demangleTopic demangleType)⟩

instance : LawfulQueries ReferenceCache where
  getNodeNames cache :=
    ⟨cache.participants.gids, gids_nodup _, nodes_isSome cache, List.map_flatMap⟩
  getWriters_none name nodeNamespace demangleTopic demangleType cache :=
    namesAndTypesByNode_none cache cache.writers _ name nodeNamespace demangleTopic demangleType
  getWriters_some name nodeNamespace demangleTopic demangleType cache :=
    namesAndTypesByNode_some cache cache.writers _ name nodeNamespace demangleTopic demangleType
  getReaders_none name nodeNamespace demangleTopic demangleType cache :=
    namesAndTypesByNode_none cache cache.readers _ name nodeNamespace demangleTopic demangleType
  getReaders_some name nodeNamespace demangleTopic demangleType cache :=
    namesAndTypesByNode_some cache cache.readers _ name nodeNamespace demangleTopic demangleType
  getNamesAndTypes demangleTopic demangleType cache := by
    refine ⟨_, rfl, (collects_collect _).congr ?_⟩
    intro name type
    simp only [List.mem_append, mem_contributions, NodeContributes, mem_gids, Bool.exists_bool]
    have listed : ∀ map : GidMap EntityInfo,
        (∃ gid, (map.lookup gid).isSome = true ∧
          Contributes map.lookup gid demangleTopic demangleType name type) ↔
        ∃ gid, Contributes map.lookup gid demangleTopic demangleType name type := by
      intro map
      constructor
      · rintro ⟨gid, _, contributes⟩
        exact ⟨gid, contributes⟩
      · rintro ⟨gid, info, known, contributes⟩
        exact ⟨gid, by simp [known], info, known, contributes⟩
    exact (or_congr (listed cache.dataReaders) (listed cache.dataWriters)).trans or_comm

instance : LawfulNotifications ReferenceCache where
  notifies_of_change mutator cache after result performed change := by
    cases mutator with
    | addParticipant | addNode | associate | updateParticipantEntities => rfl
    | removeParticipant gid =>
      cases performed
      cases known : cache.participants.lookup gid with
      | some info => simp [NotifyingCache.notifies, notifies, known]
      | none => exact absurd (by simp [GraphCache.removeParticipant, removeParticipant, known]) change
    | addEntity gid info isReader =>
      cases performed
      cases isReader with
      | true =>
        cases known : cache.dataReaders.lookup gid with
        | none => simp [NotifyingCache.notifies, notifies, readers, known]
        | some old => exact absurd (by simp [GraphCache.addEntity, addEntity, emplace, known]) change
      | false =>
        cases known : cache.dataWriters.lookup gid with
        | none => simp [NotifyingCache.notifies, notifies, writers, known]
        | some old => exact absurd (by simp [GraphCache.addEntity, addEntity, emplace, known]) change
    | removeEntity gid isReader =>
      cases performed
      cases isReader with
      | true =>
        cases known : cache.dataReaders.lookup gid with
        | some old => simp [NotifyingCache.notifies, notifies, readers, known]
        | none => exact absurd (by simp [GraphCache.removeEntity, removeEntity, remove, known]) change
      | false =>
        cases known : cache.dataWriters.lookup gid with
        | some old => simp [NotifyingCache.notifies, notifies, writers, known]
        | none => exact absurd (by simp [GraphCache.removeEntity, removeEntity, remove, known]) change
  notifies_addParticipant _ _ _ := rfl

end ReferenceCache

end MicroRosAgent
