import MicroRosAgent.GraphCache.Reference

/-! # The node lists after a mutator

`LawfulMutators` says what a mutator does where its precondition holds.  Threads that run
at the same time cannot rely on each other for the preconditions, but a member whose
assertion fails does not return: `LawfulPreconditions` states that, and `nodes_perform` is
then what any mutator that has returned did to the node lists of all participants.
-/

namespace MicroRosAgent

variable {Cache : Type} [GraphCache Cache]

/-- A partial member that returns has found the participant, and the node it was given. -/
class LawfulPreconditions (Cache : Type) [GraphCache Cache] : Prop where
  addNode : ∀ gid name nodeNamespace answer (cache : Cache),
    GraphCache.addNode gid name nodeNamespace cache = some answer →
      (GraphCache.nodes cache gid).isSome
  associateWriter : ∀ writer gid name nodeNamespace answer (cache : Cache),
    GraphCache.associateWriter writer gid name nodeNamespace cache = some answer →
      HasNode cache gid (name, nodeNamespace)
  associateReader : ∀ reader gid name nodeNamespace answer (cache : Cache),
    GraphCache.associateReader reader gid name nodeNamespace cache = some answer →
      HasNode cache gid (name, nodeNamespace)

def Mutator.nodesAfter : Mutator → (Gid → Option (List NodeEntitiesInfo)) →
    Gid → Option (List NodeEntitiesInfo)
  | .addParticipant gid _, nodes => Function.update nodes gid (some ((nodes gid).getD []))
  | .removeParticipant gid, nodes => Function.update nodes gid none
  | .addNode gid name nodeNamespace, nodes =>
      Function.update nodes gid
        (some ((nodes gid).getD [] ++ [{ nodeName := name, nodeNamespace }]))
  | .associate isReader entityGid gid name nodeNamespace, nodes =>
      Function.update nodes gid (some (modifyNode (name, nodeNamespace)
        (·.addEntity isReader entityGid) ((nodes gid).getD [])))
  | .addEntity .., nodes | .removeEntity .., nodes => nodes
  | .updateParticipantEntities message, nodes =>
      Function.update nodes message.gid (some message.nodeEntitiesInfoSeq)

section
variable [LawfulMutators Cache] [LawfulPreconditions Cache]

theorem perform_addNode_of_some {gid : Gid} {name nodeNamespace : Text} {cache after : Cache}
    {message : ParticipantEntitiesInfo}
    (performed : (Mutator.addNode gid name nodeNamespace).perform cache = some (message, after)) :
    ∃ nodes, GraphCache.nodes cache gid = some nodes ∧
      message = ⟨gid, nodes ++ [{ nodeName := name, nodeNamespace }]⟩ ∧
      SetsNodes cache gid (some (nodes ++ [{ nodeName := name, nodeNamespace }])) after := by
  obtain ⟨nodes, known⟩ :=
    Option.isSome_iff_exists.mp (LawfulPreconditions.addNode _ _ _ _ _ performed)
  obtain ⟨expected, added, sets⟩ :=
    LawfulMutators.addNode gid name nodeNamespace nodes cache known
  cases added.symm.trans performed
  exact ⟨nodes, known, rfl, sets⟩

theorem perform_associate_of_some {isReader : Bool} {entityGid gid : Gid} {name nodeNamespace : Text}
    {cache after : Cache} {message : ParticipantEntitiesInfo}
    (performed : (Mutator.associate isReader entityGid gid name nodeNamespace).perform cache =
      some (message, after)) :
    ∃ nodes, GraphCache.nodes cache gid = some nodes ∧
      message = ⟨gid, modifyNode (name, nodeNamespace) (·.addEntity isReader entityGid) nodes⟩ ∧
      SetsNodes cache gid
        (some (modifyNode (name, nodeNamespace) (·.addEntity isReader entityGid) nodes)) after := by
  have present : HasNode cache gid (name, nodeNamespace) := by
    cases isReader with
    | false => exact LawfulPreconditions.associateWriter _ _ _ _ _ _ performed
    | true => exact LawfulPreconditions.associateReader _ _ _ _ _ _ performed
  obtain ⟨nodes, known, named⟩ := present
  obtain ⟨expected, associated, sets⟩ :=
    perform_associate isReader entityGid gid name nodeNamespace known named
  cases associated.symm.trans performed
  exact ⟨nodes, known, rfl, sets⟩

/-- What a mutator that has returned did to the node lists. -/
theorem nodes_perform {mutator : Mutator} {cache after : Cache} {result : mutator.Result}
    (performed : mutator.perform cache = some (result, after)) :
    GraphCache.nodes after = mutator.nodesAfter (GraphCache.nodes cache) := by
  cases mutator with
  | addParticipant gid enclave =>
    cases performed
    exact (LawfulMutators.addParticipant gid enclave cache).nodes
  | removeParticipant gid =>
    cases performed
    exact (LawfulMutators.removeParticipant gid cache).nodes
  | addNode gid name nodeNamespace =>
    obtain ⟨nodes, known, _, sets⟩ := perform_addNode_of_some performed
    rw [sets.nodes, Mutator.nodesAfter, known, Option.getD_some]
  | associate isReader entityGid gid name nodeNamespace =>
    obtain ⟨nodes, known, _, sets⟩ := perform_associate_of_some performed
    rw [sets.nodes, Mutator.nodesAfter, known, Option.getD_some]
  | addEntity gid info isReader =>
    cases performed
    exact (LawfulMutators.addEntity gid info isReader cache).nodes
  | removeEntity gid isReader =>
    cases performed
    exact (LawfulMutators.removeEntity gid isReader cache).nodes
  | updateParticipantEntities message =>
    cases performed
    exact (LawfulMutators.updateParticipantEntities message cache).nodes

end

/-! ## Entities of a node -/

def NodeEntitiesInfo.gidSeq (isReader : Bool) (node : NodeEntitiesInfo) : List Gid :=
  if isReader then node.readerGidSeq else node.writerGidSeq

@[simp] theorem key_addEntity (isReader : Bool) (gid : Gid) (node : NodeEntitiesInfo) :
    (node.addEntity isReader gid).key = node.key := by
  cases isReader <;> rfl

theorem mem_gidSeq_addEntity (isReader which : Bool) (gid other : Gid) (node : NodeEntitiesInfo) :
    other ∈ (node.addEntity isReader gid).gidSeq which ↔
      other ∈ node.gidSeq which ∨ which = isReader ∧ other = gid := by
  cases isReader <;> cases which <;>
    simp [NodeEntitiesInfo.addEntity, NodeEntitiesInfo.addReader, NodeEntitiesInfo.addWriter,
      NodeEntitiesInfo.gidSeq]

/-- Each node is one from before, or the changed one. -/
theorem mem_modifyNode {key : Text × Text} {change : NodeEntitiesInfo → NodeEntitiesInfo}
    {nodes : List NodeEntitiesInfo} {node : NodeEntitiesInfo}
    (member : node ∈ modifyNode key change nodes) :
    node ∈ nodes ∨ ∃ old ∈ nodes, old.key = key ∧ node = change old := by
  induction nodes with
  | nil => exact Or.inl member
  | cons head rest ih =>
    simp only [modifyNode] at member
    split at member
    · rename_i named
      obtain rfl | later := List.mem_cons.mp member
      · exact Or.inr ⟨head, by simp, named, rfl⟩
      · exact Or.inl (List.mem_cons_of_mem _ later)
    · obtain rfl | later := List.mem_cons.mp member
      · exact Or.inl (by simp)
      · obtain old | ⟨old, inside, named, changed⟩ := ih later
        · exact Or.inl (List.mem_cons_of_mem _ old)
        · exact Or.inr ⟨old, List.mem_cons_of_mem _ inside, named, changed⟩

/-! ## The reference cache -/

namespace ReferenceCache

theorem hasNode_of_associate {change : NodeEntitiesInfo → NodeEntitiesInfo} {gid : Gid}
    {name nodeNamespace : Text} {answer : ParticipantEntitiesInfo × ReferenceCache}
    {cache : ReferenceCache}
    (associated : associate change gid name nodeNamespace cache = some answer) :
    HasNode cache gid (name, nodeNamespace) := by
  obtain ⟨nodes, known, found⟩ := Option.bind_eq_some_iff.mp associated
  split at found
  · rename_i named
    exact ⟨nodes, known, named⟩
  · cases found

instance : LawfulPreconditions ReferenceCache where
  addNode gid name nodeNamespace answer cache added := by
    obtain ⟨nodes, known, _⟩ := Option.map_eq_some_iff.mp added
    exact Option.isSome_iff_exists.mpr ⟨nodes, known⟩
  associateWriter _ _ _ _ _ _ := hasNode_of_associate
  associateReader _ _ _ _ _ _ := hasNode_of_associate

end ReferenceCache

end MicroRosAgent
