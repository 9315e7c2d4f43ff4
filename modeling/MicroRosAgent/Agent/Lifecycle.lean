import MicroRosAgent.Agent.Effects
import MicroRosAgent.GraphCache.Reference
import MicroRosAgent.Interleaving.Lts

/-! # Runs that respect the object life cycle

The callbacks of any number of participants in any number of domains, with samples of
the managers arriving in between.  In a run that respects the life cycle of the DDS
objects, the lookups in `micro_ros_graph_datawriters_` and the associations in the cache
succeed for every participant that `add_participant` gives a node and a discovery
writer.  It gives them to all but those named `/`, while the callbacks of all use them:
`exec_isSome_iff`.
-/

namespace MicroRosAgent.Agent

open Interleaving GraphManager

variable [Rmw] {Cache : Type} [GraphCache Cache]

/-- The agent: `graph_manager_map_`. -/
structure State (Cache : Type) where
  graphManagerMap : Nat → Option (Manager Cache) := fun _ => none

def findOrCreateGraphManager (agent : State Cache) (domainId : Nat) : Manager Cache :=
  (agent.graphManagerMap domainId).getD { graphCache := GraphCache.empty }

def State.setManager (agent : State Cache) (domainId : Nat) (manager : Manager Cache) :
    State Cache :=
  ⟨Function.update agent.graphManagerMap domainId (some manager)⟩

inductive Event where
  | callback (callback : Callback)
  -- a sample arrives in the reader of the domain's manager, if one is in flight
  | loopback (domainId : Nat)
  deriving DecidableEq

def step (agent : State Cache) : Event → Option (State Cache)
  | .callback callback =>
      let domainId := callback.participant.domainId
      (callback.program.run handle (findOrCreateGraphManager agent domainId)).map fun answer =>
        agent.setManager domainId answer.2
  | .loopback domainId =>
      match agent.graphManagerMap domainId with
      | none => some agent
      | some manager => some (agent.setManager domainId ((loopback manager).getD manager))

def system (Cache : Type) [GraphCache Cache] : Lts (State Cache) Event := ⟨step⟩

/-- What the life cycle of the DDS objects allows: `live` are the participants that
    exist, `used` all GUIDs so far.  A pointer is not shared by two objects at a time. -/
def Allowed (live : List DomainParticipant) (used : List Guid) : Event → Prop
  | .loopback _ => True
  | .callback (.createParticipant participant) =>
      (∀ other ∈ live, other.handle ≠ participant.handle) ∧ participant.guid ∉ used
  | .callback callback => callback.participant ∈ live

def liveAfter (live : List DomainParticipant) : Event → List DomainParticipant
  | .callback (.createParticipant participant) => participant :: live
  | .callback (.deleteParticipant participant) => live.filter (· ≠ participant)
  | _ => live

def usedAfter (used : List Guid) : Event → List Guid
  | .callback (.createParticipant participant) => participant.guid :: used
  | _ => used

/-- CREATE_PARTICIPANT comes first and once, DELETE_PARTICIPANT at most once and last. -/
def LifeCycle (live : List DomainParticipant) (used : List Guid) : List Event → Prop
  | [] => True
  | event :: events =>
      Allowed live used event ∧ LifeCycle (liveAfter live event) (usedAfter used event) events

def Root (participant : DomainParticipant) : Prop := participant.name = ['/']

/-- The callbacks that look up the discovery writer without a check. -/
def Callback.Dereferences : Callback → Prop
  | .deleteParticipant _ => True
  | callback => callback.created ≠ []

/-- A callback that needs the discovery writer of a participant named `/`. -/
def Event.OnRoot : Event → Prop
  | .callback invoked => Root invoked.participant ∧ invoked.Dereferences
  | .loopback _ => False

/-! ## The invariant of one manager -/

/-- The participants of a domain that have a node. -/
def OfDomain (live : List DomainParticipant) (domainId : Nat) (participant : DomainParticipant) :
    Prop :=
  participant ∈ live ∧ participant.domainId = domainId ∧ ¬ Root participant

structure Serves (live : List DomainParticipant) (used : List Guid) (domainId : Nat)
    (manager : Manager Cache) : Prop where
  history : manager.history = []
  registered : ∀ participant, OfDomain live domainId participant →
    ∃ nodes, Registered manager participant nodes
  sentBefore : ∀ info ∈ manager.inFlight, ∃ guid ∈ used, gidOf guid = info.gid
  -- a sample that is still to arrive does not take the node away
  named : ∀ info ∈ manager.inFlight, ∀ participant, OfDomain live domainId participant →
    info.gid = participant.gid → ∃ node ∈ info.nodeEntitiesInfoSeq, node.key = nodeKey participant
  writers : ∀ handle, (manager.datawriters handle).isSome →
    ∃ participant, OfDomain live domainId participant ∧ participant.handle = handle

/-- Two live participants differ in their pointer and in their GUID. -/
structure Distinct (live : List DomainParticipant) (used : List Guid) : Prop where
  handle : ∀ first ∈ live, ∀ second ∈ live, first.handle = second.handle → first = second
  guid : ∀ first ∈ live, ∀ second ∈ live, first.guid = second.guid → first = second
  used : ∀ participant ∈ live, participant.guid ∈ used

theorem serves_fresh (used : List Guid) (domainId : Nat) :
    Serves [] used domainId { graphCache := (GraphCache.empty : Cache) } := by
  refine ⟨rfl, ?_, by simp, by simp, by simp⟩
  intro participant ofDomain
  exact absurd ofDomain.1 (by simp)

/-- What a manager serves does not depend on the participants of other domains. -/
theorem Serves.congr {live live' : List DomainParticipant} {used used' : List Guid} {domainId : Nat}
    {manager : Manager Cache} (serves : Serves live used domainId manager)
    (same : ∀ participant, OfDomain live' domainId participant ↔ OfDomain live domainId participant)
    (grown : ∀ guid ∈ used, guid ∈ used') : Serves live' used' domainId manager := by
  refine ⟨serves.history, ?_, ?_, ?_, ?_⟩
  · intro participant ofDomain
    exact serves.registered participant ((same participant).mp ofDomain)
  · intro info member
    obtain ⟨guid, before, equal⟩ := serves.sentBefore info member
    exact ⟨guid, grown guid before, equal⟩
  · intro info member participant ofDomain
    exact serves.named info member participant ((same participant).mp ofDomain)
  · intro handle isSome
    obtain ⟨participant, ofDomain, equal⟩ := serves.writers handle isSome
    exact ⟨participant, (same participant).mpr ofDomain, equal⟩

/-- An effect on the nodes of one participant leaves the others registered. -/
theorem registered_of_effect {manager after : Manager Cache} {gid : Gid}
    {nodes : Option (List NodeEntitiesInfo)} {sent : List ParticipantEntitiesInfo}
    {datawriters : Nat → Option Nat} {participant : DomainParticipant}
    {own : List NodeEntitiesInfo} (effect : Effect manager gid nodes sent datawriters after)
    (registered : Registered manager participant own) (other : participant.gid ≠ gid)
    (announced : (datawriters participant.handle).isSome) : Registered after participant own := by
  refine ⟨?_, registered.named, ?_⟩
  · rw [effect.nodes, Function.update_of_ne other]
    exact registered.cached
  · rw [effect.datawriters]
    exact announced

/-- An effect that sends nothing and changes the nodes of no served participant. -/
theorem serves_of_silent {live : List DomainParticipant} {used : List Guid} {domainId : Nat}
    {manager after : Manager Cache} {gid : Gid} {nodes : Option (List NodeEntitiesInfo)}
    (serves : Serves live used domainId manager)
    (effect : Effect manager gid nodes [] manager.datawriters after)
    (kept : ∀ participant, OfDomain live domainId participant → participant.gid = gid →
      nodes = GraphCache.nodes manager.graphCache gid) : Serves live used domainId after := by
  have inFlight := effect.inFlight
  rw [List.append_nil] at inFlight
  refine ⟨effect.history.trans serves.history, ?_, ?_, ?_, ?_⟩
  · intro participant ofDomain
    obtain ⟨own, registered⟩ := serves.registered participant ofDomain
    by_cases same : participant.gid = gid
    · refine ⟨own, ?_, registered.named, ?_⟩
      · rw [effect.nodes, kept participant ofDomain same, Function.update_eq_self]
        exact registered.cached
      · rw [effect.datawriters]
        exact registered.announced
    · exact ⟨own, registered_of_effect effect registered same registered.announced⟩
  · rw [inFlight]
    exact serves.sentBefore
  · rw [inFlight]
    exact serves.named
  · rw [effect.datawriters]
    exact serves.writers

omit [GraphCache Cache] in
/-- What a live participant sends carries its own GUID. -/
theorem sentBefore_concat {used : List Guid} {manager after : Manager Cache} {guid : Guid}
    {info : ParticipantEntitiesInfo}
    (before : ∀ info ∈ manager.inFlight, ∃ guid ∈ used, gidOf guid = info.gid)
    (inFlight : after.inFlight = manager.inFlight ++ [info]) (own : gidOf guid = info.gid)
    (known : guid ∈ used) : ∀ info ∈ after.inFlight, ∃ guid ∈ used, gidOf guid = info.gid := by
  intro sent member
  rw [inFlight] at member
  obtain old | new := List.mem_append.mp member
  · exact before sent old
  · rw [List.mem_singleton.mp new]
    exact ⟨guid, known, own⟩

variable [LawfulMutators Cache] [LawfulGids]

theorem serves_createEndpoint {live : List DomainParticipant} {used : List Guid} {domainId : Nat}
    {manager : Manager Cache} (serves : Serves live used domainId manager)
    (distinct : Distinct live used) {participant : DomainParticipant}
    (ofDomain : OfDomain live domainId participant) (isReader : Bool) (endpoint : Endpoint) :
    ∃ after, (createEndpoint participant isReader endpoint).run handle manager = some ((), after) ∧
      Serves live used domainId after := by
  obtain ⟨nodes, registered⟩ := serves.registered participant ofDomain
  obtain ⟨after, ran, effect⟩ := createEndpoint_effect participant isReader endpoint registered
  have named := named_modifyNode (nodeKey participant) isReader endpoint.gid registered.named
  have same : ∀ other, OfDomain live domainId other → other.gid = participant.gid →
      other = participant := by
    intro other otherOf equal
    exact distinct.guid other otherOf.1 participant ofDomain.1 (gidOf_injective equal)
  refine ⟨after, ran, effect.history.trans serves.history, ?_, ?_, ?_, ?_⟩
  · intro other otherOf
    by_cases equal : other.gid = participant.gid
    · cases same other otherOf equal
      refine ⟨_, ?_, named, ?_⟩
      · rw [effect.nodes, Function.update_self]
      · rw [effect.datawriters]
        exact registered.announced
    · obtain ⟨otherNodes, otherRegistered⟩ := serves.registered other otherOf
      exact ⟨otherNodes,
        registered_of_effect effect otherRegistered equal otherRegistered.announced⟩
  · exact sentBefore_concat serves.sentBefore effect.inFlight rfl
      (distinct.used participant ofDomain.1)
  · intro info member other otherOf equal
    rw [effect.inFlight] at member
    obtain old | new := List.mem_append.mp member
    · exact serves.named info old other otherOf equal
    · rw [List.mem_singleton.mp new] at equal ⊢
      cases same other otherOf equal.symm
      exact named
  · rw [effect.datawriters]
    exact serves.writers

theorem serves_createEndpoints {live : List DomainParticipant} {used : List Guid} {domainId : Nat}
    {manager : Manager Cache} (serves : Serves live used domainId manager)
    (distinct : Distinct live used) {participant : DomainParticipant}
    (ofDomain : OfDomain live domainId participant) (created : List (Bool × Endpoint)) :
    ∃ after, (createEndpoints participant created).run handle manager = some ((), after) ∧
      Serves live used domainId after := by
  induction created generalizing manager with
  | nil => exact ⟨manager, rfl, serves⟩
  | cons entity rest ih =>
    obtain ⟨middle, first, serves⟩ :=
      serves_createEndpoint serves distinct ofDomain entity.1 entity.2
    obtain ⟨after, second, serves⟩ := ih serves
    refine ⟨after, ?_, serves⟩
    simp only [createEndpoints, Program.run_bind, first, Option.bind_some, second]

omit [LawfulGids] in
theorem serves_deleteEndpoints {live : List DomainParticipant} {used : List Guid} {domainId : Nat}
    {manager : Manager Cache} (serves : Serves live used domainId manager)
    (deleted : List (Bool × Endpoint)) :
    ∃ after, (deleteEndpoints deleted).run handle manager = some ((), after) ∧
      Serves live used domainId after := by
  induction deleted generalizing manager with
  | nil => exact ⟨manager, rfl, serves⟩
  | cons entity rest ih =>
    obtain ⟨middle, first, effect⟩ := deleteEndpoint_effect ⟨0⟩ entity.1 entity.2 manager
    have kept := serves_of_silent serves effect fun _ _ _ => rfl
    obtain ⟨after, second, serves⟩ := ih kept
    refine ⟨after, ?_, serves⟩
    simp only [deleteEndpoints, Program.run_bind, first, Option.bind_some, second]

omit [LawfulGids] in
theorem serves_loopback {live : List DomainParticipant} {used : List Guid} {domainId : Nat}
    {manager : Manager Cache} (serves : Serves live used domainId manager) :
    Serves live used domainId ((loopback manager).getD manager) := by
  cases sent : manager.inFlight with
  | nil => simpa [loopback, sent] using serves
  | cons info later =>
    have updated := LawfulMutators.updateParticipantEntities info manager.graphCache
    rw [loopback_eq sent serves.history, Option.getD_some]
    refine ⟨serves.history, ?_, ?_, ?_, serves.writers⟩
    · intro participant ofDomain
      obtain ⟨own, registered⟩ := serves.registered participant ofDomain
      by_cases equal : info.gid = participant.gid
      · refine ⟨info.nodeEntitiesInfoSeq, ?_, ?_, registered.announced⟩
        · rw [updated.nodes, equal, Function.update_self]
        · exact serves.named info (by simp [sent]) participant ofDomain equal
      · refine ⟨own, ?_, registered.named, registered.announced⟩
        rw [updated.nodes, Function.update_of_ne (Ne.symm equal)]
        exact registered.cached
    · intro other member
      exact serves.sentBefore other (by simp [sent, show other ∈ later from member])
    · intro other member
      exact serves.named other (by simp [sent, show other ∈ later from member])

omit [LawfulGids] in
/-- A participant named `/` gets an entry in the cache and nothing else. -/
theorem serves_createRoot {live : List DomainParticipant} {used : List Guid}
    {manager : Manager Cache} {participant : DomainParticipant}
    (serves : Serves live used participant.domainId manager) (root : Root participant)
    (newGid : ∀ other ∈ live, other.gid ≠ participant.gid) :
    ∃ after, (onCreateParticipant participant).run handle manager = some ((), after) ∧
      Serves (participant :: live) (participant.guid :: used) participant.domainId after := by
  obtain ⟨after, ran, effect⟩ := addParticipant_root participant ['/'] manager root
  have kept := serves_of_silent serves effect fun other otherOf equal =>
    absurd equal (newGid other otherOf.1)
  refine ⟨after, ran, kept.congr ?_ (by simp_all)⟩
  intro other
  constructor
  · intro ⟨member, ofDomain, notRoot⟩
    obtain rfl | member := List.mem_cons.mp member
    · exact absurd root notRoot
    · exact ⟨member, ofDomain, notRoot⟩
  · intro ⟨member, ofDomain, notRoot⟩
    exact ⟨List.mem_cons_of_mem _ member, ofDomain, notRoot⟩

/-- Any other participant gets a node and a discovery writer, and is announced. -/
theorem serves_createNode {live : List DomainParticipant} {used : List Guid}
    {manager : Manager Cache} {participant : DomainParticipant}
    (serves : Serves live used participant.domainId manager) (notRoot : ¬ Root participant)
    (newHandle : ∀ other ∈ live, other.handle ≠ participant.handle)
    (newGuid : participant.guid ∉ used) (newGid : ∀ other ∈ live, other.gid ≠ participant.gid) :
    ∃ after, (onCreateParticipant participant).run handle manager = some ((), after) ∧
      Serves (participant :: live) (participant.guid :: used) participant.domainId after := by
  obtain ⟨after, datawriter, ran, effect⟩ := addParticipant_effect participant ['/'] manager notRoot
  have named : ∀ nodes : List NodeEntitiesInfo,
      ∃ node ∈ nodes ++ [nodeOf participant], node.key = nodeKey participant :=
    fun nodes => ⟨nodeOf participant, by simp, rfl⟩
  have registered : Registered after participant
      ((GraphCache.nodes manager.graphCache participant.gid).getD [] ++ [nodeOf participant]) := by
    refine ⟨?_, named _, ?_⟩
    · rw [effect.nodes, Function.update_self]
    · rw [effect.datawriters, Function.update_self]
      rfl
  refine ⟨after, ran, effect.history.trans serves.history, ?_, ?_, ?_, ?_⟩
  · intro other ⟨member, ofDomain, otherNotRoot⟩
    obtain rfl | member := List.mem_cons.mp member
    · exact ⟨_, registered⟩
    · obtain ⟨own, registered⟩ := serves.registered other ⟨member, ofDomain, otherNotRoot⟩
      refine ⟨own, registered_of_effect effect registered (newGid other member) ?_⟩
      rw [Function.update_of_ne (newHandle other member)]
      exact registered.announced
  · refine sentBefore_concat ?_ effect.inFlight rfl List.mem_cons_self
    intro info old
    obtain ⟨guid, before, equal⟩ := serves.sentBefore info old
    exact ⟨guid, List.mem_cons_of_mem _ before, equal⟩
  · intro info member other ⟨otherMember, ofDomain, otherNotRoot⟩ equal
    rw [effect.inFlight] at member
    obtain old | new := List.mem_append.mp member
    · obtain rfl | otherMember := List.mem_cons.mp otherMember
      · -- nothing was sent for the GUID before
        obtain ⟨guid, before, sameGid⟩ := serves.sentBefore info old
        exact absurd (gidOf_injective (sameGid.trans equal) ▸ before) newGuid
      · exact serves.named info old other ⟨otherMember, ofDomain, otherNotRoot⟩ equal
    · rw [List.mem_singleton.mp new] at equal ⊢
      obtain rfl | otherMember := List.mem_cons.mp otherMember
      · exact named _
      · exact absurd equal.symm (newGid other otherMember)
  · intro handle isSome
    rw [effect.datawriters] at isSome
    by_cases own : handle = participant.handle
    · exact ⟨participant, ⟨List.mem_cons_self, rfl, notRoot⟩, own.symm⟩
    · rw [Function.update_of_ne own] at isSome
      obtain ⟨other, ⟨member, ofDomain, otherNotRoot⟩, equal⟩ := serves.writers handle isSome
      exact ⟨other, ⟨List.mem_cons_of_mem _ member, ofDomain, otherNotRoot⟩, equal⟩

theorem serves_createParticipant {live : List DomainParticipant} {used : List Guid}
    {manager : Manager Cache} {participant : DomainParticipant}
    (serves : Serves live used participant.domainId manager) (distinct : Distinct live used)
    (newHandle : ∀ other ∈ live, other.handle ≠ participant.handle)
    (newGuid : participant.guid ∉ used) :
    ∃ after, (onCreateParticipant participant).run handle manager = some ((), after) ∧
      Serves (participant :: live) (participant.guid :: used) participant.domainId after := by
  have newGid : ∀ other ∈ live, other.gid ≠ participant.gid := by
    intro other member equal
    exact newGuid (gidOf_injective equal ▸ distinct.used other member)
  by_cases root : Root participant
  · exact serves_createRoot serves root newGid
  · exact serves_createNode serves root newHandle newGuid newGid

theorem serves_deleteParticipant {live : List DomainParticipant} {used : List Guid}
    {manager : Manager Cache} {participant : DomainParticipant}
    (serves : Serves live used participant.domainId manager) (distinct : Distinct live used)
    (member : participant ∈ live) (notRoot : ¬ Root participant) :
    ∃ after, (onDeleteParticipant participant).run handle manager = some ((), after) ∧
      Serves (live.filter (· ≠ participant)) used participant.domainId after := by
  obtain ⟨own, registered⟩ := serves.registered participant ⟨member, rfl, notRoot⟩
  obtain ⟨after, ran, effect⟩ := removeParticipant_effect participant registered.announced
  have still : ∀ other, OfDomain (live.filter (· ≠ participant)) participant.domainId other ↔
      OfDomain live participant.domainId other ∧ other ≠ participant := by
    intro other
    simp only [OfDomain, List.mem_filter, decide_eq_true_eq]
    constructor
    · intro ⟨⟨member, different⟩, rest⟩
      exact ⟨⟨member, rest⟩, different⟩
    · intro ⟨⟨member, rest⟩, different⟩
      exact ⟨⟨member, different⟩, rest⟩
  refine ⟨after, ran, effect.history.trans serves.history, ?_, ?_, ?_, ?_⟩
  · intro other otherOf
    obtain ⟨otherOf, different⟩ := (still other).mp otherOf
    obtain ⟨own, registered⟩ := serves.registered other otherOf
    have otherGid : other.gid ≠ participant.gid := fun equal =>
      different (distinct.guid other otherOf.1 participant member (gidOf_injective equal))
    have otherHandle : other.handle ≠ participant.handle := fun equal =>
      different (distinct.handle other otherOf.1 participant member equal)
    refine ⟨own, registered_of_effect effect registered otherGid ?_⟩
    rw [Function.update_of_ne otherHandle]
    exact registered.announced
  · exact sentBefore_concat serves.sentBefore effect.inFlight rfl (distinct.used participant member)
  · intro info sent other otherOf equal
    obtain ⟨otherOf, different⟩ := (still other).mp otherOf
    rw [effect.inFlight] at sent
    obtain old | new := List.mem_append.mp sent
    · exact serves.named info old other otherOf equal
    · rw [List.mem_singleton.mp new] at equal
      exact absurd (distinct.guid other otherOf.1 participant member (gidOf_injective equal.symm))
        different
  · intro handle isSome
    rw [effect.datawriters] at isSome
    by_cases same : handle = participant.handle
    · simp [same] at isSome
    · rw [Function.update_of_ne same] at isSome
      obtain ⟨other, otherOf, equal⟩ := serves.writers handle isSome
      refine ⟨other, (still other).mpr ⟨otherOf, ?_⟩, equal⟩
      intro different
      exact same (equal ▸ different ▸ rfl)

/-! ## Runs -/

/-- Every manager serves the live participants of its domain. -/
structure Invariant (live : List DomainParticipant) (used : List Guid) (agent : State Cache) :
    Prop where
  distinct : Distinct live used
  serves : ∀ domainId, Serves live used domainId (findOrCreateGraphManager agent domainId)

omit [Rmw] [LawfulMutators Cache] [LawfulGids] in
theorem findOrCreate_setManager (agent : State Cache) (domainId other : Nat)
    (manager : Manager Cache) :
    findOrCreateGraphManager (agent.setManager domainId manager) other =
      if other = domainId then manager else findOrCreateGraphManager agent other := by
  by_cases same : other = domainId
  · subst same
    simp [findOrCreateGraphManager, State.setManager]
  · simp [findOrCreateGraphManager, State.setManager, same]

omit [LawfulMutators Cache] [LawfulGids] in
/-- A callback on a live participant only changes the manager of its domain. -/
theorem invariant_setManager {live live' : List DomainParticipant} {used used' : List Guid}
    {agent : State Cache} {domainId : Nat} {manager : Manager Cache}
    (invariant : Invariant live used agent) (distinct : Distinct live' used')
    (grown : ∀ guid ∈ used, guid ∈ used')
    (same : ∀ other, other ≠ domainId → ∀ participant,
      OfDomain live' other participant ↔ OfDomain live other participant)
    (serves : Serves live' used' domainId manager) :
    Invariant live' used' (agent.setManager domainId manager) := by
  refine ⟨distinct, ?_⟩
  intro other
  rw [findOrCreate_setManager]
  by_cases equal : other = domainId
  · subst equal
    rw [if_pos rfl]
    exact serves
  · rw [if_neg equal]
    exact (invariant.serves other).congr (same other equal) grown

omit [Rmw] [LawfulMutators Cache] [LawfulGids] [GraphCache Cache] in
theorem distinct_create {live : List DomainParticipant} {used : List Guid}
    {participant : DomainParticipant} (distinct : Distinct live used)
    (newHandle : ∀ other ∈ live, other.handle ≠ participant.handle)
    (newGuid : participant.guid ∉ used) :
    Distinct (participant :: live) (participant.guid :: used) := by
  have otherGuid : ∀ other ∈ live, other.guid ≠ participant.guid := by
    intro other member equal
    exact newGuid (equal ▸ distinct.used other member)
  refine ⟨?_, ?_, ?_⟩
  · intro first firstMember second secondMember equal
    obtain rfl | firstLive := List.mem_cons.mp firstMember <;>
      obtain rfl | secondLive := List.mem_cons.mp secondMember
    · rfl
    · exact absurd equal.symm (newHandle second secondLive)
    · exact absurd equal (newHandle first firstLive)
    · exact distinct.handle first firstLive second secondLive equal
  · intro first firstMember second secondMember equal
    obtain rfl | firstLive := List.mem_cons.mp firstMember <;>
      obtain rfl | secondLive := List.mem_cons.mp secondMember
    · rfl
    · exact absurd equal.symm (otherGuid second secondLive)
    · exact absurd equal (otherGuid first firstLive)
    · exact distinct.guid first firstLive second secondLive equal
  · intro other member
    obtain rfl | member := List.mem_cons.mp member
    · exact List.mem_cons_self
    · exact List.mem_cons_of_mem _ (distinct.used other member)

omit [Rmw] [LawfulMutators Cache] [LawfulGids] [GraphCache Cache] in
theorem distinct_delete {live : List DomainParticipant} {used : List Guid}
    (participant : DomainParticipant) (distinct : Distinct live used) :
    Distinct (live.filter (· ≠ participant)) used := by
  have still : ∀ other ∈ live.filter (· ≠ participant), other ∈ live :=
    fun other member => List.mem_of_mem_filter member
  refine ⟨?_, ?_, fun other member => distinct.used other (still other member)⟩
  · intro first firstMember second secondMember
    exact distinct.handle first (still first firstMember) second (still second secondMember)
  · intro first firstMember second secondMember
    exact distinct.guid first (still first firstMember) second (still second secondMember)

theorem step_createParticipant {live : List DomainParticipant} {used : List Guid}
    {agent : State Cache} {participant : DomainParticipant} (invariant : Invariant live used agent)
    (newHandle : ∀ other ∈ live, other.handle ≠ participant.handle)
    (newGuid : participant.guid ∉ used) :
    ∃ after, step agent (.callback (.createParticipant participant)) = some after ∧
      Invariant (participant :: live) (participant.guid :: used) after := by
  obtain ⟨manager, ran, serves⟩ := serves_createParticipant
    (invariant.serves participant.domainId) invariant.distinct newHandle newGuid
  refine ⟨agent.setManager participant.domainId manager, ?_, ?_⟩
  · simp only [step, Callback.program, Callback.participant, ran, Option.map_some]
  · refine invariant_setManager invariant
      (distinct_create invariant.distinct newHandle newGuid) (by simp_all) ?_ serves
    intro other different candidate
    constructor
    · intro eligible
      obtain ⟨member, ofDomain, notRoot⟩ := eligible
      obtain rfl | member := List.mem_cons.mp member
      · exact absurd ofDomain.symm different
      · exact ⟨member, ofDomain, notRoot⟩
    · intro eligible
      obtain ⟨member, ofDomain, notRoot⟩ := eligible
      exact ⟨List.mem_cons_of_mem _ member, ofDomain, notRoot⟩

theorem step_deleteParticipant {live : List DomainParticipant} {used : List Guid}
    {agent : State Cache} {participant : DomainParticipant} (invariant : Invariant live used agent)
    (member : participant ∈ live) (notRoot : ¬ Root participant) :
    ∃ after, step agent (.callback (.deleteParticipant participant)) = some after ∧
      Invariant (live.filter (· ≠ participant)) used after := by
  obtain ⟨manager, ran, serves⟩ := serves_deleteParticipant
    (invariant.serves participant.domainId) invariant.distinct member notRoot
  refine ⟨agent.setManager participant.domainId manager, ?_, ?_⟩
  · simp only [step, Callback.program, Callback.participant, ran, Option.map_some]
  · refine invariant_setManager invariant (distinct_delete participant invariant.distinct)
      (fun guid member => member) ?_ serves
    intro other different candidate
    simp only [OfDomain, List.mem_filter, decide_eq_true_eq]
    constructor
    · intro eligible
      obtain ⟨⟨member, _⟩, rest⟩ := eligible
      exact ⟨member, rest⟩
    · intro eligible
      obtain ⟨member, ofDomain, notRoot⟩ := eligible
      refine ⟨⟨member, ?_⟩, ofDomain, notRoot⟩
      intro same
      exact different (same ▸ ofDomain.symm)

/-- The callbacks on the entities of a live participant that has a node. -/
theorem step_entities {live : List DomainParticipant} {used : List Guid} {agent : State Cache}
    {callback : Callback} (invariant : Invariant live used agent)
    (member : callback.participant ∈ live)
    (ofEntities : callback.created ≠ [] ∨ callback.deleted ≠ [])
    (safe : callback.created ≠ [] → ¬ Root callback.participant) :
    ∃ after, step agent (.callback callback) = some after ∧ Invariant live used after := by
  have serves := invariant.serves callback.participant.domainId
  have ran : ∃ manager, callback.program.run handle
      (findOrCreateGraphManager agent callback.participant.domainId) = some ((), manager) ∧
      Serves live used callback.participant.domainId manager := by
    by_cases creates : callback.created = []
    · rw [program_eq_deleteEndpoints callback (ofEntities.resolve_left (not_not.mpr creates))]
      exact serves_deleteEndpoints serves callback.deleted
    · rw [program_eq_createEndpoints callback creates]
      exact serves_createEndpoints serves invariant.distinct ⟨member, rfl, safe creates⟩
        callback.created
  obtain ⟨manager, ran, served⟩ := ran
  refine ⟨agent.setManager callback.participant.domainId manager, ?_, ?_⟩
  · simp only [step, ran, Option.map_some]
  · exact invariant_setManager invariant invariant.distinct (fun _ member => member)
      (fun _ _ _ => Iff.rfl) served

omit [LawfulGids] in
theorem step_loopback {live : List DomainParticipant} {used : List Guid} {agent : State Cache}
    (invariant : Invariant live used agent) (domainId : Nat) :
    ∃ after, step agent (.loopback domainId) = some after ∧ Invariant live used after := by
  cases managed : agent.graphManagerMap domainId with
  | none => exact ⟨agent, by simp [step, managed], invariant⟩
  | some manager =>
    have serves := invariant.serves domainId
    rw [findOrCreateGraphManager, managed, Option.getD_some] at serves
    refine ⟨agent.setManager domainId ((loopback manager).getD manager), by simp [step, managed], ?_⟩
    exact invariant_setManager invariant invariant.distinct (fun _ member => member)
      (fun _ _ _ => Iff.rfl) (serves_loopback serves)

omit [LawfulMutators Cache] [LawfulGids] in
/-- A participant named `/` never has a discovery writer. -/
theorem missing_of_root {live : List DomainParticipant} {used : List Guid} {agent : State Cache}
    (invariant : Invariant live used agent) {participant : DomainParticipant}
    (member : participant ∈ live) (root : Root participant) :
    (findOrCreateGraphManager agent participant.domainId).datawriters participant.handle = none := by
  by_contra found
  obtain ⟨other, otherOf, equal⟩ := (invariant.serves participant.domainId).writers
    participant.handle (Option.isSome_iff_ne_none.mpr found)
  have same := invariant.distinct.handle other otherOf.1 participant member equal
  exact otherOf.2.2 (same ▸ root)

omit [LawfulMutators Cache] [LawfulGids] in
theorem step_onRoot {live : List DomainParticipant} {used : List Guid} {agent : State Cache}
    {event : Event} (invariant : Invariant live used agent) (allowed : Allowed live used event)
    (onRoot : event.OnRoot) : step agent event = none := by
  cases event with
  | loopback domainId => exact absurd onRoot id
  | callback callback =>
    obtain ⟨root, dereferences⟩ := onRoot
    have failed : callback.program.run handle
        (findOrCreateGraphManager agent callback.participant.domainId) = none := by
      by_cases creates : callback.created = []
      · cases callback with
        | deleteParticipant participant =>
          exact removeParticipant_none participant (missing_of_root invariant allowed root)
        | createParticipant | deleteDatawriter | deleteDatareader | deleteRequester
        | deleteReplier => exact absurd creates dereferences
        | createDatawriter | createDatareader | createRequester | createReplier =>
          simp [Callback.created] at creates
      · have member : callback.participant ∈ live := by
          cases callback <;> first | exact allowed | exact absurd rfl creates
        have missing := missing_of_root invariant member root
        rw [program_eq_createEndpoints callback creates]
        obtain ⟨entity, rest, split⟩ := List.exists_cons_of_ne_nil creates
        rw [split]
        simp only [createEndpoints, Program.run_bind,
          createEndpoint_none callback.participant entity.1 entity.2 missing, Option.bind_none]
    simp only [step, failed, Option.map_none]

/-- One event: it goes through unless it needs the discovery writer of a participant
named `/`, and keeps the invariant. -/
theorem step_safe {live : List DomainParticipant} {used : List Guid} {agent : State Cache}
    {event : Event} (invariant : Invariant live used agent) (allowed : Allowed live used event)
    (safe : ¬ event.OnRoot) :
    ∃ after, step agent event = some after ∧
      Invariant (liveAfter live event) (usedAfter used event) after := by
  cases event with
  | loopback domainId => exact step_loopback invariant domainId
  | callback callback =>
    cases callback with
    | createParticipant participant => exact step_createParticipant invariant allowed.1 allowed.2
    | deleteParticipant participant =>
      exact step_deleteParticipant invariant allowed fun root => safe ⟨root, trivial⟩
    | createDatawriter | createDatareader | createRequester | createReplier =>
      exact step_entities invariant allowed (Or.inl (by simp [Callback.created]))
        fun creates root => safe ⟨root, creates⟩
    | deleteDatawriter | deleteDatareader | deleteRequester | deleteReplier =>
      exact step_entities invariant allowed (Or.inr (by simp [Callback.deleted]))
        fun creates => absurd rfl creates

theorem exec_isSome_from {live : List DomainParticipant} {used : List Guid} {agent : State Cache}
    {events : List Event} (invariant : Invariant live used agent)
    (lifeCycle : LifeCycle live used events) :
    (∃ final, (system Cache).exec agent events = some final) ↔ ∀ event ∈ events, ¬ event.OnRoot := by
  induction events generalizing live used agent with
  | nil => simp
  | cons event events ih =>
    obtain ⟨allowed, lifeCycle⟩ := lifeCycle
    by_cases onRoot : event.OnRoot
    · have failed : (system Cache).exec agent (event :: events) = none := by
        rw [Lts.exec_cons]
        simp only [system, step_onRoot invariant allowed onRoot, Option.bind_none]
      simp [failed, onRoot]
    · obtain ⟨next, stepped, invariant⟩ := step_safe invariant allowed onRoot
      have unfolded : (system Cache).exec agent (event :: events) =
          (system Cache).exec next events := by
        rw [Lts.exec_cons]
        simp only [system, stepped, Option.bind_some]
      rw [unfolded, ih invariant lifeCycle]
      simp [onRoot]

/-- A run goes through, so that every lookup of a discovery writer finds one and every
association finds its node, if and only if it needs neither for a participant named `/`. -/
theorem exec_isSome_iff (events : List Event) (lifeCycle : LifeCycle [] [] events) :
    (∃ final, (system Cache).exec {} events = some final) ↔ ∀ event ∈ events, ¬ event.OnRoot := by
  refine exec_isSome_from ⟨⟨by simp, by simp, by simp⟩, ?_⟩ lifeCycle
  intro domainId
  exact serves_fresh [] domainId

end MicroRosAgent.Agent

/-! ## A participant named `/` -/

namespace MicroRosAgent.Agent

open Interleaving GraphManager

attribute [local instance] referenceRmw referenceRmw_lawfulGids

theorem exec_isSome_iff_named :
    (∃ final, (system ReferenceCache).exec {}
      [.callback (.createParticipant (ReferenceRmw.participant 1 "/node".toList)),
        .callback (.deleteParticipant (ReferenceRmw.participant 1 "/node".toList))] = some final) ↔
      ∀ event ∈ [Event.callback (.createParticipant (ReferenceRmw.participant 1 "/node".toList)),
        .callback (.deleteParticipant (ReferenceRmw.participant 1 "/node".toList))],
        ¬ event.OnRoot :=
  exec_isSome_iff _ (by simp [LifeCycle, Allowed, liveAfter, Callback.participant])

/-- Deleting a participant named `/` dereferences `end()`. -/
theorem delete_root_faults :
    LifeCycle [] [] [.callback (.createParticipant (ReferenceRmw.participant 1 ['/'])),
        .callback (.deleteParticipant (ReferenceRmw.participant 1 ['/']))] ∧
      (system ReferenceCache).exec {}
        [.callback (.createParticipant (ReferenceRmw.participant 1 ['/'])),
          .callback (.deleteParticipant (ReferenceRmw.participant 1 ['/']))] = none := by
  refine ⟨by simp [LifeCycle, Allowed, liveAfter, Callback.participant], ?_⟩
  rfl

end MicroRosAgent.Agent
