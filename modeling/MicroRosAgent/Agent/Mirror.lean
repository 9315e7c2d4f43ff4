import MicroRosAgent.Agent.Registry
import MicroRosAgent.Interleaving.RelyGuarantee

/-! # What a manager has of the registry

`Mirrors` relates the manager of a domain to the registry.  Every participant's node list,
once the samples in flight are delivered, names all endpoints ever created for it; the
entity tables have those of the registry and no others.  Each callback keeps the relation,
with the step the registry takes (`mirrors_createEndpoints` and the lemmas after it).
-/

namespace MicroRosAgent.Agent

open Interleaving GraphManager Utils

open EntityPaths (Entity)

variable [Rmw] {Cache : Type} [GraphCache Cache]

/-- The kind and the guid of an entity. -/
def identity (entity : Entity) : Bool × Guid := (entity.isReader, entity.endpoint.guid)

/-! ## What a manager has of its domain -/

/-- The node list the gid has once everything in flight is delivered. -/
def pending (manager : Manager Cache) (gid : Gid) : Option (List NodeEntitiesInfo) :=
  ((manager.inFlight.filter fun info => info.gid = gid).getLast?.map fun info =>
    some info.nodeEntitiesInfoSeq).getD (GraphCache.nodes manager.graphCache gid)

/-- The entities among `made` that are the participant's, as its node lists them. -/
def listed (made : List Entity) (participant : DomainParticipant) : List (Bool × Gid) :=
  (made.filter fun entity => entity.participant = participant).map fun entity =>
    (entity.isReader, entity.gid)

/-- The manager has the registry of its domain: `made` are all entities ever created, which
    the node lists name, and the entity tables have those of the registry. -/
structure Mirrors (registry : Registry) (made : List Entity) (domainId : Nat)
    (manager : Manager Cache) : Prop where
  announced : ∀ participant, OfDomain registry.participants domainId participant →
    pending manager participant.gid = some [nodeListing participant (listed made participant)]
  gone : ∀ gid, (∀ participant, OfDomain registry.participants domainId participant →
    participant.gid ≠ gid) → (pending manager gid).getD [] = []
  tables : ∀ isReader gid info, entities manager.graphCache isReader gid = some info ↔
    ∃ entity ∈ registry.entities, entity.participant.domainId = domainId ∧
      entity.isReader = isReader ∧ entity.gid = gid ∧ entity.info = info

omit [Rmw] in
theorem pending_of_calm {manager : Manager Cache} {gid : Gid}
    (calm : ∀ info ∈ manager.inFlight, info.gid ≠ gid) :
    pending manager gid = GraphCache.nodes manager.graphCache gid := by
  simp [pending, filter_gid_eq_nil calm]

omit [Rmw] in
/-- What is sent of one participant concerns no other. -/
theorem pending_of_other {manager after : Manager Cache} {gid other : Gid}
    {nodes : Option (List NodeEntitiesInfo)} {sent : List ParticipantEntitiesInfo}
    {datawriters : Nat → Option Nat} (effect : Effect manager gid nodes sent datawriters after)
    (own : ∀ info ∈ sent, info.gid = gid) (different : other ≠ gid) :
    pending after other = pending manager other := by
  have others : ∀ info ∈ sent, info.gid ≠ other := fun info member =>
    own info member ▸ Ne.symm different
  simp [pending, effect.inFlight, filter_gid_eq_nil others, effect.nodes,
    Function.update_of_ne different]

omit [Rmw] in
theorem pending_of_sent {manager after : Manager Cache} {gid : Gid}
    {nodes : Option (List NodeEntitiesInfo)} {list : List NodeEntitiesInfo}
    {datawriters : Nat → Option Nat}
    (effect : Effect manager gid nodes [⟨gid, list⟩] datawriters after) :
    pending after gid = some list := by
  simp [pending, effect.inFlight]

omit [Rmw] in
/-- A delivery changes nothing of what is pending. -/
theorem pending_of_loopback [LawfulMutators Cache] {manager : Manager Cache}
    {info : ParticipantEntitiesInfo} {later : List ParticipantEntitiesInfo}
    (sent : manager.inFlight = info :: later) (gid : Gid) :
    pending { manager with
      graphCache := GraphCache.updateParticipantEntities info manager.graphCache
      inFlight := later } gid = pending manager gid := by
  have updated := (LawfulMutators.updateParticipantEntities info manager.graphCache).nodes
  by_cases own : info.gid = gid
  · subst own
    cases more : later.filter (fun other => other.gid = info.gid) with
    | nil => simp [pending, sent, more, updated]
    | cons second rest => simp [pending, sent, more, List.getLast?_eq_some_getLast]
  · simp [pending, sent, own, updated, Function.update_of_ne (Ne.symm own)]

/-! ## What a callback does to the entity tables -/

abbrev LeavesTables (program : ManagerProgram Unit) : Prop :=
  program.Guarantees (fun _ _ => True) EntityPaths.LeavesEntities

section
variable [LawfulMutators Cache] [LawfulNodeMutators Cache]

omit [Rmw] in
theorem sameEntities_run {program : ManagerProgram Unit} (leaves : LeavesTables program)
    {manager after : Manager Cache} (ran : program.run handle manager = some ((), after)) :
    SameEntities manager.graphCache after.graphCache := by
  have keeps : ∀ (operation : Call) (state : Manager Cache) result next,
      EntityPaths.LeavesEntities operation → SameEntities manager.graphCache state.graphCache →
        handle operation state = some (result, next) →
          SameEntities manager.graphCache next.graphCache ∧ True := by
    intro operation state result next leaves same handled
    refine ⟨?_, trivial⟩
    intro isReader
    rw [EntityPaths.sameEntities_handle leaves handled isReader, same isReader]
  exact leaves.run keeps (fun _ => rfl) ran

omit [Rmw] in
theorem leavesTables_writeUnchecked (participant : DomainParticipant)
    (info : ParticipantEntitiesInfo) : LeavesTables (writeUnchecked participant info) := by
  refine ⟨trivial, ?_⟩
  intro found _
  cases found with
  | none => trivial
  | some datawriter => exact ⟨trivial, fun _ _ => trivial⟩

theorem leavesTables_addParticipant (participant : DomainParticipant) :
    LeavesTables (onCreateParticipant participant) := by
  refine ⟨trivial, ?_⟩
  intro _ _
  split
  · refine ⟨trivial, fun _ _ => ⟨trivial, ?_⟩⟩
    intro found _
    cases found with
    | some datawriter => exact ⟨trivial, fun _ _ => trivial⟩
    | none => exact ⟨trivial, fun _ _ => ⟨trivial, fun _ _ => ⟨trivial, fun _ _ => trivial⟩⟩⟩
  · trivial

theorem leavesTables_removeParticipant (participant : DomainParticipant) :
    LeavesTables (onDeleteParticipant participant) := by
  refine ⟨trivial, fun _ _ => ⟨trivial, ?_⟩⟩
  intro found _
  cases found with
  | none => trivial
  | some datawriter => exact ⟨trivial, fun _ _ => ⟨trivial, fun _ _ => ⟨trivial, fun _ _ => trivial⟩⟩⟩

/-- An entity is entered into its table, unless the gid has an entry there. -/
theorem createEndpoint_tables {participant : DomainParticipant} {isReader : Bool}
    {endpoint : Endpoint} {manager after : Manager Cache}
    (ran : (createEndpoint participant isReader endpoint).run handle manager = some ((), after)) :
    ∃ middle, SetsEntity manager.graphCache endpoint.gid isReader
        (some ((entities manager.graphCache isReader endpoint.gid).getD
          (Entity.info ⟨isReader, participant, endpoint⟩))) middle ∧
      SameEntities middle after.graphCache := by
  have rest : LeavesTables (associateEntity endpoint.guid participant
      (if isReader then .datareader else .datawriter)) := by
    rw [associateEntity_eq]
    exact ⟨trivial, fun message _ => leavesTables_writeUnchecked participant message⟩
  rw [createEndpoint, Program.run_bind] at ran
  obtain ⟨⟨_, middle⟩, added, ran⟩ := Option.bind_eq_some_iff.mp ran
  cases added
  exact ⟨_, LawfulMutators.addEntity _ _ _ _, sameEntities_run rest ran⟩

omit [LawfulNodeMutators Cache] in
theorem deleteEndpoint_tables {isReader : Bool} {endpoint : Endpoint} {manager after : Manager Cache}
    (ran : (deleteEndpoint isReader endpoint).run handle manager = some ((), after)) :
    SetsEntity manager.graphCache endpoint.gid isReader none after.graphCache := by
  cases ran
  exact LawfulMutators.removeEntity _ _ _

end

/-! ## What a callback does to the mirror -/

/-- Only the participants and the entities of the domain count. -/
theorem Mirrors.congr {registry registry' : Registry} {made made' : List Entity} {domainId : Nat}
    {manager : Manager Cache} (mirrors : Mirrors registry made domainId manager)
    (participants : ∀ participant, OfDomain registry'.participants domainId participant ↔
      OfDomain registry.participants domainId participant)
    (lists : ∀ participant, OfDomain registry.participants domainId participant →
      listed made' participant = listed made participant)
    (entities : ∀ entity, entity.participant.domainId = domainId →
      (entity ∈ registry'.entities ↔ entity ∈ registry.entities)) :
    Mirrors registry' made' domainId manager := by
  refine ⟨?_, ?_, ?_⟩
  · intro participant ofDomain
    have before := (participants participant).mp ofDomain
    rw [mirrors.announced participant before, lists participant before]
  · intro gid others
    exact mirrors.gone gid fun participant ofDomain =>
      others participant ((participants participant).mpr ofDomain)
  · intro isReader gid info
    rw [mirrors.tables]
    constructor
    · intro ⟨entity, member, ofDomain, rest⟩
      exact ⟨entity, (entities entity ofDomain).mpr member, ofDomain, rest⟩
    · intro ⟨entity, member, ofDomain, rest⟩
      exact ⟨entity, (entities entity ofDomain).mp member, ofDomain, rest⟩

theorem listed_concat_self (made : List Entity) (participant : DomainParticipant) (isReader : Bool)
    (endpoint : Endpoint) :
    listed (made ++ [⟨isReader, participant, endpoint⟩]) participant =
      listed made participant ++ [(isReader, endpoint.gid)] := by
  simp [listed, Entity.gid]

theorem listed_append_of_other {made more : List Entity} {participant : DomainParticipant}
    (others : ∀ entity ∈ more, entity.participant ≠ participant) :
    listed (made ++ more) participant = listed made participant := by
  have none : more.filter (fun entity => entity.participant = participant) = [] := by
    rw [List.filter_eq_nil_iff]
    intro entity member
    simpa using others entity member
  simp [listed, none]

section
variable [LawfulMutators Cache] [LawfulNodeMutators Cache] {registry : Registry} {made : List Entity}
  {domainId : Nat} {manager : Manager Cache}

omit [LawfulMutators Cache] [LawfulNodeMutators Cache] in
/-- The tables with one entity more. -/
theorem tables_create (created : Entity) {cache after : Cache} {known : List Entity}
    (tables : ∀ isReader gid info, entities cache isReader gid = some info ↔
      ∃ entity ∈ known, entity.participant.domainId = domainId ∧ entity.isReader = isReader ∧
        entity.gid = gid ∧ entity.info = info)
    (ofDomain : created.participant.domainId = domainId)
    (new : ∀ entity ∈ known, entity.isReader = created.isReader → entity.gid ≠ created.gid)
    (sets : SetsEntity cache created.gid created.isReader
      (some ((entities cache created.isReader created.gid).getD created.info)) after) :
    ∀ isReader gid info, entities after isReader gid = some info ↔
      ∃ entity ∈ known ++ [created], entity.participant.domainId = domainId ∧
        entity.isReader = isReader ∧ entity.gid = gid ∧ entity.info = info := by
  have absent : entities cache created.isReader created.gid = none := by
    cases found : entities cache created.isReader created.gid with
    | none => rfl
    | some info =>
      obtain ⟨entity, member, _, kind, gid, _⟩ := (tables _ _ _).mp found
      exact absurd gid (new entity member kind)
  rw [absent, Option.getD_none] at sets
  intro isReader gid info
  by_cases own : created.isReader = isReader ∧ created.gid = gid
  · obtain ⟨rfl, rfl⟩ := own
    rw [sets.entities_self, Function.update_self]
    constructor
    · intro equal
      exact ⟨created, by simp, ofDomain, rfl, rfl, Option.some.inj equal⟩
    · intro ⟨entity, member, _, kind, gid, equal⟩
      obtain old | same := List.mem_append.mp member
      · exact absurd gid (new entity old kind)
      · cases List.mem_singleton.mp same
        exact congrArg some equal
  · have kept : entities after isReader gid = entities cache isReader gid := by
      by_cases same : gid = created.gid
      · have other : isReader ≠ created.isReader := fun kind => own ⟨kind.symm, same.symm⟩
        rw [Bool.eq_not_of_ne other, sets.entities_other]
      · exact sets.entities_of_ne same isReader
    rw [kept, tables]
    constructor
    · intro ⟨entity, member, rest⟩
      exact ⟨entity, List.mem_append_left _ member, rest⟩
    · intro ⟨entity, member, inDomain, kind, gid, equal⟩
      obtain old | same := List.mem_append.mp member
      · exact ⟨entity, old, inDomain, kind, gid, equal⟩
      · cases List.mem_singleton.mp same
        exact absurd ⟨kind, gid⟩ own

/-- The association appends to the list that is pending, which is the cached one. -/
theorem mirrors_createEndpoint {used : List Guid} {participant : DomainParticipant}
    (mirrors : Mirrors registry made domainId manager)
    (distinct : Distinct registry.participants used) [LawfulGids]
    (ofDomain : OfDomain registry.participants domainId participant)
    (registered : Registered manager participant [nodeListing participant (listed made participant)])
    (isReader : Bool) (endpoint : Endpoint)
    (new : ∀ entity ∈ registry.entities, entity.isReader = isReader → entity.gid ≠ endpoint.gid) :
    ∃ after, (createEndpoint participant isReader endpoint).run handle manager = some ((), after) ∧
      Mirrors { registry with entities := registry.entities ++ [⟨isReader, participant, endpoint⟩] }
        (made ++ [⟨isReader, participant, endpoint⟩]) domainId after ∧
      Registered after participant
        [nodeListing participant (listed (made ++ [⟨isReader, participant, endpoint⟩]) participant)] := by
  obtain ⟨after, ran, effect⟩ := createEndpoint_effect participant isReader endpoint registered
  rw [modifyNode_nodeListing, ← listed_concat_self] at effect
  obtain ⟨middle, sets, same⟩ := createEndpoint_tables ran
  have own : ∀ info ∈ [(⟨participant.gid, [nodeListing participant
      (listed (made ++ [⟨isReader, participant, endpoint⟩]) participant)]⟩ :
        ParticipantEntitiesInfo)], info.gid = participant.gid := by simp
  refine ⟨after, ran, ⟨?_, ?_, ?_⟩, ⟨?_, ?_, ?_⟩⟩
  · intro other otherOf
    by_cases equal : other = participant
    · subst equal
      exact pending_of_sent effect
    · have different : other.gid ≠ participant.gid := fun gid =>
        equal (distinct.guid other otherOf.1 participant ofDomain.1 (gidOf_injective gid))
      rw [pending_of_other effect own different, mirrors.announced other otherOf,
        listed_append_of_other (by simpa using Ne.symm equal)]
  · intro gid others
    rw [pending_of_other effect own (Ne.symm (others participant ofDomain))]
    exact mirrors.gone gid others
  · have tables := tables_create ⟨isReader, participant, endpoint⟩ mirrors.tables ofDomain.2.1 new
      sets
    intro which gid info
    rw [same which]
    exact tables which gid info
  · rw [effect.nodes, Function.update_self]
  · exact ⟨_, List.mem_singleton_self _, rfl⟩
  · rw [effect.datawriters]
    exact registered.announced

theorem mirrors_createEndpoints {used : List Guid} {participant : DomainParticipant}
    (mirrors : Mirrors registry made domainId manager)
    (distinct : Distinct registry.participants used) [LawfulGids]
    (ofDomain : OfDomain registry.participants domainId participant)
    (registered : Registered manager participant [nodeListing participant (listed made participant)])
    (known : registry.entities ⊆ made) (created : List (Bool × Endpoint))
    (fresh : ((made ++ entitiesOf participant created).map identity).Nodup) :
    ∃ after, (createEndpoints participant created).run handle manager = some ((), after) ∧
      Mirrors { registry with entities := registry.entities ++ entitiesOf participant created }
        (made ++ entitiesOf participant created) domainId after := by
  induction created generalizing registry made manager with
  | nil =>
    refine ⟨manager, rfl, ?_⟩
    simpa [entitiesOf] using mirrors
  | cons first rest ih =>
    obtain ⟨isReader, endpoint⟩ := first
    rw [entitiesOf, List.map_cons, List.append_cons, ← entitiesOf] at fresh
    have new : ∀ entity ∈ registry.entities, entity.isReader = isReader →
        entity.gid ≠ endpoint.gid := by
      intro entity member kind gid
      have identities := (List.map_append ▸ fresh).of_append_left
      rw [List.map_append, List.nodup_append] at identities
      refine identities.2.2 (identity entity) (List.mem_map_of_mem (known member)) (isReader,
        endpoint.guid) (by simp [identity]) ?_
      rw [identity, kind, gidOf_injective gid]
    obtain ⟨middle, ran, mirrors, registered⟩ :=
      mirrors_createEndpoint mirrors distinct ofDomain registered isReader endpoint new
    obtain ⟨after, ranRest, mirrors⟩ := ih mirrors distinct ofDomain registered
      (List.append_subset.mpr ⟨List.subset_append_of_subset_left _ known, by simp⟩) fresh
    refine ⟨after, ?_, ?_⟩
    · simp only [createEndpoints, Program.run_bind, ran, Option.bind_some, ranRest]
    · simpa [entitiesOf] using mirrors

omit [LawfulNodeMutators Cache] in
/-- The endpoint leaves its table; the node list keeps it. -/
theorem mirrors_deleteEndpoint [LawfulGids] (mirrors : Mirrors registry made domainId manager)
    (isReader : Bool) (endpoint : Endpoint) :
    ∃ after, (deleteEndpoint isReader endpoint).run handle manager = some ((), after) ∧
      Mirrors { registry with entities := registry.entities.filter fun entity =>
        ¬ (entity.participant.domainId = domainId ∧ isReader = entity.isReader ∧
          endpoint.guid = entity.endpoint.guid) } made domainId after := by
  obtain ⟨after, ran, effect⟩ := deleteEndpoint_effect ⟨0⟩ isReader endpoint manager
  have sets := deleteEndpoint_tables ran
  have kept : ∀ gid, pending after gid = pending manager gid := by
    intro gid
    simp only [pending, effect.inFlight, List.append_nil, effect.nodes, Function.update_eq_self]
  refine ⟨after, ran, ⟨?_, ?_, ?_⟩⟩
  · intro participant ofDomain
    rw [kept]
    exact mirrors.announced participant ofDomain
  · intro gid others
    rw [kept]
    exact mirrors.gone gid others
  · intro which gid info
    have deleted : ∀ entity : Entity, entity.participant.domainId = domainId →
        (isReader = entity.isReader ∧ endpoint.guid = entity.endpoint.guid ↔
          isReader = entity.isReader ∧ endpoint.gid = entity.gid) := by
      intro entity _
      exact and_congr_right fun _ => gidOf_injective.eq_iff.symm
    simp only [List.mem_filter, decide_eq_true_eq]
    by_cases own : isReader = which ∧ endpoint.gid = gid
    · obtain ⟨rfl, rfl⟩ := own
      rw [sets.entities_self, Function.update_self]
      constructor
      · intro equal
        cases equal
      · intro ⟨entity, ⟨_, still⟩, inDomain, kind, gid, _⟩
        exact absurd ⟨inDomain, (deleted entity inDomain).mpr ⟨kind.symm, gid.symm⟩⟩ still
    · have same : entities after.graphCache which gid = entities manager.graphCache which gid := by
        by_cases equal : gid = endpoint.gid
        · have other : which ≠ isReader := fun kind => own ⟨kind.symm, equal.symm⟩
          rw [Bool.eq_not_of_ne other, sets.entities_other]
        · exact sets.entities_of_ne equal which
      rw [same, mirrors.tables]
      constructor
      · intro ⟨entity, member, inDomain, kind, ofGid, equal⟩
        refine ⟨entity, ⟨member, ?_⟩, inDomain, kind, ofGid, equal⟩
        intro ⟨_, matched⟩
        obtain ⟨sameKind, sameGid⟩ := (deleted entity inDomain).mp matched
        exact own ⟨sameKind.trans kind, sameGid.trans ofGid⟩
      · intro ⟨entity, ⟨member, _⟩, rest⟩
        exact ⟨entity, member, rest⟩

omit [LawfulNodeMutators Cache] in
theorem mirrors_deleteEndpoints [LawfulGids] (mirrors : Mirrors registry made domainId manager)
    (deleted : List (Bool × Endpoint)) :
    ∃ after, (deleteEndpoints deleted).run handle manager = some ((), after) ∧
      Mirrors { registry with entities := registry.entities.filter fun entity =>
        ¬ (entity.participant.domainId = domainId ∧ ∃ endpoint ∈ deleted,
          endpoint.1 = entity.isReader ∧ endpoint.2.guid = entity.endpoint.guid) }
        made domainId after := by
  induction deleted generalizing registry manager with
  | nil =>
    refine ⟨manager, rfl, ?_⟩
    simpa using mirrors
  | cons first rest ih =>
    obtain ⟨middle, ran, mirrors⟩ := mirrors_deleteEndpoint mirrors first.1 first.2
    obtain ⟨after, ranRest, mirrors⟩ := ih mirrors
    refine ⟨after, ?_, mirrors.congr (fun _ => Iff.rfl) (fun _ _ => rfl) ?_⟩
    · simp only [deleteEndpoints, Program.run_bind, ran, Option.bind_some, ranRest]
    · intro entity ofDomain
      simp only [List.mem_filter, decide_eq_true_eq, ofDomain, true_and, List.mem_cons,
        exists_eq_or_imp, not_or]
      constructor
      · rintro ⟨member, other, others⟩
        exact ⟨⟨member, other⟩, others⟩
      · rintro ⟨⟨member, other⟩, others⟩
        exact ⟨member, other, others⟩

theorem mirrors_createParticipant [LawfulGids] {used : List Guid} {participant : DomainParticipant}
    {after : Manager Cache} (mirrors : Mirrors registry made participant.domainId manager)
    (serves : Serves registry.participants used participant.domainId manager)
    (distinct : Distinct registry.participants used)
    (owners : ∀ entity ∈ made, entity.participant.guid ∈ used) (newGuid : participant.guid ∉ used)
    (ran : (onCreateParticipant participant).run handle manager = some ((), after)) :
    Mirrors { registry with participants := participant :: registry.participants } made
      participant.domainId after := by
  have unseen : ∀ info ∈ manager.inFlight, info.gid ≠ participant.gid := by
    intro info member equal
    obtain ⟨guid, before, same⟩ := serves.sentBefore info member
    exact newGuid (gidOf_injective (same.trans equal) ▸ before)
  have newGid : ∀ other ∈ registry.participants, other.gid ≠ participant.gid := by
    intro other member equal
    exact newGuid (gidOf_injective equal ▸ distinct.used other member)
  have empty : (GraphCache.nodes manager.graphCache participant.gid).getD [] = [] := by
    rw [← pending_of_calm unseen]
    exact mirrors.gone participant.gid fun other ofDomain => newGid other ofDomain.1
  have tables := sameEntities_run (leavesTables_addParticipant participant) ran
  have known : ∀ isReader gid info, entities after.graphCache isReader gid = some info ↔
      ∃ entity ∈ registry.entities, entity.participant.domainId = participant.domainId ∧
        entity.isReader = isReader ∧ entity.gid = gid ∧ entity.info = info := by
    intro isReader
    rw [tables isReader]
    exact mirrors.tables isReader
  by_cases root : Root participant
  · obtain ⟨expected, ranRoot, effect⟩ := addParticipant_root participant ['/'] manager root
    cases ranRoot.symm.trans ran
    refine ⟨?_, ?_, known⟩
    · intro other ⟨member, ofDomain, notRoot⟩
      obtain rfl | member := List.mem_cons.mp member
      · exact absurd root notRoot
      · rw [pending_of_other effect (by simp) (newGid other member)]
        exact mirrors.announced other ⟨member, ofDomain, notRoot⟩
    · intro gid others
      have before : (pending manager gid).getD [] = [] := by
        refine mirrors.gone gid ?_
        intro other ⟨member, rest⟩
        exact others other ⟨List.mem_cons_of_mem _ member, rest⟩
      by_cases own : gid = participant.gid
      · subst own
        have calm : ∀ info ∈ after.inFlight, info.gid ≠ participant.gid := by
          rw [effect.inFlight, List.append_nil]
          exact unseen
        rw [pending_of_calm calm, effect.nodes, Function.update_self, Option.getD_some, empty]
      · rw [pending_of_other effect (by simp) own]
        exact before
  · obtain ⟨expected, datawriter, ranNode, effect⟩ :=
      addParticipant_effect participant ['/'] manager root
    cases ranNode.symm.trans ran
    rw [empty, List.nil_append] at effect
    have nothing : listed made participant = [] := by
      simp only [listed, List.map_eq_nil_iff, List.filter_eq_nil_iff, decide_eq_true_eq]
      intro entity member same
      exact newGuid (same ▸ owners entity member)
    refine ⟨?_, ?_, known⟩
    · intro other ⟨member, ofDomain, notRoot⟩
      obtain rfl | member := List.mem_cons.mp member
      · rw [pending_of_sent effect, nothing]
        rfl
      · rw [pending_of_other effect (by simp) (newGid other member)]
        exact mirrors.announced other ⟨member, ofDomain, notRoot⟩
    · intro gid others
      have own : participant.gid ≠ gid := others participant ⟨List.mem_cons_self, rfl, root⟩
      rw [pending_of_other effect (by simp) (Ne.symm own)]
      refine mirrors.gone gid ?_
      intro other ⟨member, rest⟩
      exact others other ⟨List.mem_cons_of_mem _ member, rest⟩

theorem mirrors_deleteParticipant [LawfulGids] {used : List Guid} {participant : DomainParticipant}
    {after : Manager Cache} (mirrors : Mirrors registry made participant.domainId manager)
    (distinct : Distinct registry.participants used) (member : participant ∈ registry.participants)
    (announced : (manager.datawriters participant.handle).isSome)
    (ran : (onDeleteParticipant participant).run handle manager = some ((), after)) :
    Mirrors { registry with participants := registry.participants.filter (· ≠ participant) } made
      participant.domainId after := by
  obtain ⟨expected, ranDelete, effect⟩ := removeParticipant_effect participant announced
  cases ranDelete.symm.trans ran
  have tables := sameEntities_run (leavesTables_removeParticipant participant) ran
  refine ⟨?_, ?_, ?_⟩
  · intro other ⟨still, rest⟩
    simp only [List.mem_filter, decide_eq_true_eq] at still
    have otherGid : other.gid ≠ participant.gid := fun equal =>
      still.2 (distinct.guid other still.1 participant member (gidOf_injective equal))
    rw [pending_of_other effect (by simp) otherGid]
    exact mirrors.announced other ⟨still.1, rest⟩
  · intro gid others
    by_cases own : gid = participant.gid
    · subst own
      rw [pending_of_sent effect, Option.getD_some]
    · rw [pending_of_other effect (by simp) own]
      refine mirrors.gone gid ?_
      intro other ⟨otherLive, rest⟩ equal
      by_cases same : other = participant
      · subst same
        exact own equal.symm
      · refine others other ⟨?_, rest⟩ equal
        simpa [same] using otherLive
  · intro isReader
    rw [tables isReader]
    exact mirrors.tables isReader

omit [LawfulNodeMutators Cache] in
theorem mirrors_loopback (mirrors : Mirrors registry made domainId manager)
    (taken : manager.history = []) :
    Mirrors registry made domainId ((loopback manager).getD manager) := by
  cases sent : manager.inFlight with
  | nil => simpa [loopback, sent] using mirrors
  | cons info later =>
    have kept := pending_of_loopback sent
    have same := (LawfulMutators.updateParticipantEntities info manager.graphCache).sameEntities
    rw [loopback_eq sent taken, Option.getD_some]
    refine ⟨?_, ?_, ?_⟩
    · intro participant ofDomain
      rw [kept]
      exact mirrors.announced participant ofDomain
    · intro gid others
      rw [kept]
      exact mirrors.gone gid others
    · intro isReader
      rw [same isReader]
      exact mirrors.tables isReader

end

end MicroRosAgent.Agent
