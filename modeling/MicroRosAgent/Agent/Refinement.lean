import MicroRosAgent.Agent.Mirror

/-! # The agent publishes the graph its clients have made

Runs of the agent: the callbacks of any number of participants in any number of domains,
each run as a whole, with samples arriving in between.  If no CREATE_ callback of an
endpoint starts while a sample of its participant is in flight, every manager mirrors the
registry (`reflects_run`), and the message built from the cache of a domain is the one the
registry describes (`published_describes`).  The node lists in the cache still name deleted
endpoints; they are not in the entity tables, so no query shows them.

No sample is lost on its way, each is applied before the next one arrives, and it arrives
alive (`GraphManager.loopback`).  The discovery callbacks of the domain participants do not
run: one that reports an endpoint late would enter a deleted one in the tables again.
-/

namespace MicroRosAgent.Agent

open Interleaving GraphManager Utils

open EntityPaths (Entity)

variable [Rmw] {Cache : Type} [GraphCache Cache]

/-- A CREATE_ callback of an endpoint starts when its participant has no sample in flight. -/
def Calm (agent : State Cache) : Event → Prop
  | .callback callback => callback.created ≠ [] →
      ∀ info ∈ (findOrCreateGraphManager agent callback.participant.domainId).inFlight,
        info.gid ≠ callback.participant.gid
  | .loopback _ => True

def Event.entities : Event → List Entity
  | .callback invoked => invoked.entities
  | .loopback _ => []

/-- No two endpoints of a kind are created with one guid. -/
def FreshEndpoints (events : List Event) : Prop :=
  ((events.flatMap Event.entities).map identity).Nodup

/-- Every manager mirrors the registry; `made` are the entities ever created. -/
structure Reflects (registry : Registry) (made : List Entity) (used : List Guid)
    (agent : State Cache) : Prop where
  invariant : Invariant registry.participants used agent
  mirrors : ∀ domainId, Mirrors registry made domainId (findOrCreateGraphManager agent domainId)
  known : registry.entities ⊆ made
  distinct : (made.map identity).Nodup
  owners : ∀ entity ∈ made, entity.participant.guid ∈ used

/-! ## One event -/

omit [Rmw] in
theorem mem_step (registry : Registry) (callback : Callback) (entity : Entity) :
    entity ∈ (registry.step (.callback callback)).entities ↔
      entity ∈ registry.entities ∧ ¬ callback.Deletes entity ∨ entity ∈ callback.entities := by
  simp [Registry.step]

omit [Rmw] in
theorem deleted_of_created {callback : Callback} (creates : callback.created ≠ []) :
    callback.deleted = [] := by
  cases callback with
  | createDatawriter | createDatareader | createRequester | createReplier => rfl
  | createParticipant | deleteParticipant | deleteDatawriter | deleteDatareader | deleteRequester
  | deleteReplier => exact absurd rfl creates

omit [Rmw] in
theorem participant_of_entities {callback : Callback} {entity : Entity}
    (member : entity ∈ callback.entities) : entity.participant = callback.participant := by
  obtain ⟨endpoint, _, rfl⟩ := List.mem_map.mp member
  rfl

omit [Rmw] in
/-- The participants of other domains do not change with a callback. -/
theorem ofDomain_step (registry : Registry) (callback : Callback) {other : Nat}
    (different : other ≠ callback.participant.domainId) (participant : DomainParticipant) :
    OfDomain (registry.step (.callback callback)).participants other participant ↔
      OfDomain registry.participants other participant := by
  cases callback with
  | createParticipant created =>
    simp only [Registry.step, liveAfter, OfDomain, List.mem_cons]
    constructor
    · rintro ⟨member, rest⟩
      obtain rfl | member := member
      · exact absurd rest.1.symm different
      · exact ⟨member, rest⟩
    · rintro ⟨member, rest⟩
      exact ⟨Or.inr member, rest⟩
  | deleteParticipant deleted =>
    simp only [Registry.step, liveAfter, OfDomain, List.mem_filter, decide_eq_true_eq]
    constructor
    · rintro ⟨⟨member, _⟩, rest⟩
      exact ⟨member, rest⟩
    · rintro ⟨member, rest⟩
      refine ⟨⟨member, ?_⟩, rest⟩
      intro same
      exact different (same ▸ rest.1.symm)
  | createDatawriter | createDatareader | createRequester | createReplier | deleteDatawriter
  | deleteDatareader | deleteRequester | deleteReplier => exact Iff.rfl

/-- The managers of the other domains mirror the registry after the callback as well. -/
theorem mirrors_setManager {registry : Registry} {made : List Entity} {agent : State Cache}
    {callback : Callback} {manager : Manager Cache}
    (mirrors : ∀ domainId, Mirrors registry made domainId (findOrCreateGraphManager agent domainId))
    (own : Mirrors (registry.step (.callback callback)) (made ++ callback.entities)
      callback.participant.domainId manager) :
    ∀ domainId, Mirrors (registry.step (.callback callback)) (made ++ callback.entities) domainId
      (findOrCreateGraphManager (agent.setManager callback.participant.domainId manager) domainId) := by
  intro domainId
  rw [findOrCreate_setManager]
  by_cases same : domainId = callback.participant.domainId
  · rw [if_pos same, same]
    exact own
  · rw [if_neg same]
    refine (mirrors domainId).congr (ofDomain_step registry callback same) ?_ ?_
    · intro participant ofDomain
      refine listed_append_of_other ?_
      intro entity member equal
      rw [participant_of_entities member] at equal
      exact same (equal ▸ ofDomain.2.1.symm)
    · intro entity ofDomain
      rw [mem_step]
      constructor
      · intro listed
        obtain ⟨member, _⟩ | created := listed
        · exact member
        · rw [participant_of_entities created] at ofDomain
          exact absurd ofDomain.symm same
      · intro member
        exact Or.inl ⟨member, fun deletes => same (ofDomain.symm.trans deletes.1)⟩

section
variable [LawfulMutators Cache] [LawfulNodeMutators Cache] [LawfulGids] {registry : Registry}
  {made : List Entity} {used : List Guid} {agent after : State Cache}

/-- What the callback leaves in the manager of its domain. -/
theorem mirrors_callback {callback : Callback} {manager : Manager Cache}
    (reflects : Reflects registry made used agent)
    (allowed : Allowed registry.participants used (.callback callback))
    (safe : ¬ (Event.callback callback).OnRoot)
    (fresh : ((made ++ callback.entities).map identity).Nodup)
    (calm : Calm agent (.callback callback))
    (ran : callback.program.run handle
      (findOrCreateGraphManager agent callback.participant.domainId) = some ((), manager)) :
    Mirrors (registry.step (.callback callback)) (made ++ callback.entities)
      callback.participant.domainId manager := by
  have mirrors := reflects.mirrors callback.participant.domainId
  have serves := reflects.invariant.serves callback.participant.domainId
  by_cases creates : callback.created = []
  · have nothing : callback.entities = [] := by simp [Callback.entities, entitiesOf, creates]
    rw [nothing, List.append_nil]
    by_cases deletes : callback.deleted = []
    · -- the callbacks of participants leave the entities as they are
      have kept : ∀ entity, entity ∈ (registry.step (.callback callback)).entities ↔
          entity ∈ registry.entities := by
        intro entity
        simp [mem_step, nothing, Callback.Deletes, deletes]
      cases callback with
      | createParticipant participant =>
        exact (mirrors_createParticipant mirrors serves reflects.invariant.distinct reflects.owners
          allowed.2 ran).congr (fun _ => Iff.rfl) (fun _ _ => rfl) fun entity _ => kept entity
      | deleteParticipant participant =>
        obtain ⟨nodes, registered⟩ := serves.registered participant
          ⟨allowed, rfl, fun root => safe ⟨root, trivial⟩⟩
        exact (mirrors_deleteParticipant mirrors reflects.invariant.distinct allowed
          registered.announced ran).congr (fun _ => Iff.rfl) (fun _ _ => rfl) fun entity _ => kept entity
      | createDatawriter | createDatareader | createRequester | createReplier =>
        simp [Callback.created] at creates
      | deleteDatawriter | deleteDatareader | deleteRequester | deleteReplier =>
        simp [Callback.deleted] at deletes
    · obtain ⟨expected, ranDelete, mirrored⟩ := mirrors_deleteEndpoints mirrors callback.deleted
      rw [program_eq_deleteEndpoints callback deletes] at ran
      cases ranDelete.symm.trans ran
      refine mirrored.congr ?_ (fun _ _ => rfl) ?_
      · intro participant
        cases callback with
        | createParticipant | deleteParticipant => exact absurd rfl deletes
        | createDatawriter | createDatareader | createRequester | createReplier | deleteDatawriter
        | deleteDatareader | deleteRequester | deleteReplier => exact Iff.rfl
      · intro entity _
        simp only [mem_step, nothing, List.mem_filter, decide_eq_true_eq, List.not_mem_nil, or_false]
        rfl
  · have ofDomain : OfDomain registry.participants callback.participant.domainId
        callback.participant := by
      refine ⟨?_, rfl, fun root => safe ⟨root, ?_⟩⟩
      · cases callback <;> first | exact allowed | exact absurd rfl creates
      · cases callback <;> trivial
    have kept := deleted_of_created creates
    have announced := mirrors.announced callback.participant ofDomain
    rw [pending_of_calm (calm creates)] at announced
    obtain ⟨nodes, registered⟩ := serves.registered callback.participant ofDomain
    have now : Registered (findOrCreateGraphManager agent callback.participant.domainId)
        callback.participant [nodeListing callback.participant (listed made callback.participant)] :=
      ⟨announced, ⟨_, List.mem_singleton_self _, rfl⟩, registered.announced⟩
    obtain ⟨expected, ranCreate, mirrored⟩ := mirrors_createEndpoints mirrors
      reflects.invariant.distinct ofDomain now reflects.known callback.created fresh
    rw [program_eq_createEndpoints callback creates] at ran
    cases ranCreate.symm.trans ran
    refine mirrored.congr ?_ (fun _ _ => rfl) ?_
    · intro participant
      cases callback with
      | createParticipant | deleteParticipant => exact absurd rfl creates
      | createDatawriter | createDatareader | createRequester | createReplier | deleteDatawriter
      | deleteDatareader | deleteRequester | deleteReplier => exact Iff.rfl
    · intro entity _
      simp [mem_step, Callback.Deletes, kept, Callback.entities]

theorem reflects_step {event : Event} (reflects : Reflects registry made used agent)
    (allowed : Allowed registry.participants used event)
    (fresh : ((made ++ event.entities).map identity).Nodup) (calm : Calm agent event)
    (stepped : step agent event = some after) :
    Reflects (registry.step event) (made ++ event.entities) (usedAfter used event) after := by
  have safe : ¬ event.OnRoot := by
    intro onRoot
    rw [step_onRoot reflects.invariant allowed onRoot] at stepped
    cases stepped
  obtain ⟨expected, stepped', invariant⟩ := step_safe reflects.invariant allowed safe
  cases stepped'.symm.trans stepped
  have grown : ∀ guid ∈ used, guid ∈ usedAfter used event := by
    intro guid member
    unfold usedAfter
    split
    · exact List.mem_cons_of_mem _ member
    · exact member
  cases event with
  | loopback domainId =>
    have same : made ++ Event.entities (.loopback domainId) = made := List.append_nil _
    rw [same]
    refine ⟨invariant, ?_, reflects.known, reflects.distinct, reflects.owners⟩
    intro other
    cases managed : agent.graphManagerMap domainId with
    | none =>
      simp only [step, managed, Option.some.injEq] at stepped
      rw [← stepped]
      exact reflects.mirrors other
    | some manager =>
      simp only [step, managed, Option.some.injEq] at stepped
      have mirrors := reflects.mirrors domainId
      have serves := reflects.invariant.serves domainId
      rw [findOrCreateGraphManager, managed, Option.getD_some] at mirrors serves
      rw [← stepped, findOrCreate_setManager]
      by_cases own : other = domainId
      · rw [if_pos own, own]
        exact mirrors_loopback mirrors serves.history
      · rw [if_neg own]
        exact reflects.mirrors other
  | callback callback =>
    obtain ⟨⟨_, manager⟩, ran, rfl⟩ := Option.map_eq_some_iff.mp stepped
    have own := mirrors_callback reflects allowed safe fresh calm ran
    refine ⟨invariant, mirrors_setManager reflects.mirrors own, ?_, fresh, ?_⟩
    · intro entity member
      obtain ⟨old, _⟩ | created := (mem_step registry callback entity).mp member
      · exact List.mem_append_left _ (reflects.known old)
      · exact List.mem_append_right _ created
    · intro entity member
      obtain old | created := List.mem_append.mp member
      · exact grown _ (reflects.owners entity old)
      · rw [participant_of_entities created]
        refine grown _ (reflects.invariant.distinct.used callback.participant ?_)
        have creates : callback.created ≠ [] := by
          intro none
          simp [Event.entities, Callback.entities, entitiesOf, none] at created
        cases callback <;> first | exact allowed | exact absurd rfl creates

/-! ## Runs -/

omit [Rmw] [LawfulGids] in
theorem participants_step (registry : Registry) (event : Event) :
    (registry.step event).participants = liveAfter registry.participants event := by
  cases event <;> rfl

theorem reflects_run {events : List Event} (reflects : Reflects registry made used agent)
    (lifeCycle : LifeCycle registry.participants used events)
    (fresh : ((made ++ events.flatMap Event.entities).map identity).Nodup)
    (calm : (system Cache).Along Calm agent events)
    (reached : (system Cache).exec agent events = some after) :
    ∃ used', Reflects (events.foldl Registry.step registry) (made ++ events.flatMap Event.entities)
      used' after := by
  induction events generalizing registry made used agent with
  | nil =>
    cases reached
    rw [List.flatMap_nil, List.append_nil]
    exact ⟨used, reflects⟩
  | cons event events ih =>
    obtain ⟨next, stepped, rest⟩ := Option.bind_eq_some_iff.mp reached
    rw [List.flatMap_cons, ← List.append_assoc] at fresh ⊢
    have first : ((made ++ event.entities).map identity).Nodup :=
      (List.map_append ▸ fresh).of_append_left
    have reflected := reflects_step reflects lifeCycle.1 first calm.1 stepped
    refine ih reflected ?_ fresh (calm.2 next stepped) rest
    rw [participants_step]
    exact lifeCycle.2

omit [LawfulNodeMutators Cache] [LawfulGids] in
theorem reflects_initial : Reflects {} [] [] ({} : State Cache) := by
  refine ⟨⟨⟨by simp, by simp, by simp⟩, fun domainId => serves_fresh [] domainId⟩, ?_, by simp,
    by simp, by simp⟩
  intro domainId
  have absent : ∀ gid, pending ({ graphCache := GraphCache.empty } : Manager Cache) gid = none :=
    fun gid => LawfulMutators.nodes_empty gid
  refine ⟨?_, ?_, ?_⟩
  · intro participant ofDomain
    exact absurd ofDomain.1 (by simp)
  · intro gid _
    exact (congrArg (Option.getD · []) (absent gid)).trans rfl
  · intro isReader gid info
    have nothing : entities (GraphCache.empty : Cache) isReader gid = none := by
      cases isReader with
      | false => exact LawfulMutators.writers_empty gid
      | true => exact LawfulMutators.readers_empty gid
    constructor
    · intro found
      cases nothing.symm.trans found
    · intro ⟨entity, member, _⟩
      cases member

/-! ## The published graph -/

section
variable {manager : Manager Cache} {domainId : Nat}

omit [LawfulMutators Cache] [LawfulNodeMutators Cache] [LawfulGids] in
/-- The cached nodes are those of the participants, with everything ever created. -/
theorem hasNodes_iff (mirrors : Mirrors registry made domainId manager)
    (delivered : manager.inFlight = []) (gid : Gid) (node : NodeEntitiesInfo) :
    (∃ nodes, GraphCache.nodes manager.graphCache gid = some nodes ∧ node ∈ nodes) ↔
      ∃ participant, OfDomain registry.participants domainId participant ∧ participant.gid = gid ∧
        node = nodeListing participant (listed made participant) := by
  have cached : ∀ gid, pending manager gid = GraphCache.nodes manager.graphCache gid :=
    fun gid => pending_of_calm (by simp [delivered])
  constructor
  · intro ⟨nodes, known, member⟩
    by_contra others
    have nothing := mirrors.gone gid ?_
    · rw [cached, known, Option.getD_some] at nothing
      rw [nothing] at member
      cases member
    · intro participant ofDomain ofGid
      have announced := mirrors.announced participant ofDomain
      rw [ofGid, cached, known] at announced
      cases announced
      exact others ⟨participant, ofDomain, ofGid, List.mem_singleton.mp member⟩
  · intro ⟨participant, ofDomain, ofGid, equal⟩
    have announced := mirrors.announced participant ofDomain
    rw [ofGid, cached] at announced
    exact ⟨_, announced, List.mem_singleton.mpr equal⟩

omit [LawfulMutators Cache] [LawfulNodeMutators Cache] [LawfulGids] in
theorem uniqueNodes_of_mirrors (mirrors : Mirrors registry made domainId manager)
    (delivered : manager.inFlight = []) (unique : registry.UniqueNames domainId) :
    UniqueNodes manager.graphCache := by
  have cached : ∀ gid, pending manager gid = GraphCache.nodes manager.graphCache gid :=
    fun gid => pending_of_calm (by simp [delivered])
  constructor
  · intro gid nodes known
    cases nodes with
    | nil => simp
    | cons node rest =>
      obtain ⟨participant, ofDomain, ofGid, _⟩ :=
        (hasNodes_iff mirrors delivered gid node).mp ⟨_, known, List.mem_cons_self⟩
      have announced := mirrors.announced participant ofDomain
      rw [ofGid, cached, known] at announced
      cases announced
      simp
  · intro gid other key ⟨nodes, known, node, member, named⟩ ⟨nodes', known', node', member', named'⟩
    obtain ⟨first, firstOf, firstGid, rfl⟩ :=
      (hasNodes_iff mirrors delivered gid node).mp ⟨nodes, known, member⟩
    obtain ⟨second, secondOf, secondGid, rfl⟩ :=
      (hasNodes_iff mirrors delivered other node').mp ⟨nodes', known', member'⟩
    have same := unique first second firstOf secondOf (named.trans named'.symm)
    rw [← firstGid, ← secondGid, same]

omit [LawfulMutators Cache] [LawfulNodeMutators Cache] in
/-- A listed gid that the tables still have is an entity of the registry. -/
theorem topicOf_iff (mirrors : Mirrors registry made domainId manager)
    (known : registry.entities ⊆ made) (distinct : (made.map identity).Nodup)
    {participant : DomainParticipant} (ofDomain : participant.domainId = domainId)
    (isReader : Bool) (name type : Text) :
    TopicOf (entities manager.graphCache isReader) (gidsOf isReader (listed made participant))
        name type ↔ registry.HasTopic participant isReader name type := by
  constructor
  · rintro ⟨gid, member, info, found, slash, topic, typed⟩
    obtain ⟨entity, inRegistry, _, kind, ofGid, equal⟩ := (mirrors.tables _ _ _).mp found
    rw [mem_gidsOf] at member
    obtain ⟨first, own, pair⟩ := List.mem_map.mp member
    simp only [List.mem_filter, decide_eq_true_eq] at own
    simp only [Prod.mk.injEq] at pair
    have same : first = entity := by
      refine List.inj_on_of_nodup_map distinct own.1 (known inRegistry) ?_
      have gids : first.gid = entity.gid := pair.2.trans ofGid.symm
      simp only [identity, Prod.mk.injEq]
      exact ⟨pair.1.trans kind.symm, gidOf_injective gids⟩
    subst same
    subst equal
    exact ⟨first, inRegistry, own.2, kind, slash, topic, typed⟩
  · rintro ⟨entity, inRegistry, own, kind, slash, topic, typed⟩
    refine ⟨entity.gid, ?_, entity.info, ?_, slash, topic, typed⟩
    · rw [mem_gidsOf]
      refine List.mem_map.mpr ⟨entity, ?_, by rw [kind]⟩
      simpa [own] using known inRegistry
    · exact (mirrors.tables _ _ _).mpr ⟨entity, inRegistry, own ▸ ofDomain, kind, rfl, rfl⟩

omit [LawfulMutators Cache] [LawfulNodeMutators Cache] [LawfulGids] in
theorem hasService_of_query [LawfulQueries Cache] (mirrors : Mirrors registry made domainId manager)
    {demangleTopic : DemangleFunction} {servicePrefix suffix : Text} {result : NamesAndTypes}
    (accepts : ∀ {topicName service : Text}, service ≠ [] → (demangleTopic topicName = service ↔
      ['/'] <+: service ∧ topicName = servicePrefix ++ service ++ suffix))
    (queried : GraphCache.getNamesAndTypes demangleTopic demangleServiceTypeOnly
      manager.graphCache = some result) :
    Collects result (registry.HasService domainId servicePrefix suffix) := by
  obtain ⟨answered, equal, collects⟩ :=
    LawfulQueries.getNamesAndTypes demangleTopic demangleServiceTypeOnly manager.graphCache
  cases queried.symm.trans equal
  refine collects.congr ?_
  intro name type
  constructor
  · intro ⟨isReader, gid, info, found, demangled, nonempty, typed⟩
    obtain ⟨entity, inRegistry, ofDomain, _, _, rfl⟩ := (mirrors.tables _ _ _).mp found
    obtain ⟨slash, topic⟩ := (accepts nonempty).mp demangled
    exact ⟨entity, inRegistry, ofDomain, slash, topic, typed⟩
  · intro ⟨entity, inRegistry, ofDomain, slash, topic, typed⟩
    have nonempty : name ≠ [] := by
      intro empty
      simp [empty] at slash
    exact ⟨entity.isReader, entity.gid, entity.info,
      (mirrors.tables _ _ _).mpr ⟨entity, inRegistry, ofDomain, rfl, rfl, rfl⟩,
      (accepts nonempty).mpr ⟨slash, topic⟩, nonempty, typed⟩

omit [LawfulMutators Cache] [LawfulNodeMutators Cache] in
theorem describes_of_mirrors [LawfulQueries Cache] [LawfulNamespacePrefix]
    (mirrors : Mirrors registry made domainId manager) (delivered : manager.inFlight = [])
    (known : registry.entities ⊆ made) (distinct : (made.map identity).Nodup)
    (unique : registry.UniqueNames domainId) :
    ∃ graph, publishMicrorosGraph.eval answer manager.graphCache = some graph ∧
      registry.Describes domainId graph := by
  obtain ⟨graph, published, described⟩ := publishMicrorosGraph_eval manager.graphCache
  have uniqueNodes := uniqueNodes_of_mirrors mirrors delivered unique
  have topics : ∀ message ∈ graph.nodes, ∀ participant,
      OfDomain registry.participants domainId participant → nodeKey participant = message.key →
        TopicsExact manager.graphCache (nodeListing participant (listed made participant)) message := by
    intro message member participant ofDomain named
    obtain ⟨key, describes⟩ := describes_of_mem described member
    obtain ⟨nodes, cached⟩ := (hasNodes_iff mirrors delivered participant.gid _).mpr
      ⟨participant, ofDomain, rfl, rfl⟩
    exact topicsExact_of_describes uniqueNodes describes ⟨participant.gid, nodes, cached⟩ named
  refine ⟨graph, published, ⟨?_, ?_, ?_, ?_, ?_, ?_⟩⟩
  · rw [keys_of_describes described]
    exact uniqueNodes.getNodeNames_nodup
  · intro key
    rw [keys_of_describes described, mem_getNodeNames]
    constructor
    · intro ⟨gid, nodes, cached, node, member, named⟩
      obtain ⟨participant, ofDomain, _, rfl⟩ :=
        (hasNodes_iff mirrors delivered gid node).mp ⟨nodes, cached, member⟩
      exact ⟨participant, ofDomain, named⟩
    · intro ⟨participant, ofDomain, named⟩
      obtain ⟨nodes, cached, member⟩ := (hasNodes_iff mirrors delivered participant.gid _).mpr
        ⟨participant, ofDomain, rfl, rfl⟩
      exact ⟨participant.gid, nodes, cached, _, member, named⟩
  · intro message member participant ofDomain named
    exact (topics message member participant ofDomain named).publishers.congr
      (topicOf_iff mirrors known distinct ofDomain.2.1 false)
  · intro message member participant ofDomain named
    exact (topics message member participant ofDomain named).subscribers.congr
      (topicOf_iff mirrors known distinct ofDomain.2.1 true)
  · intro message member
    obtain ⟨key, describes⟩ := describes_of_mem described member
    exact hasService_of_query mirrors demangleServiceRequestFromTopic_eq_iff describes.servers
  · intro message member
    obtain ⟨key, describes⟩ := describes_of_mem described member
    exact hasService_of_query mirrors demangleServiceReplyFromTopic_eq_iff describes.clients

end

/-- After a run in which no endpoint is created while a sample of its participant is in
flight, and with nothing in flight in a domain whose participants have different names, the
message built from the domain's cache is the one that the participants and endpoints created
and not deleted describe. -/
theorem published_describes [LawfulQueries Cache] [LawfulNamespacePrefix] (events : List Event)
    (lifeCycle : LifeCycle [] [] events) (fresh : FreshEndpoints events)
    (reached : (system Cache).exec {} events = some agent)
    (calm : (system Cache).Along Calm {} events) (domainId : Nat)
    (delivered : (findOrCreateGraphManager agent domainId).inFlight = [])
    (unique : (registryOf events).UniqueNames domainId) :
    ∃ graph, publishMicrorosGraph.eval answer (findOrCreateGraphManager agent domainId).graphCache =
        some graph ∧ (registryOf events).Describes domainId graph := by
  obtain ⟨used, reflects⟩ := reflects_run reflects_initial lifeCycle fresh calm reached
  exact describes_of_mirrors (reflects.mirrors domainId) delivered reflects.known reflects.distinct
    unique

end

end MicroRosAgent.Agent

/-! ## A writer that is deleted -/

namespace MicroRosAgent.Agent

open Interleaving GraphManager

attribute [local instance] referenceRmw referenceRmw_lawfulGids referenceRmw_lawfulNamespacePrefix

abbrev publisherParticipant : DomainParticipant := ReferenceRmw.participant 1 "/node".toList

abbrev firstWriter : Endpoint :=
  ReferenceRmw.endpoint 2 "rt/chatter".toList "std_msgs::msg::dds_::String_".toList

abbrev secondWriter : Endpoint :=
  ReferenceRmw.endpoint 3 "rt/odom".toList "nav_msgs::msg::dds_::Odometry_".toList

/-- Of two writers one is deleted again. -/
def deletion : List Event :=
  [.callback (.createParticipant publisherParticipant), .loopback 0,
    .callback (.createDatawriter publisherParticipant firstWriter), .loopback 0,
    .callback (.createDatawriter publisherParticipant secondWriter), .loopback 0,
    .callback (.deleteDatawriter publisherParticipant firstWriter)]

theorem deletion_calm : (system ReferenceCache).Along Calm {} deletion := by
  have empty : ∀ {gid : Gid} (inFlight : List ParticipantEntitiesInfo), inFlight = [] →
      ∀ info ∈ inFlight, info.gid ≠ gid := by
    intro gid inFlight delivered info member
    rw [delivered] at member
    cases member
  refine ⟨fun creates => absurd rfl creates, fun _ stepped => ?_⟩
  cases stepped
  refine ⟨trivial, fun _ stepped => ?_⟩
  cases stepped
  refine ⟨fun _ => empty _ rfl, fun _ stepped => ?_⟩
  cases stepped
  refine ⟨trivial, fun _ stepped => ?_⟩
  cases stepped
  refine ⟨fun _ => empty _ rfl, fun _ stepped => ?_⟩
  cases stepped
  refine ⟨trivial, fun _ stepped => ?_⟩
  cases stepped
  exact ⟨fun creates => absurd rfl creates, fun _ _ => trivial⟩

theorem published_describes_deletion : ∃ agent graph,
    (system ReferenceCache).exec {} deletion = some agent ∧
      publishMicrorosGraph.eval answer (findOrCreateGraphManager agent 0).graphCache = some graph ∧
      (registryOf deletion).Describes 0 graph := by
  have ran : ∃ agent : State ReferenceCache, (system ReferenceCache).exec {} deletion = some agent ∧
      (findOrCreateGraphManager agent 0).inFlight = [] := ⟨_, rfl, rfl⟩
  obtain ⟨agent, reached, delivered⟩ := ran
  have lifeCycle : LifeCycle [] [] deletion := by
    simp [deletion, LifeCycle, Allowed, liveAfter, Callback.participant]
  have unique : (registryOf deletion).UniqueNames 0 := by
    intro first second firstOf secondOf _
    exact (List.mem_singleton.mp firstOf.1).trans (List.mem_singleton.mp secondOf.1).symm
  have fresh : FreshEndpoints deletion := by
    unfold FreshEndpoints
    decide
  obtain ⟨graph, published, describes⟩ := published_describes deletion lifeCycle fresh reached
    deletion_calm 0 delivered unique
  exact ⟨agent, graph, reached, published, describes⟩

end MicroRosAgent.Agent
