import MicroRosAgent.Agent.Effects
import MicroRosAgent.GraphCache.Reference
import MicroRosAgent.Interleaving.Lts
import Mathlib.Data.List.Nodup

/-! # The announced lists and the live entities

The CREATE_ and DELETE_ callbacks of one participant run one after another, each
followed by the delivery of everything it has sent.  After any such history the cached
node of the participant and the last sample written for it list every entity ever
created, in the order of creation: the DELETE_ callbacks erase the entity from the
entity table and never from the node.  So the lists show the live entities exactly as
long as nothing has been deleted.
-/

namespace MicroRosAgent.Agent

open Interleaving GraphManager

variable {Cache : Type} [GraphCache Cache]

/-! ## Delivery -/

def deliver : Nat → Manager Cache → Option (Manager Cache)
  | 0, manager => some manager
  | count + 1, manager => (loopback manager).bind (deliver count)

/-- Every sample in flight arrives and is handled, oldest first. -/
def deliverAll (manager : Manager Cache) : Option (Manager Cache) :=
  deliver manager.inFlight.length manager

/-- All samples in flight and all samples taken are handled; the node list of the
    participant is the one that was sent last. -/
structure Delivered (before : Manager Cache) (gid : Gid) (nodes : Option (List NodeEntitiesInfo))
    (after : Manager Cache) : Prop where
  nodes : GraphCache.nodes after.graphCache gid = nodes
  inFlight : after.inFlight = []
  history : after.history = []
  written : after.written = before.written
  datawriters : after.datawriters = before.datawriters

theorem deliver_delivered [LawfulMutators Cache] {gid : Gid} {nodes : Option (List NodeEntitiesInfo)}
    {manager : Manager Cache} (taken : manager.history = [])
    (own : ∀ info ∈ manager.inFlight, info.gid = gid)
    (last : (manager.inFlight.getLast?.map fun info => some info.nodeEntitiesInfoSeq).getD
      (GraphCache.nodes manager.graphCache gid) = nodes) :
    ∃ after, deliverAll manager = some after ∧ Delivered manager gid nodes after := by
  unfold deliverAll
  cases sent : manager.inFlight with
  | nil =>
    refine ⟨manager, rfl, ?_⟩
    simp only [sent, List.getLast?_nil, Option.map_none, Option.getD_none] at last
    exact ⟨last, sent, taken, rfl, rfl⟩
  | cons info later =>
    have updated := LawfulMutators.updateParticipantEntities info manager.graphCache
    have infoGid : info.gid = gid := own info (by simp [sent])
    let next : Manager Cache := { manager with
      graphCache := GraphCache.updateParticipantEntities info manager.graphCache
      inFlight := later }
    have takenNext : next.history = [] := taken
    have ownLater : ∀ info ∈ next.inFlight, info.gid = gid := by
      intro info member
      exact own info (by simp [sent, show info ∈ later from member])
    have lastLater : (next.inFlight.getLast?.map fun info => some info.nodeEntitiesInfoSeq).getD
        (GraphCache.nodes next.graphCache gid) = nodes := by
      rw [← last, sent, updated.nodes, infoGid]
      cases later with
      | nil => simp [next]
      | cons second more => simp [next, List.getLast?_eq_some_getLast]
    obtain ⟨after, delivered, effect⟩ := deliver_delivered takenNext ownLater lastLater
    refine ⟨after, ?_, ⟨effect.nodes, effect.inFlight, effect.history, effect.written,
      effect.datawriters⟩⟩
    simp only [List.length_cons, deliver, loopback_eq sent taken, Option.bind_some]
    exact delivered
termination_by manager.inFlight.length
decreasing_by simp [sent]

/-! ## Histories -/

variable [Rmw]

def runCallback (manager : Manager Cache) (callback : Callback) : Option (Manager Cache) :=
  (callback.program.run handle manager).bind fun answer => deliverAll answer.2

def sequential (Cache : Type) [GraphCache Cache] : Lts (Manager Cache) Callback := ⟨runCallback⟩

def Callback.ofEntities (callback : Callback) : Prop :=
  callback.created ≠ [] ∨ callback.deleted ≠ []

def createdBy (callbacks : List Callback) : List (Bool × Endpoint) := callbacks.flatMap Callback.created

def deletedBy (callbacks : List Callback) : List (Bool × Endpoint) := callbacks.flatMap Callback.deleted

/-- A history of the entities of one participant: no GUID is used twice, and what is
    deleted has been created and not been deleted before. -/
structure EntityHistory (participant : DomainParticipant) (callbacks : List Callback) : Prop where
  ofParticipant : ∀ callback ∈ callbacks, callback.participant = participant ∧ callback.ofEntities
  fresh : ((createdBy callbacks).map fun entity => entity.2.guid).Nodup
  deletesLive : ∀ before callback later, callbacks = before ++ callback :: later →
    ∀ entity ∈ callback.deleted, entity ∈ createdBy before ∧ entity ∉ deletedBy before

/-- Created and not yet deleted. -/
def Live (callbacks : List Callback) (entity : Bool × Endpoint) : Prop :=
  entity ∈ createdBy callbacks ∧ entity ∉ deletedBy callbacks

/-- The gids are those of the live readers, or of the live writers, each once. -/
structure ListsLive (callbacks : List Callback) (isReader : Bool) (gids : List Gid) : Prop where
  nodup : gids.Nodup
  mem : ∀ gid, gid ∈ gids ↔ ∃ endpoint, Live callbacks (isReader, endpoint) ∧ endpoint.gid = gid

/-- The node list has the participant's node, with exactly the live entities. -/
def NodesListLive (participant : DomainParticipant) (callbacks : List Callback)
    (nodes : List NodeEntitiesInfo) : Prop :=
  ∃ node, nodes = [node] ∧ node.key = nodeKey participant ∧
    ListsLive callbacks false node.writerGidSeq ∧ ListsLive callbacks true node.readerGidSeq

/-- Both records of the participant's entities, the cached node and the last sample
    written, list exactly the live entities. -/
def Tracked (participant : DomainParticipant) (callbacks : List Callback) (manager : Manager Cache) :
    Prop :=
  (∃ nodes, GraphCache.nodes manager.graphCache participant.gid = some nodes ∧
      NodesListLive participant callbacks nodes) ∧
    ∃ nodes, manager.lastWritten participant.gid = some ⟨participant.gid, nodes⟩ ∧
      NodesListLive participant callbacks nodes

/-! ## What a history leaves behind -/

/-- Everything the manager has of the participant lists `entities`. -/
structure Listing (participant : DomainParticipant) (entities : List (Bool × Gid))
    (manager : Manager Cache) : Prop where
  nodes : GraphCache.nodes manager.graphCache participant.gid = some [nodeListing participant entities]
  lastWritten : manager.lastWritten participant.gid =
    some ⟨participant.gid, [nodeListing participant entities]⟩
  history : manager.history = []
  announced : (manager.datawriters participant.handle).isSome
  own : ∀ info ∈ manager.inFlight, info.gid = participant.gid
  sent : ∀ info, manager.inFlight.getLast? = some info →
    info = ⟨participant.gid, [nodeListing participant entities]⟩

theorem Listing.registered {participant : DomainParticipant} {entities : List (Bool × Gid)}
    {manager : Manager Cache} (listing : Listing participant entities manager) :
    Registered manager participant [nodeListing participant entities] :=
  ⟨listing.nodes, ⟨nodeListing participant entities, by simp, rfl⟩, listing.announced⟩

/-- A list that is sent and cached at the same time is what everything lists. -/
theorem listing_of_effect {participant : DomainParticipant} {entities : List (Bool × Gid)}
    {manager after : Manager Cache} {datawriters : Nat → Option Nat} (taken : manager.history = [])
    (own : ∀ info ∈ manager.inFlight, info.gid = participant.gid)
    (announced : (datawriters participant.handle).isSome)
    (effect : Effect manager participant.gid (some [nodeListing participant entities])
      [⟨participant.gid, [nodeListing participant entities]⟩] datawriters after) :
    Listing participant entities after := by
  refine ⟨?_, lastWritten_concat effect.written, effect.history.trans taken, ?_, ?_, ?_⟩
  · rw [effect.nodes, Function.update_self]
  · rw [effect.datawriters]
    exact announced
  · intro info member
    rw [effect.inFlight] at member
    obtain old | new := List.mem_append.mp member
    · exact own info old
    · rw [List.mem_singleton.mp new]
  · intro info last
    rw [effect.inFlight, List.getLast?_concat] at last
    exact (Option.some.inj last).symm

variable [LawfulMutators Cache]

theorem listing_createEndpoint {participant : DomainParticipant} {entities : List (Bool × Gid)}
    {manager : Manager Cache} (listing : Listing participant entities manager) (isReader : Bool)
    (endpoint : Endpoint) :
    ∃ after, (createEndpoint participant isReader endpoint).run handle manager = some ((), after) ∧
      Listing participant (entities ++ [(isReader, endpoint.gid)]) after := by
  obtain ⟨after, ran, effect⟩ := createEndpoint_effect participant isReader endpoint listing.registered
  rw [modifyNode_nodeListing] at effect
  exact ⟨after, ran, listing_of_effect listing.history listing.own listing.announced effect⟩

theorem listing_createEndpoints {participant : DomainParticipant} {entities : List (Bool × Gid)}
    {manager : Manager Cache} (listing : Listing participant entities manager)
    (created : List (Bool × Endpoint)) :
    ∃ after, (createEndpoints participant created).run handle manager = some ((), after) ∧
      Listing participant (entities ++ created.map fun entity => (entity.1, entity.2.gid)) after := by
  induction created generalizing entities manager with
  | nil => exact ⟨manager, rfl, by simpa using listing⟩
  | cons entity rest ih =>
    obtain ⟨middle, first, listing⟩ := listing_createEndpoint listing entity.1 entity.2
    obtain ⟨after, second, listing⟩ := ih listing
    refine ⟨after, ?_, by simpa using listing⟩
    simp only [createEndpoints, Program.run_bind, first, Option.bind_some, second]

theorem listing_deleteEndpoints {participant : DomainParticipant} {entities : List (Bool × Gid)}
    {manager : Manager Cache} (listing : Listing participant entities manager)
    (deleted : List (Bool × Endpoint)) :
    ∃ after, (deleteEndpoints deleted).run handle manager = some ((), after) ∧
      Listing participant entities after := by
  induction deleted generalizing manager with
  | nil => exact ⟨manager, rfl, listing⟩
  | cons entity rest ih =>
    obtain ⟨middle, first, effect⟩ :=
      deleteEndpoint_effect participant.gid entity.1 entity.2 manager
    have kept : Listing participant entities middle := by
      have written := effect.written
      have inFlight := effect.inFlight
      rw [List.append_nil] at written inFlight
      refine ⟨?_, ?_, effect.history.trans listing.history, ?_, ?_, ?_⟩
      · rw [effect.nodes, Function.update_self]
        exact listing.nodes
      · rw [Manager.lastWritten, written]
        exact listing.lastWritten
      · rw [effect.datawriters]
        exact listing.announced
      · rw [inFlight]
        exact listing.own
      · rw [inFlight]
        exact listing.sent
    obtain ⟨after, second, listing⟩ := ih kept
    refine ⟨after, ?_, listing⟩
    simp only [deleteEndpoints, Program.run_bind, first, Option.bind_some, second]

theorem listing_deliverAll {participant : DomainParticipant} {entities : List (Bool × Gid)}
    {manager : Manager Cache} (listing : Listing participant entities manager) :
    ∃ after, deliverAll manager = some after ∧ Listing participant entities after := by
  have last : (manager.inFlight.getLast?.map fun info => some info.nodeEntitiesInfoSeq).getD
      (GraphCache.nodes manager.graphCache participant.gid) =
        some [nodeListing participant entities] := by
    cases sent : manager.inFlight.getLast? with
    | none => exact listing.nodes
    | some info => rw [listing.sent info sent]; rfl
  obtain ⟨after, delivered, effect⟩ := deliver_delivered listing.history listing.own last
  refine ⟨after, delivered, ⟨effect.nodes, ?_, effect.history, ?_, ?_, ?_⟩⟩
  · rw [Manager.lastWritten, effect.written]
    exact listing.lastWritten
  · rw [effect.datawriters]
    exact listing.announced
  · simp [effect.inFlight]
  · simp [effect.inFlight]

theorem listing_runCallback {participant : DomainParticipant} {entities : List (Bool × Gid)}
    {manager : Manager Cache} (listing : Listing participant entities manager) {callback : Callback}
    (ofParticipant : callback.participant = participant) (ofEntities : callback.ofEntities) :
    ∃ after, runCallback manager callback = some after ∧
      Listing participant (entities ++ callback.created.map fun entity => (entity.1, entity.2.gid))
        after := by
  have ran : ∃ middle, callback.program.run handle manager = some ((), middle) ∧
      Listing participant (entities ++ callback.created.map fun entity => (entity.1, entity.2.gid))
        middle := by
    by_cases creates : callback.created = []
    · have deletes : callback.deleted ≠ [] := ofEntities.resolve_left (not_not.mpr creates)
      rw [program_eq_deleteEndpoints callback deletes, creates, List.map_nil, List.append_nil]
      exact listing_deleteEndpoints listing callback.deleted
    · rw [program_eq_createEndpoints callback creates, ofParticipant]
      exact listing_createEndpoints listing callback.created
  obtain ⟨middle, ran, listing⟩ := ran
  obtain ⟨after, delivered, listing⟩ := listing_deliverAll listing
  refine ⟨after, ?_, listing⟩
  simp only [runCallback, ran, Option.bind_some, delivered]

theorem listing_exec {participant : DomainParticipant} {callbacks : List Callback}
    {entities : List (Bool × Gid)} {manager : Manager Cache}
    (ofParticipant : ∀ callback ∈ callbacks, callback.participant = participant ∧ callback.ofEntities)
    (listing : Listing participant entities manager) :
    ∃ after, (sequential Cache).exec manager callbacks = some after ∧
      Listing participant
        (entities ++ (createdBy callbacks).map fun entity => (entity.1, entity.2.gid)) after := by
  induction callbacks generalizing entities manager with
  | nil => exact ⟨manager, rfl, by simpa [createdBy] using listing⟩
  | cons callback callbacks ih =>
    obtain ⟨own, ofEntities⟩ := ofParticipant callback (by simp)
    obtain ⟨middle, first, listing⟩ := listing_runCallback listing own ofEntities
    obtain ⟨after, rest, listing⟩ :=
      ih (fun callback member => ofParticipant callback (by simp [member])) listing
    refine ⟨after, ?_, ?_⟩
    · rw [Lts.exec_cons]
      simp only [sequential, first, Option.bind_some]
      exact rest
    · simpa [createdBy] using listing

/-- `add_participant` on a manager that has nothing of the participant. -/
theorem listing_createParticipant {participant : DomainParticipant} {manager : Manager Cache}
    (named : participant.name ≠ ['/']) (taken : manager.history = []) (idle : manager.inFlight = [])
    (unknown : (GraphCache.nodes manager.graphCache participant.gid).getD [] = []) :
    ∃ after, runCallback manager (.createParticipant participant) = some after ∧
      Listing participant [] after := by
  obtain ⟨middle, datawriter, ran, effect⟩ := addParticipant_effect participant ['/'] manager named
  rw [unknown] at effect
  have listing : Listing participant [] middle :=
    listing_of_effect taken (by simp [idle]) (by simp) effect
  obtain ⟨after, delivered, listing⟩ := listing_deliverAll listing
  refine ⟨after, ?_, listing⟩
  simp only [runCallback, Callback.program, onCreateParticipant, ran, Option.bind_some, delivered]

/-- A whole history: both records list everything that was ever created. -/
theorem listing_history {participant : DomainParticipant} {callbacks : List Callback}
    {manager : Manager Cache} (named : participant.name ≠ ['/'])
    (history : EntityHistory participant callbacks) (taken : manager.history = [])
    (idle : manager.inFlight = [])
    (unknown : (GraphCache.nodes manager.graphCache participant.gid).getD [] = []) :
    ∃ after,
      (sequential Cache).exec manager (.createParticipant participant :: callbacks) = some after ∧
        Listing participant ((createdBy callbacks).map fun entity => (entity.1, entity.2.gid)) after := by
  obtain ⟨middle, first, listing⟩ := listing_createParticipant named taken idle unknown
  obtain ⟨after, rest, listing⟩ := listing_exec history.ofParticipant listing
  refine ⟨after, ?_, by simpa using listing⟩
  rw [Lts.exec_cons]
  simp only [sequential, first, Option.bind_some]
  exact rest

/-! ## Live entities -/

omit [Rmw] [LawfulMutators Cache] [GraphCache Cache] in
theorem created_of_deleted {participant : DomainParticipant} {callbacks : List Callback}
    (history : EntityHistory participant callbacks) {entity : Bool × Endpoint}
    (deleted : entity ∈ deletedBy callbacks) : entity ∈ createdBy callbacks := by
  obtain ⟨callback, member, deletes⟩ := List.mem_flatMap.mp deleted
  obtain ⟨before, later, split⟩ := List.append_of_mem member
  have created := (history.deletesLive before callback later split entity deletes).1
  rw [split, createdBy, List.flatMap_append]
  exact List.mem_append_left _ created

/-- The gids of everything created are those of the live entities if no entity of that
kind was deleted. -/
theorem listsLive_iff [LawfulGids] {participant : DomainParticipant} {callbacks : List Callback}
    (history : EntityHistory participant callbacks) (isReader : Bool) :
    ListsLive callbacks isReader
        (gidsOf isReader ((createdBy callbacks).map fun entity => (entity.1, entity.2.gid))) ↔
      ∀ entity ∈ deletedBy callbacks, entity.1 ≠ isReader := by
  have listed : ∀ gid, gid ∈ gidsOf isReader
      ((createdBy callbacks).map fun entity => (entity.1, entity.2.gid)) ↔
        ∃ endpoint, (isReader, endpoint) ∈ createdBy callbacks ∧ endpoint.gid = gid := by
    intro gid
    cases isReader <;> simp [mem_gidsOf]
  have sameGid : ∀ first ∈ createdBy callbacks, ∀ second ∈ createdBy callbacks,
      first.2.gid = second.2.gid → first = second := by
    intro first firstCreated second secondCreated equal
    exact List.inj_on_of_nodup_map history.fresh firstCreated secondCreated (gidOf_injective equal)
  constructor
  · intro lists entity deleted ofKind
    have created := created_of_deleted history deleted
    obtain ⟨kind, endpoint⟩ := entity
    simp only at ofKind
    subst ofKind
    obtain ⟨other, ⟨otherCreated, kept⟩, equal⟩ :=
      (lists.mem endpoint.gid).mp ((listed _).mpr ⟨endpoint, created, rfl⟩)
    have same := sameGid _ otherCreated _ created equal
    exact kept (same ▸ deleted)
  · intro kept
    refine ⟨?_, ?_⟩
    · have gidsNodup : ((createdBy callbacks).map fun entity => entity.2.gid).Nodup := by
        have := List.Nodup.map gidOf_injective history.fresh
        rwa [List.map_map] at this
      have sublist : (gidsOf isReader
          ((createdBy callbacks).map fun entity => (entity.1, entity.2.gid))).Sublist
          ((createdBy callbacks).map fun entity => entity.2.gid) := by
        have := (List.filter_sublist (p := fun entity : Bool × Gid => entity.1 = isReader)
          (l := (createdBy callbacks).map fun entity => (entity.1, entity.2.gid))).map Prod.snd
        rwa [List.map_map] at this
      exact sublist.nodup gidsNodup
    · intro gid
      rw [listed]
      constructor
      · intro ⟨endpoint, created, equal⟩
        exact ⟨endpoint, ⟨created, fun deleted => kept _ deleted rfl⟩, equal⟩
      · intro ⟨endpoint, live, equal⟩
        exact ⟨endpoint, live.1, equal⟩

/-- Every history runs to its end, and after it the cached node and the last sample list
exactly the live entities if and only if no callback of the history deletes an entity. -/
theorem tracked_iff [LawfulGids] {participant : DomainParticipant} {callbacks : List Callback}
    {manager : Manager Cache} (named : participant.name ≠ ['/'])
    (history : EntityHistory participant callbacks) (taken : manager.history = [])
    (idle : manager.inFlight = [])
    (unknown : (GraphCache.nodes manager.graphCache participant.gid).getD [] = []) :
    ∃ after,
      (sequential Cache).exec manager (.createParticipant participant :: callbacks) = some after ∧
        (Tracked participant callbacks after ↔ ∀ callback ∈ callbacks, callback.deleted = []) := by
  obtain ⟨after, ran, listing⟩ := listing_history named history taken idle unknown
  refine ⟨after, ran, ?_⟩
  have lists : NodesListLive participant callbacks
      [nodeListing participant ((createdBy callbacks).map fun entity => (entity.1, entity.2.gid))] ↔
        ∀ callback ∈ callbacks, callback.deleted = [] := by
    have kinds : (∀ entity ∈ deletedBy callbacks, entity.1 ≠ false) ∧
        (∀ entity ∈ deletedBy callbacks, entity.1 ≠ true) ↔
          ∀ callback ∈ callbacks, callback.deleted = [] := by
      rw [← List.flatMap_eq_nil_iff]
      constructor
      · intro ⟨noWriter, noReader⟩
        refine List.eq_nil_iff_forall_not_mem.mpr fun entity deleted => ?_
        cases kind : entity.1 with
        | false => exact noWriter entity deleted kind
        | true => exact noReader entity deleted kind
      · intro none
        simp [deletedBy, none]
    rw [← kinds, ← listsLive_iff history false, ← listsLive_iff history true]
    constructor
    · intro ⟨node, equal, _, writers, readers⟩
      cases equal
      exact ⟨writers, readers⟩
    · intro ⟨writers, readers⟩
      exact ⟨_, rfl, rfl, writers, readers⟩
  rw [← lists, Tracked, listing.nodes, listing.lastWritten]
  simp

end MicroRosAgent.Agent

/-! ## A history with a deletion -/

namespace MicroRosAgent.Agent

open Interleaving GraphManager

attribute [local instance] referenceRmw referenceRmw_lawfulGids

abbrev sampleParticipant : DomainParticipant := ReferenceRmw.participant 1 "/node".toList

abbrev sampleWriter : Endpoint :=
  ReferenceRmw.endpoint 2 "rt/chatter".toList "std_msgs::msg::dds_::String_".toList

theorem sampleHistory : EntityHistory sampleParticipant
    [.createDatawriter sampleParticipant sampleWriter,
      .deleteDatawriter sampleParticipant sampleWriter] := by
  refine ⟨by simp [Callback.participant, Callback.ofEntities, Callback.created, Callback.deleted],
    by decide, ?_⟩
  intro before callback later split entity deletes
  obtain _ | ⟨first, _ | ⟨second, rest⟩⟩ := before
  · cases split
    simp [Callback.deleted] at deletes
  · cases split
    simp_all [Callback.deleted, createdBy, deletedBy, Callback.created]
  · simp at split

theorem tracked_iff_sample : ∃ after, (sequential ReferenceCache).exec { graphCache := GraphCache.empty }
      [.createParticipant sampleParticipant, .createDatawriter sampleParticipant sampleWriter,
        .deleteDatawriter sampleParticipant sampleWriter] = some after ∧
      (Tracked sampleParticipant [.createDatawriter sampleParticipant sampleWriter,
        .deleteDatawriter sampleParticipant sampleWriter] after ↔
        ∀ callback ∈ [Callback.createDatawriter sampleParticipant sampleWriter,
          .deleteDatawriter sampleParticipant sampleWriter], callback.deleted = []) :=
  tracked_iff (by decide) sampleHistory rfl rfl rfl

/-- A deleted datawriter stays in the cached node. -/
theorem deleted_writer_stays_listed :
    ∃ after, (sequential ReferenceCache).exec { graphCache := GraphCache.empty }
      [.createParticipant sampleParticipant, .createDatawriter sampleParticipant sampleWriter,
        .deleteDatawriter sampleParticipant sampleWriter] = some after ∧
      ¬ Tracked sampleParticipant [.createDatawriter sampleParticipant sampleWriter,
        .deleteDatawriter sampleParticipant sampleWriter] after := by
  let fresh : Manager ReferenceCache := { graphCache := GraphCache.empty }
  have idle : fresh.inFlight = [] := rfl
  obtain ⟨after, ran, listing⟩ := listing_history (by decide) sampleHistory rfl idle rfl
  refine ⟨after, ran, ?_⟩
  intro ⟨⟨nodes, known, node, single, _, writers, _⟩, _⟩
  rw [listing.nodes, single] at known
  cases known
  obtain ⟨endpoint, ⟨_, kept⟩, _⟩ := (writers.mem ⟨2⟩).mp (by decide)
  simp_all [createdBy, deletedBy, Callback.created, Callback.deleted]

end MicroRosAgent.Agent
