import MicroRosAgent.Agent.SampleOrder

/-! # The cache shows what was announced last

`add_node` and the `associate_*` members return the new node list of the participant, and
the callback writes it later, when other callbacks may have changed the list and written
it again.  Samples come back later still and replace the list.  Nothing orders the writes
as the changes were ordered, so entities may get lost; but when no callback is running and
no sample is on its way, the cached list of a participant is the one that was written last
(`converges`), unless one of its samples was lost in the reader's history or overtaken.

Every callback that changes the list of a participant owes a sample of it, and a run of
`on_data_available` that has taken a sample owes its application.  Only the discovery of a
participant's end erases a list without a sample.
-/

namespace MicroRosAgent.Agent.Concurrency

open Interleaving GraphManager

/-- The discovered end of the participant with that gid. -/
def Event.Removes [Rmw] (gid : Gid) : Event → Prop
  | .participantDiscovery reason guid _ => (reason = .removed ∨ reason = .dropped) ∧ gidOf guid = gid
  | _ => False

/-! ## What a callback owes -/

/-- A call that changes the node list of the gid, or takes a sample that will.  An erasure
    is not counted where the end of the participant may be discovered. -/
def Changes (removable : Prop) (gid : Gid) : (operation : Call) → operation.Result → Prop
  | .cache (.addNode other _ _), _ => other = gid
  | .cache (.associate _ _ other _ _), _ => other = gid
  | .cache (.removeParticipant other), _ => other = gid ∧ ¬ removable
  | .takeNextSample, taken =>
      ∃ sample, taken = some sample ∧ sample.alive = true ∧ sample.info.gid = gid
  | _, _ => False

/-- A call that sends a sample of the gid on its way, or brings it to its end. -/
def Conveys (gid : Gid) : Call → Prop
  | .write _ info | .cache (.updateParticipantEntities info) => info.gid = gid
  | _ => False

/-- A member that returns a sample returns one of the participant it was called for. -/
def ReturnsOwn : (operation : Call) → operation.Result → Prop
  | .cache (.addNode gid _ _), message => message.gid = gid
  | .cache (.associate _ _ gid _ _), message => message.gid = gid
  | _, _ => True

/-- The node list is the one that was announced last, or a sample that is to replace it is
    in flight or waits. -/
inductive Shown {Cache : Type} [GraphCache Cache] (removable : Prop) (gid : Gid)
    (manager : Manager Cache) : Prop
  | inFlight (info : ParticipantEntitiesInfo) (member : info ∈ manager.inFlight)
      (own : info.gid = gid)
  | waiting (sample : Sample) (member : sample ∈ manager.history) (alive : sample.alive = true)
      (own : sample.info.gid = gid)
  | agrees (nodes : ∀ info, manager.lastWritten gid = some info →
      GraphCache.nodes manager.graphCache gid = some info.nodeEntitiesInfoSeq)
  | erased (discoverable : removable)
      (empty : (GraphCache.nodes manager.graphCache gid).getD [] = [])

variable {removable : Prop} {gid : Gid}

abbrev Owing (gid : Gid) (program : ManagerProgram Unit) : Prop :=
  program.Owes ReturnsOwn (Conveys gid)

abbrev Repaying (removable : Prop) (gid : Gid) (program : ManagerProgram Unit) : Prop :=
  program.Repays ReturnsOwn (Changes removable gid) (Conveys gid)

theorem owing_write (datawriter : Nat) {info : ParticipantEntitiesInfo} (own : info.gid = gid) :
    Owing gid (write datawriter info) := Or.inl own

theorem owing_writeUnchecked (participant : DomainParticipant) {info : ParticipantEntitiesInfo}
    (own : info.gid = gid) : Owing gid (writeUnchecked participant info) := by
  refine Or.inr ?_
  intro found _
  cases found with
  | none => trivial
  | some datawriter => exact owing_write datawriter own

theorem repaying_write (datawriter : Nat) (info : ParticipantEntitiesInfo) :
    Repaying removable gid (write datawriter info) :=
  .unchanged (fun _ => id) fun _ _ => trivial

theorem repaying_writeUnchecked (participant : DomainParticipant) (info : ParticipantEntitiesInfo) :
    Repaying removable gid (writeUnchecked participant info) := by
  refine .unchanged (fun _ => id) ?_
  intro found _
  cases found with
  | none => trivial
  | some datawriter => exact repaying_write datawriter info

variable [Rmw]

theorem repaying_addParticipant (participant : DomainParticipant) :
    Repaying removable gid (onCreateParticipant participant) := by
  refine .unchanged (fun _ => id) ?_
  intro _ _
  split
  · -- the node is added, and all that is left is to write it
    intro message own
    refine ⟨.unchanged (fun _ => id) ?_, ?_⟩
    · intro found _
      cases found with
      | some datawriter => exact repaying_write datawriter message
      | none =>
        exact .unchanged (fun _ => id) fun _ _ =>
          .unchanged (fun _ => id) fun _ _ => repaying_write _ message
    · intro changed
      have ofGid : message.gid = gid := Eq.trans own changed
      refine Or.inr ?_
      intro found _
      cases found with
      | some datawriter => exact owing_write datawriter ofGid
      | none => exact Or.inr fun _ _ => Or.inr fun _ _ => owing_write _ ofGid
  · trivial

theorem repaying_removeParticipant (participant : DomainParticipant) :
    Repaying removable gid (onDeleteParticipant participant) := by
  intro _ _
  refine ⟨.unchanged (fun _ => id) ?_, ?_⟩
  · intro found _
    cases found with
    | none => trivial
    | some datawriter =>
      exact .unchanged (fun _ => id) fun _ _ => .unchanged (fun _ => id) fun _ _ =>
        .unchanged (fun _ => id) fun _ _ => trivial
  · intro changed
    refine Or.inr ?_
    intro found _
    cases found with
    | none => trivial
    | some datawriter => exact Or.inl changed.1

theorem repaying_createEndpoint (participant : DomainParticipant) (isReader : Bool)
    (endpoint : Endpoint) : Repaying removable gid (createEndpoint participant isReader endpoint) := by
  refine .unchanged (fun _ => id) ?_
  intro _ _
  show Repaying removable gid (associateEntity endpoint.guid participant
    (if isReader then .datareader else .datawriter))
  rw [associateEntity_eq]
  intro message own
  refine ⟨repaying_writeUnchecked participant message, ?_⟩
  intro changed
  exact owing_writeUnchecked participant (Eq.trans own changed)

theorem repaying_createEndpoints (participant : DomainParticipant)
    (created : List (Bool × Endpoint)) :
    Repaying removable gid (createEndpoints participant created) := by
  induction created with
  | nil => trivial
  | cons entity rest ih =>
    exact (repaying_createEndpoint participant entity.1 entity.2).bind fun _ => ih

theorem repaying_deleteEndpoints (deleted : List (Bool × Endpoint)) :
    Repaying removable gid (deleteEndpoints deleted) := by
  induction deleted with
  | nil => trivial
  | cons entity rest ih => exact .unchanged (fun _ => id) fun _ _ => ih

theorem repaying_callback (callback : Callback) : Repaying removable gid callback.program := by
  by_cases creates : callback.created = []
  · by_cases deletes : callback.deleted = []
    · cases callback with
      | createParticipant participant => exact repaying_addParticipant participant
      | deleteParticipant participant => exact repaying_removeParticipant participant
      | createDatawriter | createDatareader | createRequester | createReplier =>
        simp [Callback.created] at creates
      | deleteDatawriter | deleteDatareader | deleteRequester | deleteReplier =>
        simp [Callback.deleted] at deletes
    · rw [program_eq_deleteEndpoints callback deletes]
      exact repaying_deleteEndpoints callback.deleted
  · rw [program_eq_createEndpoints callback creates]
    exact repaying_createEndpoints callback.participant callback.created

/-- The discovered end of a participant erases its list and announces nothing. -/
theorem repaying_participantDiscovery (reason : ParticipantDiscoveryStatus) (guid : Guid)
    (userData : List UInt8)
    (discoverable : (Event.participantDiscovery reason guid userData).Removes gid → removable) :
    Repaying removable gid (onParticipantDiscovery reason guid userData) := by
  have erasing : (reason = .removed ∨ reason = .dropped) →
      Repaying removable gid (mutate (.removeParticipant (gidOf guid))) := by
    intro removes
    refine .unchanged ?_ fun _ _ => trivial
    intro _ ⟨own, kept⟩
    exact kept (discoverable ⟨removes, own⟩)
  cases reason with
  | discovered =>
    simp only [onParticipantDiscovery]
    split
    · trivial
    · exact .unchanged (fun _ => id) fun _ _ => trivial
  | removed => exact erasing (Or.inl rfl)
  | dropped => exact erasing (Or.inr rfl)
  | changedQos | ignored => trivial

theorem repaying_endpointDiscovery (isReader : Bool) (reason : EndpointDiscoveryStatus)
    (info : BuiltinTopicData) : Repaying removable gid (onEndpointDiscovery isReader reason info) := by
  have removing : reason.IsRemoval →
      Repaying removable gid (onEndpointDiscovery isReader reason info) := by
    intro removal
    rw [onEndpointDiscovery_removal isReader removal]
    exact .unchanged (fun _ => id) fun _ _ => trivial
  cases reason with
  | discovered =>
    rw [onEndpointDiscovery_discovered]
    exact .unchanged (fun _ => id) fun _ _ => trivial
  | changedQos =>
    rw [onEndpointDiscovery_changedQos]
    trivial
  | removed => exact removing (Or.inl rfl)
  | ignored => exact removing (Or.inr rfl)

omit [Rmw] in
/-- A run that has taken a sample of the participant owes its application. -/
theorem repaying_onDataAvailable : Repaying removable gid onDataAvailable := by
  rw [onDataAvailable_eq]
  intro taken _
  obtain ⟨sample, rfl, alive, applies⟩ | ⟨gone, returns⟩ := afterTake_cases taken
  · rw [applies]
    refine ⟨.unchanged (fun _ => id) fun _ _ => trivial, ?_⟩
    rintro ⟨_, ⟨⟩, _, own⟩
    exact Or.inl own
  · rw [returns]
    refine ⟨trivial, ?_⟩
    rintro ⟨sample, isTaken, alive, _⟩
    cases (gone sample isTaken).symm.trans alive

/-! ## What a call does to the list -/

variable {Cache : Type} [GraphCache Cache] [LawfulMutators Cache] [LawfulPreconditions Cache]

omit [Rmw] in
theorem returnsOwn_handle {operation : Call} {manager after : Manager Cache}
    {result : operation.Result} (handled : handle operation manager = some (result, after)) :
    ReturnsOwn operation result := by
  cases operation with
  | cache mutator =>
    obtain ⟨⟨answer, cache⟩, performed, answered⟩ := Option.map_eq_some_iff.mp handled
    cases answered
    cases mutator with
    | addNode gid name nodeNamespace =>
      obtain ⟨nodes, _, rfl, _⟩ := perform_addNode_of_some performed
      rfl
    | associate isReader entityGid gid name nodeNamespace =>
      obtain ⟨nodes, _, rfl, _⟩ := perform_associate_of_some performed
      rfl
    | addParticipant | removeParticipant | addEntity | removeEntity | updateParticipantEntities =>
      trivial
  | takeNextSample | findDatawriter | createDatawriter | insertDatawriter | write | deleteDatawriter
  | eraseDatawriter => trivial

omit [Rmw] in
/-- A call that does not change the list leaves it as it is, or makes an absent one empty,
or erases one whose end may be discovered. -/
theorem nodesAfter_of_unchanged {operation : Call} {result : operation.Result}
    (unchanged : ¬ Changes removable gid operation result) (unconveyed : ¬ Conveys gid operation)
    (nodes : Gid → Option (List NodeEntitiesInfo)) :
    nodesAfter operation nodes gid = nodes gid ∨
      nodesAfter operation nodes gid = some ((nodes gid).getD []) ∨
      removable ∧ nodesAfter operation nodes gid = none := by
  cases operation with
  | cache mutator =>
    cases mutator with
    | addParticipant other enclave =>
      by_cases same : other = gid
      · subst same
        exact Or.inr (Or.inl (Function.update_self ..))
      · exact Or.inl (Function.update_of_ne (Ne.symm same) ..)
    | removeParticipant other =>
      by_cases same : other = gid
      · subst same
        have discoverable : removable := by
          by_contra kept
          exact unchanged ⟨rfl, kept⟩
        exact Or.inr (Or.inr ⟨discoverable, Function.update_self ..⟩)
      · exact Or.inl (Function.update_of_ne (Ne.symm same) ..)
    | addNode other | associate _ _ other =>
      exact Or.inl (Function.update_of_ne (Ne.symm unchanged) ..)
    | updateParticipantEntities message =>
      exact Or.inl (Function.update_of_ne (Ne.symm unconveyed) ..)
    | addEntity | removeEntity => exact Or.inl rfl
  | takeNextSample | findDatawriter | createDatawriter | insertDatawriter | write | deleteDatawriter
  | eraseDatawriter => exact Or.inl rfl

omit [Rmw] [GraphCache Cache] in
theorem conveys_of_mem {operation : Call} {info : ParticipantEntitiesInfo}
    (member : info ∈ writes operation) (own : info.gid = gid) : Conveys gid operation := by
  cases operation with
  | write datawriter sent =>
    cases List.mem_singleton.mp member
    exact own
  | cache | takeNextSample | findDatawriter | createDatawriter | insertDatawriter | deleteDatawriter
  | eraseDatawriter => cases member

omit [Rmw] [LawfulMutators Cache] [LawfulPreconditions Cache] in
/-- A sample of the participant waits until it is taken. -/
theorem waits_of_unchanged {operation : Call} {manager after : Manager Cache}
    {result : operation.Result} (handled : handle operation manager = some (result, after))
    (unchanged : ¬ Changes removable gid operation result) {sample : Sample}
    (member : sample ∈ manager.history) (alive : sample.alive = true)
    (own : sample.info.gid = gid) : sample ∈ after.history := by
  by_cases offTopic : OffTopic operation
  · rwa [history_offTopic offTopic handled]
  · cases operation with
    | takeNextSample =>
      simp only [handle] at handled
      split at handled
      · rename_i empty
        rw [empty] at member
        cases member
      · rename_i first later waits
        cases handled
        rw [waits] at member
        obtain rfl | behind := List.mem_cons.mp member
        · exact absurd ⟨sample, rfl, alive, own⟩ unchanged
        · exact behind
    | cache mutator =>
      obtain ⟨⟨answer, cache⟩, _, answered⟩ := Option.map_eq_some_iff.mp handled
      cases answered
      exact member
    | findDatawriter | createDatawriter | insertDatawriter | write | deleteDatawriter
    | eraseDatawriter => exact absurd trivial offTopic

omit [Rmw] in
theorem shown_of_unchanged {operation : Call} {manager after : Manager Cache}
    {result : operation.Result} (handled : handle operation manager = some (result, after))
    (unchanged : ¬ Changes removable gid operation result) (unconveyed : ¬ Conveys gid operation)
    (shown : Shown removable gid manager) : Shown removable gid after := by
  have nodes := congrFun (nodes_handle handled) gid
  have kept := nodesAfter_of_unchanged unchanged unconveyed (GraphCache.nodes manager.graphCache)
  rw [← nodes] at kept
  obtain ⟨written, inFlight⟩ := written_handle handled
  have same : after.lastWritten gid = manager.lastWritten gid :=
    lastWritten_of_others written fun _ member own => unconveyed (conveys_of_mem member own)
  cases shown with
  | inFlight info member own =>
    refine .inFlight info ?_ own
    rw [inFlight]
    exact List.mem_append_left _ member
  | waiting sample member alive own =>
    exact .waiting sample (waits_of_unchanged handled unchanged member alive own) alive own
  | agrees agrees =>
    obtain equal | equal | ⟨discoverable, erased⟩ := kept
    · refine .agrees ?_
      intro info last
      rw [equal]
      exact agrees info (same ▸ last)
    · refine .agrees ?_
      intro info last
      rw [equal, agrees info (same ▸ last), Option.getD_some]
    · exact .erased discoverable (by rw [erased, Option.getD_none])
  | erased discoverable empty =>
    refine .erased discoverable ?_
    obtain equal | equal | ⟨_, erased⟩ := kept
    · rw [equal, empty]
    · rw [equal, Option.getD_some, empty]
    · rw [erased, Option.getD_none]

section
variable {state after : State Cache}

omit [Rmw] [LawfulPreconditions Cache] in
/-- A sample that is applied is the last one written, or a later one is on its way. -/
theorem shown_of_conveys {operation : Call} {shared : Manager Cache} {result : operation.Result}
    {index : Nat} (ordered : Ordered gid state) (called : state.nextCall index = some operation)
    (handled : handle operation state.shared = some (result, shared))
    (conveys : Conveys gid operation) : Shown removable gid shared := by
  cases operation with
  | write datawriter info =>
    refine .inFlight info ?_ conveys
    rw [(written_handle handled).2]
    simp [writes]
  | cache mutator =>
    cases mutator with
    | updateParticipantEntities info =>
      obtain ⟨next, here⟩ := Pool.thread_of_nextCall called
      cases handled
      by_cases arrived : NoneInFlight gid state.shared
      · by_cases noneWaits : NoneWaits gid state.shared
        · have last := ordered.held arrived noneWaits _ (List.mem_of_getElem? here) info ⟨next, rfl⟩
            conveys
          have updated := LawfulMutators.updateParticipantEntities info state.shared.graphCache
          refine .agrees ?_
          intro other written
          cases last.symm.trans written
          rw [updated.nodes, conveys, Function.update_self]
        · simp only [NoneWaits, not_forall, not_not] at noneWaits
          obtain ⟨sample, member, own⟩ := noneWaits
          exact .waiting sample member (ordered.alive sample member own) own
      · simp only [NoneInFlight, not_forall, not_not] at arrived
        obtain ⟨other, member, own⟩ := arrived
        exact .inFlight other member own
    | addParticipant | removeParticipant | addNode | associate | addEntity | removeEntity =>
      exact absurd conveys id
  | takeNextSample | findDatawriter | createDatawriter | insertDatawriter | deleteDatawriter
  | eraseDatawriter => exact absurd conveys id

omit [Rmw] [LawfulMutators Cache] [LawfulPreconditions Cache] in
theorem shown_of_deliver {other : Gid} {alive : Bool} {info : ParticipantEntitiesInfo}
    {first later : List ParticipantEntitiesInfo}
    (undisturbed : Undisturbed gid state (.deliver other alive)) (own : info.gid = other)
    (sent : state.shared.inFlight = first ++ info :: later)
    (shown : Shown removable gid state.shared) :
    Shown removable gid { state.shared with
      inFlight := first ++ later, history := [⟨info, alive⟩] } := by
  by_cases same : other = gid
  · exact .waiting ⟨info, alive⟩ (List.mem_singleton_self _) (undisturbed.1 same) (own.trans same)
  · cases shown with
    | inFlight waiting member waitingOwn =>
      have behind : waiting ∈ first ++ later := by
        rw [sent] at member
        obtain early | late := List.mem_append.mp member
        · exact List.mem_append_left _ early
        · obtain rfl | late := List.mem_cons.mp late
          · exact absurd (own.symm.trans waitingOwn) same
          · exact List.mem_append_right _ late
      exact .inFlight waiting behind waitingOwn
    | waiting sample member _ sampleOwn =>
      exact absurd sampleOwn (undisturbed.2 same sample member)
    | agrees agrees => exact .agrees agrees
    | erased discoverable empty => exact .erased discoverable empty

omit [Rmw] [LawfulMutators Cache] [LawfulPreconditions Cache] in
theorem shown_of_receive {sample : Sample} (undisturbed : Undisturbed gid state (.receive sample))
    (shown : Shown removable gid state.shared) :
    Shown removable gid { state.shared with history := [sample] } := by
  cases shown with
  | inFlight info member own => exact .inFlight info member own
  | waiting waiting member _ own => exact absurd own (undisturbed.2 waiting member)
  | agrees agrees => exact .agrees agrees
  | erased discoverable empty => exact .erased discoverable empty

end

/-! ## Runs -/

abbrev Accounted (removable : Prop) (gid : Gid) (state : State Cache) : Prop :=
  state.Accounted (Shown removable gid) ReturnsOwn (Changes removable gid) (Conveys gid)

theorem accounted_step {state after : State Cache} {event : Event} (ordered : Ordered gid state)
    (accounted : Accounted removable gid state) (discoverable : event.Removes gid → removable)
    (undisturbed : Undisturbed gid state event) (stepped : step state event = some after) :
    Accounted removable gid after := by
  cases stepped_of_step stepped with
  | start callback => exact accounted.spawn (repaying_callback callback)
  | participantDiscovery reason guid userData =>
    exact accounted.spawn (repaying_participantDiscovery reason guid userData discoverable)
  | endpointDiscovery isReader reason info =>
    exact accounted.spawn (repaying_endpointDiscovery isReader reason info)
  | deliver own others sent =>
    exact accounted.disturbed fun shown => shown_of_deliver undisturbed own sent shown
  | receive sample => exact accounted.disturbed fun shown => shown_of_receive undisturbed shown
  | onDataAvailable => exact accounted.spawn repaying_onDataAvailable
  | advance index advanced =>
    exact accounted.advance (fun _ _ _ handled => returnsOwn_handle handled)
      (fun _ _ _ handled unchanged unconveyed shown =>
        shown_of_unchanged handled unchanged unconveyed shown)
      (fun _ _ _ called handled conveys => shown_of_conveys ordered called handled conveys) advanced

theorem accounted_run {events : List Event} {state : State Cache}
    (reached : (system Cache).exec (initial Cache) events = some state)
    (undisturbed : (system Cache).Along (Undisturbed gid) (initial Cache) events)
    (discoverable : ∀ event ∈ events, event.Removes gid → removable) :
    Accounted removable gid state := by
  refine (system Cache).exec_induction (motive := fun events state =>
    (system Cache).Along (Undisturbed gid) (initial Cache) events →
      (∀ event ∈ events, event.Removes gid → removable) → Accounted removable gid state) ?_ ?_
    reached undisturbed discoverable
  · intro _ _
    exact ⟨by simp [initial], Or.inl (.agrees (by simp [initial, Manager.lastWritten]))⟩
  · intro events state event after before ih stepped undisturbed discoverable
    obtain ⟨earlier, here⟩ := (Lts.along_concat _ before).mp undisturbed
    have accounted := ih earlier fun other member =>
      discoverable other (List.mem_append_left _ member)
    exact accounted_step (ordered_run before earlier).2 accounted (discoverable event (by simp)) here
      stepped

/-- In any interleaving of all callbacks in which no sample of the participant is lost or
overtaken: when nothing is running, in flight or waiting, the cached node list of the
participant is the last one written for it.  If its end has been discovered the list may
also be empty. -/
theorem converges {events : List Event} {state : State Cache} {info : ParticipantEntitiesInfo}
    (reached : (system Cache).exec (initial Cache) events = some state)
    (undisturbed : (system Cache).Along (Undisturbed gid) (initial Cache) events)
    (atRest : AtRest state) (written : state.shared.lastWritten gid = some info) :
    GraphCache.nodes state.shared.graphCache gid = some info.nodeEntitiesInfoSeq ∨
      (∃ event ∈ events, event.Removes gid) ∧
        (GraphCache.nodes state.shared.graphCache gid).getD [] = [] := by
  have accounted : Accounted (∃ event ∈ events, event.Removes gid) gid state :=
    accounted_run reached undisturbed fun event member removes => ⟨event, member, removes⟩
  cases accounted.fresh_of_idle atRest.idle with
  | inFlight other member _ =>
    rw [atRest.delivered] at member
    cases member
  | waiting sample member _ _ =>
    rw [atRest.taken] at member
    cases member
  | agrees agrees => exact Or.inl (agrees info written)
  | erased discoverable empty => exact Or.inr ⟨discoverable, empty⟩

end MicroRosAgent.Agent.Concurrency

/-! ## A lost association -/

namespace MicroRosAgent.Agent.Concurrency

open Interleaving GraphManager

attribute [local instance] referenceRmw

abbrev sampleParticipant : DomainParticipant := ReferenceRmw.participant 1 "/node".toList

abbrev sampleWriter : Endpoint :=
  ReferenceRmw.endpoint 2 "rt/chatter".toList "std_msgs::msg::dds_::String_".toList

abbrev sampleReader : Endpoint :=
  ReferenceRmw.endpoint 3 "rt/listener".toList "std_msgs::msg::dds_::String_".toList

/-- The reader is associated last and written first: the list written last lacks it. -/
def overtaking : List Event :=
  [.start (.createParticipant sampleParticipant), .advance 0, .advance 0, .advance 0, .advance 0,
    .advance 0, .advance 0, .deliver sampleParticipant.gid true, .onDataAvailable, .advance 1,
    .advance 1, .start (.createDatawriter sampleParticipant sampleWriter),
    .start (.createDatareader sampleParticipant sampleReader), .advance 2, .advance 2, .advance 3,
    .advance 3, .advance 3, .advance 3, .advance 2, .advance 2,
    .deliver sampleParticipant.gid true, .onDataAvailable, .advance 4, .advance 4,
    .deliver sampleParticipant.gid true, .onDataAvailable, .advance 5, .advance 5]

theorem undisturbed_overtaking : (system ReferenceCache).Along (Undisturbed sampleParticipant.gid)
    (initial ReferenceCache) overtaking := by
  have alone : ∀ returned : Nat, NoneHeld sampleParticipant.gid
      (List.replicate returned (.done ()) ++ [onDataAvailable]) := by
    intro returned thread member info holds
    obtain old | new := List.mem_append.mp member
    · exact absurd (List.eq_of_mem_replicate old ▸ holds) (not_holds_done info)
    · exact absurd (List.mem_singleton.mp new ▸ holds) (not_holds_onDataAvailable info)
  refine Lts.along_cons _ trivial rfl ?_
  iterate 6 refine Lts.along_cons _ nofun rfl ?_
  refine Lts.along_cons _ ⟨fun _ => rfl, fun other => absurd rfl other⟩ rfl ?_
  refine Lts.along_cons _ trivial rfl ?_
  refine Lts.along_cons _ (fun _ => Or.inr (alone 1)) rfl ?_
  refine Lts.along_cons _ nofun rfl ?_
  iterate 2 refine Lts.along_cons _ trivial rfl ?_
  iterate 8 refine Lts.along_cons _ nofun rfl ?_
  refine Lts.along_cons _ ⟨fun _ => rfl, fun other => absurd rfl other⟩ rfl ?_
  refine Lts.along_cons _ trivial rfl ?_
  refine Lts.along_cons _ (fun _ => Or.inr (alone 4)) rfl ?_
  refine Lts.along_cons _ nofun rfl ?_
  refine Lts.along_cons _ ⟨fun _ => rfl, fun other => absurd rfl other⟩ rfl ?_
  refine Lts.along_cons _ trivial rfl ?_
  refine Lts.along_cons _ (fun _ => Or.inr (alone 5)) rfl ?_
  refine Lts.along_cons _ nofun rfl ?_
  trivial

theorem converges_overtaking : ∃ state info,
    (system ReferenceCache).exec (initial ReferenceCache) overtaking = some state ∧
      state.shared.lastWritten sampleParticipant.gid = some info ∧
      (GraphCache.nodes state.shared.graphCache sampleParticipant.gid =
          some info.nodeEntitiesInfoSeq ∨
        (∃ event ∈ overtaking, event.Removes sampleParticipant.gid) ∧
          (GraphCache.nodes state.shared.graphCache sampleParticipant.gid).getD [] = []) := by
  refine ⟨_, _, rfl, rfl, converges rfl undisturbed_overtaking ⟨?_, rfl, rfl⟩ rfl⟩
  intro thread member
  have returned : thread ∈ List.replicate 6 (Program.done ()) := member
  exact List.eq_of_mem_replicate returned

end MicroRosAgent.Agent.Concurrency
