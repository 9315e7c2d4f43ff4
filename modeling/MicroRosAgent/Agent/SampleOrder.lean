import MicroRosAgent.Agent.Concurrency

/-! # The order in which samples come back

A sample that a callback has written goes through three places before its list is in the
cache: it is in flight, it waits in the reader's history, and a run of `on_data_available`
holds it.  A participant's samples pass through them in the order in which they were
written, if no step loses one of them or lets one overtake another (`Undisturbed`).  Then
the one that is furthest behind is the one that was written last (`Ordered`).
-/

namespace MicroRosAgent.Agent.Concurrency

open Interleaving GraphManager

variable {Cache : Type} {gid : Gid}

/-- The thread has taken the sample and not applied it yet. -/
def Holds (info : ParticipantEntitiesInfo) (thread : ManagerProgram Unit) : Prop :=
  ∃ next, thread = .call (.cache (.updateParticipantEntities info)) next

def NoneInFlight (gid : Gid) (manager : Manager Cache) : Prop :=
  ∀ info ∈ manager.inFlight, info.gid ≠ gid

def NoneWaits (gid : Gid) (manager : Manager Cache) : Prop :=
  ∀ sample ∈ manager.history, sample.info.gid ≠ gid

def NoneHeld (gid : Gid) (threads : List (ManagerProgram Unit)) : Prop :=
  ∀ thread ∈ threads, ∀ info, Holds info thread → info.gid ≠ gid

/-- The step neither loses a sample of the participant nor lets one overtake another. -/
def Undisturbed (gid : Gid) (state : State Cache) : Event → Prop
  -- a sample that waits is replaced by a later one of the participant only
  | .deliver other alive =>
      (other = gid → alive = true) ∧ (other ≠ gid → NoneWaits gid state.shared)
  -- nobody else writes samples of the participant
  | .receive sample => sample.info.gid ≠ gid ∧ NoneWaits gid state.shared
  -- a sample is taken when no earlier one is held
  | .advance index => state.nextCall index = some .takeNextSample →
      NoneWaits gid state.shared ∨ NoneHeld gid state.threads
  | _ => True

/-- The last sample written for the participant is the one furthest behind, and the samples
    that wait are alive. -/
structure Ordered (gid : Gid) (state : State Cache) : Prop where
  inFlight : (state.shared.inFlight.filter fun info => info.gid = gid) <:+
    state.shared.written.filter fun info => info.gid = gid
  waiting : NoneInFlight gid state.shared → ∀ sample ∈ state.shared.history,
    sample.info.gid = gid → state.shared.lastWritten gid = some sample.info
  held : NoneInFlight gid state.shared → NoneWaits gid state.shared →
    ∀ thread ∈ state.threads, ∀ info, Holds info thread → info.gid = gid →
      state.shared.lastWritten gid = some info
  alive : ∀ sample ∈ state.shared.history, sample.info.gid = gid → sample.alive = true

/-! ## Who takes and applies samples -/

/-- A call that neither takes nor applies a sample. -/
def OffTopic : Call → Prop
  | .cache (.updateParticipantEntities _) | .takeNextSample => False
  | _ => True

abbrev Apart (program : ManagerProgram Unit) : Prop :=
  program.Guarantees (fun _ _ => True) OffTopic

/-- A run of the reader's listener, or a program that leaves the samples alone. -/
inductive Part : ManagerProgram Unit → Prop
  | taking : Part onDataAvailable
  | applying (info : ParticipantEntitiesInfo) :
      Part (mutate (.updateParticipantEntities info))
  | apart {program : ManagerProgram Unit} (apart : Apart program) : Part program

theorem not_holds_of_apart {program : ManagerProgram Unit} (apart : Apart program)
    (info : ParticipantEntitiesInfo) : ¬ Holds info program := by
  rintro ⟨next, rfl⟩
  exact apart.1

theorem not_holds_done (info : ParticipantEntitiesInfo) : ¬ Holds info (.done ()) := by
  have apart : Apart (.done ()) := trivial
  exact not_holds_of_apart apart info

theorem not_holds_onDataAvailable (info : ParticipantEntitiesInfo) :
    ¬ Holds info onDataAvailable := by
  rw [onDataAvailable_eq]
  rintro ⟨next, equal⟩
  cases equal

/-- What a run is left with holds at most the sample it has taken. -/
theorem part_afterTake (taken : Option Sample) :
    Part (afterTake taken) ∧ ∀ info, Holds info (afterTake taken) →
      ∃ sample, taken = some sample ∧ sample.info = info := by
  obtain ⟨sample, isTaken, _, applies⟩ | ⟨_, returns⟩ := afterTake_cases taken
  · rw [applies]
    refine ⟨.applying sample.info, ?_⟩
    rintro info ⟨next, equal⟩
    cases equal
    exact ⟨sample, isTaken, rfl⟩
  · rw [returns]
    exact ⟨.apart trivial, fun info holds => absurd holds (not_holds_done info)⟩

theorem apart_writeUnchecked (participant : DomainParticipant) (info : ParticipantEntitiesInfo) :
    Apart (writeUnchecked participant info) := by
  refine ⟨trivial, ?_⟩
  intro found _
  cases found with
  | none => trivial
  | some datawriter => exact ⟨trivial, fun _ _ => trivial⟩

section
variable [Rmw]

theorem apart_addParticipant (participant : DomainParticipant) :
    Apart (onCreateParticipant participant) := by
  refine ⟨trivial, ?_⟩
  intro _ _
  split
  · refine ⟨trivial, fun message _ => ⟨trivial, ?_⟩⟩
    intro found _
    cases found with
    | some datawriter => exact ⟨trivial, fun _ _ => trivial⟩
    | none => exact ⟨trivial, fun _ _ => ⟨trivial, fun _ _ => ⟨trivial, fun _ _ => trivial⟩⟩⟩
  · trivial

theorem apart_removeParticipant (participant : DomainParticipant) :
    Apart (onDeleteParticipant participant) := by
  refine ⟨trivial, fun _ _ => ⟨trivial, ?_⟩⟩
  intro found _
  cases found with
  | none => trivial
  | some datawriter =>
    exact ⟨trivial, fun _ _ => ⟨trivial, fun _ _ => ⟨trivial, fun _ _ => trivial⟩⟩⟩

theorem apart_createEndpoint (participant : DomainParticipant) (isReader : Bool)
    (endpoint : Endpoint) : Apart (createEndpoint participant isReader endpoint) := by
  refine ⟨trivial, ?_⟩
  intro _ _
  show Apart (associateEntity endpoint.guid participant
    (if isReader then .datareader else .datawriter))
  rw [associateEntity_eq]
  exact ⟨trivial, fun message _ => apart_writeUnchecked participant message⟩

theorem apart_createEndpoints (participant : DomainParticipant) (created : List (Bool × Endpoint)) :
    Apart (createEndpoints participant created) := by
  induction created with
  | nil => trivial
  | cons entity rest ih =>
    exact (apart_createEndpoint participant entity.1 entity.2).bind fun _ => ih

theorem apart_deleteEndpoints (deleted : List (Bool × Endpoint)) :
    Apart (deleteEndpoints deleted) := by
  induction deleted with
  | nil => trivial
  | cons entity rest ih => exact ⟨trivial, fun _ _ => ih⟩

theorem apart_callback (callback : Callback) : Apart callback.program := by
  by_cases creates : callback.created = []
  · by_cases deletes : callback.deleted = []
    · cases callback with
      | createParticipant participant => exact apart_addParticipant participant
      | deleteParticipant participant => exact apart_removeParticipant participant
      | createDatawriter | createDatareader | createRequester | createReplier =>
        simp [Callback.created] at creates
      | deleteDatawriter | deleteDatareader | deleteRequester | deleteReplier =>
        simp [Callback.deleted] at deletes
    · rw [program_eq_deleteEndpoints callback deletes]
      exact apart_deleteEndpoints callback.deleted
  · rw [program_eq_createEndpoints callback creates]
    exact apart_createEndpoints callback.participant callback.created

theorem apart_participantDiscovery (reason : ParticipantDiscoveryStatus) (guid : Guid)
    (userData : List UInt8) : Apart (onParticipantDiscovery reason guid userData) := by
  cases reason with
  | discovered =>
    simp only [onParticipantDiscovery]
    split
    · trivial
    · exact ⟨trivial, fun _ _ => trivial⟩
  | removed | dropped => exact ⟨trivial, fun _ _ => trivial⟩
  | changedQos | ignored => trivial

theorem apart_endpointDiscovery (isReader : Bool) (reason : EndpointDiscoveryStatus)
    (info : BuiltinTopicData) : Apart (onEndpointDiscovery isReader reason info) := by
  cases reason with
  | discovered =>
    rw [onEndpointDiscovery_discovered]
    exact ⟨trivial, fun _ _ => trivial⟩
  | changedQos =>
    rw [onEndpointDiscovery_changedQos]
    trivial
  | removed =>
    rw [onEndpointDiscovery_removal isReader (Or.inl rfl)]
    exact ⟨trivial, fun _ _ => trivial⟩
  | ignored =>
    rw [onEndpointDiscovery_removal isReader (Or.inr rfl)]
    exact ⟨trivial, fun _ _ => trivial⟩

end

/-! ## One call -/

variable [GraphCache Cache]

/-- What a call does to the samples, and to the thread that makes it. -/
inductive Moved (state after : State Cache) (index : Nat) : Prop
  | take (taken : Option Sample) (later : List Sample)
      (called : state.nextCall index = some .takeNextSample)
      (waited : state.shared.history = taken.toList ++ later)
      (threads : after.threads = state.threads.set index (afterTake taken))
      (shared : after.shared = { state.shared with history := later })
  | apply (info : ParticipantEntitiesInfo)
      (threads : after.threads = state.threads.set index (.done ()))
      (shared : after.shared = { state.shared with
        graphCache := GraphCache.updateParticipantEntities info state.shared.graphCache })
  | apart (operation : Call) (next : ManagerProgram Unit) (apart : Apart next)
      (threads : after.threads = state.threads.set index next)
      (written : after.shared.written = state.shared.written ++ writes operation)
      (inFlight : after.shared.inFlight = state.shared.inFlight ++ writes operation)
      (history : after.shared.history = state.shared.history)

theorem history_offTopic {operation : Call} {manager after : Manager Cache}
    {result : operation.Result} (offTopic : OffTopic operation)
    (handled : handle operation manager = some (result, after)) :
    after.history = manager.history := by
  cases operation with
  | cache mutator =>
    obtain ⟨⟨answer, cache⟩, _, answered⟩ := Option.map_eq_some_iff.mp handled
    cases answered
    rfl
  | takeNextSample => exact absurd offTopic id
  | findDatawriter | createDatawriter | insertDatawriter | write | deleteDatawriter
  | eraseDatawriter =>
    cases handled
    rfl

theorem moved_of_advance {state after : State Cache} {index : Nat}
    (parts : ∀ thread ∈ state.threads, Part thread)
    (advanced : state.advance handle index = some after) : Moved state after index := by
  obtain ⟨operation, next, result, shared, here, handled, rfl⟩ := Pool.advance_cases advanced
  have part := parts _ (List.mem_of_getElem? here)
  generalize thread : Program.call operation next = program at part
  cases part with
  | taking =>
    rw [onDataAvailable_eq] at thread
    cases thread
    have called := Pool.nextCall_of_thread here
    simp only [handle] at handled
    split at handled
    · rename_i empty
      cases handled
      exact .take none [] called empty rfl (by rw [← empty])
    · rename_i sample later waits
      cases handled
      exact .take (some sample) later called waits rfl rfl
  | applying info =>
    cases thread
    cases handled
    exact .apply info rfl rfl
  | apart apart =>
    subst thread
    obtain ⟨written, inFlight⟩ := written_handle handled
    exact .apart operation (next result) (apart.2 result trivial) rfl written inFlight
      (history_offTopic apart.1 handled)

theorem parts_advance {state after : State Cache} {index : Nat}
    (parts : ∀ thread ∈ state.threads, Part thread) (moved : Moved state after index) :
    ∀ thread ∈ after.threads, Part thread := by
  cases moved with
  | take taken later called waited threads shared =>
    rw [threads]
    exact Pool.forall_mem_set parts (part_afterTake taken).1
  | apply info threads shared =>
    have returned : Part (.done ()) := .apart trivial
    rw [threads]
    exact Pool.forall_mem_set parts returned
  | apart operation next apart threads written inFlight history =>
    rw [threads]
    exact Pool.forall_mem_set parts (.apart apart)

/-! ## What is written and what arrives -/

omit [GraphCache Cache] in
theorem lastWritten_of_others {before after : Manager Cache} {sent : List ParticipantEntitiesInfo}
    (written : after.written = before.written ++ sent) (others : ∀ info ∈ sent, info.gid ≠ gid) :
    after.lastWritten gid = before.lastWritten gid := by
  simp [Manager.lastWritten, written, filter_gid_eq_nil others]

omit [GraphCache Cache] in
/-- The last sample of the participant that arrives is the last one written for it. -/
theorem lastWritten_of_arrival {manager : Manager Cache} {info : ParticipantEntitiesInfo}
    {first later : List ParticipantEntitiesInfo}
    (suffix : (manager.inFlight.filter fun info => info.gid = gid) <:+
      manager.written.filter fun info => info.gid = gid)
    (own : info.gid = gid) (sent : manager.inFlight = first ++ info :: later)
    (none : ∀ other ∈ first ++ later, other.gid ≠ gid) : manager.lastWritten gid = some info := by
  have only : manager.inFlight.filter (fun info => info.gid = gid) = [info] := by
    obtain ⟨before, behind⟩ := List.forall_mem_append.mp none
    simp [sent, own, filter_gid_eq_nil before, filter_gid_eq_nil behind]
  rw [only] at suffix
  obtain ⟨delivered, split⟩ := suffix
  simp [Manager.lastWritten, ← split]

section
variable {state after : State Cache} {index : Nat}

theorem ordered_advance (ordered : Ordered gid state)
    (undisturbed : Undisturbed gid state (.advance index)) (moved : Moved state after index) :
    Ordered gid after := by
  cases moved with
  | take taken later called waited threads shared =>
    have still : ∀ sample ∈ later, sample ∈ state.shared.history := by
      intro sample member
      rw [waited]
      exact List.mem_append_right _ member
    have sameWritten : after.shared.lastWritten gid = state.shared.lastWritten gid := by
      rw [shared]
      rfl
    refine ⟨?_, ?_, ?_, ?_⟩
    · rw [shared]
      exact ordered.inFlight
    · rw [sameWritten, shared]
      exact fun arrived sample member => ordered.waiting arrived sample (still sample member)
    · rw [sameWritten, shared, threads]
      intro arrived noneWaits thread member info holds own
      obtain old | rfl := List.mem_or_eq_of_mem_set member
      · obtain noneBefore | noneHeld := undisturbed called
        · exact ordered.held arrived noneBefore thread old info holds own
        · exact absurd own (noneHeld thread old info holds)
      · obtain ⟨sample, rfl, rfl⟩ := (part_afterTake taken).2 info holds
        exact ordered.waiting arrived sample (by simp [waited]) own
    · rw [shared]
      exact fun sample member => ordered.alive sample (still sample member)
  | apply info threads shared =>
    have sameWritten : after.shared.lastWritten gid = state.shared.lastWritten gid := by
      rw [shared]
      rfl
    refine ⟨?_, ?_, ?_, ?_⟩
    · rw [shared]
      exact ordered.inFlight
    · rw [sameWritten, shared]
      exact ordered.waiting
    · rw [sameWritten, shared, threads]
      intro arrived noneWaits thread member other holds own
      obtain old | rfl := List.mem_or_eq_of_mem_set member
      · exact ordered.held arrived noneWaits thread old other holds own
      · exact absurd holds (not_holds_done other)
    · rw [shared]
      exact ordered.alive
  | apart operation next apart threads written inFlight history =>
    have suffix : (after.shared.inFlight.filter fun info => info.gid = gid) <:+
        after.shared.written.filter fun info => info.gid = gid := by
      obtain ⟨delivered, split⟩ := ordered.inFlight
      rw [written, inFlight, List.filter_append, List.filter_append, ← split, List.append_assoc]
      exact List.suffix_append _ _
    by_cases announces : ∃ info ∈ writes operation, info.gid = gid
    · -- the new sample is behind all others
      obtain ⟨info, member, own⟩ := announces
      have inside : ¬ NoneInFlight gid after.shared := by
        intro noneInFlight
        refine noneInFlight info ?_ own
        rw [inFlight]
        exact List.mem_append_right _ member
      exact ⟨suffix, fun arrived => absurd arrived inside, fun arrived => absurd arrived inside,
        history ▸ ordered.alive⟩
    · have sameWritten : after.shared.lastWritten gid = state.shared.lastWritten gid :=
        lastWritten_of_others written fun info member own => announces ⟨info, member, own⟩
      have arrivedBefore : NoneInFlight gid after.shared → NoneInFlight gid state.shared := by
        intro arrived info member
        refine arrived info ?_
        rw [inFlight]
        exact List.mem_append_left _ member
      refine ⟨suffix, ?_, ?_, history ▸ ordered.alive⟩
      · rw [sameWritten, history]
        exact fun arrived => ordered.waiting (arrivedBefore arrived)
      · rw [sameWritten, threads]
        intro arrived noneWaits thread member info holds own
        have noneBefore : NoneWaits gid state.shared := by
          rwa [NoneWaits, ← history]
        obtain old | rfl := List.mem_or_eq_of_mem_set member
        · exact ordered.held (arrivedBefore arrived) noneBefore thread old info holds own
        · exact absurd holds (not_holds_of_apart apart info)

omit [GraphCache Cache] in
theorem ordered_deliver {other : Gid} {alive : Bool} {info : ParticipantEntitiesInfo}
    {first later : List ParticipantEntitiesInfo} (ordered : Ordered gid state)
    (undisturbed : Undisturbed gid state (.deliver other alive)) (own : info.gid = other)
    (others : ∀ earlier ∈ first, earlier.gid ≠ other)
    (sent : state.shared.inFlight = first ++ info :: later) :
    Ordered gid ⟨{ state.shared with inFlight := first ++ later, history := [⟨info, alive⟩] },
      state.threads⟩ := by
  by_cases same : other = gid
  · subst same
    have before := filter_gid_eq_nil others
    refine ⟨?_, ?_, ?_, ?_⟩
    · have suffix := ordered.inFlight
      rw [sent, List.filter_append, before, List.nil_append,
        List.filter_cons_of_pos (by simpa using own)] at suffix
      rw [List.filter_append, before, List.nil_append]
      exact (List.suffix_cons _ _).trans suffix
    · intro arrived sample member _
      rw [List.mem_singleton.mp member]
      have last : state.shared.lastWritten other = some info :=
        lastWritten_of_arrival ordered.inFlight own sent arrived
      exact last
    · intro _ noneWaits
      exact absurd own (noneWaits ⟨info, alive⟩ (List.mem_singleton_self _))
    · intro sample member _
      rw [List.mem_singleton.mp member]
      exact undisturbed.1 rfl
  · have different : info.gid ≠ gid := own ▸ same
    have noneWaits := undisturbed.2 same
    have kept : (first ++ later).filter (fun info => info.gid = gid) =
        state.shared.inFlight.filter fun info => info.gid = gid := by
      simp [sent, different]
    refine ⟨?_, ?_, ?_, ?_⟩
    · rw [kept]
      exact ordered.inFlight
    · intro _ sample member sampleOwn
      rw [List.mem_singleton.mp member] at sampleOwn
      exact absurd sampleOwn different
    · intro arrived _
      refine ordered.held ?_ noneWaits
      intro waiting member
      rw [sent] at member
      obtain early | late := List.mem_append.mp member
      · exact arrived waiting (List.mem_append_left _ early)
      · obtain rfl | late := List.mem_cons.mp late
        · exact different
        · exact arrived waiting (List.mem_append_right _ late)
    · intro sample member sampleOwn
      rw [List.mem_singleton.mp member] at sampleOwn
      exact absurd sampleOwn different

omit [GraphCache Cache] in
theorem ordered_receive {sample : Sample} (ordered : Ordered gid state)
    (undisturbed : Undisturbed gid state (.receive sample)) :
    Ordered gid ⟨{ state.shared with history := [sample] }, state.threads⟩ := by
  obtain ⟨different, noneWaits⟩ := undisturbed
  refine ⟨ordered.inFlight, ?_, fun arrived _ => ordered.held arrived noneWaits, ?_⟩
  · intro _ other member own
    rw [List.mem_singleton.mp member] at own
    exact absurd own different
  · intro other member own
    rw [List.mem_singleton.mp member] at own
    exact absurd own different

omit [GraphCache Cache] in
theorem ordered_spawn {program : ManagerProgram Unit} (ordered : Ordered gid state)
    (empty : ∀ info, ¬ Holds info program) : Ordered gid (state.spawn program) := by
  refine ⟨ordered.inFlight, ordered.waiting, ?_, ordered.alive⟩
  intro arrived noneWaits thread member info holds own
  obtain old | new := List.mem_append.mp member
  · exact ordered.held arrived noneWaits thread old info holds own
  · rw [List.mem_singleton.mp new] at holds
    exact absurd holds (empty info)

end

/-! ## Runs -/

section
variable [Rmw] {state after : State Cache} {event : Event}

theorem parts_step (parts : ∀ thread ∈ state.threads, Part thread)
    (stepped : step state event = some after) : ∀ thread ∈ after.threads, Part thread := by
  cases stepped_of_step stepped with
  | start callback => exact Pool.forall_mem_spawn parts (.apart (apart_callback callback))
  | participantDiscovery reason guid userData =>
    exact Pool.forall_mem_spawn parts (.apart (apart_participantDiscovery reason guid userData))
  | endpointDiscovery isReader reason info =>
    exact Pool.forall_mem_spawn parts (.apart (apart_endpointDiscovery isReader reason info))
  | deliver | receive => exact parts
  | onDataAvailable => exact Pool.forall_mem_spawn parts .taking
  | advance index advanced => exact parts_advance parts (moved_of_advance parts advanced)

theorem ordered_step (parts : ∀ thread ∈ state.threads, Part thread) (ordered : Ordered gid state)
    (undisturbed : Undisturbed gid state event) (stepped : step state event = some after) :
    Ordered gid after := by
  cases stepped_of_step stepped with
  | start callback => exact ordered_spawn ordered (not_holds_of_apart (apart_callback callback))
  | participantDiscovery reason guid userData =>
    exact ordered_spawn ordered (not_holds_of_apart (apart_participantDiscovery reason guid userData))
  | endpointDiscovery isReader reason info =>
    exact ordered_spawn ordered (not_holds_of_apart (apart_endpointDiscovery isReader reason info))
  | deliver own others sent => exact ordered_deliver ordered undisturbed own others sent
  | receive sample => exact ordered_receive ordered undisturbed
  | onDataAvailable => exact ordered_spawn ordered not_holds_onDataAvailable
  | advance index advanced =>
    exact ordered_advance ordered undisturbed (moved_of_advance parts advanced)

end

theorem ordered_run [Rmw] {events : List Event} {state : State Cache}
    (reached : (system Cache).exec (initial Cache) events = some state)
    (undisturbed : (system Cache).Along (Undisturbed gid) (initial Cache) events) :
    (∀ thread ∈ state.threads, Part thread) ∧ Ordered gid state := by
  refine (system Cache).exec_induction_along (motive := fun _ state =>
    (∀ thread ∈ state.threads, Part thread) ∧ Ordered gid state) ?_ ?_ reached undisturbed
  · refine ⟨by simp [initial], ?_, ?_, ?_, ?_⟩ <;> simp [initial]
  · intro _ state event after _ ⟨parts, ordered⟩ undisturbed stepped
    exact ⟨parts_step parts stepped, ordered_step parts ordered undisturbed stepped⟩

end MicroRosAgent.Agent.Concurrency
