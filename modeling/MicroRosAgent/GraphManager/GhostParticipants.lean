import MicroRosAgent.GraphManager.Operations
import MicroRosAgent.GraphCache.Reference
import MicroRosAgent.Interleaving.Lts

/-! # Removed participants that come back

A participant is removed twice, by `remove_participant` and by the discovery event, while
samples written for it are in flight, wait in the reader's history, or have been taken by
a run of `on_data_available` that has yet to apply them.  `update_participant_entities`
creates an entry for a gid that is not cached, and nothing tells the listener that the
participant is gone: the entry is absent in the end exactly if no run applies a sample of
the participant after the second erasure (`absent_iff`).
-/

namespace MicroRosAgent.GraphManager.GhostParticipants

open Interleaving

variable [Rmw] {Cache : Type} [GraphCache Cache]

inductive Event where
  -- the oldest sample in flight of a participant arrives
  | deliver (gid : Gid) (alive : Bool)
  -- a sample arrives that is not the manager's own
  | receive (sample : Sample)
  -- a run of the reader's listener starts
  | onDataAvailable
  -- the callback (thread 0), the discovery listener (thread 1) or a run of the reader's
  -- listener makes its next call
  | advance (index : Nat)

def step (pool : Pool Call Call.Result (Manager Cache)) :
    Event → Option (Pool Call Call.Result (Manager Cache))
  | .deliver gid alive =>
      (pool.shared.deliver gid alive).map fun manager => { pool with shared := manager }
  | .receive sample => some { pool with shared := pool.shared.arrive sample }
  | .onDataAvailable => some (pool.spawn onDataAvailable)
  | .advance index => pool.advance handle index

def system (Cache : Type) [GraphCache Cache] :
    Lts (Pool Call Call.Result (Manager Cache)) Event := ⟨step⟩

/-- Both removals of a participant, with whatever is in flight and in the history. -/
def removals (manager : Manager Cache) (participant : DomainParticipant)
    (reason : ParticipantDiscoveryStatus) (userData : List UInt8) :
    Pool Call Call.Result (Manager Cache) :=
  ⟨manager, [removeParticipant participant,
    onParticipantDiscovery reason participant.guid userData]⟩

/-- Both removals have run; the samples may still be on their way. -/
def BothReturned (pool : Pool Call Call.Result (Manager Cache)) : Prop :=
  pool.threads[0]? = some (.done ()) ∧ pool.threads[1]? = some (.done ())

/-- The cache has no entry for the gid and `get_node_names` lists no node of it. -/
def Absent (cache : Cache) (gid : Gid) : Prop :=
  GraphCache.nodes cache gid = none ∧
    ∀ key ∈ GraphCache.getNodeNames cache, ∃ other, other ≠ gid ∧ HasNode cache other key

/-- The thread has still to erase the participant from the cache. -/
def Erases (gid : Gid) (thread : ManagerProgram Unit) : Prop :=
  ∃ next, thread = .call (.cache (.removeParticipant gid)) next

/-- No sample of the participant is applied once both erasures are done. -/
def NotAppliedLate (gid : Gid) (pool : Pool Call Call.Result (Manager Cache)) : Event → Prop
  | .advance index => ∀ info, pool.nextCall index = some (.cache (.updateParticipantEntities info)) →
      info.gid = gid → ∃ thread ∈ pool.threads, Erases gid thread
  | _ => True

/-! ## The threads -/

/-- A call that touches neither the cache nor the reader. -/
def QuietCall : Call → Prop
  | .cache _ | .takeNextSample => False
  | _ => True

def Quiet : ManagerProgram Unit → Prop
  | .done _ | .fault => True
  | .call operation next => QuietCall operation ∧ ∀ result, Quiet (next result)

/-- A removal is first the erasure and then calls that do not touch the cache; a run of the
    listener takes a sample and then applies it. -/
inductive Part (gid : Gid) : ManagerProgram Unit → Prop
  | erasing {next : Unit → ManagerProgram Unit} (quiet : ∀ result, Quiet (next result)) :
      Part gid (.call (.cache (.removeParticipant gid)) next)
  | taking : Part gid onDataAvailable
  | applying (info : ParticipantEntitiesInfo) :
      Part gid (mutate (.updateParticipantEntities info))
  | quiet {thread : ManagerProgram Unit} (quiet : Quiet thread) : Part gid thread

omit [Rmw] in
theorem handle_quiet {operation : Call} (quiet : QuietCall operation) {manager after : Manager Cache}
    {result : operation.Result} (handled : handle operation manager = some (result, after)) :
    after.graphCache = manager.graphCache := by
  cases operation with
  | cache mutator => exact absurd quiet id
  | takeNextSample => exact absurd quiet id
  | findDatawriter | createDatawriter | insertDatawriter | write | deleteDatawriter
  | eraseDatawriter =>
    cases handled
    rfl

theorem part_removeParticipant (participant : DomainParticipant) :
    Part participant.gid (removeParticipant participant) := by
  refine Part.erasing ?_
  intro result
  refine ⟨trivial, ?_⟩
  intro found
  cases found with
  | none => trivial
  | some datawriter =>
    exact ⟨trivial, fun _ => ⟨trivial, fun _ => ⟨trivial, fun _ => trivial⟩⟩⟩

theorem part_onParticipantDiscovery {reason : ParticipantDiscoveryStatus}
    (removed : reason = .removed ∨ reason = .dropped) (guid : Guid) (userData : List UInt8) :
    Part (gidOf guid) (onParticipantDiscovery reason guid userData) := by
  obtain rfl | rfl := removed <;> exact Part.erasing fun _ => trivial

omit [Rmw] in
theorem not_erases_of_quiet {gid : Gid} {thread : ManagerProgram Unit} (quiet : Quiet thread) :
    ¬ Erases gid thread := by
  rintro ⟨next, rfl⟩
  exact quiet.1

omit [Rmw] in
theorem not_erases_of_call {gid : Gid} {operation : Call}
    {next : operation.Result → ManagerProgram Unit}
    (different : operation ≠ .cache (.removeParticipant gid)) :
    ¬ Erases gid (.call operation next) := by
  rintro ⟨_, equal⟩
  cases equal
  exact different rfl

omit [Rmw] in
theorem part_afterTake (gid : Gid) (taken : Option Sample) :
    Part gid (afterTake taken) ∧ ¬ Erases gid (afterTake taken) := by
  obtain ⟨sample, _, _, applies⟩ | ⟨_, returns⟩ := afterTake_cases taken
  · rw [applies]
    exact ⟨.applying sample.info, not_erases_of_call (by rintro ⟨⟩)⟩
  · rw [returns]
    exact ⟨.quiet trivial, not_erases_of_quiet trivial⟩

/-- What one call of a thread does to the entry of the participant. -/
inductive Advanced (gid : Gid) (pool after : Pool Call Call.Result (Manager Cache)) (index : Nat) :
    Prop
  | erased (waiting : ∃ thread ∈ pool.threads, Erases gid thread)
      (keeps : NotAppliedLate gid pool (.advance index))
      (gone : GraphCache.nodes after.shared.graphCache gid = none)
  | applied (info : ParticipantEntitiesInfo)
      (here : pool.nextCall index = some (.cache (.updateParticipantEntities info)))
      (waiting : (∃ thread ∈ after.threads, Erases gid thread) ↔
        ∃ thread ∈ pool.threads, Erases gid thread)
      (nodes : GraphCache.nodes after.shared.graphCache =
        Function.update (GraphCache.nodes pool.shared.graphCache) info.gid
          (some info.nodeEntitiesInfoSeq))
  | other (keeps : NotAppliedLate gid pool (.advance index))
      (waiting : (∃ thread ∈ after.threads, Erases gid thread) ↔
        ∃ thread ∈ pool.threads, Erases gid thread)
      (same : after.shared.graphCache = pool.shared.graphCache)

omit [Rmw] in
/-- All a thread can do; none has an erasure left after its first call. -/
theorem advanced_of_advance [LawfulMutators Cache] {gid : Gid}
    {pool after : Pool Call Call.Result (Manager Cache)} {index : Nat}
    (parts : ∀ thread ∈ pool.threads, Part gid thread)
    (stepped : pool.advance handle index = some after) :
    Advanced gid pool after index ∧ ∃ next, after.threads = pool.threads.set index next ∧
      Part gid next ∧ ¬ Erases gid next := by
  obtain ⟨operation, next, result, shared, here, handled, rfl⟩ := Pool.advance_cases stepped
  have called := Pool.nextCall_of_thread here
  -- only a call of `update_participant_entities` can come too late
  have harmless : (∀ info, operation ≠ .cache (.updateParticipantEntities info)) →
      NotAppliedLate gid pool (.advance index) := by
    intro different info updates
    exact absurd (Option.some.inj (called.symm.trans updates)) (different info)
  have part := parts _ (List.mem_of_getElem? here)
  generalize thread : Program.call operation next = program at part
  cases part with
  | erasing quiet =>
    cases thread
    cases handled
    have erased := LawfulMutators.removeParticipant gid pool.shared.graphCache
    refine ⟨.erased ⟨_, List.mem_of_getElem? here, _, rfl⟩ (harmless (by rintro _ ⟨⟩)) ?_, _, rfl,
      .quiet (quiet ()), not_erases_of_quiet (quiet ())⟩
    rw [erased.nodes, Function.update_self]
  | taking =>
    rw [onDataAvailable_eq] at thread
    cases thread
    obtain ⟨partNext, keepsEntry⟩ := part_afterTake gid result
    have waiting := Pool.exists_mem_set (Erases gid) here (not_erases_of_call (by rintro ⟨⟩)) keepsEntry
    refine ⟨.other (harmless (by rintro _ ⟨⟩)) waiting ?_, _, rfl, partNext, keepsEntry⟩
    simp only [handle] at handled
    split at handled <;> cases handled <;> rfl
  | applying info =>
    cases thread
    cases handled
    have keepsEntry : ¬ Erases gid (.done ()) := not_erases_of_quiet trivial
    have waiting := Pool.exists_mem_set (Erases gid) here (not_erases_of_call (by rintro ⟨⟩)) keepsEntry
    exact ⟨.applied info called waiting
      (LawfulMutators.updateParticipantEntities info pool.shared.graphCache).nodes, _, rfl,
      .quiet trivial, keepsEntry⟩
  | quiet quiet =>
    subst thread
    have keepsEntry : ¬ Erases gid (next result) := not_erases_of_quiet (quiet.2 result)
    have waiting := Pool.exists_mem_set (Erases gid) here (not_erases_of_quiet quiet) keepsEntry
    refine ⟨.other (harmless ?_) waiting (handle_quiet quiet.1 handled), _, rfl,
      .quiet (quiet.2 result), keepsEntry⟩
    rintro info rfl
    exact quiet.1

/-! ## Runs -/

/-- While an erasure is still to come no sample was applied too late; after the last one
the entry is absent as long as none is. -/
structure Removed (gid : Gid) (start : Pool Call Call.Result (Manager Cache)) (events : List Event)
    (pool : Pool Call Call.Result (Manager Cache)) : Prop where
  parts : ∀ thread ∈ pool.threads, Part gid thread
  -- only the two removals erase
  erasers : ∀ (index : Nat) thread, pool.threads[index]? = some thread → Erases gid thread → index < 2
  pending : (∃ thread ∈ pool.threads, Erases gid thread) →
    (system Cache).Along (NotAppliedLate gid) start events
  settled : (¬ ∃ thread ∈ pool.threads, Erases gid thread) →
    (GraphCache.nodes pool.shared.graphCache gid = none ↔
      (system Cache).Along (NotAppliedLate gid) start events)

omit [Rmw] in
theorem removed_advance [LawfulMutators Cache] {gid : Gid}
    {start pool after : Pool Call Call.Result (Manager Cache)} {events : List Event} {index : Nat}
    (before : (system Cache).exec start events = some pool) (removed : Removed gid start events pool)
    (stepped : pool.advance handle index = some after) :
    Removed gid start (events ++ [.advance index]) after := by
  have along : (system Cache).Along (NotAppliedLate gid) start (events ++ [.advance index]) ↔
      (system Cache).Along (NotAppliedLate gid) start events ∧
        NotAppliedLate gid pool (.advance index) := Lts.along_concat _ before
  obtain ⟨advanced, next, threads, partNext, keepsEntry⟩ :=
    advanced_of_advance removed.parts stepped
  have parts : ∀ thread ∈ after.threads, Part gid thread := by
    rw [threads]
    exact Pool.forall_mem_set removed.parts partNext
  have erasers : ∀ (position : Nat) thread, after.threads[position]? = some thread →
      Erases gid thread → position < 2 := by
    rw [threads]
    intro position thread found erases
    by_cases same : position = index
    · subst same
      have bound := (List.getElem?_eq_some_iff.mp found).1
      rw [List.length_set] at bound
      rw [List.getElem?_set_self bound] at found
      cases found
      exact absurd erases keepsEntry
    · rw [List.getElem?_set_ne (Ne.symm same)] at found
      exact removed.erasers position thread found erases
  cases advanced with
  | erased waiting keeps gone =>
    have run := along.mpr ⟨removed.pending waiting, keeps⟩
    exact ⟨parts, erasers, fun _ => run, fun _ => iff_of_true gone run⟩
  | other keeps waiting same =>
    refine ⟨parts, erasers, ?_, ?_⟩
    · rw [waiting, along]
      exact fun pending => ⟨removed.pending pending, keeps⟩
    · rw [waiting, along, same]
      exact fun settled => (removed.settled settled).trans (and_iff_left keeps).symm
  | applied info here waiting nodes =>
    have guarded : NotAppliedLate gid pool (.advance index) ↔
        (info.gid = gid → ∃ thread ∈ pool.threads, Erases gid thread) := by
      simp [NotAppliedLate, here]
    refine ⟨parts, erasers, ?_, ?_⟩
    · rw [waiting, along]
      exact fun pending => ⟨removed.pending pending, guarded.mpr fun _ => pending⟩
    · rw [waiting, along, guarded, nodes]
      intro settled
      by_cases own : info.gid = gid
      · rw [own, Function.update_self]
        exact iff_of_false (by simp) fun late => settled (late.2 rfl)
      · rw [Function.update_of_ne (Ne.symm own), removed.settled settled]
        exact (and_iff_left fun same => absurd same own).symm

omit [Rmw] in
/-- What arrives or starts to run changes neither the cache nor an erasure. -/
theorem removed_reception {gid : Gid} {start pool after : Pool Call Call.Result (Manager Cache)}
    {events : List Event} {event : Event} (before : (system Cache).exec start events = some pool)
    (removed : Removed gid start events pool) (harmless : NotAppliedLate gid pool event)
    (cache : after.shared.graphCache = pool.shared.graphCache)
    (threads : after.threads = pool.threads ∨ after.threads = pool.threads ++ [onDataAvailable]) :
    Removed gid start (events ++ [event]) after := by
  have along : (system Cache).Along (NotAppliedLate gid) start (events ++ [event]) ↔
      (system Cache).Along (NotAppliedLate gid) start events := by
    rw [Lts.along_concat _ before]
    exact and_iff_left harmless
  have keepsEntry : ¬ Erases gid onDataAvailable := by
    rw [onDataAvailable_eq]
    exact not_erases_of_call (by rintro ⟨⟩)
  have waiting : (∃ thread ∈ after.threads, Erases gid thread) ↔
      ∃ thread ∈ pool.threads, Erases gid thread := by
    obtain same | started := threads
    · rw [same]
    · simp [started, or_and_right, exists_or, keepsEntry]
  refine ⟨?_, ?_, ?_, ?_⟩
  · obtain same | started := threads
    · rw [same]
      exact removed.parts
    · rw [started]
      exact List.forall_mem_append.mpr ⟨removed.parts, List.forall_mem_singleton.mpr .taking⟩
  · intro index thread found erases
    obtain same | started := threads
    · exact removed.erasers index thread (same ▸ found) erases
    · rw [started, List.getElem?_append] at found
      split at found
      · exact removed.erasers index thread found erases
      · have new := List.mem_singleton.mp (List.mem_of_getElem? found)
        exact absurd (new ▸ erases) keepsEntry
  · rw [waiting, along]
    exact removed.pending
  · rw [waiting, along, cache]
    exact removed.settled

omit [Rmw] in
theorem removed_step [LawfulMutators Cache] {gid : Gid}
    {start pool after : Pool Call Call.Result (Manager Cache)} {events : List Event} {event : Event}
    (before : (system Cache).exec start events = some pool) (removed : Removed gid start events pool)
    (stepped : step pool event = some after) : Removed gid start (events ++ [event]) after := by
  cases event with
  | deliver writer alive =>
    obtain ⟨manager, delivered, rfl⟩ := Option.map_eq_some_iff.mp stepped
    obtain ⟨_, _, _, _, _, _, rfl⟩ := deliver_cases delivered
    exact removed_reception before removed trivial rfl (Or.inl rfl)
  | receive sample =>
    cases stepped
    exact removed_reception before removed trivial rfl (Or.inl rfl)
  | onDataAvailable =>
    cases stepped
    exact removed_reception before removed trivial rfl (Or.inr rfl)
  | advance index => exact removed_advance before removed stepped

omit [Rmw] in
theorem absent_iff_nodes [LawfulQueries Cache] (cache : Cache) (gid : Gid) :
    Absent cache gid ↔ GraphCache.nodes cache gid = none := by
  constructor
  · exact fun absent => absent.1
  · intro absent
    refine ⟨absent, ?_⟩
    intro key listed
    obtain ⟨other, present⟩ := (mem_getNodeNames cache key).mp listed
    refine ⟨other, ?_, present⟩
    intro same
    obtain ⟨nodes, known, _⟩ := present
    rw [same, absent] at known
    cases known

theorem removed_initial (manager : Manager Cache) (participant : DomainParticipant)
    {reason : ParticipantDiscoveryStatus} (userData : List UInt8)
    (reasonRemoved : reason = .removed ∨ reason = .dropped) :
    Removed participant.gid (removals manager participant reason userData) []
      (removals manager participant reason userData) := by
  have pending : ∃ thread ∈ (removals manager participant reason userData).threads,
      Erases participant.gid thread := ⟨removeParticipant participant, by simp [removals], _, rfl⟩
  refine ⟨?_, ?_, fun _ => trivial, fun none => absurd pending none⟩
  · intro thread member
    simp only [removals, List.mem_cons, List.not_mem_nil, or_false] at member
    obtain rfl | rfl := member
    · exact part_removeParticipant participant
    · exact part_onParticipantDiscovery reasonRemoved participant.guid userData
  · intro index thread found _
    exact (List.getElem?_eq_some_iff.mp found).1

/-- In every state after both removals the participant is absent from the cache if and only
if none of its samples was applied after the second erasure. -/
theorem absent_iff [LawfulMutators Cache] [LawfulQueries Cache] {manager : Manager Cache}
    {participant : DomainParticipant} {reason : ParticipantDiscoveryStatus} {userData : List UInt8}
    {events : List Event} {pool : Pool Call Call.Result (Manager Cache)}
    (reasonRemoved : reason = .removed ∨ reason = .dropped)
    (reached : (system Cache).exec (removals manager participant reason userData) events = some pool)
    (returned : BothReturned pool) :
    Absent pool.shared.graphCache participant.gid ↔
      (system Cache).Along (NotAppliedLate participant.gid)
        (removals manager participant reason userData) events := by
  have removed := Lts.exec_induction (system Cache)
    (motive := fun events pool =>
      Removed participant.gid (removals manager participant reason userData) events pool)
    (removed_initial manager participant userData reasonRemoved)
    (fun _ _ _ _ before ih stepped => removed_step before ih stepped) reached
  rw [absent_iff_nodes]
  refine removed.settled ?_
  intro ⟨thread, member, erases⟩
  obtain ⟨index, found⟩ := List.mem_iff_getElem?.mp member
  have early := removed.erasers index thread found erases
  obtain ⟨next, rfl⟩ := erases
  obtain rfl | rfl : index = 0 ∨ index = 1 := by omega
  · cases found.symm.trans returned.1
  · cases found.symm.trans returned.2

end MicroRosAgent.GraphManager.GhostParticipants

/-! ## A late sample -/

namespace MicroRosAgent.GraphManager.GhostParticipants

open Interleaving

attribute [local instance] referenceRmw

abbrev sampleParticipant : DomainParticipant := ReferenceRmw.participant 1 "/node".toList

/-- The manager once `add_participant` has run, with its sample still in flight. -/
def announced : Manager ReferenceCache :=
  (((addParticipant sampleParticipant).run handle { graphCache := GraphCache.empty }).map
    fun answer => answer.2).getD { graphCache := GraphCache.empty }

/-- The sample of `add_participant` is taken, and applied between the two erasures; that of
    `remove_participant` arrives when its writer is gone. -/
def betweenErasures : List Event :=
  [.deliver sampleParticipant.gid true, .onDataAvailable, .advance 2, .advance 0, .advance 2,
    .advance 1, .advance 0, .advance 0, .advance 0, .advance 0,
    .deliver sampleParticipant.gid false, .onDataAvailable, .advance 3]

/-- The sample of `add_participant` is taken before both removals and applied after them. -/
def afterErasures : List Event :=
  [.deliver sampleParticipant.gid true, .onDataAvailable, .advance 2, .advance 0, .advance 0,
    .advance 0, .advance 0, .advance 0, .advance 1, .advance 2]

theorem absent_iff_announced : ∃ pool,
    (system ReferenceCache).exec (removals announced sampleParticipant .removed []) betweenErasures =
        some pool ∧
      (Absent pool.shared.graphCache sampleParticipant.gid ↔
        (system ReferenceCache).Along (NotAppliedLate sampleParticipant.gid)
          (removals announced sampleParticipant .removed []) betweenErasures) :=
  ⟨_, rfl, absent_iff (Or.inl rfl) rfl ⟨rfl, rfl⟩⟩

/-- The node is back after both removals. -/
theorem late_sample_restores : ∃ pool,
    (system ReferenceCache).exec (removals announced sampleParticipant .removed []) afterErasures =
        some pool ∧
      BothReturned pool ∧ ¬ Absent pool.shared.graphCache sampleParticipant.gid := by
  refine ⟨_, rfl, ⟨rfl, rfl⟩, ?_⟩
  intro absent
  exact absurd absent.1 (by decide)

end MicroRosAgent.GraphManager.GhostParticipants
