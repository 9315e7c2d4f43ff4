import MicroRosAgent.Agent.DiscoveryWriters

/-! # The life of a discovery writer

Every datawriter of `ros_discovery_info` followed through a run, whatever runs at the same
time: it is created once, then written, then deleted at most once, and not used after that.
All its samples are about one participant, and no participant gets a second one.  Once all
callbacks have returned, those that still exist are those of the live participants
(`writers_used_in_order`).

The callbacks of one participant must not overlap (`Orderly`), must respect the life cycle
of the DDS objects, and must not need the datawriter of a participant named `/`.  Callbacks
of different participants do overlap.  The code has no lock for
`micro_ros_graph_datawriters_`: that the single accesses to the map (find, insert, erase) do
not overlap is assumed, not proved.
-/

namespace MicroRosAgent.Agent.Concurrency

open Interleaving GraphManager

variable {Cache : Type}

def useOfVisit (visit : State Cache × Event) : Option (Nat × Use) :=
  match visit.2 with
  | .advance index => (visit.1.nextCall index).bind (useOf visit.1.shared)
  | _ => none

variable [Rmw]

/-- All that is done to datawriters in a run, in its order. -/
def trace (Cache : Type) [GraphCache Cache] (events : List Event) : List (Nat × Use) :=
  ((system Cache).visits (initial Cache) events).filterMap useOfVisit

/-! ## Callbacks of one participant do not overlap -/

/-- The callback each thread runs, in the order of their start; the listeners run none. -/
def spawned (events : List Event) : List (Option Callback) :=
  events.filterMap fun event =>
    match event with
    | .start callback => some (some callback)
    | .participantDiscovery .. | .endpointDiscovery .. | .onDataAvailable => some none
    | _ => none

/-- A callback starts when the earlier ones of its participant have returned. -/
def Ready (before : List Event) (state : State Cache) : Event → Prop
  | .start callback => ∀ (index : Nat) earlier, (spawned before)[index]? = some (some earlier) →
      earlier.participant.handle = callback.participant.handle →
        state.threads[index]? = some (.done ())
  | _ => True

def Orderly (Cache : Type) [GraphCache Cache] (events : List Event) : Prop :=
  (system Cache).AlongAfter Ready [] (initial Cache) events

/-- The callbacks in the order of their start, for `LifeCycle`. -/
def started (events : List Event) : List Agent.Event :=
  events.filterMap fun event =>
    match event with
    | .start callback => some (.callback callback)
    | _ => none

def liveAt (events : List Event) : List DomainParticipant := (started events).foldl liveAfter []

def usedAt (events : List Event) : List Guid := (started events).foldl usedAfter []

/-! ## The events so far -/

omit [Rmw] in
theorem lifeCycle_append {live : List DomainParticipant} {used : List Guid}
    {first second : List Agent.Event} :
    LifeCycle live used (first ++ second) ↔ LifeCycle live used first ∧
      LifeCycle (first.foldl liveAfter live) (first.foldl usedAfter used) second := by
  induction first generalizing live used with
  | nil => simp [LifeCycle]
  | cons event events ih => simp only [List.cons_append, LifeCycle, List.foldl_cons, ih, and_assoc]

section
variable {events : List Event} {event : Event} {callback : Callback}

omit [Rmw] in
theorem started_concat_start :
    started (events ++ [.start callback]) = started events ++ [.callback callback] := by
  simp [started]

omit [Rmw] in
/-- Nobody is created or deleted by an event that starts no callback. -/
theorem started_concat (noStart : ∀ callback, event ≠ .start callback) :
    started (events ++ [event]) = started events := by
  cases event with
  | start callback => exact absurd rfl (noStart callback)
  | participantDiscovery | endpointDiscovery | deliver | receive | onDataAvailable | advance =>
    simp [started]

omit [Rmw] in
theorem liveAt_start : liveAt (events ++ [.start callback]) =
    liveAfter (liveAt events) (.callback callback) := by
  simp [liveAt, started_concat_start]

omit [Rmw] in
theorem usedAt_start : usedAt (events ++ [.start callback]) =
    usedAfter (usedAt events) (.callback callback) := by
  simp [usedAt, started_concat_start]

omit [Rmw] in
theorem mem_foldl_usedAfter (events : List Agent.Event) {used : List Guid} {guid : Guid}
    (before : guid ∈ used) : guid ∈ events.foldl usedAfter used := by
  induction events generalizing used with
  | nil => exact before
  | cons event events ih =>
    apply ih
    unfold usedAfter
    split
    · exact List.mem_cons_of_mem _ before
    · exact before

omit [Rmw] in
theorem used_of_created {participant : DomainParticipant}
    (created : Event.start (.createParticipant participant) ∈ events) :
    participant.guid ∈ usedAt events := by
  obtain ⟨earlier, later, rfl⟩ := List.append_of_mem created
  have isStarted : started (earlier ++ .start (.createParticipant participant) :: later) =
      started earlier ++ .callback (.createParticipant participant) :: started later := by
    simp [started]
  rw [usedAt, isStarted, List.foldl_append, List.foldl_cons]
  exact mem_foldl_usedAfter _ List.mem_cons_self

/-- Whose thread it is. -/
def ownerAt (events : List Event) (index : Nat) : Owner :=
  match (spawned events)[index]? with
  | some (some callback) => .participant callback.participant.handle
  | _ => .listener index

omit [Rmw] in
theorem ownerAt_kept {index : Nat} (old : index < (spawned events).length) (event : Event) :
    ownerAt (events ++ [event]) index = ownerAt events index := by
  have same : (spawned (events ++ [event]))[index]? = (spawned events)[index]? := by
    rw [spawned, List.filterMap_append]
    exact List.getElem?_append_left old
  rw [ownerAt, same]
  rfl

omit [Rmw] in
theorem ownerAt_start : ownerAt (events ++ [.start callback]) (spawned events).length =
    .participant callback.participant.handle := by
  have last : (spawned (events ++ [.start callback]))[(spawned events).length]? =
      some (some callback) := by
    rw [spawned, List.filterMap_append]
    exact List.getElem?_concat_length ..
  rw [ownerAt, last]

omit [Rmw] in
theorem ownerAt_eq_participant {index handle : Nat}
    (isOwner : ownerAt events index = .participant handle) :
    ∃ earlier, (spawned events)[index]? = some (some earlier) ∧
      earlier.participant.handle = handle := by
  unfold ownerAt at isOwner
  split at isOwner
  · rename_i earlier found
    exact ⟨earlier, found, Owner.participant.inj isOwner⟩
  · cases isOwner

end

section
variable [GraphCache Cache] {events : List Event} {event : Event} {state : State Cache}

theorem trace_concat (reached : (system Cache).exec (initial Cache) events = some state) :
    trace Cache (events ++ [event]) = trace Cache events ++ (useOfVisit (state, event)).toList := by
  rw [trace, Lts.visits_concat _ reached, List.filterMap_append]
  cases used : useOfVisit (state, event) <;> simp [used, trace]

/-- The threads and the manager after a run, for some phases of the participants. -/
structure Tracked (events : List Event) (state : State Cache) (phase : Owner → Phase)
    (belongs : List DomainParticipant) : Prop where
  owned : Owned protocol (Rests (liveAt events)) (ownerAt events) phase state.threads
  coherent : Coherent events belongs phase state.shared (trace Cache events)
  distinct : Distinct (liveAt events) (usedAt events)
  threads : state.threads.length = (spawned events).length

omit [GraphCache Cache] in
theorem Coherent.later {belongs : List DomainParticipant} {phase : Owner → Phase}
    {manager : Manager Cache} {trace : List (Nat × Use)}
    (coherent : Coherent events belongs phase manager trace) (event : Event) :
    Coherent (events ++ [event]) belongs phase manager trace := by
  have grown : ∀ participant, GetsWriter events participant →
      GetsWriter (events ++ [event]) participant :=
    fun _ gets => ⟨List.mem_append_left _ gets.1, gets.2⟩
  refine { coherent with introduced := ?_, starts := ?_ }
  · intro participant member
    exact grown participant (coherent.introduced participant member)
  · intro handle participant starts
    obtain ⟨own, gets, fresh⟩ := coherent.starts handle participant starts
    exact ⟨own, grown participant gets, fresh⟩

omit [GraphCache Cache] in
/-- The participant starts whose CREATE_PARTICIPANT is the next event. -/
theorem Coherent.start {belongs : List DomainParticipant} {phase : Owner → Phase}
    {manager : Manager Cache} {trace : List (Nat × Use)} {participant : DomainParticipant}
    (coherent : Coherent events belongs phase manager trace) (notRoot : ¬ Root participant)
    (fresh : participant.guid ∉ usedAt events)
    (absent : phase (.participant participant.handle) = .absent) :
    Coherent (events ++ [.start (.createParticipant participant)]) belongs
      (Function.update phase (.participant participant.handle) (.starting participant)) manager
      trace := by
  have later := coherent.later (.start (.createParticipant participant))
  have other : ∀ known, GetsWriter events known → known.guid ≠ participant.guid := by
    intro known gets equal
    exact fresh (equal ▸ used_of_created gets.1)
  -- a participant that starts is the new one, or was starting before
  have starting : ∀ handle known,
      Function.update phase (.participant participant.handle) (.starting participant)
        (.participant handle) = .starting known →
      (handle = participant.handle ∧ known = participant) ∨
        (handle ≠ participant.handle ∧ phase (.participant handle) = .starting known) := by
    intro handle known starts
    by_cases same : handle = participant.handle
    · subst same
      rw [Function.update_self] at starts
      exact Or.inl ⟨rfl, (Phase.starting.inj starts).symm⟩
    · rw [Function.update_of_ne fun equal => same (Owner.participant.inj equal)] at starts
      exact Or.inr ⟨same, starts⟩
  have seen : ∀ {Seen : Type} (seen : Phase → Seen), seen (.starting participant) = seen .absent →
      (fun handle => seen (Function.update phase (.participant participant.handle)
        (.starting participant) (.participant handle))) =
        fun handle => seen (phase (.participant handle)) := by
    intro Seen seen same
    rw [update_seen, same, ← absent]
    exact Function.update_eq_self _ _
  refine ⟨later.count, ?_, ?_, later.introduced, ?_, ?_, later.once⟩
  · intro handle
    rw [later.entries]
    exact (congrFun (seen Phase.entry rfl) handle).symm
  · rw [seen Phase.holds rfl]
    exact later.ledger
  · intro handle known starts
    obtain ⟨rfl, rfl⟩ | ⟨_, before⟩ := starting handle known starts
    · refine ⟨rfl, ⟨by simp, notRoot⟩, ?_⟩
      intro known member
      exact other known (coherent.introduced known member)
    · exact later.starts handle known before
  · intro first second one another firstStarts secondStarts equal
    obtain ⟨rfl, rfl⟩ | ⟨_, firstBefore⟩ := starting first one firstStarts <;>
      obtain ⟨rfl, rfl⟩ | ⟨_, secondBefore⟩ := starting second another secondStarts
    · rfl
    · exact absurd equal.symm (other another (coherent.starts second another secondBefore).2.1)
    · exact absurd equal (other one (coherent.starts first one firstBefore).2.1)
    · exact coherent.apart first second one another firstBefore secondBefore equal

end

section
variable {live : List DomainParticipant} {used : List Guid} {callback : Callback}

omit [Rmw] in
/-- A callback of another participant does not change how an owner rests. -/
theorem rests_liveAfter {owner : Owner} {phase : Phase} (rests : Rests live owner phase)
    (other : owner ≠ .participant callback.participant.handle) :
    Rests (liveAfter live (.callback callback)) owner phase := by
  cases callback with
  | createParticipant participant =>
    cases rests with
    | announced known datawriter isLive notRoot =>
      exact .announced known datawriter (List.mem_cons_of_mem _ isLive) notRoot
    | absent handle onlyRoot =>
      refine .absent handle ?_
      intro known member own
      obtain rfl | old := List.mem_cons.mp member
      · exact absurd (own ▸ rfl) other
      · exact onlyRoot known old own
    | listener index => exact .listener index
  | deleteParticipant participant =>
    cases rests with
    | announced known datawriter isLive notRoot =>
      refine .announced known datawriter (List.mem_filter.mpr ⟨isLive, ?_⟩) notRoot
      have different : known ≠ participant := fun same => other (same ▸ rfl)
      exact decide_eq_true different
    | absent handle onlyRoot =>
      refine .absent handle ?_
      intro known member
      exact onlyRoot known (List.mem_of_mem_filter member)
    | listener index => exact .listener index
  | createDatawriter | deleteDatawriter | createDatareader | deleteDatareader | createRequester
  | deleteRequester | createReplier | deleteReplier => exact rests

omit [Rmw] in
/-- A participant with a node rests announced. -/
theorem announced_of_rests {participant : DomainParticipant} {phase : Phase}
    (distinct : Distinct live used) (isLive : participant ∈ live) (notRoot : ¬ Root participant)
    (rests : Rests live (.participant participant.handle) phase) :
    ∃ datawriter, phase = .announced participant datawriter := by
  generalize key : Owner.participant participant.handle = owner at rests
  cases rests with
  | announced known datawriter knownLive _ =>
    have same := distinct.handle known knownLive participant isLive (Owner.participant.inj key).symm
    exact ⟨datawriter, same ▸ rfl⟩
  | absent handle onlyRoot =>
    exact absurd (onlyRoot participant isLive (Owner.participant.inj key)) notRoot
  | listener index => cases key

/-- A callback that creates entities leaves its participant announced. -/
theorem follows_creation {phase : Phase} (distinct : Distinct live used)
    (creates : callback.created ≠ []) (isLive : callback.participant ∈ live)
    (notRoot : ¬ Root callback.participant)
    (rests : Rests live (.participant callback.participant.handle) phase) :
    callback.program.Follows (protocol (.participant callback.participant.handle))
      (fun _ => Rests live (.participant callback.participant.handle)) phase := by
  obtain ⟨datawriter, rfl⟩ := announced_of_rests distinct isLive notRoot rests
  rw [program_eq_createEndpoints callback creates]
  refine (follows_createEndpoints _ datawriter _).mono ?_
  rintro _ _ rfl
  exact rests

/-- A callback that deletes entities leaves its participant as it is. -/
theorem follows_deletion {phase : Phase} (deletes : callback.deleted ≠ [])
    (rests : Rests live (.participant callback.participant.handle) phase) :
    callback.program.Follows (protocol (.participant callback.participant.handle))
      (fun _ => Rests live (.participant callback.participant.handle)) phase := by
  rw [program_eq_deleteEndpoints callback deletes]
  refine (follows_deleteEndpoints _).mono ?_
  rintro _ _ rfl
  exact rests

/-- A callback that may start follows the protocol, from the phase its participant rests in
    or, if the participant is to get a datawriter, from the start. -/
theorem follows_program {phase : Phase} (distinct : Distinct live used)
    (allowed : Allowed live used (.callback callback))
    (offRoot : ¬ (Root callback.participant ∧ callback.Dereferences))
    (rests : Rests live (.participant callback.participant.handle) phase) :
    callback.program.Follows (protocol (.participant callback.participant.handle))
        (fun _ => Rests (liveAfter live (.callback callback))
          (.participant callback.participant.handle)) phase ∨
      ∃ participant, callback = .createParticipant participant ∧ ¬ Root participant ∧
        phase = .absent ∧ participant.guid ∉ used ∧
        callback.program.Follows (protocol (.participant participant.handle))
          (fun _ => Rests (participant :: live) (.participant participant.handle))
          (.starting participant) := by
  cases callback with
  | createParticipant participant =>
    obtain ⟨newHandle, newGuid⟩ := allowed
    have absent : phase = .absent := by
      generalize key : Owner.participant _ = owner at rests
      cases rests with
      | announced known datawriter isLive _ =>
        exact absurd (Owner.participant.inj key).symm (newHandle known isLive)
      | absent | listener => rfl
    subst absent
    by_cases root : Root participant
    · refine Or.inl ((follows_addParticipant_root root).mono ?_)
      rintro _ _ rfl
      refine .absent _ ?_
      intro known member own
      obtain rfl | old := List.mem_cons.mp member
      · exact root
      · exact absurd own (newHandle known old)
    · refine Or.inr ⟨participant, rfl, root, rfl, newGuid, (follows_addParticipant root).mono ?_⟩
      rintro _ _ ⟨datawriter, rfl⟩
      exact .announced participant datawriter List.mem_cons_self root
  | deleteParticipant participant =>
    have notRoot : ¬ Root participant := fun root => offRoot ⟨root, trivial⟩
    obtain ⟨datawriter, rfl⟩ := announced_of_rests distinct allowed notRoot rests
    refine Or.inl ((follows_removeParticipant participant datawriter).mono ?_)
    rintro _ _ rfl
    refine .absent _ ?_
    intro known member own
    obtain ⟨isLive, different⟩ := List.mem_filter.mp member
    exact absurd (distinct.handle known isLive participant allowed own) (of_decide_eq_true different)
  | createDatawriter | createDatareader | createRequester | createReplier =>
    have notRoot := fun root => offRoot ⟨root, List.cons_ne_nil _ _⟩
    exact Or.inl (follows_creation distinct (List.cons_ne_nil _ _) allowed notRoot rests)
  | deleteDatawriter | deleteDatareader | deleteRequester | deleteReplier =>
    exact Or.inl (follows_deletion (List.cons_ne_nil _ _) rests)

end

/-! ## One event -/

section
variable [GraphCache Cache] {events : List Event} {event : Event} {state after : State Cache}
  {phase : Owner → Phase} {belongs : List DomainParticipant}

theorem trace_unchanged (reached : (system Cache).exec (initial Cache) events = some state)
    (noUse : useOfVisit (state, event) = none) :
    trace Cache (events ++ [event]) = trace Cache events := by
  rw [trace_concat reached, noUse, Option.toList_none, List.append_nil]

/-- The parts of `Tracked` that only a CREATE_ or DELETE_PARTICIPANT changes. -/
theorem Tracked.unstarted (tracked : Tracked events state phase belongs)
    (reached : (system Cache).exec (initial Cache) events = some state)
    (noStart : ∀ callback, event ≠ .start callback) (noUse : useOfVisit (state, event) = none) :
    Coherent (events ++ [event]) belongs phase state.shared (trace Cache (events ++ [event])) ∧
      liveAt (events ++ [event]) = liveAt events ∧ usedAt (events ++ [event]) = usedAt events := by
  have same : started (events ++ [event]) = started events := started_concat noStart
  rw [trace_unchanged reached noUse]
  refine ⟨tracked.coherent.later event, ?_, ?_⟩
  · rw [liveAt, same]
    rfl
  · rw [usedAt, same]
    rfl

theorem tracked_start {callback : Callback} (tracked : Tracked events state phase belongs)
    (reached : (system Cache).exec (initial Cache) events = some state)
    (allowed : Allowed (liveAt events) (usedAt events) (.callback callback))
    (ready : Ready events state (.start callback))
    (offRoot : ¬ (Root callback.participant ∧ callback.Dereferences)) :
    ∃ phase', Tracked (events ++ [.start callback]) (state.spawn callback.program) phase'
      belongs := by
  have own : ownerAt (events ++ [.start callback]) state.threads.length =
      .participant callback.participant.handle := by
    rw [tracked.threads]
    exact ownerAt_start
  have kept : ∀ index, index < state.threads.length →
      ownerAt (events ++ [.start callback]) index = ownerAt events index := by
    intro index old
    exact ownerAt_kept (tracked.threads ▸ old) _
  -- nothing of the participant is running
  have idle : ∀ (index : Nat) thread, state.threads[index]? = some thread →
      ownerAt events index = .participant callback.participant.handle → thread = .done () := by
    intro index thread found isOwner
    obtain ⟨earlier, started, sameHandle⟩ := ownerAt_eq_participant isOwner
    exact Option.some.inj (found.symm.trans (ready index earlier started sameHandle))
  have distinct : Distinct (liveAt (events ++ [.start callback]))
      (usedAt (events ++ [.start callback])) := by
    rw [liveAt_start, usedAt_start]
    cases callback with
    | createParticipant participant =>
      exact distinct_create tracked.distinct allowed.1 allowed.2
    | deleteParticipant participant => exact distinct_delete participant tracked.distinct
    | createDatawriter | deleteDatawriter | createDatareader | deleteDatareader | createRequester
    | deleteRequester | createReplier | deleteReplier => exact tracked.distinct
  have threads : (state.spawn callback.program).threads.length =
      (spawned (events ++ [.start callback])).length := by
    simp [Pool.spawn, spawned, tracked.threads]
  have sameTrace : trace Cache (events ++ [.start callback]) = trace Cache events :=
    trace_unchanged reached rfl
  have rests := tracked.owned.resting _ idle
  obtain follows | ⟨participant, rfl, notRoot, absent, fresh, follows⟩ :=
    follows_program tracked.distinct allowed offRoot rests
  · refine ⟨phase, ⟨?_, ?_, distinct, threads⟩⟩
    · refine tracked.owned.spawn kept ?_ ?_ ?_
      · rwa [own]
      · intro key other
        rw [own] at other
        rw [liveAt_start]
        exact ⟨rfl, fun reached rests => rests_liveAfter rests other⟩
      · rw [own, liveAt_start]
        exact follows
    · rw [sameTrace]
      exact tracked.coherent.later _
  · refine ⟨Function.update phase (.participant participant.handle) (.starting participant),
      ⟨?_, ?_, distinct, threads⟩⟩
    · have isOwn : ownerAt (events ++ [.start (.createParticipant participant)])
          state.threads.length = .participant participant.handle := own
      refine tracked.owned.spawn kept ?_ ?_ ?_
      · rwa [isOwn]
      · intro key other
        rw [isOwn] at other
        rw [liveAt_start]
        exact ⟨Function.update_of_ne other _ _, fun reached rests => rests_liveAfter rests other⟩
      · rw [isOwn, liveAt_start, Function.update_self]
        exact follows
    · rw [sameTrace]
      exact tracked.coherent.start notRoot fresh absent

/-- A callback of the listener leaves all phases as they are. -/
theorem tracked_listener {program : ManagerProgram Unit}
    (tracked : Tracked events state phase belongs)
    (reached : (system Cache).exec (initial Cache) events = some state)
    (isListener : spawned (events ++ [event]) = spawned events ++ [none])
    (noStart : ∀ callback, event ≠ .start callback) (noUse : useOfVisit (state, event) = none)
    (follows : ∀ phase, program.Follows (protocol (.listener state.threads.length))
      (fun _ reached => reached = phase) phase) :
    Tracked (events ++ [event]) (state.spawn program) phase belongs := by
  obtain ⟨coherent, sameLive, sameUsed⟩ := tracked.unstarted reached noStart noUse
  have own : ownerAt (events ++ [event]) state.threads.length =
      .listener state.threads.length := by
    rw [ownerAt, isListener, tracked.threads, List.getElem?_concat_length]
  have fresh : ∀ (index : Nat) thread, state.threads[index]? = some thread →
      ownerAt events index = .listener state.threads.length → thread = .done () := by
    intro index thread found isOwner
    have bound := (List.getElem?_eq_some_iff.mp found).1
    unfold ownerAt at isOwner
    split at isOwner
    · cases isOwner
    · have same := Owner.listener.inj isOwner
      omega
  refine ⟨?_, coherent, ?_, ?_⟩
  · rw [sameLive]
    refine tracked.owned.spawn ?_ ?_ ?_ ?_
    · intro index old
      exact ownerAt_kept (tracked.threads ▸ old) _
    · rwa [own]
    · exact fun key _ => ⟨rfl, fun _ rests => rests⟩
    · rw [own]
      refine (follows _).mono ?_
      rintro _ _ rfl
      exact tracked.owned.resting _ fresh
  · rw [sameLive, sameUsed]
    exact tracked.distinct
  · rw [isListener]
    simp [Pool.spawn, tracked.threads]

/-- A sample that arrives leaves the threads and the datawriters as they are. -/
theorem tracked_arrival {manager : Manager Cache} (tracked : Tracked events state phase belongs)
    (reached : (system Cache).exec (initial Cache) events = some state)
    (isArrival : spawned (events ++ [event]) = spawned events)
    (noStart : ∀ callback, event ≠ .start callback) (noUse : useOfVisit (state, event) = none)
    (count : manager.created = state.shared.created)
    (entries : manager.datawriters = state.shared.datawriters) :
    Tracked (events ++ [event]) ⟨manager, state.threads⟩ phase belongs := by
  obtain ⟨coherent, sameLive, sameUsed⟩ := tracked.unstarted reached noStart noUse
  have sameOwner : ownerAt (events ++ [event]) = ownerAt events := by
    funext index
    rw [ownerAt, isArrival]
    rfl
  refine ⟨?_, coherent.manager count entries, ?_, ?_⟩
  · rw [sameLive, sameOwner]
    exact tracked.owned
  · rw [sameLive, sameUsed]
    exact tracked.distinct
  · rw [isArrival]
    exact tracked.threads

variable [LawfulMutators Cache] [LawfulPreconditions Cache]

theorem tracked_advance {index : Nat} (tracked : Tracked events state phase belongs)
    (reached : (system Cache).exec (initial Cache) events = some state)
    (advanced : state.advance handle index = some after) :
    ∃ phase' belongs', Tracked (events ++ [.advance index]) after phase' belongs' := by
  have same : started (events ++ [.advance index]) = started events := by
    simp [started]
  obtain ⟨operation, next, result, shared, here, handled, rfl⟩ := Pool.advance_cases advanced
  obtain ⟨permitted, moves⟩ := tracked.owned.advance here
  obtain ⟨promised, belongs', coherent⟩ := coherent_handle tracked.coherent permitted handled
  have sameLive : liveAt (events ++ [.advance index]) = liveAt events := by
    rw [liveAt, same]
    rfl
  have sameUsed : usedAt (events ++ [.advance index]) = usedAt events := by
    rw [usedAt, same]
    rfl
  have sameSpawned : spawned (events ++ [.advance index]) = spawned events := by
    simp [spawned]
  have sameOwner : ownerAt (events ++ [.advance index]) = ownerAt events := by
    funext other
    rw [ownerAt, sameSpawned]
    rfl
  have used : useOfVisit (state, .advance index) = useOf state.shared operation := by
    simp [useOfVisit, Pool.nextCall_of_thread here]
  refine ⟨Function.update phase (ownerAt events index)
    ((phase (ownerAt events index)).next operation result), belongs', ⟨?_, ?_, ?_, ?_⟩⟩
  · rw [sameLive, sameOwner]
    exact moves result promised
  · rw [trace_concat reached, used]
    exact coherent.later _
  · rw [sameLive, sameUsed]
    exact tracked.distinct
  · rw [sameSpawned, List.length_set]
    exact tracked.threads

end

/-! ## Runs -/

/-- No callback needs the datawriter of a participant named `/`. -/
def OffRoot (events : List Event) : Prop :=
  ∀ callback, Event.start callback ∈ events → ¬ (Root callback.participant ∧ callback.Dereferences)

section
variable [GraphCache Cache] [LawfulMutators Cache] [LawfulPreconditions Cache]
  {events : List Event} {state : State Cache}

omit [LawfulMutators Cache] [LawfulPreconditions Cache] in
theorem tracked_initial : Tracked [] (initial Cache) (fun _ => .absent) [] := by
  refine ⟨Owned.nil ?_, ⟨rfl, fun _ => rfl, ⟨nofun, fun _ _ => rfl, nofun⟩, nofun, nofun, nofun,
    List.nodup_nil⟩, ⟨nofun, nofun, nofun⟩, rfl⟩
  intro key
  cases key with
  | participant handle => exact .absent handle nofun
  | listener index => exact .listener index

theorem tracked_run (reached : (system Cache).exec (initial Cache) events = some state)
    (orderly : Orderly Cache events) (lifeCycle : LifeCycle [] [] (started events))
    (offRoot : OffRoot events) : ∃ phase belongs, Tracked events state phase belongs := by
  refine (system Cache).exec_induction (motive := fun events state =>
    Orderly Cache events → LifeCycle [] [] (started events) → OffRoot events →
      ∃ phase belongs, Tracked events state phase belongs) ?_ ?_ reached orderly lifeCycle offRoot
  · intro _ _ _
    exact ⟨_, _, tracked_initial⟩
  intro events state event after before ih stepped orderly lifeCycle offRoot
  obtain ⟨earlier, ready⟩ := Lts.alongAfter_concat _ before orderly
  have earlierLifeCycle : LifeCycle [] [] (started events) := by
    rw [started, List.filterMap_append] at lifeCycle
    exact (lifeCycle_append.mp lifeCycle).1
  obtain ⟨phase, belongs, tracked⟩ := ih earlier earlierLifeCycle
    fun callback member => offRoot callback (List.mem_append_left _ member)
  cases stepped_of_step stepped with
  | start callback =>
    rw [started_concat_start] at lifeCycle
    have allowed := (lifeCycle_append.mp lifeCycle).2.1
    obtain ⟨phase', tracked⟩ := tracked_start tracked before allowed ready (offRoot callback (by simp))
    exact ⟨phase', belongs, tracked⟩
  | participantDiscovery reason guid userData =>
    exact ⟨phase, belongs, tracked_listener tracked before (by simp [spawned]) (by simp) rfl
      fun _ => follows_onParticipantDiscovery reason guid userData⟩
  | endpointDiscovery isReader reason info =>
    exact ⟨phase, belongs, tracked_listener tracked before (by simp [spawned]) (by simp) rfl
      fun _ => follows_onEndpointDiscovery isReader reason info⟩
  | advance index advanced => exact tracked_advance tracked before advanced
  | deliver | receive =>
    exact ⟨phase, belongs, tracked_arrival tracked before (by simp [spawned]) (by simp) rfl rfl rfl⟩
  | onDataAvailable =>
    exact ⟨phase, belongs, tracked_listener tracked before (by simp [spawned]) (by simp) rfl
      fun _ => follows_onDataAvailable⟩

/-- Each datawriter is created, written, and deleted at most once and last; its samples are
    about the participant it was created for, and no two were created for one participant. -/
structure WellUsed (events : List Event) (belongs : List DomainParticipant)
    (trace : List (Nat × Use)) : Prop where
  introduced : ∀ participant ∈ belongs, GetsWriter events participant
  once : (belongs.map DomainParticipant.guid).Nodup
  unborn : ∀ datawriter, belongs.length ≤ datawriter → usesOf datawriter trace = []
  born : ∀ datawriter participant, belongs[datawriter]? = some participant →
    ∃ (infos : List ParticipantEntitiesInfo) (closing : List Use),
      (∀ info ∈ infos, info.gid = participant.gid) ∧
      usesOf datawriter trace = .create :: infos.map .write ++ closing ∧
      (closing = [] ∨ closing = [.delete])

/-- The datawriters that still exist are those of the live participants, which the map has. -/
structure NoneLeaked (live belongs : List DomainParticipant) (trace : List (Nat × Use))
    (datawriters : Nat → Option Nat) : Prop where
  kept : ∀ datawriter participant, belongs[datawriter]? = some participant →
    (.delete ∉ usesOf datawriter trace ↔ participant ∈ live)
  entries : ∀ participant ∈ live, ¬ Root participant → ∃ datawriter,
    belongs[datawriter]? = some participant ∧ datawriters participant.handle = some datawriter

omit [LawfulMutators Cache] [LawfulPreconditions Cache] in
theorem Tracked.wellUsed {phase : Owner → Phase} {belongs : List DomainParticipant}
    (tracked : Tracked events state phase belongs) :
    WellUsed events belongs (trace Cache events) := by
  have ledger := tracked.coherent.ledger
  refine ⟨tracked.coherent.introduced, tracked.coherent.once, ledger.unborn, ?_⟩
  intro datawriter participant known
  obtain ⟨infos, own, uses⟩ := ledger.born datawriter participant known
  refine ⟨infos, _, own, uses, ?_⟩
  split
  · exact Or.inl rfl
  · exact Or.inr rfl

omit [LawfulMutators Cache] [LawfulPreconditions Cache] in
theorem Tracked.noneLeaked {phase : Owner → Phase} {belongs : List DomainParticipant}
    (tracked : Tracked events state phase belongs) (idle : state.Idle) :
    NoneLeaked (liveAt events) belongs (trace Cache events) state.shared.datawriters := by
  have rests : ∀ key, Rests (liveAt events) key (phase key) := by
    intro key
    refine tracked.owned.resting key ?_
    intro index thread found _
    exact idle thread (List.mem_of_getElem? found)
  -- a live participant with a node is announced, and holds its datawriter
  have announced : ∀ participant ∈ liveAt events, ¬ Root participant → ∃ datawriter,
      phase (.participant participant.handle) = .announced participant datawriter ∧
        belongs[datawriter]? = some participant := by
    intro participant isLive notRoot
    obtain ⟨datawriter, isAnnounced⟩ :=
      announced_of_rests tracked.distinct isLive notRoot (rests (.participant participant.handle))
    refine ⟨datawriter, isAnnounced, ?_⟩
    exact (tracked.coherent.ledger.held _ participant datawriter (by rw [isAnnounced]; rfl)).2
  refine ⟨?_, ?_⟩
  · intro datawriter participant known
    obtain ⟨infos, _, uses⟩ := tracked.coherent.ledger.born datawriter participant known
    rw [uses]
    by_cases holds : (phase (.participant participant.handle)).holds =
        some (participant, datawriter)
    · rw [if_pos holds]
      refine iff_of_true (by simp) ?_
      have atRest := rests (.participant participant.handle)
      generalize phase (.participant participant.handle) = reached at holds atRest
      generalize Owner.participant participant.handle = key at atRest
      cases atRest with
      | announced known other isLive _ =>
        cases holds
        exact isLive
      | absent | listener => cases holds
    · rw [if_neg holds]
      refine iff_of_false (by simp) ?_
      intro isLive
      obtain ⟨other, isAnnounced, belongsTo⟩ :=
        announced participant isLive (tracked.coherent.introduced participant
          (List.mem_of_getElem? known)).2
      -- no participant has two datawriters
      have nodup := tracked.coherent.once.of_map
      have same : datawriter = other :=
        (List.getElem?_inj (List.getElem?_eq_some_iff.mp known).1 nodup).mp
          (known.trans belongsTo.symm)
      subst same
      exact holds (by rw [isAnnounced]; rfl)
  · intro participant isLive notRoot
    obtain ⟨datawriter, isAnnounced, known⟩ := announced participant isLive notRoot
    refine ⟨datawriter, known, ?_⟩
    rw [tracked.coherent.entries, isAnnounced]
    rfl

/-- In any interleaving of callbacks that respects the life cycle: no callback dereferences
`end()`, every discovery writer is well used, and none is leaked. -/
theorem writers_used_in_order (reached : (system Cache).exec (initial Cache) events = some state)
    (orderly : Orderly Cache events) (lifeCycle : LifeCycle [] [] (started events))
    (offRoot : OffRoot events) :
    (∀ thread ∈ state.threads, thread ≠ .fault) ∧
      ∃ belongs, WellUsed events belongs (trace Cache events) ∧
        (state.Idle → NoneLeaked (liveAt events) belongs (trace Cache events)
          state.shared.datawriters) := by
  obtain ⟨phase, belongs, tracked⟩ := tracked_run reached orderly lifeCycle offRoot
  exact ⟨tracked.owned.not_fault, belongs, tracked.wellUsed, tracked.noneLeaked⟩

end

end MicroRosAgent.Agent.Concurrency

/-! ## Two participants, one of which is deleted -/

namespace MicroRosAgent.Agent.Concurrency

open Interleaving GraphManager

attribute [local instance] referenceRmw

abbrev leaving : DomainParticipant := ReferenceRmw.participant 1 "/first".toList

abbrev joining : DomainParticipant := ReferenceRmw.participant 2 "/second".toList

/-- The second participant is created while the first one is deleted. -/
def crossing : List Event :=
  [.start (.createParticipant leaving), .advance 0, .advance 0, .advance 0, .advance 0, .advance 0,
    .advance 0, .start (.deleteParticipant leaving), .start (.createParticipant joining), .advance 1,
    .advance 2, .advance 1, .advance 2, .advance 1, .advance 2, .advance 2, .advance 1, .advance 2,
    .advance 1, .advance 2]

theorem orderly_crossing : Orderly ReferenceCache crossing := by
  refine Lts.alongAfter_cons _ (fun _ _ found => nomatch found) rfl ?_
  iterate 6 refine Lts.alongAfter_cons _ trivial rfl ?_
  refine Lts.alongAfter_cons _ ?_ rfl ?_
  · intro index earlier found same
    match index with
    | 0 => rfl
    | _ + 1 => cases found
  refine Lts.alongAfter_cons _ ?_ rfl ?_
  · intro index earlier found same
    match index with
    | 0 | 1 =>
      cases found
      cases same
    | _ + 2 => cases found
  iterate 11 refine Lts.alongAfter_cons _ trivial rfl ?_
  trivial

theorem writers_used_in_order_crossing : ∃ state,
    (system ReferenceCache).exec (initial ReferenceCache) crossing = some state ∧
      (∀ thread ∈ state.threads, thread ≠ .fault) ∧
        ∃ belongs, WellUsed crossing belongs (trace ReferenceCache crossing) ∧
          (state.Idle → NoneLeaked (liveAt crossing) belongs (trace ReferenceCache crossing)
            state.shared.datawriters) := by
  refine ⟨_, rfl, writers_used_in_order rfl orderly_crossing ?_ ?_⟩
  · simp [crossing, started, LifeCycle, Allowed, liveAfter, usedAfter, Callback.participant,
      leaving, joining, ReferenceRmw.participant]
  · simp [OffRoot, crossing, Root, Callback.participant, leaving, joining, ReferenceRmw.participant]

end MicroRosAgent.Agent.Concurrency
