import MicroRosAgent.Agent.Effects
import MicroRosAgent.GraphCache.Reference
import MicroRosAgent.Interleaving.EchoRegister

/-! # Associations lost to the loopback

Any number of CREATE_ callbacks of one participant run at the same time, call by call,
while the samples the manager has written for the participant come back to its own reader
and replace the cached node list.  The system simulates an `EchoRegister` whose items are
the entities: an association appends, the write after it publishes, `loopback` delivers.

`complete_iff` carries the register's theorem over: at rest the node and the last sample
list every created entity if and only if no association found the node set back, and the
callback that associated last is the one that wrote last.
-/

namespace MicroRosAgent.Agent.LostAssociations

open Interleaving GraphManager

variable [Rmw] {Cache : Type} [GraphCache Cache]

def entityOf (entity : Bool × Endpoint) : Bool × Gid := (entity.1, entity.2.gid)

/-- The running callbacks of one participant.  Beside the pool of their programs the
    state records what a reader of the run would note down. -/
structure State (Cache : Type) where
  pool : Pool Call Call.Result (Manager Cache)
  -- the entities of the callbacks started so far
  created : List (Bool × Gid) := []
  -- the participant's nodes as the last `add_node` or `associate_*` returned them
  leftNodes : List NodeEntitiesInfo
  -- the callbacks that associated and wrote last, `none` for `add_participant`
  associator : Option Nat := none
  writer : Option Nat := none

inductive Event where
  | start (callback : Callback)
  | advance (index : Nat)
  | loopback

def nodesOf (participant : DomainParticipant) (manager : Manager Cache) : List NodeEntitiesInfo :=
  (GraphCache.nodes manager.graphCache participant.gid).getD []

/-- Note down what the call `operation` of thread `index` did. -/
def State.noted (participant : DomainParticipant) (state : State Cache) (index : Nat)
    (operation : Option Call) (pool : Pool Call Call.Result (Manager Cache)) : State Cache :=
  match operation with
  | some (.cache (.associate ..)) =>
      { state with pool, leftNodes := nodesOf participant pool.shared, associator := some index }
  | some (.write ..) => { state with pool, writer := some index }
  | _ => { state with pool }

def step (participant : DomainParticipant) (state : State Cache) : Event → Option (State Cache)
  | .start callback =>
      -- a CREATE_ callback of the participant, for entities that are new
      if callback.participant = participant ∧ callback.created ≠ [] ∧
          (state.created ++ callback.created.map entityOf).Nodup then
        some { state with
          pool := state.pool.spawn callback.program
          created := state.created ++ callback.created.map entityOf }
      else none
  | .advance index =>
      (state.pool.advance handle index).map
        (state.noted participant index (state.pool.nextCall index))
  | .loopback => (loopbackInto state.pool).map fun pool => { state with pool }

def system (participant : DomainParticipant) : Lts (State Cache) Event := ⟨step participant⟩

def initial (participant : DomainParticipant) (manager : Manager Cache) : State Cache :=
  { pool := ⟨manager, []⟩, leftNodes := nodesOf participant manager }

/-- No callback is running and no sample is in flight. -/
def AtRest (state : State Cache) : Prop := state.pool.Idle ∧ state.pool.shared.inFlight = []

/-- The participant's node is in the list and lists the entity. -/
def Lists (participant : DomainParticipant) (nodes : List NodeEntitiesInfo) (entity : Bool × Gid) :
    Prop :=
  ∃ node ∈ nodes, node.key = nodeKey participant ∧
    entity.2 ∈ if entity.1 then node.readerGidSeq else node.writerGidSeq

/-- The cached node and the last sample written list every entity created so far. -/
def Complete (participant : DomainParticipant) (state : State Cache) : Prop :=
  ∀ entity ∈ state.created, Lists participant (nodesOf participant state.pool.shared) entity ∧
    ∃ info, state.pool.shared.lastWritten participant.gid = some info ∧
      Lists participant info.nodeEntitiesInfoSeq entity

/-- An association finds in the cached node all that the one before it left there. -/
def NotSetBack (participant : DomainParticipant) (state : State Cache) : Event → Prop
  | .advance index =>
      match state.pool.nextCall index with
      | some (.cache (.associate ..)) => ∀ entity, Lists participant state.leftNodes entity →
          Lists participant (nodesOf participant state.pool.shared) entity
      | _ => True
  | .start _ | .loopback => True

omit [Rmw] in
theorem lists_nodeListing (participant : DomainParticipant) (entities : List (Bool × Gid))
    (entity : Bool × Gid) :
    Lists participant [nodeListing participant entities] entity ↔ entity ∈ entities := by
  obtain ⟨isReader, gid⟩ := entity
  simp only [Lists, List.mem_singleton, exists_eq_left, key_nodeListing, true_and]
  cases isReader <;> simp [nodeListing, mem_gidsOf]

/-! ## The threads -/

omit [Rmw] in
/-- Taking the first of what one thread has to do. -/
theorem flatten_set_perm {α : Type} {lists : List (List α)} {index : Nat} {item : α}
    {rest : List α} (here : lists[index]? = some (item :: rest)) :
    lists.flatten.Perm (item :: (lists.set index rest).flatten) := by
  induction lists generalizing index with
  | nil => simp at here
  | cons head tail ih =>
    cases index with
    | zero =>
      simp only [List.getElem?_cons_zero, Option.some.injEq] at here
      subst here
      exact List.Perm.refl _
    | succ index =>
      simp only [List.getElem?_cons_succ] at here
      simp only [List.set_cons_succ, List.flatten_cons]
      exact ((ih here).append_left head).trans List.perm_middle

/-- A sample of the participant that lists the given entities. -/
def infoOf (participant : DomainParticipant) (entities : List (Bool × Gid)) :
    ParticipantEntitiesInfo :=
  ⟨participant.gid, [nodeListing participant entities]⟩

def associateThen (participant : DomainParticipant) (isReader : Bool) (endpoint : Endpoint)
    (rest : ManagerProgram Unit) : ManagerProgram Unit :=
  .call (.cache (.associate isReader endpoint.gid participant.gid (nodeKey participant).1
      (nodeKey participant).2)) fun info => do
    writeUnchecked participant info
    rest

theorem createEndpoints_cons (participant : DomainParticipant) (isReader : Bool)
    (endpoint : Endpoint) (rest : List (Bool × Endpoint)) :
    createEndpoints participant ((isReader, endpoint) :: rest) =
      .call (.cache (.addEntity endpoint.gid ⟨endpoint.topicName, endpoint.typeName, {},
          participant.gid, fastddsQosToRmwQos endpoint.qos⟩ isReader)) fun _ =>
        associateThen participant isReader endpoint (createEndpoints participant rest) := by
  simp only [createEndpoints, createEndpoint, associateEntity_eq, addEndpoint, Program.perform_bind]
  rfl

/-- Where a callback stands, what it has still to create and the list it is to write. -/
inductive ThreadAt (participant : DomainParticipant) :
    ManagerProgram Unit → List (Bool × Endpoint) → Option (List (Bool × Gid)) → Prop
  | ready (todo : List (Bool × Endpoint)) :
      ThreadAt participant (createEndpoints participant todo) todo none
  | added (isReader : Bool) (endpoint : Endpoint) (rest : List (Bool × Endpoint)) :
      ThreadAt participant
        (associateThen participant isReader endpoint (createEndpoints participant rest))
        ((isReader, endpoint) :: rest) none
  | holding (entities : List (Bool × Gid)) (todo : List (Bool × Endpoint)) :
      ThreadAt participant
        (writeUnchecked participant (infoOf participant entities) >>= fun _ =>
          createEndpoints participant todo) todo (some entities)
  | found (datawriter : Nat) (entities : List (Bool × Gid)) (todo : List (Bool × Endpoint)) :
      ThreadAt participant
        (.call (.write datawriter (infoOf participant entities)) fun _ =>
          createEndpoints participant todo) todo (some entities)

structure ThreadsAt (participant : DomainParticipant) (threads : List (ManagerProgram Unit))
    (todos : List (List (Bool × Endpoint))) (held : Nat → Option (List (Bool × Gid))) : Prop where
  length : todos.length = threads.length
  stands : ∀ index thread todo, threads[index]? = some thread → todos[index]? = some todo →
    ThreadAt participant thread todo (held index)
  unheld : ∀ index, threads.length ≤ index → held index = none

theorem ThreadsAt.set {participant : DomainParticipant} {threads : List (ManagerProgram Unit)}
    {todos : List (List (Bool × Endpoint))} {held : Nat → Option (List (Bool × Gid))}
    (threadsAt : ThreadsAt participant threads todos held) {index : Nat}
    (bound : index < threads.length) {thread : ManagerProgram Unit} {todo : List (Bool × Endpoint)}
    {holds : Option (List (Bool × Gid))} (stands : ThreadAt participant thread todo holds) :
    ThreadsAt participant (threads.set index thread) (todos.set index todo)
      (Function.update held index holds) := by
  refine ⟨by simp [threadsAt.length], ?_, ?_⟩
  · intro other otherThread otherTodo threadThere todoThere
    by_cases same : other = index
    · subst same
      rw [List.getElem?_set_self bound] at threadThere
      rw [List.getElem?_set_self (threadsAt.length ▸ bound)] at todoThere
      cases threadThere
      cases todoThere
      rw [Function.update_self]
      exact stands
    · rw [List.getElem?_set_ne (Ne.symm same)] at threadThere todoThere
      rw [Function.update_of_ne same]
      exact threadsAt.stands other otherThread otherTodo threadThere todoThere
  · intro other beyond
    rw [List.length_set] at beyond
    rw [Function.update_of_ne (by omega)]
    exact threadsAt.unheld other beyond

omit [Rmw] in
theorem set_same {α : Type} {list : List α} {index : Nat} {item : α}
    (here : list[index]? = some item) : list.set index item = list := by
  refine List.ext_getElem? fun other => ?_
  by_cases same : other = index
  · subst same
    rw [List.getElem?_set_self (List.getElem?_eq_some_iff.mp here).1, here]
  · rw [List.getElem?_set_ne (Ne.symm same)]

theorem ThreadsAt.stand {participant : DomainParticipant} {threads : List (ManagerProgram Unit)}
    {todos : List (List (Bool × Endpoint))} {held : Nat → Option (List (Bool × Gid))}
    (threadsAt : ThreadsAt participant threads todos held) {index : Nat}
    {thread : ManagerProgram Unit} {todo : List (Bool × Endpoint)} (here : todos[index]? = some todo)
    (stands : ThreadAt participant thread todo (held index)) :
    ThreadsAt participant (threads.set index thread) todos held := by
  have bound : index < threads.length := threadsAt.length ▸ (List.getElem?_eq_some_iff.mp here).1
  have changed := threadsAt.set bound stands
  rwa [set_same here, Function.update_eq_self] at changed

theorem ThreadsAt.spawn {participant : DomainParticipant} {threads : List (ManagerProgram Unit)}
    {todos : List (List (Bool × Endpoint))} {held : Nat → Option (List (Bool × Gid))}
    (threadsAt : ThreadsAt participant threads todos held) (todo : List (Bool × Endpoint)) :
    ThreadsAt participant (threads ++ [createEndpoints participant todo]) (todos ++ [todo]) held := by
  refine ⟨by simp [threadsAt.length], ?_, ?_⟩
  · intro other thread otherTodo threadThere todoThere
    by_cases old : other < threads.length
    · rw [List.getElem?_append_left old] at threadThere
      rw [List.getElem?_append_left (threadsAt.length ▸ old)] at todoThere
      exact threadsAt.stands other thread otherTodo threadThere todoThere
    · have last : other = threads.length := by
        have := (List.getElem?_eq_some_iff.mp threadThere).1
        simp only [List.length_append, List.length_singleton] at this
        omega
      subst last
      rw [threadsAt.unheld _ (Nat.le_refl _)]
      rw [List.getElem?_concat_length] at threadThere
      rw [← threadsAt.length, List.getElem?_concat_length] at todoThere
      cases threadThere
      cases todoThere
      exact ThreadAt.ready todo
  · intro other beyond
    rw [List.length_append] at beyond
    exact threadsAt.unheld other (by omega)

/-! ## The simulation -/

/-- The manager and its threads show what the register and its clients show. -/
structure Related (participant : DomainParticipant) (state : State Cache)
    (shadow : EchoRegister.State (Bool × Gid)) : Prop where
  nodes : GraphCache.nodes state.pool.shared.graphCache participant.gid =
    some [nodeListing participant shadow.register]
  inFlight : state.pool.shared.inFlight = shadow.channel.map (infoOf participant)
  history : state.pool.shared.history = []
  announced : (state.pool.shared.datawriters participant.handle).isSome
  lastWritten : state.pool.shared.lastWritten participant.gid =
    some (infoOf participant shadow.published)
  leftNodes : state.leftNodes = [nodeListing participant shadow.latest]
  associator : state.associator = shadow.appender
  writer : state.writer = shadow.publisher
  threads : ∃ todos, ThreadsAt participant state.pool.threads todos shadow.held ∧
    state.created.Perm (shadow.appended ++ todos.flatten.map entityOf)
  distinct : state.created.Nodup

/-- The step is matched by a run of the register, and sets back exactly if that does. -/
abbrev Matched (participant : DomainParticipant) (state after : State Cache) (event : Event)
    (shadow : EchoRegister.State (Bool × Gid)) : Prop :=
  EchoRegister.system.Matches EchoRegister.NotSetBack (Related participant after)
    (NotSetBack participant state event) shadow

theorem matched_start {participant : DomainParticipant} {state after : State Cache}
    {shadow : EchoRegister.State (Bool × Gid)} {callback : Callback}
    (related : Related participant state shadow)
    (stepped : step participant state (.start callback) = some after) :
    Matched participant state after (.start callback) shadow := by
  simp only [step] at stepped
  split at stepped
  · rename_i allowed
    obtain ⟨own, creates, distinct⟩ := allowed
    cases stepped
    obtain ⟨todos, threadsAt, accounted⟩ := related.threads
    refine EchoRegister.system.matches_by_nothing ?_ trivial
    refine { related with threads := ⟨todos ++ [callback.created], ?_, ?_⟩, distinct }
    · rw [Pool.spawn, program_eq_createEndpoints callback creates, own]
      exact threadsAt.spawn callback.created
    · simpa using accounted.append_right (callback.created.map entityOf)
  · cases stepped

variable [LawfulMutators Cache]

omit [Rmw] in
theorem matched_loopback_nodes {cache : Cache} {info : ParticipantEntitiesInfo} {gid : Gid}
    (own : info.gid = gid) :
    GraphCache.nodes (GraphCache.updateParticipantEntities info cache) gid =
      some info.nodeEntitiesInfoSeq := by
  rw [(LawfulMutators.updateParticipantEntities info cache).nodes, own, Function.update_self]

theorem matched_loopback {participant : DomainParticipant} {state after : State Cache}
    {shadow : EchoRegister.State (Bool × Gid)} (related : Related participant state shadow)
    (stepped : step participant state .loopback = some after) :
    Matched participant state after .loopback shadow := by
  obtain ⟨pool, delivered, rfl⟩ := Option.map_eq_some_iff.mp stepped
  obtain ⟨manager, looped, rfl⟩ := Option.map_eq_some_iff.mp delivered
  obtain ⟨info, later, sent, rfl⟩ := loopback_cases related.history looped
  have inFlight := related.inFlight
  rw [sent] at inFlight
  obtain ⟨snapshot, rest, channel, rfl, rfl⟩ := List.map_eq_cons_iff.mp inFlight.symm
  have delivers : EchoRegister.step shadow .deliver =
      some { shadow with register := snapshot, channel := rest } := by
    simp [EchoRegister.step, channel]
  refine EchoRegister.system.matches_by_step .deliver delivers ?_ Iff.rfl
  exact { related with nodes := matched_loopback_nodes rfl, inFlight := rfl }

theorem matched_add {participant : DomainParticipant} {state after : State Cache}
    {shadow : EchoRegister.State (Bool × Gid)} (related : Related participant state shadow)
    {index : Nat} {isReader : Bool} {endpoint : Endpoint} {rest : List (Bool × Endpoint)}
    {todos : List (List (Bool × Endpoint))}
    (threadsAt : ThreadsAt participant state.pool.threads todos shadow.held)
    (accounted : state.created.Perm (shadow.appended ++ todos.flatten.map entityOf))
    (here : state.pool.threads[index]? =
      some (createEndpoints participant ((isReader, endpoint) :: rest)))
    (todoHere : todos[index]? = some ((isReader, endpoint) :: rest))
    (free : shadow.held index = none)
    (stepped : step participant state (.advance index) = some after) :
    Matched participant state after (.advance index) shadow := by
  rw [createEndpoints_cons] at here
  obtain ⟨pool, advanced, rfl⟩ := Option.map_eq_some_iff.mp stepped
  obtain ⟨result, shared, handled, rfl⟩ := Pool.advance_of_thread here advanced
  cases handled
  have added := LawfulMutators.addEntity endpoint.gid ⟨endpoint.topicName, endpoint.typeName, {},
    participant.gid, fastddsQosToRmwQos endpoint.qos⟩ isReader state.pool.shared.graphCache
  have called := Pool.nextCall_of_thread here
  refine EchoRegister.system.matches_by_nothing ?_ (by simp [NotSetBack, called])
  rw [called]
  refine { related with
    nodes := ?_
    threads := ⟨todos, threadsAt.stand todoHere ?_, accounted⟩ }
  · exact (congrFun added.nodes _).trans related.nodes
  · rw [free]
    exact ThreadAt.added isReader endpoint rest

theorem matched_associate {participant : DomainParticipant} {state after : State Cache}
    {shadow : EchoRegister.State (Bool × Gid)} (related : Related participant state shadow)
    {index : Nat} {isReader : Bool} {endpoint : Endpoint} {rest : List (Bool × Endpoint)}
    {todos : List (List (Bool × Endpoint))}
    (threadsAt : ThreadsAt participant state.pool.threads todos shadow.held)
    (accounted : state.created.Perm (shadow.appended ++ todos.flatten.map entityOf))
    (here : state.pool.threads[index]? =
      some (associateThen participant isReader endpoint (createEndpoints participant rest)))
    (todoHere : todos[index]? = some ((isReader, endpoint) :: rest))
    (free : shadow.held index = none)
    (stepped : step participant state (.advance index) = some after) :
    Matched participant state after (.advance index) shadow := by
  obtain ⟨pool, advanced, rfl⟩ := Option.map_eq_some_iff.mp stepped
  obtain ⟨result, shared, handled, rfl⟩ := Pool.advance_of_thread here advanced
  have called := Pool.nextCall_of_thread here
  obtain ⟨cache, performed, sets⟩ := perform_associate isReader endpoint.gid participant.gid
    (nodeKey participant).1 (nodeKey participant).2 related.nodes
    ⟨nodeListing participant shadow.register, by simp, rfl⟩
  rw [show ((nodeKey participant).1, (nodeKey participant).2) = nodeKey participant from rfl,
    modifyNode_nodeListing] at performed sets
  simp only [handle, performed, Option.map_some, Option.some.injEq, Prod.mk.injEq] at handled
  obtain ⟨rfl, rfl⟩ := handled
  have nodes : GraphCache.nodes cache participant.gid =
      some [nodeListing participant (shadow.register ++ [(isReader, endpoint.gid)])] := by
    rw [sets.nodes, Function.update_self]
  have appends : EchoRegister.step shadow (.append index (isReader, endpoint.gid)) = some { shadow with
      register := shadow.register ++ [(isReader, endpoint.gid)]
      appended := shadow.appended ++ [(isReader, endpoint.gid)]
      latest := shadow.register ++ [(isReader, endpoint.gid)]
      appender := some index
      held := Function.update shadow.held index
        (some (shadow.register ++ [(isReader, endpoint.gid)])) } := by
    simp [EchoRegister.step, free]
  have accountedAfter : state.created.Perm ((shadow.appended ++ [(isReader, endpoint.gid)]) ++
      (todos.set index rest).flatten.map entityOf) := by
    have taken := ((flatten_set_perm todoHere).map entityOf).append_left shadow.appended
    simpa [entityOf] using accounted.trans taken
  refine EchoRegister.system.matches_by_step (.append index (isReader, endpoint.gid)) appends ?_ ?_
  · rw [called]
    refine { related with
      nodes
      leftNodes := ?_
      associator := rfl
      threads := ⟨todos.set index rest, threadsAt.set ?_ (ThreadAt.holding _ rest), ?_⟩ }
    · simp only [State.noted, nodesOf, nodes, Option.getD_some]
    · exact (List.getElem?_eq_some_iff.mp here).1
    · exact accountedAfter
  · simp only [NotSetBack, called, EchoRegister.NotSetBack, nodesOf, related.nodes, related.leftNodes,
      Option.getD_some, lists_nodeListing]
    rfl

omit [LawfulMutators Cache] in
theorem matched_find {participant : DomainParticipant} {state after : State Cache}
    {shadow : EchoRegister.State (Bool × Gid)} (related : Related participant state shadow)
    {index : Nat} {entities : List (Bool × Gid)} {todo : List (Bool × Endpoint)}
    {todos : List (List (Bool × Endpoint))}
    (threadsAt : ThreadsAt participant state.pool.threads todos shadow.held)
    (accounted : state.created.Perm (shadow.appended ++ todos.flatten.map entityOf))
    (here : state.pool.threads[index]? =
      some (writeUnchecked participant (infoOf participant entities) >>= fun _ =>
        createEndpoints participant todo))
    (todoHere : todos[index]? = some todo) (holds : shadow.held index = some entities)
    (stepped : step participant state (.advance index) = some after) :
    Matched participant state after (.advance index) shadow := by
  obtain ⟨datawriter, announced⟩ := Option.isSome_iff_exists.mp related.announced
  obtain ⟨pool, advanced, rfl⟩ := Option.map_eq_some_iff.mp stepped
  obtain ⟨result, shared, handled, rfl⟩ := Pool.advance_of_thread here advanced
  have called := Pool.nextCall_of_thread here
  cases handled
  refine EchoRegister.system.matches_by_nothing ?_ (by simp [NotSetBack, called])
  rw [called]
  refine { related with threads := ⟨todos, threadsAt.stand todoHere ?_, accounted⟩ }
  rw [announced, holds]
  exact ThreadAt.found datawriter entities todo

omit [LawfulMutators Cache] in
theorem matched_write {participant : DomainParticipant} {state after : State Cache}
    {shadow : EchoRegister.State (Bool × Gid)} (related : Related participant state shadow)
    {index datawriter : Nat} {entities : List (Bool × Gid)} {todo : List (Bool × Endpoint)}
    {todos : List (List (Bool × Endpoint))}
    (threadsAt : ThreadsAt participant state.pool.threads todos shadow.held)
    (accounted : state.created.Perm (shadow.appended ++ todos.flatten.map entityOf))
    (here : state.pool.threads[index]? =
      some (.call (.write datawriter (infoOf participant entities)) fun _ =>
        createEndpoints participant todo))
    (todoHere : todos[index]? = some todo) (holds : shadow.held index = some entities)
    (stepped : step participant state (.advance index) = some after) :
    Matched participant state after (.advance index) shadow := by
  obtain ⟨pool, advanced, rfl⟩ := Option.map_eq_some_iff.mp stepped
  obtain ⟨result, shared, handled, rfl⟩ := Pool.advance_of_thread here advanced
  have called := Pool.nextCall_of_thread here
  cases handled
  have publishes : EchoRegister.step shadow (.publish index) = some { shadow with
      held := Function.update shadow.held index none
      channel := shadow.channel ++ [entities]
      published := entities
      publisher := some index } := by
    simp [EchoRegister.step, holds]
  refine EchoRegister.system.matches_by_step (.publish index) publishes ?_
    (by simp [NotSetBack, called, EchoRegister.NotSetBack])
  rw [called]
  refine { related with
    inFlight := ?_
    lastWritten := lastWritten_concat rfl
    writer := rfl
    threads := ⟨todos.set index todo, threadsAt.set ?_ (ThreadAt.ready todo), ?_⟩ }
  · simp [related.inFlight, State.noted]
  · exact (List.getElem?_eq_some_iff.mp here).1
  · rwa [set_same todoHere]

theorem matched_advance {participant : DomainParticipant} {state after : State Cache}
    {shadow : EchoRegister.State (Bool × Gid)} {index : Nat}
    (related : Related participant state shadow)
    (stepped : step participant state (.advance index) = some after) :
    Matched participant state after (.advance index) shadow := by
  obtain ⟨todos, threadsAt, accounted⟩ := related.threads
  obtain ⟨pool, advanced, _⟩ := Option.map_eq_some_iff.mp stepped
  obtain ⟨operation, next, _, _, here, _, _⟩ := Pool.advance_cases advanced
  have bound : index < todos.length :=
    threadsAt.length ▸ (List.getElem?_eq_some_iff.mp here).1
  have todoHere := List.getElem?_eq_getElem bound
  have stands := threadsAt.stands index _ _ here todoHere
  generalize todos[index] = todo at todoHere stands
  generalize holds : shadow.held index = held at stands
  generalize thread : Program.call operation next = program at stands
  rw [thread] at here
  cases stands with
  | ready =>
    cases todo with
    | nil => cases thread
    | cons entity rest => exact matched_add related threadsAt accounted here todoHere holds stepped
  | added isReader endpoint rest =>
    exact matched_associate related threadsAt accounted here todoHere holds stepped
  | holding entities =>
    exact matched_find related threadsAt accounted here todoHere holds stepped
  | found datawriter entities =>
    exact matched_write related threadsAt accounted here todoHere holds stepped

theorem matched_step {participant : DomainParticipant} (state : State Cache) (event : Event)
    (after : State Cache) (shadow : EchoRegister.State (Bool × Gid))
    (related : Related participant state shadow)
    (stepped : (system participant).step state event = some after) :
    Matched participant state after event shadow := by
  cases event with
  | start callback => exact matched_start related stepped
  | advance index => exact matched_advance related stepped
  | loopback => exact matched_loopback related stepped

/-! ## Runs -/

/-- After `add_participant` the node has no entities, and its sample is in flight. -/
theorem related_initial {participant : DomainParticipant} {fresh manager : Manager Cache}
    (named : participant.name ≠ ['/']) (taken : fresh.history = []) (idle : fresh.inFlight = [])
    (unknown : (GraphCache.nodes fresh.graphCache participant.gid).getD [] = [])
    (ran : (onCreateParticipant participant).run handle fresh = some ((), manager)) :
    Related participant (initial participant manager) {} := by
  obtain ⟨after, datawriter, ranAfter, effect⟩ :=
    addParticipant_effect participant ['/'] fresh named
  rw [onCreateParticipant, ranAfter] at ran
  cases ran
  rw [unknown] at effect
  have nodes : GraphCache.nodes manager.graphCache participant.gid =
      some [nodeListing participant []] := by
    rw [effect.nodes, Function.update_self]
    rfl
  refine ⟨nodes, ?_, effect.history.trans taken, ?_, lastWritten_concat effect.written, ?_, rfl, rfl,
    ⟨[], ⟨rfl, by simp [initial], fun _ _ => rfl⟩, List.Perm.refl _⟩, List.nodup_nil⟩
  · rw [initial, effect.inFlight, idle]
    rfl
  · rw [initial, effect.datawriters, Function.update_self]
    rfl
  · simp only [initial, nodesOf, nodes, Option.getD_some]

omit [LawfulMutators Cache] in
theorem rest_of_related {participant : DomainParticipant} {state : State Cache}
    {shadow : EchoRegister.State (Bool × Gid)} (related : Related participant state shadow)
    (rest : AtRest state) :
    EchoRegister.AtRest shadow ∧ state.created.Perm shadow.appended := by
  obtain ⟨idle, delivered⟩ := rest
  obtain ⟨todos, threadsAt, accounted⟩ := related.threads
  have finished : ∀ index todo, todos[index]? = some todo → todo = [] ∧ shadow.held index = none := by
    intro index todo todoHere
    have bound : index < state.pool.threads.length :=
      threadsAt.length ▸ (List.getElem?_eq_some_iff.mp todoHere).1
    have here := List.getElem?_eq_getElem bound
    have stands := threadsAt.stands index _ _ here todoHere
    rw [idle _ (List.mem_of_getElem? here)] at stands
    generalize shadow.held index = held at stands
    generalize thread : (Program.done () : ManagerProgram Unit) = program at stands
    cases stands with
    | ready =>
      cases todo with
      | nil => exact ⟨rfl, rfl⟩
      | cons entity rest =>
        rw [createEndpoints_cons] at thread
        cases thread
    | added | holding | found => cases thread
  constructor
  · refine ⟨?_, ?_⟩
    · have inFlight := related.inFlight
      rw [delivered] at inFlight
      exact List.map_eq_nil_iff.mp inFlight.symm
    · intro client
      by_cases bound : client < todos.length
      · exact (finished client _ (List.getElem?_eq_getElem bound)).2
      · exact threadsAt.unheld client (by rw [← threadsAt.length]; omega)
  · have nothing : todos.flatten = [] := by
      refine List.flatten_eq_nil_iff.mpr ?_
      intro todo member
      obtain ⟨index, todoHere⟩ := List.mem_iff_getElem?.mp member
      exact (finished index todo todoHere).1
    simpa [nothing] using accounted

/-- At rest, the cached node and the last sample written list every entity created if and
only if no association found the node set back and the last to associate wrote last. -/
theorem complete_iff {participant : DomainParticipant} {fresh manager : Manager Cache}
    {events : List Event} {state : State Cache} (named : participant.name ≠ ['/'])
    (taken : fresh.history = []) (idle : fresh.inFlight = [])
    (unknown : (GraphCache.nodes fresh.graphCache participant.gid).getD [] = [])
    (ran : (onCreateParticipant participant).run handle fresh = some ((), manager))
    (reached : (system participant).exec (initial participant manager) events = some state)
    (rest : AtRest state) :
    Complete participant state ↔
      (system participant).Along (NotSetBack participant) (initial participant manager) events ∧
        state.writer = state.associator := by
  obtain ⟨shadowEvents, shadow, ranShadow, related, guard⟩ :=
    Lts.simulation (system participant) EchoRegister.system matched_step
      (related_initial named taken idle unknown ran) reached
  obtain ⟨shadowRest, created⟩ := rest_of_related related rest
  have distinct : shadow.appended.Nodup := created.nodup_iff.mp related.distinct
  rw [guard, related.writer, related.associator,
    ← EchoRegister.all_shown_iff ranShadow distinct shadowRest]
  simp only [Complete, nodesOf, related.nodes, related.lastWritten, Option.getD_some,
    Option.some.injEq, exists_eq_left', infoOf, lists_nodeListing, created.mem_iff]
  constructor
  · intro all
    exact ⟨fun _ member => (all _ member).1, fun _ member => (all _ member).2⟩
  · intro ⟨cached, written⟩ entity member
    exact ⟨cached member, written member⟩

end MicroRosAgent.Agent.LostAssociations

/-! ## An echo between two creations -/

namespace MicroRosAgent.Agent.LostAssociations

open Interleaving GraphManager

attribute [local instance] referenceRmw

abbrev sampleParticipant : DomainParticipant := ReferenceRmw.participant 1 "/node".toList

abbrev createWriter (guid : Nat) : Callback :=
  .createDatawriter sampleParticipant
    (ReferenceRmw.endpoint guid "rt/chatter".toList "std_msgs::msg::dds_::String_".toList)

def fresh : Manager ReferenceCache := { graphCache := GraphCache.empty }

def announced : Manager ReferenceCache :=
  (((onCreateParticipant sampleParticipant).run handle fresh).map fun answer => answer.2).getD fresh

/-- A creation after the sample of `add_participant` has come back. -/
def inOrder : List Event :=
  [.loopback, .start (createWriter 2), .advance 0, .advance 0, .advance 0, .advance 0, .loopback]

/-- That sample comes back between two creations. -/
def echoBetween : List Event :=
  [.start (createWriter 2), .advance 0, .advance 0, .advance 0, .advance 0, .loopback,
    .start (createWriter 3), .advance 1, .advance 1, .advance 1, .advance 1, .loopback, .loopback]

theorem complete_iff_inOrder : ∃ state,
    (system sampleParticipant).exec (initial sampleParticipant announced) inOrder = some state ∧
      (Complete sampleParticipant state ↔
        (system sampleParticipant).Along (NotSetBack sampleParticipant)
            (initial sampleParticipant announced) inOrder ∧ state.writer = state.associator) := by
  have taken : fresh.history = [] := rfl
  refine ⟨_, rfl, complete_iff (by decide) taken rfl rfl rfl rfl ⟨?_, rfl⟩⟩
  intro thread member
  exact List.mem_singleton.mp member

theorem echoBetween_run : ∃ state,
    (system sampleParticipant).exec (initial sampleParticipant announced) echoBetween = some state ∧
      state.pool.threads = [.done (), .done ()] ∧ state.pool.shared.inFlight = [] ∧
      state.created = [(false, ⟨2⟩), (false, ⟨3⟩)] ∧
      nodesOf sampleParticipant state.pool.shared =
        [nodeListing sampleParticipant [(false, ⟨3⟩)]] :=
  ⟨_, rfl, rfl, rfl, rfl, rfl⟩

/-- The first writer is lost from the node. -/
theorem echo_loses_association : ∃ state,
    (system sampleParticipant).exec (initial sampleParticipant announced) echoBetween = some state ∧
      AtRest state ∧ ¬ Complete sampleParticipant state := by
  obtain ⟨state, ran, threads, sent, created, nodes⟩ := echoBetween_run
  refine ⟨state, ran, ⟨?_, sent⟩, ?_⟩
  · intro thread member
    rw [threads] at member
    simpa using member
  · intro complete
    have listed := (complete (false, ⟨2⟩) (by simp [created])).1
    rw [nodes, lists_nodeListing] at listed
    simp at listed

end MicroRosAgent.Agent.LostAssociations
