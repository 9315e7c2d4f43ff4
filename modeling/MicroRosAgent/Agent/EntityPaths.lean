import MicroRosAgent.Agent.Callbacks
import MicroRosAgent.GraphManager.EndpointDiscovery
import MicroRosAgent.GraphCache.Reference
import MicroRosAgent.Interleaving.SharedTable

/-! # Two paths into the entity tables

The graph manager adds and removes every writer and reader of a micro-ROS participant
twice: in the callbacks of the agent, and when it discovers the endpoint and its end.  Any
number of entities go through both paths here, call by call and in any interleaving.

An entry of the tables is a key of a `SharedTable` with the two paths as its owners
(`matched_step`).  `paths_agree` says what the tables have of an entity at any time.
-/

namespace MicroRosAgent.Agent.EntityPaths

open Interleaving GraphManager

structure Entity where
  isReader : Bool
  participant : DomainParticipant
  endpoint : Endpoint
  deriving DecidableEq

/-- What discovery reports of an entity, in this order. -/
structure DiscoveryEvents (entity : Entity) where
  discovered : BuiltinTopicData
  changedQos : List BuiltinTopicData
  reason : EndpointDiscoveryStatus
  removed : BuiltinTopicData
  describes : discovered.Describes entity.participant entity.endpoint
  isRemoval : reason.IsRemoval
  ownGuid : removed.guid = entity.endpoint.guid

/-- An entity and all that is going to be reported of it. -/
structure Life where
  entity : Entity
  discovery : DiscoveryEvents entity

inductive Path where
  | callbacks | discovery
  deriving DecidableEq

variable [Rmw]

def Entity.gid (entity : Entity) : Gid := entity.endpoint.gid

/-- The record of the entity in the tables. -/
def Entity.info (entity : Entity) : EntityInfo where
  topicName := entity.endpoint.topicName
  topicType := entity.endpoint.typeName
  topicTypeHash := {}
  participantGid := entity.participant.gid
  qos := fastddsQosToRmwQos entity.endpoint.qos

/-- The CREATE callback, then the DELETE callback. -/
def Entity.callbacks (entity : Entity) : ManagerProgram Unit := do
  if entity.isReader then
    onCreateDatareader entity.participant entity.endpoint
    onDeleteDatareader entity.endpoint
  else
    onCreateDatawriter entity.participant entity.endpoint
    onDeleteDatawriter entity.endpoint

def DiscoveryEvents.program {entity : Entity} (events : DiscoveryEvents entity) :
    ManagerProgram Unit := do
  onEndpointDiscovery entity.isReader .discovered events.discovered
  forM events.changedQos (onEndpointDiscovery entity.isReader .changedQos)
  onEndpointDiscovery entity.isReader events.reason events.removed

def Life.program (life : Life) : Path → ManagerProgram Unit
  | .callbacks => life.entity.callbacks
  | .discovery => life.discovery.program

/-! ## The system -/

variable {Cache : Type} [GraphCache Cache] {Index : Type} [DecidableEq Index]

/-- The graph manager and, for each entity and path, what is left to do. -/
abbrev State (Cache Index : Type) : Type :=
  Family Call Call.Result (Manager Cache) (Index × Path)

inductive Event (Index : Type) where
  | advance (index : Index) (path : Path)
  -- a sample written for an association comes back
  | loopback

def step (state : State Cache Index) : Event Index → Option (State Cache Index)
  | .advance index path => state.advance handle (index, path)
  | .loopback => (loopback state.shared).map fun manager => { state with shared := manager }

def system (Cache Index : Type) [GraphCache Cache] [DecidableEq Index] :
    Lts (State Cache Index) (Event Index) := ⟨step⟩

def start (lives : Index → Life) (manager : Manager Cache) : State Cache Index :=
  ⟨manager, fun name => (lives name.1).program name.2⟩

/-- The entity's own table has its record, and the other table has nothing. -/
def Listed (cache : Cache) (entity : Entity) : Prop :=
  entities cache entity.isReader entity.gid = some entity.info ∧
    entities cache (!entity.isReader) entity.gid = none

def Unlisted (cache : Cache) (entity : Entity) : Prop :=
  ∀ isReader, entities cache isReader entity.gid = none

/-! ## The threads -/

def LeavesEntities : Call → Prop
  | .cache mutator => mutator.WorksOnNodes
  | _ => True

/-- The entity is added, and what is left of the path ends with its removal. -/
inductive Keeping (entity : Entity) : ManagerProgram Unit → Prop
  | calling {operation : Call} {next : operation.Result → ManagerProgram Unit}
      (leaves : LeavesEntities operation) (keeping : ∀ result, Keeping entity (next result)) :
      Keeping entity (.call operation next)
  | removing :
      Keeping entity (.call (.cache (.removeEntity entity.gid entity.isReader)) fun _ => .done ())
  -- `writeUnchecked` without a datawriter
  | fault : Keeping entity .fault

/-- A path first adds the entity. -/
def StartsKeeping (entity : Entity) (program : ManagerProgram Unit) : Prop :=
  ∃ next, program = .call (.cache (.addEntity entity.gid entity.info entity.isReader)) next ∧
    ∀ result, Keeping entity (next result)

theorem keeping_writeUnchecked {entity : Entity} (participant : DomainParticipant)
    (info : ParticipantEntitiesInfo) {next : ManagerProgram Unit} (keeping : Keeping entity next) :
    Keeping entity (writeUnchecked participant info >>= fun _ => next) := by
  refine Keeping.calling trivial ?_
  intro found
  cases found with
  | none => exact Keeping.fault
  | some datawriter => exact Keeping.calling trivial fun _ => keeping

theorem startsKeeping_callbacks (entity : Entity) : StartsKeeping entity entity.callbacks := by
  have keeping : ∀ info, Keeping entity (writeUnchecked entity.participant info >>= fun _ =>
      mutate (.removeEntity entity.gid entity.isReader)) :=
    fun info => keeping_writeUnchecked entity.participant info .removing
  obtain ⟨isReader, participant, endpoint⟩ := entity
  cases isReader with
  | false => exact ⟨_, rfl, fun _ => Keeping.calling trivial keeping⟩
  | true => exact ⟨_, rfl, fun _ => Keeping.calling trivial keeping⟩

/-- A change of the QoS makes no call at all. -/
theorem forM_changedQos (isReader : Bool) (changes : List BuiltinTopicData) :
    forM changes (onEndpointDiscovery isReader .changedQos) = pure () := by
  induction changes with
  | nil => rfl
  | cons info changes ih =>
    rw [List.forM_cons, onEndpointDiscovery_changedQos, pure_bind, ih]

theorem startsKeeping_discovery {entity : Entity} (events : DiscoveryEvents entity) :
    StartsKeeping entity events.program := by
  rw [DiscoveryEvents.program, forM_changedQos, pure_bind,
    onEndpointDiscovery_of_describes entity.isReader events.describes,
    onEndpointDiscovery_removal entity.isReader events.isRemoval, events.ownGuid]
  exact ⟨_, rfl, fun _ => .removing⟩

theorem startsKeeping_program (life : Life) (path : Path) :
    StartsKeeping life.entity (life.program path) := by
  cases path with
  | callbacks => exact startsKeeping_callbacks life.entity
  | discovery => exact startsKeeping_discovery life.discovery

/-- Where a path stands, with the stage of the entity on it. -/
inductive StandsAt (entity : Entity) (whole : ManagerProgram Unit) :
    ManagerProgram Unit → SharedTable.Stage → Prop
  | waiting : StandsAt entity whole whole .waiting
  | holding {program : ManagerProgram Unit} (keeping : Keeping entity program) :
      StandsAt entity whole program .holding
  | released : StandsAt entity whole (.done ()) .released

theorem StandsAt.eq_whole {entity : Entity} {whole program : ManagerProgram Unit}
    (stands : StandsAt entity whole program .waiting) : program = whole := by
  cases stands
  rfl

theorem StandsAt.eq_done {entity : Entity} {whole program : ManagerProgram Unit}
    (stands : StandsAt entity whole program .released) : program = .done () := by
  cases stands
  rfl

theorem StandsAt.not_holding {entity : Entity} {whole : ManagerProgram Unit}
    {stage : SharedTable.Stage} (stands : StandsAt entity whole (.done ()) stage) :
    stage ≠ .holding := by
  rintro rfl
  generalize returned : (Program.done () : ManagerProgram Unit) = program at stands
  cases stands with
  | holding keeping =>
    cases keeping <;> cases returned

/-! ## What a call does to the tables -/

variable [LawfulMutators Cache] [LawfulNodeMutators Cache]

omit [Rmw] in
theorem sameEntities_handle {operation : Call} (leaves : LeavesEntities operation)
    {manager after : Manager Cache} {result : operation.Result}
    (handled : handle operation manager = some (result, after)) :
    SameEntities manager.graphCache after.graphCache := by
  cases operation with
  | cache mutator =>
    obtain ⟨⟨answer, cache⟩, performed, answered⟩ := Option.map_eq_some_iff.mp handled
    cases answered
    exact sameEntities_perform leaves performed
  | takeNextSample =>
    simp only [handle] at handled
    split at handled <;> cases handled <;> exact fun _ => rfl
  | findDatawriter | createDatawriter | insertDatawriter | write | deleteDatawriter
  | eraseDatawriter =>
    cases handled
    exact fun _ => rfl

omit [Rmw] [LawfulNodeMutators Cache] in
theorem sameEntities_loopback {manager after : Manager Cache}
    (delivered : loopback manager = some after) :
    SameEntities manager.graphCache after.graphCache := by
  cases sent : manager.inFlight with
  | nil => simp [loopback, sent] at delivered
  | cons info later =>
    rw [loopback_arrive sent] at delivered
    cases delivered
    exact (LawfulMutators.updateParticipantEntities info manager.graphCache).sameEntities

/-- All the next call of a path can do: add the entity, leave the tables, or remove it. -/
inductive Advance (entity : Entity) (before after : Cache) (program : ManagerProgram Unit) :
    SharedTable.Stage → SharedTable.Stage → Prop
  | add (sets : SetsEntity before entity.gid entity.isReader
        (some ((entities before entity.isReader entity.gid).getD entity.info)) after)
      (keeping : Keeping entity program) : Advance entity before after program .waiting .holding
  | other (same : SameEntities before after) (keeping : Keeping entity program) :
      Advance entity before after program .holding .holding
  | remove (sets : SetsEntity before entity.gid entity.isReader none after)
      (returned : program = .done ()) : Advance entity before after program .holding .released

theorem advance_cases {entity : Entity} {whole : ManagerProgram Unit} {stage : SharedTable.Stage}
    {state after : State Cache Index} {name : Index × Path} (starts : StartsKeeping entity whole)
    (stands : StandsAt entity whole (state.rest name) stage)
    (advanced : state.advance handle name = some after) :
    ∃ program stageAfter, after.rest = Function.update state.rest name program ∧
      Advance entity state.shared.graphCache after.shared.graphCache program stage stageAfter := by
  obtain ⟨operation, next, result, shared, here, handled, rfl⟩ := Family.advance_cases advanced
  rw [here] at stands
  generalize thread : Program.call operation next = program at stands
  cases stands with
  | waiting =>
    -- the first call of the path
    obtain ⟨added, wholeEq, keeping⟩ := starts
    cases thread.trans wholeEq
    cases handled
    exact ⟨_, _, rfl, .add (LawfulMutators.addEntity ..) (keeping ())⟩
  | holding keeping =>
    subst thread
    cases keeping with
    | calling leaves keeping =>
      exact ⟨_, _, rfl, .other (sameEntities_handle leaves handled) (keeping result)⟩
    | removing =>
      cases handled
      exact ⟨_, _, rfl, .remove (LawfulMutators.removeEntity ..) rfl⟩
  | released => cases thread

/-! ## The simulation -/

abbrev tables (lives : Index → Life) :
    Lts (SharedTable.State Index Path EntityInfo) (SharedTable.Event Index Path) :=
  SharedTable.system Path fun index => (lives index).entity.info

structure Related (lives : Index → Life) (state : State Cache Index)
    (shadow : SharedTable.State Index Path EntityInfo) : Prop where
  threads : ∀ index path, StandsAt (lives index).entity ((lives index).program path)
    (state.rest (index, path)) (shadow.stage index path)
  own : ∀ index, entities state.shared.graphCache (lives index).entity.isReader
    (lives index).entity.gid = shadow.entry index
  other : ∀ index, entities state.shared.graphCache (!(lives index).entity.isReader)
    (lives index).entity.gid = none

abbrev Matched (lives : Index → Life) (after : State Cache Index)
    (shadow : SharedTable.State Index Path EntityInfo) : Prop :=
  (tables lives).Matches (fun _ _ => True) (Related lives after) True shadow

/-- Every entity has a guid of its own. -/
abbrev Distinct (lives : Index → Life) : Prop :=
  Function.Injective fun index => (lives index).entity.endpoint.guid

omit [DecidableEq Index] in
theorem gid_ne [LawfulGids] {lives : Index → Life} (distinct : Distinct lives) {first second : Index}
    (different : first ≠ second) : (lives first).entity.gid ≠ (lives second).entity.gid := by
  intro same
  exact different (distinct (gidOf_injective same))

/-- One thread moves, and the stage of its entity on its path with it. -/
theorem threads_set {lives : Index → Life} {rest : Index × Path → ManagerProgram Unit}
    {stages : Index → Path → SharedTable.Stage}
    (threads : ∀ index path, StandsAt (lives index).entity ((lives index).program path)
      (rest (index, path)) (stages index path))
    {index : Index} {path : Path} {program : ManagerProgram Unit} {stage : SharedTable.Stage}
    (now : StandsAt (lives index).entity ((lives index).program path) program stage)
    (other : Index) (otherPath : Path) :
    StandsAt (lives other).entity ((lives other).program otherPath)
      (Function.update rest (index, path) program (other, otherPath))
      (Function.update stages index (Function.update (stages index) path stage) other otherPath) := by
  by_cases same : other = index
  · subst same
    rw [Function.update_self]
    by_cases samePath : otherPath = path
    · subst samePath
      rwa [Function.update_self, Function.update_self]
    · rw [Function.update_of_ne samePath, Function.update_of_ne (by simp [samePath])]
      exact threads other otherPath
  · rw [Function.update_of_ne same, Function.update_of_ne (by simp [same])]
    exact threads other otherPath

omit [LawfulMutators Cache] [LawfulNodeMutators Cache] in
/-- A call that sets the entry of one entity. -/
theorem related_set [LawfulGids] {lives : Index → Life} (distinct : Distinct lives)
    {state after : State Cache Index} {shadow : SharedTable.State Index Path EntityInfo}
    (related : Related lives state shadow) {index : Index} {path : Path}
    {program : ManagerProgram Unit} {entry : Option EntityInfo} {stage : SharedTable.Stage}
    (rest : after.rest = Function.update state.rest (index, path) program)
    (sets : SetsEntity state.shared.graphCache (lives index).entity.gid (lives index).entity.isReader
      entry after.shared.graphCache)
    (now : StandsAt (lives index).entity ((lives index).program path) program stage) :
    Related lives after (shadow.set index path entry stage) := by
  refine ⟨?_, ?_, ?_⟩
  · rw [rest]
    exact threads_set related.threads now
  · intro other
    by_cases same : other = index
    · subst same
      rw [sets.entities_self, Function.update_self, SharedTable.set_entry_self]
    · rw [sets.entities_of_ne (gid_ne distinct same), SharedTable.set_entry_of_ne same]
      exact related.own other
  · intro other
    by_cases same : other = index
    · subst same
      rw [sets.entities_other]
      exact related.other other
    · rw [sets.entities_of_ne (gid_ne distinct same)]
      exact related.other other

theorem matched_advance [LawfulGids] {lives : Index → Life} (distinct : Distinct lives)
    {state after : State Cache Index} {shadow : SharedTable.State Index Path EntityInfo}
    (related : Related lives state shadow) {index : Index} {path : Path}
    (stepped : step state (.advance index path) = some after) : Matched lives after shadow := by
  obtain ⟨program, stageAfter, rest, advance⟩ := advance_cases
    (startsKeeping_program (lives index) path) (related.threads index path) stepped
  generalize here : shadow.stage index path = stage at advance
  cases advance with
  | add sets keeping =>
    rw [related.own index] at sets
    have inserted : SharedTable.step (fun index => (lives index).entity.info) shadow
        (.insert index path) = some (shadow.set index path
          (some ((shadow.entry index).getD (lives index).entity.info)) .holding) := by
      simp [SharedTable.step, here]
    exact (tables lives).matches_by_step (.insert index path) inserted
      (related_set distinct related rest sets (.holding keeping)) Iff.rfl
  | other same keeping =>
    -- the shared table does not move, and the path stays at its stage
    refine (tables lives).matches_by_nothing ⟨?_, ?_, ?_⟩ trivial
    · have now : StandsAt (lives index).entity ((lives index).program path) program
          (shadow.stage index path) := here ▸ .holding keeping
      have threads := threads_set related.threads now
      rw [Function.update_eq_self, Function.update_eq_self] at threads
      rwa [rest]
    · intro other
      rw [same]
      exact related.own other
    · intro other
      rw [same]
      exact related.other other
  | remove sets returned =>
    subst returned
    have erased : SharedTable.step (fun index => (lives index).entity.info) shadow
        (.erase index path) = some (shadow.set index path none .released) := by
      simp [SharedTable.step, here]
    exact (tables lives).matches_by_step (.erase index path) erased
      (related_set distinct related rest sets .released) Iff.rfl

theorem matched_step [LawfulGids] {lives : Index → Life} (distinct : Distinct lives)
    (state : State Cache Index) (event : Event Index) (after : State Cache Index)
    (shadow : SharedTable.State Index Path EntityInfo) (related : Related lives state shadow)
    (stepped : (system Cache Index).step state event = some after) : Matched lives after shadow := by
  cases event with
  | advance index path => exact matched_advance distinct related stepped
  | loopback =>
    obtain ⟨manager, delivered, rfl⟩ := Option.map_eq_some_iff.mp stepped
    have same := sameEntities_loopback delivered
    refine (tables lives).matches_by_nothing ⟨related.threads, ?_, ?_⟩ trivial
    · intro index
      rw [same]
      exact related.own index
    · intro index
      rw [same]
      exact related.other index

/-! ## Runs -/

/-- A call of one of the entity's paths has been made, and the first call adds it. -/
def Added (lives : Index → Life) (state : State Cache Index) (index : Index) : Prop :=
  ∃ path, state.rest (index, path) ≠ (lives index).program path

/-- The path has returned, and its last call removes the entity. -/
def Removed (state : State Cache Index) (index : Index) (path : Path) : Prop :=
  state.rest (index, path) = .done ()

omit [DecidableEq Index] [LawfulMutators Cache] [LawfulNodeMutators Cache] in
theorem related_start {lives : Index → Life} {manager : Manager Cache}
    (unlisted : ∀ index, Unlisted manager.graphCache (lives index).entity) :
    Related lives (start lives manager) {} :=
  ⟨fun _ _ => .waiting, fun index => unlisted index _, fun index => unlisted index _⟩

theorem shadow_of_run [LawfulGids] {lives : Index → Life} (distinct : Distinct lives)
    {manager : Manager Cache} (unlisted : ∀ index, Unlisted manager.graphCache (lives index).entity)
    {events : List (Event Index)} {state : State Cache Index}
    (reached : (system Cache Index).exec (start lives manager) events = some state) :
    ∃ shadowEvents shadow, (tables lives).exec {} shadowEvents = some shadow ∧
      Related lives state shadow := by
  obtain ⟨shadowEvents, shadow, ran, related, _⟩ := Lts.simulation_along (system Cache Index)
    (tables lives) (matched_step distinct) (related_start unlisted) reached
  exact ⟨shadowEvents, shadow, ran, related⟩

omit [DecidableEq Index] [LawfulMutators Cache] [LawfulNodeMutators Cache] in
theorem held_of_added {lives : Index → Life} {state : State Cache Index}
    {shadow : SharedTable.State Index Path EntityInfo} (related : Related lives state shadow)
    {index : Index} (added : Added lives state index) (kept : ∀ path, ¬ Removed state index path) :
    SharedTable.Held (shadow.stage index) := by
  constructor
  · obtain ⟨path, moved⟩ := added
    refine ⟨path, ?_⟩
    intro waiting
    have stands := related.threads index path
    rw [waiting] at stands
    exact moved stands.eq_whole
  · intro path released
    have stands := related.threads index path
    rw [released] at stands
    exact kept path stands.eq_done

/-- The step of an entity leaves what the tables have of every other one. -/
theorem entities_of_other [LawfulGids] {lives : Index → Life} (distinct : Distinct lives)
    {state after : State Cache Index} {shadow : SharedTable.State Index Path EntityInfo}
    (related : Related lives state shadow) {index other : Index} (different : index ≠ other)
    {path : Path} (stepped : step state (.advance other path) = some after) (isReader : Bool) :
    entities after.shared.graphCache isReader (lives index).entity.gid =
      entities state.shared.graphCache isReader (lives index).entity.gid := by
  obtain ⟨program, stageAfter, _, advance⟩ := advance_cases
    (startsKeeping_program (lives other) path) (related.threads other path) stepped
  generalize shadow.stage other path = stage at advance
  cases advance with
  | add sets | remove sets => exact sets.entities_of_ne (gid_ne distinct different) isReader
  | other same => rw [same]

/-- At any time of any run: (1) an entity that has been created or discovered, and that
neither path has removed, has exactly its own record in exactly its own table; (2) one that
both paths have removed has none; (3) the next call for another entity changes nothing. -/
theorem paths_agree [LawfulGids] (lives : Index → Life) (distinct : Distinct lives)
    (manager : Manager Cache) (unlisted : ∀ index, Unlisted manager.graphCache (lives index).entity)
    (events : List (Event Index)) {state : State Cache Index}
    (reached : (system Cache Index).exec (start lives manager) events = some state) (index : Index) :
    (Added lives state index → (∀ path, ¬ Removed state index path) →
        Listed state.shared.graphCache (lives index).entity) ∧
      ((∀ path, Removed state index path) → Unlisted state.shared.graphCache (lives index).entity) ∧
      ∀ other path after, index ≠ other → step state (.advance other path) = some after →
        ∀ isReader, entities after.shared.graphCache isReader (lives index).entity.gid =
          entities state.shared.graphCache isReader (lives index).entity.gid := by
  obtain ⟨shadowEvents, shadow, ran, related⟩ := shadow_of_run distinct unlisted reached
  refine ⟨?_, ?_, ?_⟩
  · intro added kept
    have recorded := SharedTable.entry_of_held ran (held_of_added related added kept)
    exact ⟨(related.own index).trans recorded, related.other index⟩
  · intro removed isReader
    have nothing : shadow.entry index = none := by
      refine SharedTable.entry_of_unheld ran ?_
      intro path
      have stands := related.threads index path
      rw [removed path] at stands
      exact stands.not_holding
    -- the other table never has anything of the entity
    by_cases own : isReader = (lives index).entity.isReader
    · rw [own, related.own, nothing]
    · rw [Bool.eq_not_of_ne own, related.other]
  · intro other path after different stepped
    exact entities_of_other distinct related different stepped

end MicroRosAgent.Agent.EntityPaths

/-! ## A writer that is discovered before its callback runs -/

namespace MicroRosAgent.Agent.EntityPaths

open Interleaving GraphManager

attribute [local instance] referenceRmw

def sampleEntity (isReader : Bool) (guid : Nat) : Entity where
  isReader
  participant := ReferenceRmw.participant 1 "/node".toList
  endpoint := ReferenceRmw.endpoint guid "rt/chatter".toList "std_msgs::msg::dds_::String_".toList

def sampleData (guid : Nat) : BuiltinTopicData where
  guid := ⟨guid⟩
  participantGuid := ⟨1⟩
  topicName := "rt/chatter".toList
  typeName := "std_msgs::msg::dds_::String_".toList
  durability := .volatile
  deadline := ⟨0, 0⟩
  liveliness := ⟨.automatic, ⟨0, 0⟩⟩
  reliability := .reliable
  lifespan := ⟨0, 0⟩

def sampleLife (isReader : Bool) (guid : Nat) : Life where
  entity := sampleEntity isReader guid
  discovery :=
    { discovered := sampleData guid
      changedQos := [sampleData guid]
      reason := .removed
      removed := sampleData guid
      describes := ⟨rfl, rfl, rfl, rfl, rfl, rfl, rfl, rfl, rfl⟩
      isRemoval := Or.inl rfl
      ownGuid := rfl }

/-- A writer and a reader of one participant. -/
def sampleLives : Bool → Life
  | false => sampleLife false 2
  | true => sampleLife true 3

def registered : Manager ReferenceCache :=
  let fresh : Manager ReferenceCache := { graphCache := GraphCache.empty }
  (((onCreateParticipant (ReferenceRmw.participant 1 "/node".toList)).run handle fresh).map fun
    answer => answer.2).getD fresh

/-- The writer is discovered, then created, with the reader in between. -/
def discoveredFirst : List (Event Bool) :=
  [.advance false .discovery, .advance true .callbacks, .advance false .callbacks, .loopback,
    .advance false .callbacks, .advance false .callbacks, .advance false .callbacks]

/-- Both removals of the writer follow. -/
def removedTwice : List (Event Bool) :=
  discoveredFirst ++ [.advance false .callbacks, .advance false .discovery]

theorem sampleLives_distinct : Distinct sampleLives := by
  intro first second same
  cases first <;> cases second <;> first | rfl | cases same

theorem registered_unlisted (index : Bool) :
    Unlisted registered.graphCache (sampleLives index).entity := by
  intro isReader
  cases index <;> cases isReader <;> rfl

theorem paths_agree_sample :
    (∃ state, (system ReferenceCache Bool).exec (start sampleLives registered) discoveredFirst =
        some state ∧ Listed state.shared.graphCache (sampleLives false).entity) ∧
      ∃ state, (system ReferenceCache Bool).exec (start sampleLives registered) removedTwice =
        some state ∧ Unlisted state.shared.graphCache (sampleLives false).entity := by
  have := referenceRmw_lawfulGids
  refine ⟨⟨_, rfl, ?_⟩, _, rfl, ?_⟩
  · have agree := paths_agree sampleLives sampleLives_distinct registered registered_unlisted
      discoveredFirst rfl false
    refine agree.1 ⟨.discovery, ?_⟩ ?_
    · intro same
      cases same
    · intro path returned
      cases path <;> cases returned
  · have agree := paths_agree sampleLives sampleLives_distinct registered registered_unlisted
      removedTwice rfl false
    refine agree.2.1 ?_
    intro path
    cases path <;> rfl

end MicroRosAgent.Agent.EntityPaths
