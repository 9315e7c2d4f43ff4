import MicroRosAgent.GraphManager.Naming
import MicroRosAgent.Middleware
import MicroRosAgent.Interleaving.Program

/-! # The operations of the graph manager

The member functions of `GraphManager` that the agent callbacks and the DDS listeners
run, as programs over the calls they make: mutators of the graph cache (each atomic
under the cache's own lock), accesses to `micro_ros_graph_datawriters_`, writes and
takes on `ros_discovery_info`.

`Manager` is the state those calls work on.  A written sample stays `inFlight` until
it arrives in the `history` of the manager's own reader.
-/

namespace MicroRosAgent.GraphManager

open Interleaving

/-- A sample as `take_next_sample` returns it; `alive` is its instance state. -/
structure Sample where
  info : ParticipantEntitiesInfo
  alive : Bool
  deriving DecidableEq, Repr

structure Manager (Cache : Type) where
  graphCache : Cache
  -- `micro_ros_graph_datawriters_`, from the participant's pointer to its discovery writer
  datawriters : Nat → Option Nat := fun _ => none
  -- how many datawriters `publisher_` has created; the count names the next one
  created : Nat := 0
  -- everything written on `ros_discovery_info`, oldest first
  written : List ParticipantEntitiesInfo := []
  inFlight : List ParticipantEntitiesInfo := []
  history : List Sample := []

/-- The last sample written for a participant. -/
def Manager.lastWritten {Cache : Type} (manager : Manager Cache) (gid : Gid) :
    Option ParticipantEntitiesInfo :=
  (manager.written.filter fun info => info.gid = gid).getLast?

theorem filter_gid_eq_nil {gid : Gid} {samples : List ParticipantEntitiesInfo}
    (others : ∀ info ∈ samples, info.gid ≠ gid) :
    samples.filter (fun info => info.gid = gid) = [] := by
  rw [List.filter_eq_nil_iff]
  intro info member
  simpa using others info member

theorem lastWritten_concat {Cache : Type} {before after : Manager Cache} {gid : Gid}
    {nodes : List NodeEntitiesInfo} (written : after.written = before.written ++ [⟨gid, nodes⟩]) :
    after.lastWritten gid = some ⟨gid, nodes⟩ := by
  simp [Manager.lastWritten, written]

/-! ## Calls -/

inductive Call where
  | cache (mutator : Mutator)
  | findDatawriter (participant : DomainParticipant)
  | createDatawriter
  | insertDatawriter (participant : DomainParticipant) (datawriter : Nat)
  | write (datawriter : Nat) (info : ParticipantEntitiesInfo)
  | deleteDatawriter (datawriter : Nat)
  | eraseDatawriter (participant : DomainParticipant)
  | takeNextSample

abbrev Call.Result : Call → Type
  | .cache mutator => mutator.Result
  | .findDatawriter _ => Option Nat
  | .createDatawriter => Nat
  | .takeNextSample => Option Sample
  | .insertDatawriter .. | .write .. | .deleteDatawriter _ | .eraseDatawriter _ => Unit

abbrev ManagerProgram (α : Type) : Type := Program Call Call.Result α

def handle {Cache : Type} [GraphCache Cache] : Handler Call Call.Result (Manager Cache)
  | .cache mutator, manager =>
      (mutator.perform manager.graphCache).map fun answer =>
        (answer.1, { manager with graphCache := answer.2 })
  | .findDatawriter participant, manager => some (manager.datawriters participant.handle, manager)
  | .createDatawriter, manager => some (manager.created, { manager with created := manager.created + 1 })
  | .insertDatawriter participant datawriter, manager =>
      some ((), { manager with
        datawriters := Function.update manager.datawriters participant.handle (some datawriter) })
  | .write _ info, manager =>
      some ((), { manager with
        written := manager.written ++ [info], inFlight := manager.inFlight ++ [info] })
  -- what the deleted writer has sent is still delivered
  | .deleteDatawriter _, manager => some ((), manager)
  | .eraseDatawriter participant, manager =>
      some ((), { manager with
        datawriters := Function.update manager.datawriters participant.handle none })
  | .takeNextSample, manager =>
      match manager.history with
      | [] => some (none, manager)
      | sample :: later => some (some sample, { manager with history := later })

/-! ## Members -/

abbrev mutate (mutator : Mutator) : ManagerProgram mutator.Result :=
  Program.perform (Call.cache mutator)

abbrev findDatawriter (participant : DomainParticipant) : ManagerProgram (Option Nat) :=
  Program.perform (Call.findDatawriter participant)

abbrev createDatawriter : ManagerProgram Nat := Program.perform Call.createDatawriter

abbrev insertDatawriter (participant : DomainParticipant) (datawriter : Nat) : ManagerProgram Unit :=
  Program.perform (Call.insertDatawriter participant datawriter)

abbrev write (datawriter : Nat) (info : ParticipantEntitiesInfo) : ManagerProgram Unit :=
  Program.perform (Call.write datawriter info)

abbrev deleteDatawriter (datawriter : Nat) : ManagerProgram Unit :=
  Program.perform (Call.deleteDatawriter datawriter)

abbrev eraseDatawriter (participant : DomainParticipant) : ManagerProgram Unit :=
  Program.perform (Call.eraseDatawriter participant)

abbrev takeNextSample : ManagerProgram (Option Sample) := Program.perform Call.takeNextSample

variable [Rmw]

/-- `auto it = micro_ros_graph_datawriters_.find(participant); it->second->write(&info)`,
    with `it` used unchecked. -/
def writeUnchecked (participant : DomainParticipant) (info : ParticipantEntitiesInfo) :
    ManagerProgram Unit := do
  let it ← findDatawriter participant
  match it with
  | some datawriter => write datawriter info
  | none => .fault

def addParticipant (participant : DomainParticipant) (fromMicroros : Bool := true)
    (enclave : Text := ['/']) : ManagerProgram Unit := do
  let gid := participant.gid
  mutate (.addParticipant gid enclave)
  -- Do not add root node and do not announce non-micro-ROS participants
  if participant.name ≠ ['/'] ∧ fromMicroros = true then
    let isolated := getNameAndNamespace participant.name [] []
    let info : ParticipantEntitiesInfo ← mutate (.addNode gid isolated.1 isolated.2)
    let it ← findDatawriter participant
    match it with
    | some datawriter => write datawriter info
    | none =>
        let datawriter ← createDatawriter
        insertDatawriter participant datawriter
        write datawriter info

def removeParticipant (participant : DomainParticipant) (fromMicroros : Bool := true) :
    ManagerProgram Unit := do
  let gid := participant.gid
  mutate (.removeParticipant gid)
  if fromMicroros = true then
    let info : ParticipantEntitiesInfo := ⟨gid, []⟩
    let it ← findDatawriter participant
    match it with
    | some datawriter =>
        write datawriter info
        deleteDatawriter datawriter
        eraseDatawriter participant
    | none => .fault

/-- The overloads `add_datawriter` and `add_datareader` on plain data. -/
def addEndpoint (isReader : Bool) (guid : Guid) (topicName typeName : Text) (participantGuid : Guid)
    (qos : FastDdsQos) : ManagerProgram Unit :=
  mutate (.addEntity (gidOf guid)
    ⟨topicName, typeName, {}, gidOf participantGuid, fastddsQosToRmwQos qos⟩ isReader)

def addDatawriter (guid : Guid) (participant : DomainParticipant) (datawriter : Endpoint) :
    ManagerProgram Unit :=
  addEndpoint false guid datawriter.topicName datawriter.typeName participant.guid datawriter.qos

def addDatareader (guid : Guid) (participant : DomainParticipant) (datareader : Endpoint) :
    ManagerProgram Unit :=
  addEndpoint true guid datareader.topicName datareader.typeName participant.guid datareader.qos

def removeDatawriter (guid : Guid) : ManagerProgram Unit :=
  mutate (.removeEntity (gidOf guid) false)

def removeDatareader (guid : Guid) : ManagerProgram Unit :=
  mutate (.removeEntity (gidOf guid) true)

/-- The values of `dds::xrce::ObjectKind` that matter here. -/
inductive ObjectKind where
  | datawriter | datareader | other
  deriving DecidableEq, Repr

def associateEntity (entityGuid : Guid) (participant : DomainParticipant) (entityKind : ObjectKind) :
    ManagerProgram Unit := do
  let isolated := getNameAndNamespace participant.name [] []
  let info : ParticipantEntitiesInfo ← match entityKind with
    | .datawriter =>
        mutate (.associateWriter (gidOf entityGuid) participant.gid isolated.1 isolated.2)
    | .datareader =>
        mutate (.associateReader (gidOf entityGuid) participant.gid isolated.1 isolated.2)
    | .other => pure ⟨⟨0⟩, []⟩
  writeUnchecked participant info

def updateNodeEntitiesInfo : ManagerProgram Unit := do
  let taken ← takeNextSample
  match taken with
  | some sample =>
      if sample.alive = true then
        mutate (.updateParticipantEntities sample.info)
  | none => pure ()

/-! ## Listeners -/

inductive ParticipantDiscoveryStatus where
  | discovered | changedQos | removed | dropped | ignored
  deriving DecidableEq, Repr

/-- `ParticipantListener::on_participant_discovery`, of the guid and the user data of
    the participant. -/
def onParticipantDiscovery (reason : ParticipantDiscoveryStatus) (guid : Guid)
    (userData : List UInt8) : ManagerProgram Unit :=
  match reason with
  | .discovered =>
      match Rmw.parseKeyValue userData "enclave".toList with
      | none => pure ()
      | some found =>
          mutate (.addParticipant (gidOf guid) (found.map fun byte => Char.ofNat byte.toNat))
  | .removed | .dropped => mutate (.removeParticipant (gidOf guid))
  | .changedQos | .ignored => pure ()

/-- `DatareaderListener::on_data_available`. -/
def onDataAvailable : ManagerProgram Unit := updateNodeEntitiesInfo

/-- What is left of a run of the listener when `take_next_sample` has returned. -/
def afterTake : Option Sample → ManagerProgram Unit
  | some sample =>
      if sample.alive = true then mutate (.updateParticipantEntities sample.info) else .done ()
  | none => .done ()

omit [Rmw] in
/-- The run applies the sample it has taken, if there is one and it is alive. -/
theorem afterTake_cases (taken : Option Sample) :
    (∃ sample, taken = some sample ∧ sample.alive = true ∧
      afterTake taken = mutate (.updateParticipantEntities sample.info)) ∨
    ((∀ sample, taken = some sample → sample.alive = false) ∧ afterTake taken = .done ()) := by
  cases taken with
  | none => exact Or.inr ⟨nofun, rfl⟩
  | some sample =>
    by_cases alive : sample.alive = true
    · exact Or.inl ⟨sample, rfl, alive, if_pos alive⟩
    · refine Or.inr ⟨?_, if_neg alive⟩
      rintro _ ⟨⟩
      simpa using alive

omit [Rmw] in
theorem onDataAvailable_eq : onDataAvailable = .call .takeNextSample afterTake := by
  unfold onDataAvailable updateNodeEntitiesInfo
  rw [Program.perform_bind]
  rfl

/-! ## The reader of `ros_discovery_info` -/

/-- `datareader_qos.history().depth`. -/
def historyDepth : Nat := 1

/-- A KEEP_LAST history of a topic without key: the newest samples of all writers. -/
def keepLast {α : Type} (depth : Nat) (samples : List α) : List α :=
  samples.drop (samples.length - depth)

variable {Cache : Type}

def Manager.arrive (sample : Sample) (manager : Manager Cache) : Manager Cache :=
  { manager with history := keepLast historyDepth (manager.history ++ [sample]) }

omit [Rmw] in
/-- With a depth of one an arrival leaves nothing else in the history. -/
theorem arrive_eq (manager : Manager Cache) (sample : Sample) :
    manager.arrive sample = { manager with history := [sample] } := by
  simp [Manager.arrive, keepLast, historyDepth]

/-- The oldest sample in flight of a participant arrives, in that instance state.  It waits
    in the history until a run of the listener takes it. -/
def Manager.deliver (gid : Gid) (alive : Bool) (manager : Manager Cache) : Option (Manager Cache) :=
  (manager.inFlight.find? fun info => info.gid = gid).map fun info =>
    ({ manager with
      inFlight := manager.inFlight.eraseP fun info => info.gid = gid }).arrive ⟨info, alive⟩

omit [Rmw] in
theorem deliver_cases {manager after : Manager Cache} {gid : Gid} {alive : Bool}
    (delivered : manager.deliver gid alive = some after) :
    ∃ info first later, info.gid = gid ∧ (∀ other ∈ first, other.gid ≠ gid) ∧
      manager.inFlight = first ++ info :: later ∧
      after = { manager with inFlight := first ++ later, history := [⟨info, alive⟩] } := by
  obtain ⟨info, found, rfl⟩ := Option.map_eq_some_iff.mp delivered
  obtain ⟨own, first, later, split, others⟩ := List.find?_eq_some_iff_append.mp found
  have ownGid : info.gid = gid := of_decide_eq_true own
  have otherGids : ∀ other ∈ first, other.gid ≠ gid := by
    intro other member
    simpa using others other member
  have erased : (first ++ info :: later).eraseP (fun info => decide (info.gid = gid)) =
      first ++ later := by
    rw [List.eraseP_append_right _ (by simpa using otherGids)]
    simp [ownGid]
  refine ⟨info, first, later, ownGid, otherGids, split, ?_⟩
  rw [arrive_eq, split, erased]

/-- A delivery during which nothing else happens: the oldest sample in flight arrives alive,
    is taken and is applied. -/
def loopback [GraphCache Cache] (manager : Manager Cache) : Option (Manager Cache) :=
  match manager.inFlight with
  | [] => none
  | info :: _ => (manager.deliver info.gid true).bind fun arrived =>
      (onDataAvailable.run handle arrived).map (·.2)

/-- The same between the calls of other threads. -/
def loopbackInto [GraphCache Cache] (pool : Pool Call Call.Result (Manager Cache)) :
    Option (Pool Call Call.Result (Manager Cache)) :=
  (loopback pool.shared).map fun manager => { pool with shared := manager }

omit [Rmw] in
theorem loopback_arrive [GraphCache Cache] {manager : Manager Cache} {info : ParticipantEntitiesInfo}
    {later : List ParticipantEntitiesInfo} (sent : manager.inFlight = info :: later) :
    loopback manager = some { manager with
      graphCache := GraphCache.updateParticipantEntities info manager.graphCache
      inFlight := later
      history := [] } := by
  have delivered : manager.deliver info.gid true =
      some { manager with inFlight := later, history := [⟨info, true⟩] } := by
    simp [Manager.deliver, sent, arrive_eq]
  simp only [loopback, sent, delivered, Option.bind_some, onDataAvailable, updateNodeEntitiesInfo,
    Program.perform_bind, Program.run_call, handle, if_true, Program.run_perform,
    perform_updateParticipantEntities, Option.map_some]

omit [Rmw] in
theorem loopback_eq [GraphCache Cache] {manager : Manager Cache} {info : ParticipantEntitiesInfo}
    {later : List ParticipantEntitiesInfo} (sent : manager.inFlight = info :: later)
    (taken : manager.history = []) :
    loopback manager = some { manager with
      graphCache := GraphCache.updateParticipantEntities info manager.graphCache
      inFlight := later } := by
  rw [loopback_arrive sent, ← taken]

omit [Rmw] in
/-- All a loopback can do, with no earlier sample in the history. -/
theorem loopback_cases [GraphCache Cache] {manager after : Manager Cache}
    (taken : manager.history = []) (delivered : loopback manager = some after) :
    ∃ info later, manager.inFlight = info :: later ∧ after = { manager with
      graphCache := GraphCache.updateParticipantEntities info manager.graphCache
      inFlight := later } := by
  cases sent : manager.inFlight with
  | nil => simp [loopback, sent] at delivered
  | cons info later =>
    rw [loopback_eq sent taken] at delivered
    exact ⟨info, later, rfl, (Option.some.inj delivered).symm⟩

end MicroRosAgent.GraphManager
