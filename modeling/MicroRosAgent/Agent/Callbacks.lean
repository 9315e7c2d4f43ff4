import MicroRosAgent.GraphManager.Operations

/-! # The callbacks of the agent

`Agent::create` registers ten callbacks with the XRCE agent.  Each looks up the graph
manager of the participant's domain and runs some of its members; the programs below
are those members, one definition for each callback.

Eight of them create or delete entities.  They are `createEndpoints` and
`deleteEndpoints` on the entities of the callback (`program_eq_createEndpoints`,
`program_eq_deleteEndpoints`), so that one specification of `createEndpoint` and of
`deleteEndpoint` covers them all.
-/

namespace MicroRosAgent.Agent

open Interleaving GraphManager

variable [Rmw]

def onCreateParticipant (participant : DomainParticipant) : ManagerProgram Unit :=
  addParticipant participant

def onDeleteParticipant (participant : DomainParticipant) : ManagerProgram Unit :=
  removeParticipant participant

def onCreateDatawriter (participant : DomainParticipant) (datawriter : Endpoint) :
    ManagerProgram Unit := do
  addDatawriter datawriter.guid participant datawriter
  associateEntity datawriter.guid participant .datawriter

def onDeleteDatawriter (datawriter : Endpoint) : ManagerProgram Unit :=
  removeDatawriter datawriter.guid

def onCreateDatareader (participant : DomainParticipant) (datareader : Endpoint) :
    ManagerProgram Unit := do
  addDatareader datareader.guid participant datareader
  associateEntity datareader.guid participant .datareader

def onDeleteDatareader (datareader : Endpoint) : ManagerProgram Unit :=
  removeDatareader datareader.guid

def onCreateRequester (participant : DomainParticipant) (datawriter datareader : Endpoint) :
    ManagerProgram Unit := do
  addDatawriter datawriter.guid participant datawriter
  associateEntity datawriter.guid participant .datawriter
  addDatareader datareader.guid participant datareader
  associateEntity datareader.guid participant .datareader

def onDeleteRequester (datawriter datareader : Endpoint) : ManagerProgram Unit := do
  removeDatawriter datawriter.guid
  removeDatareader datareader.guid

def onCreateReplier (participant : DomainParticipant) (datawriter datareader : Endpoint) :
    ManagerProgram Unit := do
  addDatawriter datawriter.guid participant datawriter
  associateEntity datawriter.guid participant .datawriter
  addDatareader datareader.guid participant datareader
  associateEntity datareader.guid participant .datareader

def onDeleteReplier (datawriter datareader : Endpoint) : ManagerProgram Unit := do
  removeDatawriter datawriter.guid
  removeDatareader datareader.guid

/-- A callback the XRCE agent invokes, with its arguments. -/
inductive Callback where
  | createParticipant (participant : DomainParticipant)
  | deleteParticipant (participant : DomainParticipant)
  | createDatawriter (participant : DomainParticipant) (datawriter : Endpoint)
  | deleteDatawriter (participant : DomainParticipant) (datawriter : Endpoint)
  | createDatareader (participant : DomainParticipant) (datareader : Endpoint)
  | deleteDatareader (participant : DomainParticipant) (datareader : Endpoint)
  | createRequester (participant : DomainParticipant) (datawriter datareader : Endpoint)
  | deleteRequester (participant : DomainParticipant) (datawriter datareader : Endpoint)
  | createReplier (participant : DomainParticipant) (datawriter datareader : Endpoint)
  | deleteReplier (participant : DomainParticipant) (datawriter datareader : Endpoint)
  deriving DecidableEq

namespace Callback

def program : Callback → ManagerProgram Unit
  | createParticipant participant => onCreateParticipant participant
  | deleteParticipant participant => onDeleteParticipant participant
  | createDatawriter participant datawriter => onCreateDatawriter participant datawriter
  | deleteDatawriter _ datawriter => onDeleteDatawriter datawriter
  | createDatareader participant datareader => onCreateDatareader participant datareader
  | deleteDatareader _ datareader => onDeleteDatareader datareader
  | createRequester participant datawriter datareader =>
      onCreateRequester participant datawriter datareader
  | deleteRequester _ datawriter datareader => onDeleteRequester datawriter datareader
  | createReplier participant datawriter datareader =>
      onCreateReplier participant datawriter datareader
  | deleteReplier _ datawriter datareader => onDeleteReplier datawriter datareader

def participant : Callback → DomainParticipant
  | createParticipant participant | deleteParticipant participant
  | createDatawriter participant _ | deleteDatawriter participant _
  | createDatareader participant _ | deleteDatareader participant _
  | createRequester participant _ _ | deleteRequester participant _ _
  | createReplier participant _ _ | deleteReplier participant _ _ => participant

/-- The entities a CREATE_ callback is about, each with whether it is a reader. -/
def created : Callback → List (Bool × Endpoint)
  | createDatawriter _ datawriter => [(false, datawriter)]
  | createDatareader _ datareader => [(true, datareader)]
  | createRequester _ datawriter datareader | createReplier _ datawriter datareader =>
      [(false, datawriter), (true, datareader)]
  | _ => []

/-- The entities a DELETE_ callback is about. -/
def deleted : Callback → List (Bool × Endpoint)
  | deleteDatawriter _ datawriter => [(false, datawriter)]
  | deleteDatareader _ datareader => [(true, datareader)]
  | deleteRequester _ datawriter datareader | deleteReplier _ datawriter datareader =>
      [(false, datawriter), (true, datareader)]
  | _ => []

end Callback

/-! ## Entities of one participant -/

def createEndpoint (participant : DomainParticipant) (isReader : Bool) (endpoint : Endpoint) :
    ManagerProgram Unit := do
  addEndpoint isReader endpoint.guid endpoint.topicName endpoint.typeName participant.guid endpoint.qos
  associateEntity endpoint.guid participant (if isReader then .datareader else .datawriter)

def createEndpoints (participant : DomainParticipant) :
    List (Bool × Endpoint) → ManagerProgram Unit
  | [] => pure ()
  | (isReader, endpoint) :: rest => do
      createEndpoint participant isReader endpoint
      createEndpoints participant rest

def deleteEndpoint (isReader : Bool) (endpoint : Endpoint) : ManagerProgram Unit :=
  mutate (.removeEntity endpoint.gid isReader)

def deleteEndpoints : List (Bool × Endpoint) → ManagerProgram Unit
  | [] => pure ()
  | (isReader, endpoint) :: rest => do
      deleteEndpoint isReader endpoint
      deleteEndpoints rest

theorem program_eq_createEndpoints (callback : Callback) (creates : callback.created ≠ []) :
    callback.program = createEndpoints callback.participant callback.created := by
  cases callback with
  | createDatawriter | createDatareader | createRequester | createReplier =>
    simp [Callback.program, Callback.participant, Callback.created, createEndpoints, createEndpoint,
      onCreateDatawriter, onCreateDatareader, onCreateRequester, onCreateReplier, addDatawriter,
      addDatareader, bind_assoc]
  | createParticipant | deleteParticipant | deleteDatawriter | deleteDatareader | deleteRequester
  | deleteReplier => exact absurd rfl creates

theorem program_eq_deleteEndpoints (callback : Callback) (deletes : callback.deleted ≠ []) :
    callback.program = deleteEndpoints callback.deleted := by
  cases callback with
  | deleteDatawriter | deleteDatareader | deleteRequester | deleteReplier => rfl
  | createParticipant | deleteParticipant | createDatawriter | createDatareader | createRequester
  | createReplier => exact absurd rfl deletes

/-! ## What the members do -/

/-- The node the graph manager keeps for a participant. -/
def nodeKey (participant : DomainParticipant) : Text × Text :=
  getNameAndNamespace participant.name [] []

theorem associateEntity_eq (guid : Guid) (participant : DomainParticipant) (isReader : Bool) :
    associateEntity guid participant (if isReader then .datareader else .datawriter) =
      (mutate (.associate isReader (gidOf guid) participant.gid (nodeKey participant).1
        (nodeKey participant).2) >>= fun info => writeUnchecked participant info) := by
  cases isReader <;> rfl

end MicroRosAgent.Agent
