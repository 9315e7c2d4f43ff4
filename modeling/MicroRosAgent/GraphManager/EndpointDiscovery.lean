import MicroRosAgent.GraphManager.Operations

/-! # The discovery of writers and readers

The participant listener gets the builtin topic data of every endpoint that is found or
lost, rebuilds a QoS from it policy by policy, and adds the endpoint to the graph or
removes it.  The two specializations of `process_discovery_info` are one definition; the
policies are those that reach the rmw profile.
-/

namespace MicroRosAgent.GraphManager

/-- `eprosima::fastdds::rtps::ReaderDiscoveryStatus`, and the same of a writer. -/
inductive EndpointDiscoveryStatus where
  | discovered | changedQos | removed | ignored
  deriving DecidableEq, Repr

structure LivelinessQosPolicy where
  kind : LivelinessKind
  leaseDuration : Duration
  deriving DecidableEq, Repr

/-- `PublicationBuiltinTopicData`, and the same of a subscription. -/
structure BuiltinTopicData where
  guid : Guid
  participantGuid : Guid
  topicName : Text
  typeName : Text
  durability : DurabilityKind
  deadline : Duration
  liveliness : LivelinessQosPolicy
  reliability : ReliabilityKind
  lifespan : Duration
  deriving DecidableEq, Repr

def writerQosConversion (writerInfo : BuiltinTopicData) : FastDdsQos where
  durability := writerInfo.durability
  deadlinePeriod := writerInfo.deadline
  liveliness := writerInfo.liveliness.kind
  livelinessLeaseDuration := writerInfo.liveliness.leaseDuration
  reliability := writerInfo.reliability
  lifespanDuration := writerInfo.lifespan

def readerQosConversion (readerInfo : BuiltinTopicData) : FastDdsQos where
  durability := readerInfo.durability
  deadlinePeriod := readerInfo.deadline
  lifespanDuration := readerInfo.lifespan
  liveliness := readerInfo.liveliness.kind
  livelinessLeaseDuration := readerInfo.liveliness.leaseDuration
  reliability := readerInfo.reliability

variable [Rmw]

/-- Both specializations of `ParticipantListener::process_discovery_info`. -/
def processDiscoveryInfo (isReader : Bool) (qosConversion : BuiltinTopicData → FastDdsQos)
    (reason : EndpointDiscoveryStatus) (info : BuiltinTopicData) : ManagerProgram Unit :=
  match reason with
  | .changedQos => pure ()
  | .discovered =>
      addEndpoint isReader info.guid info.topicName info.typeName info.participantGuid
        (qosConversion info)
  -- `default`: removed, and ignored as well
  | .removed | .ignored => if isReader then removeDatareader info.guid else removeDatawriter info.guid

def onDataWriterDiscovery (reason : EndpointDiscoveryStatus) (info : BuiltinTopicData) :
    ManagerProgram Unit :=
  processDiscoveryInfo false writerQosConversion reason info

def onDataReaderDiscovery (reason : EndpointDiscoveryStatus) (info : BuiltinTopicData) :
    ManagerProgram Unit :=
  processDiscoveryInfo true readerQosConversion reason info

/-- The member of the listener for the kind of endpoint. -/
def onEndpointDiscovery (isReader : Bool) (reason : EndpointDiscoveryStatus)
    (info : BuiltinTopicData) : ManagerProgram Unit :=
  if isReader then onDataReaderDiscovery reason info else onDataWriterDiscovery reason info

def EndpointDiscoveryStatus.IsRemoval (reason : EndpointDiscoveryStatus) : Prop :=
  reason = .removed ∨ reason = .ignored

theorem onEndpointDiscovery_changedQos (isReader : Bool) (info : BuiltinTopicData) :
    onEndpointDiscovery isReader .changedQos info = pure () := by
  cases isReader <;> rfl

theorem onEndpointDiscovery_discovered (isReader : Bool) (info : BuiltinTopicData) :
    onEndpointDiscovery isReader .discovered info =
      addEndpoint isReader info.guid info.topicName info.typeName info.participantGuid
        (writerQosConversion info) := by
  -- the conversions set the same policies
  cases isReader <;> rfl

theorem onEndpointDiscovery_removal (isReader : Bool) {reason : EndpointDiscoveryStatus}
    (removal : reason.IsRemoval) (info : BuiltinTopicData) :
    onEndpointDiscovery isReader reason info = mutate (.removeEntity (gidOf info.guid) isReader) := by
  obtain rfl | rfl := removal <;> cases isReader <;> rfl

/-! ## What discovery tells of an endpoint -/

/-- The data carry the endpoint's own guid, names, participant and policies. -/
structure BuiltinTopicData.Describes (info : BuiltinTopicData) (participant : DomainParticipant)
    (endpoint : Endpoint) : Prop where
  guid : info.guid = endpoint.guid
  participantGuid : info.participantGuid = participant.guid
  topicName : info.topicName = endpoint.topicName
  typeName : info.typeName = endpoint.typeName
  durability : info.durability = endpoint.qos.durability
  deadline : info.deadline = endpoint.qos.deadlinePeriod
  liveliness : info.liveliness = ⟨endpoint.qos.liveliness, endpoint.qos.livelinessLeaseDuration⟩
  reliability : info.reliability = endpoint.qos.reliability
  lifespan : info.lifespan = endpoint.qos.lifespanDuration

omit [Rmw] in
/-- The rebuilt QoS is the endpoint's own, in every policy that reaches the rmw profile. -/
theorem writerQosConversion_of_describes {info : BuiltinTopicData} {participant : DomainParticipant}
    {endpoint : Endpoint} (describes : info.Describes participant endpoint) :
    writerQosConversion info = endpoint.qos := by
  simp only [writerQosConversion, describes.durability, describes.deadline, describes.liveliness,
    describes.reliability, describes.lifespan]

/-- The discovery adds the endpoint as the callback of the agent does. -/
theorem onEndpointDiscovery_of_describes (isReader : Bool) {info : BuiltinTopicData}
    {participant : DomainParticipant} {endpoint : Endpoint}
    (describes : info.Describes participant endpoint) :
    onEndpointDiscovery isReader .discovered info =
      addEndpoint isReader endpoint.guid endpoint.topicName endpoint.typeName participant.guid
        endpoint.qos := by
  rw [onEndpointDiscovery_discovered, writerQosConversion_of_describes describes, describes.guid,
    describes.topicName, describes.typeName, describes.participantGuid]

end MicroRosAgent.GraphManager
