import Mathlib.Data.List.Basic

/-! # Quality of service

The policies of a Fast DDS endpoint that reach ROS 2, and their conversion to the
rmw profile stored with the entity.  Writers and readers share one record: the
conversion is a template over the two and reads the same policies of both.
-/

namespace MicroRosAgent.GraphManager

inductive ReliabilityKind where
  | bestEffort | reliable
  deriving DecidableEq, Repr

inductive DurabilityKind where
  | volatile | transientLocal | transient | persistent
  deriving DecidableEq, Repr

inductive LivelinessKind where
  | automatic | manualByParticipant | manualByTopic
  deriving DecidableEq, Repr

/-- `eprosima::fastdds::dds::Duration_t`: signed seconds. -/
structure Duration where
  seconds : Int32
  nanosec : UInt32
  deriving DecidableEq, Repr

structure FastDdsQos where
  reliability : ReliabilityKind
  durability : DurabilityKind
  deadlinePeriod : Duration
  lifespanDuration : Duration
  liveliness : LivelinessKind
  livelinessLeaseDuration : Duration
  deriving DecidableEq, Repr

inductive RmwReliability where
  | bestEffort | reliable | unknown
  deriving DecidableEq, Repr

inductive RmwDurability where
  | transientLocal | volatile | unknown
  deriving DecidableEq, Repr

inductive RmwLiveliness where
  | automatic | manualByTopic | unknown
  deriving DecidableEq, Repr

inductive RmwHistory where
  | unknown
  deriving DecidableEq, Repr

structure RmwTime where
  sec : UInt64
  nsec : UInt64
  deriving DecidableEq, Repr

structure RmwQosProfile where
  history : RmwHistory
  depth : Nat
  reliability : RmwReliability
  durability : RmwDurability
  deadline : RmwTime
  lifespan : RmwTime
  liveliness : RmwLiveliness
  livelinessLeaseDuration : RmwTime
  avoidRosNamespaceConventions : Bool
  deriving DecidableEq, Repr

def rmwQosProfileUnknown : RmwQosProfile where
  history := .unknown
  depth := 0
  reliability := .unknown
  durability := .unknown
  deadline := ⟨0, 0⟩
  lifespan := ⟨0, 0⟩
  liveliness := .unknown
  livelinessLeaseDuration := ⟨0, 0⟩
  avoidRosNamespaceConventions := false

-- `uint64_t = int32_t`: negative seconds wrap.
def toRmwTime (duration : Duration) : RmwTime :=
  ⟨UInt64.ofInt duration.seconds.toInt, duration.nanosec.toUInt64⟩

/-- `GraphManager::fastdds_qos_to_rmw_qos`. -/
def fastddsQosToRmwQos (fastddsQos : FastDdsQos) : RmwQosProfile :=
  { rmwQosProfileUnknown with
    reliability := match fastddsQos.reliability with
      | .bestEffort => .bestEffort
      | .reliable => .reliable
    durability := match fastddsQos.durability with
      | .transientLocal => .transientLocal
      | .volatile => .volatile
      | .transient | .persistent => .unknown
    deadline := toRmwTime fastddsQos.deadlinePeriod
    lifespan := toRmwTime fastddsQos.lifespanDuration
    liveliness := match fastddsQos.liveliness with
      | .automatic => .automatic
      | .manualByTopic => .manualByTopic
      | .manualByParticipant => .unknown
    livelinessLeaseDuration := toRmwTime fastddsQos.livelinessLeaseDuration }

end MicroRosAgent.GraphManager
