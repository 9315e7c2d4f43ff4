import MicroRosAgent.GraphCache.Interface

/-! # What the agent sees of the middleware

The DDS objects the XRCE agent hands to the callbacks, reduced to what the callbacks
read of them, and the helper functions of the rmw libraries.  The latter are not part
of this repository: `Rmw` names those that are called, `LawfulGids`,
`LawfulNamespacePrefix` and `LawfulFindAndReplace` state what is documented of them.
-/

namespace MicroRosAgent

open GraphManager (FastDdsQos)

/-- `eprosima::fastdds::rtps::GUID_t`. -/
structure Guid where
  value : Nat
  deriving DecidableEq, Repr

/-- A participant as a `const DomainParticipant*`: `handle` is the pointer, the rest
    is read through it. -/
structure DomainParticipant where
  handle : Nat
  domainId : Nat
  guid : Guid
  name : Text
  deriving DecidableEq, Repr

/-- A datawriter or a datareader.  The callbacks get a reader's `guid` from its
    instance handle. -/
structure Endpoint where
  guid : Guid
  topicName : Text
  typeName : Text
  qos : FastDdsQos
  deriving DecidableEq, Repr

class Rmw where
  createRmwGid : Text → Guid → Gid
  parseKeyValue : List UInt8 → Text → Option (List UInt8)
  resolvePrefix : Text → Text → Text
  stripRosPrefixIfExists : Text → Text
  rosTopicPrefix : Text
  rosServiceRequesterPrefix : Text
  rosServiceResponsePrefix : Text
  findAndReplace : Text → Text → Text → Text

class LawfulGids [Rmw] : Prop where
  createRmwGid_injective : ∀ identifier, Function.Injective (Rmw.createRmwGid identifier)

class LawfulNamespacePrefix [Rmw] : Prop where
  resolvePrefix : ∀ name namePrefix, Rmw.resolvePrefix name namePrefix =
    if namePrefix ++ ['/'] <+: name then name.drop namePrefix.length else []
  rosTopicPrefix : Rmw.rosTopicPrefix = "rt".toList
  rosServiceRequesterPrefix : Rmw.rosServiceRequesterPrefix = "rq".toList
  rosServiceResponsePrefix : Rmw.rosServiceResponsePrefix = "rr".toList

/-- All occurrences that do not overlap are replaced, from left to right. -/
class LawfulFindAndReplace [Rmw] : Prop where
  absent : ∀ input pattern replacement, Text.find pattern input = none →
    Rmw.findAndReplace input pattern replacement = input
  first : ∀ input pattern replacement position, pattern ≠ [] →
    Text.find pattern input = some position →
      Rmw.findAndReplace input pattern replacement =
        input.take position ++ replacement ++
          Rmw.findAndReplace (input.drop (position + pattern.length)) pattern replacement

variable [Rmw]

def gidOf (guid : Guid) : Gid := Rmw.createRmwGid "rmw_fastrtps_cpp".toList guid

def DomainParticipant.gid (participant : DomainParticipant) : Gid := gidOf participant.guid

def Endpoint.gid (endpoint : Endpoint) : Gid := gidOf endpoint.guid

theorem gidOf_injective [LawfulGids] : Function.Injective gidOf :=
  LawfulGids.createRmwGid_injective _

end MicroRosAgent

/-! ## A reference implementation -/

namespace MicroRosAgent

namespace ReferenceRmw

/-- The value of the first `key=value` item of a list separated by semicolons. -/
def parseKeyValue (userData : List UInt8) (key : Text) : Option (List UInt8) :=
  let text := userData.map fun byte => Char.ofNat byte.toNat
  let items := text.splitOn ';'
  (items.find? fun item => key ++ ['='] <+: item).map fun item =>
    (item.drop (key.length + 1)).map fun char => UInt8.ofNat char.toNat

def resolvePrefix (name namePrefix : Text) : Text :=
  if namePrefix ++ ['/'] <+: name then name.drop namePrefix.length else []

def rosPrefixes : List Text := ["rt".toList, "rq".toList, "rr".toList]

def stripRosPrefixIfExists (topicName : Text) : Text :=
  match rosPrefixes.find? fun rosPrefix => rosPrefix ++ ['/'] <+: topicName with
  | some rosPrefix => topicName.drop rosPrefix.length
  | none => topicName

/-- Each occurrence of `pattern`, from the left, is replaced; `skip` characters of the
    last one are still to be passed over. -/
def replaceFrom (pattern replacement : Text) : Nat → Text → Text
  | _, [] => []
  | skip + 1, _ :: rest => replaceFrom pattern replacement skip rest
  | 0, char :: rest =>
      if pattern <+: char :: rest then
        replacement ++ replaceFrom pattern replacement (pattern.length - 1) rest
      else char :: replaceFrom pattern replacement 0 rest

def findAndReplace (input pattern replacement : Text) : Text :=
  if pattern = [] then input else replaceFrom pattern replacement 0 input

def participant (value : Nat) (name : Text) : DomainParticipant :=
  { handle := value, domainId := 0, guid := ⟨value⟩, name }

def endpoint (value : Nat) (topicName typeName : Text) : Endpoint :=
  { guid := ⟨value⟩
    topicName
    typeName
    qos :=
      { reliability := .reliable
        durability := .volatile
        deadlinePeriod := ⟨0, 0⟩
        lifespanDuration := ⟨0, 0⟩
        liveliness := .automatic
        livelinessLeaseDuration := ⟨0, 0⟩ } }

end ReferenceRmw

abbrev referenceRmw : Rmw where
  createRmwGid _ guid := ⟨guid.value⟩
  parseKeyValue := ReferenceRmw.parseKeyValue
  resolvePrefix := ReferenceRmw.resolvePrefix
  stripRosPrefixIfExists := ReferenceRmw.stripRosPrefixIfExists
  rosTopicPrefix := "rt".toList
  rosServiceRequesterPrefix := "rq".toList
  rosServiceResponsePrefix := "rr".toList
  findAndReplace := ReferenceRmw.findAndReplace

theorem referenceRmw_lawfulGids : @LawfulGids referenceRmw :=
  @LawfulGids.mk referenceRmw fun _ first second equal => by
    cases first
    cases second
    cases equal
    rfl

theorem referenceRmw_lawfulNamespacePrefix : @LawfulNamespacePrefix referenceRmw :=
  @LawfulNamespacePrefix.mk referenceRmw (fun _ _ => rfl) rfl rfl rfl

namespace ReferenceRmw

theorem replaceFrom_skip (pattern replacement : Text) (skip : Nat) (text : Text) :
    replaceFrom pattern replacement skip text = replaceFrom pattern replacement 0 (text.drop skip) := by
  induction skip generalizing text with
  | zero => rfl
  | succ skip ih =>
    cases text with
    | nil => simp [replaceFrom]
    | cons char rest => simp [replaceFrom, ih]

theorem replaceFrom_absent {pattern text : Text} (replacement : Text)
    (absent : Text.find pattern text = none) : replaceFrom pattern replacement 0 text = text := by
  induction text with
  | nil => rfl
  | cons char rest ih =>
    rw [Text.find_eq_none_iff, List.infix_cons_iff, not_or, ← Text.find_eq_none_iff] at absent
    simp [replaceFrom, absent.1, ih absent.2]

theorem replaceFrom_first {pattern text : Text} (replacement : Text) {position : Nat}
    (nonempty : pattern ≠ []) (found : Text.find pattern text = some position) :
    replaceFrom pattern replacement 0 text =
      text.take position ++ replacement ++
        replaceFrom pattern replacement 0 (text.drop (position + pattern.length)) := by
  induction text generalizing position with
  | nil => simp [Text.find, nonempty] at found
  | cons char rest ih =>
    simp only [Text.find] at found
    split at found
    · rename_i here
      cases found
      obtain ⟨head, tail, rfl⟩ := List.exists_cons_of_ne_nil nonempty
      simp [replaceFrom, here, replaceFrom_skip (head :: tail) replacement tail.length]
    · rename_i absent
      obtain ⟨before, earlier, rfl⟩ := Option.map_eq_some_iff.mp found
      simp [replaceFrom, absent, ih earlier, Nat.add_right_comm before 1]

end ReferenceRmw

theorem referenceRmw_lawfulFindAndReplace : @LawfulFindAndReplace referenceRmw :=
  @LawfulFindAndReplace.mk referenceRmw
    (fun input pattern replacement absent => by
      by_cases empty : pattern = []
      · exact if_pos empty
      · exact (if_neg empty).trans (ReferenceRmw.replaceFrom_absent replacement absent))
    (fun input pattern replacement position nonempty found => by
      have replaced : ∀ text, ReferenceRmw.findAndReplace text pattern replacement =
          ReferenceRmw.replaceFrom pattern replacement 0 text := fun text => if_neg nonempty
      show ReferenceRmw.findAndReplace input pattern replacement = _
      rw [replaced, ReferenceRmw.replaceFrom_first replacement nonempty found, ← replaced]
      rfl)

end MicroRosAgent
