import MicroRosAgent.Text.Search

/-! # The profiles generated for ROS 2 messages

A build runs `generate_XML` on the message files of every interface package and joins
the output to one document of profiles, which clients refer to by name.

A profile name joins package, subfolder and message name with `_`, which the first two
may contain themselves; the data type it stands for joins them with `::`.
`unambiguous_iff` says which pairs of files share a name and differ in their types.
-/

namespace MicroRosAgent.Generator

open Text

/-! ## Paths

`os.path` on POSIX.
-/

def basename (path : Text) : Text := (path.reverse.takeWhile (· ≠ '/')).reverse

def dirname (path : Text) : Text :=
  let head := path.reverse.dropWhile (· ≠ '/')
  let stripped := head.dropWhile (· = '/')
  if stripped = [] then head.reverse else stripped.reverse

/-- `os.path.splitext(path)[1]`: from the last dot of the base name on, unless nothing but
    dots stands before it. -/
def extension (path : Text) : Text :=
  let base := (basename path).reverse
  if ((base.dropWhile (· ≠ '.')).dropWhile (· = '.')) = [] then []
  else '.' :: (base.takeWhile (· ≠ '.')).reverse

/-! ## The generator -/

/-- What is read of the specification: `base_type.pkg_name` and `msg_name`. -/
structure MessageSpecification where
  pkgName : Text
  msgName : Text
  deriving DecidableEq, Repr

/-- `rosidl_adapter.parser`; `none` is an exception. -/
class RosidlAdapter where
  parseMessageFile : Text → Text → Option MessageSpecification

/-- The values the format strings of `generate_XML` are filled with. -/
structure MessageFile where
  pkgName : Text
  subfolder : Text
  msgName : Text
  deriving DecidableEq, Repr

namespace MessageFile

/-- `"%s_%s_%s" % (pkg_name, subfolder, msg_name)`. -/
def joined (file : MessageFile) : Text :=
  file.pkgName ++ '_' :: (file.subfolder ++ '_' :: file.msgName)

/-- `"%s::%s::dds_::%s_" % (pkg_name, subfolder, msg_name)`. -/
def dataType (file : MessageFile) : Text :=
  file.pkgName ++ "::".toList ++ file.subfolder ++ "::dds_::".toList ++ file.msgName ++ ['_']

def ros2Prefix : Text := "rt/".toList

def topicName (file : MessageFile) : Text := ros2Prefix ++ file.joined

end MessageFile

inductive ProfileKind where
  | dataWriter | dataReader | topic
  deriving DecidableEq, Repr

def ProfileKind.suffix : ProfileKind → Char
  | .dataWriter => 'p'
  | .dataReader => 's'
  | .topic => 't'

def profileName (kind : ProfileKind) (file : MessageFile) : Text := file.joined ++ ['_', kind.suffix]

/-- The profile of a writer or a reader, with the topic inside. -/
def endpointProfile (element : Text) (kind : ProfileKind) (file : MessageFile) : Text :=
  "   <dds>\n".toList ++
  "       <".toList ++ element ++ " profile_name=\"".toList ++ profileName kind file ++ "\">\n".toList ++
  "           <topic profile_name=\"".toList ++ profileName .topic file ++ "\">\n".toList ++
  "               <kind>NO_KEY</kind>\n".toList ++
  "               <name>".toList ++ file.topicName ++ "</name>\n".toList ++
  "               <dataType>".toList ++ file.dataType ++ "</dataType>\n".toList ++
  "           </topic>\n".toList ++
  "       </".toList ++ element ++ ">\n".toList ++
  "   </dds>\n".toList

def dataWriterProfile : MessageFile → Text := endpointProfile "data_writer".toList .dataWriter

def dataReaderProfile : MessageFile → Text := endpointProfile "data_reader".toList .dataReader

def topicProfile (file : MessageFile) : Text :=
  "   <dds>\n".toList ++
  "       <topic profile_name=\"".toList ++ profileName .topic file ++ "\">\n".toList ++
  "           <name>".toList ++ file.topicName ++ "</name>\n".toList ++
  "           <dataType>".toList ++ file.dataType ++ "</dataType>\n".toList ++
  "       </topic>\n".toList ++
  "   </dds>\n".toList

def fileContent (file : MessageFile) : Text :=
  dataWriterProfile file ++ dataReaderProfile file ++ topicProfile file

section
variable [RosidlAdapter]

def messageFile (pkgName idlFile : Text) : Option MessageFile :=
  (RosidlAdapter.parseMessageFile pkgName idlFile).map fun spec =>
    { pkgName := spec.pkgName, subfolder := basename (dirname idlFile), msgName := spec.msgName }

/-- `generate_XML`: what is printed for the interface files of one package. -/
def generateXml (pkgName : Text) : List Text → Option Text
  | [] => some []
  | idlFile :: idlFiles =>
      if extension idlFile = ".msg".toList then do
        let file ← messageFile pkgName idlFile
        let later ← generateXml pkgName idlFiles
        -- `print` ends the content with a newline
        return fileContent file ++ '\n' :: later
      else generateXml pkgName idlFiles

end

/-! ## Names -/

/-- `[a-z][a-z0-9_]*` without a double or a trailing underscore. -/
structure IsPackageName (name : Text) : Prop where
  nonempty : name ≠ []
  first : ∀ char ∈ name.head?, char.isLower
  chars : ∀ char ∈ name, char.isLower ∨ char.isDigit ∨ char = '_'
  noDouble : ¬ ['_', '_'] <:+: name
  noTrailing : ¬ ['_'] <:+ name

/-- `[A-Z][A-Za-z0-9]*`. -/
structure IsMessageName (name : Text) : Prop where
  nonempty : name ≠ []
  first : ∀ char ∈ name.head?, char.isUpper
  chars : ∀ char ∈ name, char.isAlphanum

structure MessageFile.WellNamed (file : MessageFile) : Prop where
  package : IsPackageName file.pkgName
  message : IsMessageName file.msgName

instance (name : Text) : Decidable (IsPackageName name) :=
  decidable_of_iff (name ≠ [] ∧ name.head?.all Char.isLower ∧
      name.all (fun char => char.isLower || char.isDigit || char = '_') ∧
      ¬ ['_', '_'] <:+: name ∧ ¬ ['_'] <:+ name) <| by
    simp only [Option.all_eq_true, List.all_eq_true, Bool.or_eq_true, decide_eq_true_eq, or_assoc]
    exact ⟨fun ⟨nonempty, first, chars, noDouble, noTrailing⟩ =>
        ⟨nonempty, first, chars, noDouble, noTrailing⟩,
      fun valid => ⟨valid.nonempty, valid.first, valid.chars, valid.noDouble, valid.noTrailing⟩⟩

instance (name : Text) : Decidable (IsMessageName name) :=
  decidable_of_iff (name ≠ [] ∧ name.head?.all Char.isUpper ∧ name.all Char.isAlphanum) <| by
    simp only [Option.all_eq_true, List.all_eq_true]
    exact ⟨fun ⟨nonempty, first, chars⟩ => ⟨nonempty, first, chars⟩,
      fun valid => ⟨valid.nonempty, valid.first, valid.chars⟩⟩

instance (file : MessageFile) : Decidable file.WellNamed :=
  decidable_of_iff (IsPackageName file.pkgName ∧ IsMessageName file.msgName)
    ⟨fun ⟨package, message⟩ => ⟨package, message⟩, fun named => ⟨named.package, named.message⟩⟩

theorem IsPackageName.colonFree {name : Text} (valid : IsPackageName name) : ':' ∉ name := by
  intro member
  exact absurd (valid.chars ':' member) (by decide)

theorem IsMessageName.underscoreFree {name : Text} (valid : IsMessageName name) : '_' ∉ name := by
  intro member
  exact absurd (valid.chars '_' member) (by decide)

/-- Equal names of any kind, of a profile or of a topic, stand for equal data types. -/
structure Unambiguous (first second : MessageFile) : Prop where
  profiles : ∀ kind otherKind, profileName kind first = profileName otherKind second →
    first.dataType = second.dataType
  topics : first.topicName = second.topicName → first.dataType = second.dataType

/-- The second package name goes on where the first one ends, with the words the first
    subfolder begins with. -/
def Overlaps (first second : MessageFile) : Prop :=
  first.msgName = second.msgName ∧ ∃ shared,
    second.pkgName = first.pkgName ++ '_' :: shared ∧
      first.subfolder = shared ++ '_' :: second.subfolder

theorem joined_of_profileName {kind otherKind : ProfileKind} {first second : MessageFile}
    (equal : profileName kind first = profileName otherKind second) : first.joined = second.joined :=
  (List.append_inj' equal rfl).1

theorem joined_of_overlaps {first second : MessageFile} (overlaps : Overlaps first second) :
    first.joined = second.joined := by
  obtain ⟨message, shared, package, subfolder⟩ := overlaps
  simp [MessageFile.joined, message, package, subfolder]

theorem pkgName_of_dataType {first second : MessageFile} (firstNamed : first.WellNamed)
    (secondNamed : second.WellNamed) (equal : first.dataType = second.dataType) :
    first.pkgName = second.pkgName := by
  have cut : ∀ file : MessageFile, file.dataType = file.pkgName ++
      ':' :: (':' :: file.subfolder ++ "::dds_::".toList ++ file.msgName ++ ['_']) := by
    intro file
    simp [MessageFile.dataType]
  -- a package name has no colon, so the first one stands behind it
  rw [cut first, cut second] at equal
  exact (eq_of_cut firstNamed.package.colonFree secondNamed.package.colonFree equal).1

theorem dataType_ne_of_overlaps {first second : MessageFile} (firstNamed : first.WellNamed)
    (secondNamed : second.WellNamed) (overlaps : Overlaps first second) :
    first.dataType ≠ second.dataType := by
  intro equal
  obtain ⟨_, shared, package, _⟩ := overlaps
  have same := pkgName_of_dataType firstNamed secondNamed equal
  rw [package] at same
  simp at same

theorem same_or_overlaps {first second : MessageFile} {gap : Text}
    (message : first.msgName = second.msgName) (package : second.pkgName = first.pkgName ++ gap)
    (subfolder : '_' :: first.subfolder = gap ++ '_' :: second.subfolder) :
    first = second ∨ Overlaps first second := by
  cases gap with
  | nil =>
    simp only [List.append_nil, List.nil_append, List.cons.injEq, true_and] at package subfolder
    cases first
    cases second
    simp_all
  | cons char shared =>
    simp only [List.cons_append, List.cons.injEq] at subfolder
    obtain ⟨rfl, subfolder⟩ := subfolder
    exact Or.inr ⟨message, shared, package, subfolder⟩

/-- Files with one joined name are the same, or one package name goes on in the subfolder
    of the other. -/
theorem joined_cases {first second : MessageFile} (firstNamed : first.WellNamed)
    (secondNamed : second.WellNamed) (equal : first.joined = second.joined) :
    first = second ∨ Overlaps first second ∨ Overlaps second first := by
  have cut : ∀ file : MessageFile, file.joined =
      (file.pkgName ++ '_' :: file.subfolder) ++ '_' :: file.msgName := by
    intro file
    simp [MessageFile.joined]
  -- a message name has no underscore, so the last one stands before it
  rw [cut first, cut second] at equal
  obtain ⟨front, message⟩ := eq_of_lastCut firstNamed.message.underscoreFree
    secondNamed.message.underscoreFree equal
  obtain ⟨gap, package, rest⟩ | ⟨gap, package, rest⟩ := List.append_eq_append_iff.mp front
  · obtain same | overlaps := same_or_overlaps message package rest
    · exact Or.inl same
    · exact Or.inr (Or.inl overlaps)
  · obtain same | overlaps := same_or_overlaps message.symm package rest
    · exact Or.inl same.symm
    · exact Or.inr (Or.inr overlaps)

/-- Two files have unambiguous names exactly if neither package name goes on in the
    subfolder of the other, with one message name. -/
theorem unambiguous_iff {first second : MessageFile} (firstNamed : first.WellNamed)
    (secondNamed : second.WellNamed) :
    Unambiguous first second ↔ ¬ Overlaps first second ∧ ¬ Overlaps second first := by
  constructor
  · intro unambiguous
    constructor
    · intro overlaps
      refine dataType_ne_of_overlaps firstNamed secondNamed overlaps (unambiguous.topics ?_)
      exact congrArg (MessageFile.ros2Prefix ++ ·) (joined_of_overlaps overlaps)
    · intro overlaps
      refine dataType_ne_of_overlaps secondNamed firstNamed overlaps (unambiguous.topics ?_).symm
      exact congrArg (MessageFile.ros2Prefix ++ ·) (joined_of_overlaps overlaps).symm
  · intro ⟨apart, otherApart⟩
    have types : first.joined = second.joined → first.dataType = second.dataType := by
      intro equal
      obtain rfl | overlaps | overlaps := joined_cases firstNamed secondNamed equal
      · rfl
      · exact absurd overlaps apart
      · exact absurd overlaps otherApart
    exact ⟨fun kind otherKind equal => types (joined_of_profileName equal),
      fun equal => types (List.append_cancel_left equal)⟩

end MicroRosAgent.Generator

/-! ## Two packages with one profile name -/

namespace MicroRosAgent.Generator

/-- The parser on valid files: the message is named after its file. -/
abbrev referenceAdapter : RosidlAdapter where
  parseMessageFile pkgName idlFile :=
    some { pkgName, msgName := (basename idlFile).takeWhile (· ≠ '.') }

attribute [local instance] referenceAdapter

abbrev samplePoint : MessageFile :=
  { pkgName := "geometry_msgs".toList, subfolder := "msg".toList, msgName := "Point".toList }

abbrev sampleLog : MessageFile :=
  { pkgName := "rcl_interfaces".toList, subfolder := "msg".toList, msgName := "Log".toList }

theorem unambiguous_iff_sample :
    Unambiguous samplePoint sampleLog ↔
      ¬ Overlaps samplePoint sampleLog ∧ ¬ Overlaps sampleLog samplePoint :=
  unambiguous_iff (by decide) (by decide)

theorem two_types_one_profile : ∃ first second,
    messageFile "a".toList "/src/a/b_msg/M.msg".toList = some first ∧
      messageFile "a_b".toList "/src/a_b/msg/M.msg".toList = some second ∧
      first.WellNamed ∧ second.WellNamed ∧ ¬ Unambiguous first second := by
  refine ⟨⟨"a".toList, "b_msg".toList, "M".toList⟩, ⟨"a_b".toList, "msg".toList, "M".toList⟩,
    by decide, by decide, by decide, by decide, ?_⟩
  intro unambiguous
  exact absurd (unambiguous.profiles .topic .topic (by decide)) (by decide)

end MicroRosAgent.Generator
