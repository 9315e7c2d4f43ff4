import MicroRosAgent.Generator.Collection
import MicroRosAgent.Text.Markup

/-! # The document of profiles

The build puts the default profiles of the `resource` directory and the output of the
generator for every package into one file, `DEFAULT_FASTRTPS_PROFILES.xml`.

`read_xmlDoc` — a reader of elements finds in its text one element `profiles`, with the
default profiles and then three profiles for each message file, in the order of the files.
-/

namespace MicroRosAgent.Generator

open Text Markup

/-! ## The text the build writes -/

/-- The `.xml` files of a directory, in the order in which `os.listdir` names them. -/
def defaultXmls : Listing → List Text
  | [] => []
  | (name, .file content) :: rest =>
      if ".xml".toList <:+ name then content :: defaultXmls rest else defaultXmls rest
  | (_, .directory _) :: rest => defaultXmls rest

/-- `ReadDefaultXMLs`: `print` ends each file with a newline. -/
def readDefaultXmls (resource : Listing) : Text := printLines (defaultXmls resource)

section
variable [RosidlAdapter]

/-- `_XmlDoc`, as it is written at the end. -/
def xmlDoc (resource : Listing) (calls : List (Text × List Text)) : Option Text := do
  let generated ← calls.mapM fun call => generateXml call.1 call.2
  return "<profiles>\n".toList ++ (readDefaultXmls resource ++ generated.flatten) ++
    "</profiles>\n".toList

/-- The message files the generator is called with. -/
def messageFiles (calls : List (Text × List Text)) : Option (List MessageFile) :=
  ((handedOver calls).filter fun file => extension file.2 = ".msg".toList).mapM fun file =>
    messageFile file.1 file.2

end

/-! ## The elements of a profile -/

def ProfileKind.element : ProfileKind → Text
  | .dataWriter => "data_writer".toList
  | .dataReader => "data_reader".toList
  | .topic => "topic".toList

def profileTag (kind : ProfileKind) (file : MessageFile) : Attributes :=
  [("profile_name".toList, profileName kind file)]

def topicFields (file : MessageFile) : List Node :=
  [.leaf "name".toList [] file.topicName, .leaf "dataType".toList [] file.dataType]

def profileElement (kind : ProfileKind) (file : MessageFile) : Node :=
  match kind with
  | .topic => .group kind.element (profileTag kind file) (topicFields file)
  | .dataWriter | .dataReader =>
      .group kind.element (profileTag kind file)
        [.group "topic".toList (profileTag .topic file)
          (.leaf "kind".toList [] "NO_KEY".toList :: topicFields file)]

def profileNode (kind : ProfileKind) (file : MessageFile) : Node :=
  .group "dds".toList [] [profileElement kind file]

def profileNodes (file : MessageFile) : List Node :=
  [.dataWriter, .dataReader, .topic].map fun kind => profileNode kind file

/-- Directories and names without markup in them. -/
structure MessageFile.Plain (file : MessageFile) : Prop where
  pkgName : IsValue file.pkgName
  subfolder : IsValue file.subfolder
  msgName : IsValue file.msgName

namespace MessageFile.Plain

variable {file : MessageFile}

theorem joined (plain : file.Plain) : IsValue file.joined := by
  simp only [MessageFile.joined, isValue_append, isValue_cons]
  exact ⟨plain.pkgName, by decide, plain.subfolder, by decide, plain.msgName⟩

theorem topicName (plain : file.Plain) : IsValue file.topicName :=
  isValue_append.mpr ⟨by decide, plain.joined⟩

theorem dataType (plain : file.Plain) : IsValue file.dataType := by
  simp only [MessageFile.dataType, isValue_append]
  exact ⟨⟨⟨⟨⟨plain.pkgName, by decide⟩, plain.subfolder⟩, by decide⟩, plain.msgName⟩, by decide⟩

theorem profileName (plain : file.Plain) (kind : ProfileKind) :
    IsValue (profileName kind file) := by
  refine isValue_append.mpr ⟨plain.joined, ?_⟩
  cases kind <;> decide

theorem isTag (plain : file.Plain) (kind : ProfileKind) {name : Text} (named : IsTagName name) :
    IsTag name (profileTag kind file) := by
  have key : IsTagName "profile_name".toList := by decide
  exact ⟨named, List.forall_mem_singleton.mpr ⟨key, plain.profileName kind⟩⟩

end MessageFile.Plain

theorem isTag_of_name {name : Text} (named : IsTagName name) : IsTag name [] :=
  ⟨named, List.forall_mem_nil _⟩

theorem not_blank {text : Text} {char : Char} (member : char ∈ text) (solid : isSpace char = false) :
    ¬ Blank text := by
  intro blank
  exact absurd (blank char member) (by simp [solid])

theorem solid_topicName (file : MessageFile) : ¬ Blank file.topicName := by
  have first : 'r' ∈ file.topicName := List.mem_append_left _ (by decide)
  exact not_blank first (by decide)

theorem solid_dataType (file : MessageFile) : ¬ Blank file.dataType := by
  have colon : ':' ∈ file.dataType := by simp [MessageFile.dataType]
  exact not_blank colon (by decide)

/-! ## The texts of profiles -/

def spaces (count : Nat) : Text := List.replicate count ' '

/-- The end of a line and the start of the next one. -/
def newLine (count : Nat) : Text := ['\n'] ++ spaces count

theorem blank_spaces (count : Nat) : Blank (spaces count) := by
  intro char member
  rw [List.eq_of_mem_replicate member]
  decide

theorem blank_end : Blank ['\n'] := List.forall_mem_singleton.mpr (by decide)

theorem blank_newLine (count : Nat) : Blank (newLine count) :=
  blank_end.append (blank_spaces count)

theorem ddsStart : "   <dds>\n".toList = spaces 3 ++ (startTag "dds".toList [] ++ ['\n']) := by
  decide

theorem ddsEnd : "   </dds>\n".toList = spaces 3 ++ (endTag "dds".toList ++ ['\n']) := by
  decide

theorem topicProfile_eq (file : MessageFile) :
    topicProfile file = spaces 3 ++ (startTag "dds".toList [] ++
      ((newLine 7 ++ (startTag "topic".toList (profileTag .topic file) ++
        ((newLine 11 ++ (startTag "name".toList [] ++ (file.topicName ++ (endTag "name".toList ++
          (newLine 11 ++ (startTag "dataType".toList [] ++ (file.dataType ++
            (endTag "dataType".toList ++ newLine 7)))))))) ++
        (endTag "topic".toList ++ newLine 3)))) ++
      (endTag "dds".toList ++ ['\n']))) := by
  have lines : topicProfile file = "   <dds>\n".toList ++
      (("       <topic profile_name=\"".toList ++ profileName .topic file ++ "\">\n".toList) ++
      (("           <name>".toList ++ file.topicName ++ "</name>\n".toList) ++
      (("           <dataType>".toList ++ file.dataType ++ "</dataType>\n".toList) ++
      ("       </topic>\n".toList ++ "   </dds>\n".toList)))) := by
    unfold topicProfile
    simp only [List.append_assoc]
  have topicStart : "       <topic profile_name=\"".toList ++ profileName .topic file ++
      "\">\n".toList =
        spaces 7 ++ (startTag "topic".toList (profileTag .topic file) ++ ['\n']) := by
    simp [spaces, List.replicate, startTag, profileTag, printAttribute, quote]
  have name : "           <name>".toList ++ file.topicName ++ "</name>\n".toList =
      spaces 11 ++ (startTag "name".toList [] ++ (file.topicName ++
        (endTag "name".toList ++ ['\n']))) := by
    simp [spaces, List.replicate, startTag, endTag]
  have dataType : "           <dataType>".toList ++ file.dataType ++ "</dataType>\n".toList =
      spaces 11 ++ (startTag "dataType".toList [] ++ (file.dataType ++
        (endTag "dataType".toList ++ ['\n']))) := by
    simp [spaces, List.replicate, startTag, endTag]
  have topicEnd : "       </topic>\n".toList =
      spaces 7 ++ (endTag "topic".toList ++ ['\n']) := by decide
  rw [lines, ddsStart, topicStart, name, dataType, topicEnd, ddsEnd]
  simp only [newLine, List.append_assoc]

theorem endpointProfile_eq (element : Text) (kind : ProfileKind) (file : MessageFile) :
    endpointProfile element kind file = spaces 3 ++ (startTag "dds".toList [] ++
      ((newLine 7 ++ (startTag element (profileTag kind file) ++
        ((newLine 11 ++ (startTag "topic".toList (profileTag .topic file) ++
          ((newLine 15 ++ (startTag "kind".toList [] ++ ("NO_KEY".toList ++ (endTag "kind".toList ++
            (newLine 15 ++ (startTag "name".toList [] ++ (file.topicName ++ (endTag "name".toList ++
              (newLine 15 ++ (startTag "dataType".toList [] ++ (file.dataType ++
                (endTag "dataType".toList ++ newLine 11)))))))))))) ++
          (endTag "topic".toList ++ newLine 7)))) ++
        (endTag element ++ newLine 3)))) ++
      (endTag "dds".toList ++ ['\n']))) := by
  have lines : endpointProfile element kind file = "   <dds>\n".toList ++
      (("       <".toList ++ element ++ " profile_name=\"".toList ++ profileName kind file ++
        "\">\n".toList) ++
      (("           <topic profile_name=\"".toList ++ profileName .topic file ++
        "\">\n".toList) ++
      ("               <kind>NO_KEY</kind>\n".toList ++
      (("               <name>".toList ++ file.topicName ++ "</name>\n".toList) ++
      (("               <dataType>".toList ++ file.dataType ++ "</dataType>\n".toList) ++
      ("           </topic>\n".toList ++ (("       </".toList ++ element ++ ">\n".toList) ++
      "   </dds>\n".toList))))))) := by
    unfold endpointProfile
    simp only [List.append_assoc]
  have elementStart : "       <".toList ++ element ++ " profile_name=\"".toList ++
      profileName kind file ++ "\">\n".toList =
        spaces 7 ++ (startTag element (profileTag kind file) ++ ['\n']) := by
    simp [spaces, List.replicate, startTag, profileTag, printAttribute, quote]
  have topicStart : "           <topic profile_name=\"".toList ++ profileName .topic file ++
      "\">\n".toList =
        spaces 11 ++ (startTag "topic".toList (profileTag .topic file) ++ ['\n']) := by
    simp [spaces, List.replicate, startTag, profileTag, printAttribute, quote]
  have kindLine : "               <kind>NO_KEY</kind>\n".toList =
      spaces 15 ++ (startTag "kind".toList [] ++ ("NO_KEY".toList ++
        (endTag "kind".toList ++ ['\n']))) := by decide
  have name : "               <name>".toList ++ file.topicName ++ "</name>\n".toList =
      spaces 15 ++ (startTag "name".toList [] ++ (file.topicName ++
        (endTag "name".toList ++ ['\n']))) := by
    simp [spaces, List.replicate, startTag, endTag]
  have dataType : "               <dataType>".toList ++ file.dataType ++ "</dataType>\n".toList =
      spaces 15 ++ (startTag "dataType".toList [] ++ (file.dataType ++
        (endTag "dataType".toList ++ ['\n']))) := by
    simp [spaces, List.replicate, startTag, endTag]
  have topicEnd : "           </topic>\n".toList =
      spaces 11 ++ (endTag "topic".toList ++ ['\n']) := by decide
  have elementEnd : "       </".toList ++ element ++ ">\n".toList =
      spaces 7 ++ (endTag element ++ ['\n']) := by
    simp [spaces, List.replicate, endTag]
  rw [lines, ddsStart, elementStart, topicStart, kindLine, name, dataType, topicEnd, elementEnd,
    ddsEnd]
  simp only [newLine, List.append_assoc]

/-! ## What a reader finds in them -/

section
variable {file : MessageFile} (plain : file.Plain)
include plain

theorem spells_topicProfile : Spells [profileNode .topic file] (topicProfile file) := by
  rw [topicProfile_eq]
  refine .group (blank_spaces 3) (isTag_of_name (by decide)) ?_ (.nil blank_end)
  refine .group (blank_newLine 7) (plain.isTag .topic (by decide)) ?_ (.nil (blank_newLine 3))
  refine .leaf (blank_newLine 11) (isTag_of_name (by decide)) plain.topicName
    (solid_topicName file) ?_
  exact .leaf (blank_newLine 11) (isTag_of_name (by decide)) plain.dataType (solid_dataType file)
    (.nil (blank_newLine 7))

theorem spells_endpointProfile {element : Text} {kind : ProfileKind}
    (named : IsTagName element) :
    Spells [.group "dds".toList [] [.group element (profileTag kind file)
        [.group "topic".toList (profileTag .topic file)
          (.leaf "kind".toList [] "NO_KEY".toList :: topicFields file)]]]
      (endpointProfile element kind file) := by
  rw [endpointProfile_eq]
  refine .group (blank_spaces 3) (isTag_of_name (by decide)) ?_ (.nil blank_end)
  refine .group (blank_newLine 7) (plain.isTag kind named) ?_ (.nil (blank_newLine 3))
  refine .group (blank_newLine 11) (plain.isTag .topic (by decide)) ?_ (.nil (blank_newLine 7))
  have solidKind : ¬ Blank "NO_KEY".toList := not_blank List.mem_cons_self (by decide)
  refine .leaf (blank_newLine 15) (isTag_of_name (by decide)) (by decide) solidKind ?_
  refine .leaf (blank_newLine 15) (isTag_of_name (by decide)) plain.topicName
    (solid_topicName file) ?_
  exact .leaf (blank_newLine 15) (isTag_of_name (by decide)) plain.dataType (solid_dataType file)
    (.nil (blank_newLine 11))

theorem spells_fileContent : Spells (profileNodes file) (fileContent file) :=
  ((spells_endpointProfile plain (by decide)).append
    (spells_endpointProfile plain (by decide))).append (spells_topicProfile plain)

end

/-! ## The document -/

/-- What is printed for a list of message files. -/
def printedFiles (files : List MessageFile) : Text :=
  files.flatMap fun file => fileContent file ++ ['\n']

theorem spells_printedFiles {files : List MessageFile} (plain : ∀ file ∈ files, file.Plain) :
    Spells (files.flatMap profileNodes) (printedFiles files) := by
  induction files with
  | nil => exact .nil blank_nil
  | cons file files ih =>
    obtain ⟨here, later⟩ := List.forall_mem_cons.mp plain
    exact ((spells_fileContent here).append (.nil blank_end)).append (ih later)

theorem spells_readDefaultXmls {contents : List Text} {defaults : List (List Node)}
    (spelled : List.Forall₂ Spells defaults contents) :
    Spells defaults.flatten (printLines contents) := by
  induction spelled with
  | nil => exact .nil blank_nil
  | cons here _ ih =>
    have element := (here.append (.nil blank_end)).append ih
    rwa [List.append_nil] at element

section
variable [RosidlAdapter]

theorem generateXml_eq (pkgName : Text) (idlFiles : List Text) :
    generateXml pkgName idlFiles =
      ((idlFiles.filter fun idlFile => extension idlFile = ".msg".toList).mapM
        (messageFile pkgName)).map printedFiles := by
  induction idlFiles with
  | nil => rfl
  | cons idlFile idlFiles ih =>
    by_cases isMessage : extension idlFile = ".msg".toList
    · rw [generateXml, if_pos isMessage, ih, List.filter_cons_of_pos (by simpa using isMessage),
        List.mapM_cons]
      cases messageFile pkgName idlFile with
      | none => rfl
      | some file =>
        cases (idlFiles.filter fun idlFile => extension idlFile = ".msg".toList).mapM
            (messageFile pkgName) with
        | none => rfl
        | some files => simp [printedFiles]
    · rw [generateXml, if_neg isMessage, ih, List.filter_cons_of_neg (by simpa using isMessage)]

theorem messageFiles_cons (call : Text × List Text) (calls : List (Text × List Text)) :
    messageFiles (call :: calls) = do
      let here ← (call.2.filter fun idlFile => extension idlFile = ".msg".toList).mapM
        (messageFile call.1)
      let later ← messageFiles calls
      return here ++ later := by
  simp only [messageFiles, handedOver, List.flatMap_cons, List.filter_append, List.mapM_append,
    List.filter_map, List.mapM_map]
  rfl

theorem generated_eq (calls : List (Text × List Text)) :
    (calls.mapM fun call => generateXml call.1 call.2).map List.flatten =
      (messageFiles calls).map printedFiles := by
  induction calls with
  | nil => rfl
  | cons call calls ih =>
    rw [List.mapM_cons, messageFiles_cons, generateXml_eq]
    cases (call.2.filter fun idlFile => extension idlFile = ".msg".toList).mapM
        (messageFile call.1) with
    | none => rfl
    | some here =>
      cases files : messageFiles calls with
      | none =>
        rw [files] at ih
        have fails := Option.map_eq_none_iff.mp ih
        simp [fails]
      | some later =>
        rw [files] at ih
        obtain ⟨generated, ran, isText⟩ := Option.map_eq_some_iff.mp ih
        simp [ran, isText, printedFiles]

/-- The elements of the document: the default profiles and those of the message files. -/
def profilesNode (defaults : List (List Node)) (files : List MessageFile) : Node :=
  .group "profiles".toList [] (defaults.flatten ++ files.flatMap profileNodes)

/-- The build writes a document if every message file can be parsed, and a reader finds in it
the default profiles and three profiles for each file. -/
theorem read_xmlDoc {resource : Listing} {defaults : List (List Node)}
    (spelled : List.Forall₂ Spells defaults (defaultXmls resource))
    {calls : List (Text × List Text)} {files : List MessageFile}
    (parsed : messageFiles calls = some files) (plain : ∀ file ∈ files, file.Plain) :
    ∃ document, xmlDoc resource calls = some document ∧
      read document = some [profilesNode defaults files] := by
  have ran := generated_eq calls
  rw [parsed] at ran
  obtain ⟨generated, isGenerated, isText⟩ := Option.map_eq_some_iff.mp ran
  have written : xmlDoc resource calls = some ("<profiles>\n".toList ++
      (readDefaultXmls resource ++ printedFiles files) ++ "</profiles>\n".toList) := by
    rw [xmlDoc, isGenerated, ← isText]
    rfl
  have start : "<profiles>\n".toList = startTag "profiles".toList [] ++ ['\n'] := by decide
  have close : "</profiles>\n".toList = endTag "profiles".toList ++ ['\n'] := by decide
  have inside := (spells_readDefaultXmls spelled).append (spells_printedFiles plain)
  have whole : Spells [profilesNode defaults files] ([] ++ (startTag "profiles".toList [] ++
      ((['\n'] ++ (readDefaultXmls resource ++ printedFiles files)) ++
        (endTag "profiles".toList ++ ['\n'])))) :=
    .group blank_nil (isTag_of_name (by decide)) (inside.indented blank_end) (.nil blank_end)
  refine ⟨_, written, ?_⟩
  rw [start, close]
  simp only [List.nil_append, List.append_assoc] at whole ⊢
  exact read_of_spells whole

end

end MicroRosAgent.Generator

/-! ## A default profile and one message -/

namespace MicroRosAgent.Generator

open Text Markup

attribute [local instance] referenceAdapter

/-- The second profile of `rclcpp.xml`. -/
def clockProfile : Text :=
  "     <topic profile_name=\"clock_t\">\n".toList ++
  "        <name>rt/clock</name>\n".toList ++
  "        <dataType>rosgraph_msgs::msg::dds_::Clock_</dataType>\n".toList ++
  "    </topic>\n".toList

abbrev clockNode : Node :=
  .group "topic".toList [("profile_name".toList, "clock_t".toList)]
    [.leaf "name".toList [] "rt/clock".toList,
      .leaf "dataType".toList [] "rosgraph_msgs::msg::dds_::Clock_".toList]

theorem spells_clockProfile : Spells [clockNode] clockProfile := by
  have lines : clockProfile = spaces 5 ++ (startTag "topic".toList
      [("profile_name".toList, "clock_t".toList)] ++
        ((newLine 8 ++ (startTag "name".toList [] ++ ("rt/clock".toList ++ (endTag "name".toList ++
          (newLine 8 ++ (startTag "dataType".toList [] ++
            ("rosgraph_msgs::msg::dds_::Clock_".toList ++
              (endTag "dataType".toList ++ newLine 4)))))))) ++
      (endTag "topic".toList ++ ['\n']))) := by decide
  have isTag : IsTag "topic".toList [("profile_name".toList, "clock_t".toList)] :=
    ⟨by decide, List.forall_mem_singleton.mpr (by decide)⟩
  rw [lines]
  refine .group (blank_spaces 5) isTag ?_ (.nil blank_end)
  refine .leaf (blank_newLine 8) (isTag_of_name (by decide)) (by decide)
    (not_blank List.mem_cons_self (by decide)) ?_
  exact .leaf (blank_newLine 8) (isTag_of_name (by decide)) (by decide)
    (not_blank List.mem_cons_self (by decide)) (.nil (blank_newLine 4))

/-- The other file of the directory is not a profile. -/
def sampleResource : Listing :=
  [("rclcpp.xml".toList, .file clockProfile), ("README.md".toList, .file [])]

theorem read_xmlDoc_sample : ∃ document,
    xmlDoc sampleResource [("geometry_msgs".toList,
        ["/src/geometry_msgs/msg/Point.msg".toList, "/src/geometry_msgs/LICENSE".toList])] =
      some document ∧
      read document = some [profilesNode [[clockNode]] [samplePoint]] :=
  read_xmlDoc (.cons spells_clockProfile .nil) (by decide) <|
    List.forall_mem_singleton.mpr ⟨by decide, by decide, by decide⟩

end MicroRosAgent.Generator
