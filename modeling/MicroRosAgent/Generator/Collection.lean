import MicroRosAgent.Generator.Workspace
import Mathlib.Data.List.Count
import Mathlib.Data.List.DropRight

/-! # What the build hands to the generator

`CMakeLists.txt` runs a script that prints the interface packages with their names, and
another one for each of them that prints its message files.  The output comes back as text:
lines become elements of a list, and `path,name` becomes its two fields.  The message files
of a package are kept in a variable that is called after the package.

`generated_once_iff` says when every message file is handed to the generator exactly once:
when no two packages with message files, or with and without, have one name.
-/

namespace MicroRosAgent.Generator

open Text Files

/-! ## Text between CMake and a script -/

/-- What a script prints, a line at a time. -/
def printLines (lines : List Text) : Text := lines.flatMap (· ++ ['\n'])

/-- `OUTPUT_STRIP_TRAILING_WHITESPACE`. -/
def stripTrailing (output : Text) : Text := output.rdropWhile isSpace

/-- The elements an unquoted argument without brackets and backslashes stands for. -/
def unquoted (value : Text) : List Text := (value.splitOn ';').filter (· ≠ [])

/-- `string(REPLACE match replacement output ${value})`: the inputs are joined, and there
    has to be one. -/
def stringReplace (replaced replacement : Char) (value : Text) : Option Text :=
  if unquoted value = [] then none
  else some ((unquoted value).flatten.map fun char => if char = replaced then replacement else char)

/-- `list(GET value index output)`. -/
def listGet (value : Text) (index : Nat) : Option Text := (value.splitOn ';')[index]?

/-! ## The two loops -/

section
variable [ElementTree]

/-- `'%s,%s' % (package, GetPackageName(package))`. -/
def packageLine (disk : Disk) (package : Text) : Option Text :=
  (getPackageName disk package).map fun name => package ++ ',' :: name.getD "None".toList

/-- `_packages`. -/
def packagesVariable (disk : Disk) (callDir : Text) (workspace : Disk) : Option Text := do
  let packages ← getInterfacePackages disk (getPackageList callDir workspace)
  let lines ← packages.mapM (packageLine disk)
  stringReplace '\n' ';' (stripTrailing (printLines lines))

/-- `package_file` and `package` of an element of `_packages`. -/
def packageFields (element : Text) : Option (Text × Text) := do
  let fields ← stringReplace ',' ';' element
  return (← listGet fields 0, ← listGet fields 1)

/-- The first loop: `${package}_MSG_FILES` of each package, by its name. -/
def collectMessages (disk : Disk) : (Text → Text) → List Text → Option (Text → Text)
  | msgFiles, [] => some msgFiles
  | msgFiles, element :: elements => do
      let (packageFile, package) ← packageFields element
      let output := stripTrailing (printLines (getInterfacePackageMsgs disk packageFile))
      if output = [] then collectMessages disk (Function.update msgFiles package output) elements
      else
        let files ← stringReplace '\n' ';' output
        collectMessages disk (Function.update msgFiles package files) elements

/-- The second loop: the calls of the generator, each with a package and its files. -/
def generatorCalls (msgFiles : Text → Text) : List Text → Option (List (Text × List Text))
  | [] => some []
  | element :: elements => do
      let (_, package) ← packageFields element
      let later ← generatorCalls msgFiles elements
      if msgFiles package = [] then return later
      else return (package, unquoted (msgFiles package)) :: later

def buildCalls (disk : Disk) (callDir : Text) (workspace : Disk) :
    Option (List (Text × List Text)) := do
  let packages ← packagesVariable disk callDir workspace
  let msgFiles ← collectMessages disk (fun _ => []) (unquoted packages)
  generatorCalls msgFiles (unquoted packages)

end

/-! ## Lines that come back as they were -/

/-- A line that is one element of a list and does not end with white space. -/
structure IsLine (line : Text) : Prop where
  noNewline : '\n' ∉ line
  noSemicolon : ';' ∉ line
  solid : ∃ front char, line = front ++ [char] ∧ isSpace char = false

theorem IsLine.nonempty {line : Text} (isLine : IsLine line) : line ≠ [] := by
  obtain ⟨front, char, rfl, _⟩ := isLine.solid
  simp

theorem printLines_eq {lines : List Text} (some : lines ≠ []) :
    printLines lines = join '\n' lines ++ ['\n'] := by
  induction lines with
  | nil => contradiction
  | cons line lines ih =>
    cases lines with
    | nil => simp [printLines]
    | cons next lines =>
      have later := ih (List.cons_ne_nil _ _)
      rw [printLines, List.flatMap_cons, ← printLines, later]
      simp

theorem solid_join {lines : List Text} (some : lines ≠ []) (areLines : ∀ line ∈ lines, IsLine line) :
    ∃ front char, join '\n' lines = front ++ [char] ∧ isSpace char = false := by
  obtain ⟨front, last, rfl⟩ := List.eq_nil_or_concat lines |>.resolve_left some
  obtain ⟨inner, char, isLast, isSolid⟩ := (areLines last (by simp)).solid
  rw [List.concat_eq_append, isLast]
  cases front with
  | nil => exact ⟨inner, char, rfl, isSolid⟩
  | cons head tail =>
    rw [join_concat _ (List.cons_ne_nil _ _)]
    exact ⟨join '\n' (head :: tail) ++ '\n' :: inner, char, by simp, isSolid⟩

theorem stripTrailing_printLines {lines : List Text} (areLines : ∀ line ∈ lines, IsLine line) :
    stripTrailing (printLines lines) = join '\n' lines := by
  cases lines with
  | nil => rfl
  | cons line lines =>
    obtain ⟨front, char, joined, isSolid⟩ := solid_join (List.cons_ne_nil _ _) areLines
    rw [printLines_eq (List.cons_ne_nil _ _), stripTrailing,
      List.rdropWhile_concat_pos _ _ _ (by decide), joined,
      List.rdropWhile_concat_neg _ _ _ (by simp [isSolid])]

theorem unquoted_single {value : Text} (nonempty : value ≠ []) (noSemicolon : ';' ∉ value) :
    unquoted value = [value] := by
  rw [unquoted, List.splitOn_eq_singleton noSemicolon]
  simp [nonempty]

theorem stringReplace_single {value : Text} (replaced replacement : Char) (nonempty : value ≠ [])
    (noSemicolon : ';' ∉ value) :
    stringReplace replaced replacement value =
      some (value.map fun char => if char = replaced then replacement else char) := by
  rw [stringReplace, unquoted_single nonempty noSemicolon]
  simp

theorem map_replace_of_not_mem {value : Text} {replaced : Char} (replacement : Char)
    (free : replaced ∉ value) :
    (value.map fun char => if char = replaced then replacement else char) = value := by
  have unchanged : ∀ char ∈ value, (if char = replaced then replacement else char) = id char := by
    intro char member
    refine if_neg ?_
    rintro rfl
    exact free member
  rw [List.map_congr_left unchanged, List.map_id]

theorem map_replace_join {pieces : List Text} {replaced : Char} (replacement : Char)
    (free : ∀ piece ∈ pieces, replaced ∉ piece) :
    ((join replaced pieces).map fun char => if char = replaced then replacement else char) =
      join replacement pieces := by
  induction pieces with
  | nil => rfl
  | cons piece pieces ih =>
    have here := map_replace_of_not_mem replacement (free piece List.mem_cons_self)
    cases pieces with
    | nil => exact here
    | cons next pieces =>
      have later := ih fun other member => free other (List.mem_cons_of_mem _ member)
      rw [join_cons_cons, List.map_append, here, List.map_cons, if_pos rfl, later, join_cons_cons]

/-- A list of lines becomes a CMake list. -/
theorem stringReplace_lines {lines : List Text} (some : lines ≠ [])
    (areLines : ∀ line ∈ lines, IsLine line) :
    stringReplace '\n' ';' (stripTrailing (printLines lines)) = Option.some (join ';' lines) := by
  have nonempty : join '\n' lines ≠ [] :=
    join_ne_nil (fun line member => (areLines line member).nonempty) some
  have noSemicolon : ';' ∉ join '\n' lines := by
    intro member
    obtain isNewline | ⟨line, inside, found⟩ := mem_join member
    · exact absurd isNewline (by decide)
    · exact (areLines line inside).noSemicolon found
  rw [stripTrailing_printLines areLines, stringReplace_single _ _ nonempty noSemicolon,
    map_replace_join _ fun line member => (areLines line member).noNewline]

/-- And its elements are the lines. -/
theorem unquoted_join {lines : List Text} (areLines : ∀ line ∈ lines, IsLine line) :
    unquoted (join ';' lines) = lines := by
  by_cases some : lines = []
  · subst some
    rfl
  · rw [unquoted, splitOn_join some fun line member => (areLines line member).noSemicolon]
    exact List.filter_eq_self.mpr fun line member => decide_eq_true (areLines line member).nonempty

theorem packageFields_eq {package name : Text} (packageFree : ',' ∉ package ∧ ';' ∉ package)
    (nameFree : ',' ∉ name ∧ ';' ∉ name) :
    packageFields (package ++ ',' :: name) = some (package, name) := by
  have noSemicolon : ';' ∉ package ++ ',' :: name := by
    simp [packageFree.2, nameFree.2]
  have free : ∀ piece ∈ [package, name], ',' ∉ piece := by simp [packageFree.1, nameFree.1]
  have joined := map_replace_join ';' free
  rw [packageFields, stringReplace_single _ _ (by simp) noSemicolon]
  have fields : (join ';' [package, name]).splitOn ';' = [package, name] :=
    splitOn_join (List.cons_ne_nil _ _) (by simp [packageFree.2, nameFree.2])
  simp only [join_cons_cons, join_singleton] at joined fields
  simp [joined, listGet, fields]

/-! ## The loops on packages that pass unchanged -/

section
variable [ElementTree]

/-- A package with the name that is printed for it. -/
def named (disk : Disk) (package : Text) : Option (Text × Text) :=
  (getPackageName disk package).map fun name => (package, name.getD "None".toList)

def interfacePackages (disk : Disk) (callDir : Text) (workspace : Disk) :
    Option (List (Text × Text)) := do
  let packages ← getInterfacePackages disk (getPackageList callDir workspace)
  packages.mapM (named disk)

end

/-- Nothing of the package is changed on its way through the lists of CMake. -/
structure Passes (disk : Disk) (package : Text × Text) : Prop where
  path : ',' ∉ package.1 ∧ ';' ∉ package.1 ∧ '\n' ∉ package.1
  name : ',' ∉ package.2 ∧ ';' ∉ package.2 ∧ '\n' ∉ package.2
  solid : ∀ char ∈ package.2.getLast?, isSpace char = false
  messages : ∀ message ∈ getInterfacePackageMsgs disk package.1, IsLine message

def line (package : Text × Text) : Text := package.1 ++ ',' :: package.2

variable {disk : Disk} {packages : List (Text × Text)}

theorem isLine_line {package : Text × Text} (passes : Passes disk package) :
    IsLine (line package) := by
  refine ⟨by simp [line, passes.path, passes.name], by simp [line, passes.path, passes.name], ?_⟩
  obtain empty | ⟨front, last, isName⟩ := List.eq_nil_or_concat package.2
  · exact ⟨package.1, ',', by rw [line, empty], by decide⟩
  · refine ⟨package.1 ++ ',' :: front, last, by simp [line, isName], ?_⟩
    exact passes.solid last (by simp [isName])

theorem packageFields_line {package : Text × Text} (passes : Passes disk package) :
    packageFields (line package) = some package :=
  packageFields_eq ⟨passes.path.1, passes.path.2.1⟩ ⟨passes.name.1, passes.name.2.1⟩

/-- The variables after the first loop: the last package of a name has set it. -/
def collected (disk : Disk) (packages : List (Text × Text)) (msgFiles : Text → Text) : Text → Text :=
  packages.foldl (fun msgFiles package =>
    Function.update msgFiles package.2 (join ';' (getInterfacePackageMsgs disk package.1))) msgFiles

theorem collectMessages_eq (passes : ∀ package ∈ packages, Passes disk package)
    (msgFiles : Text → Text) :
    collectMessages disk msgFiles (packages.map line) = some (collected disk packages msgFiles) := by
  induction packages generalizing msgFiles with
  | nil => rfl
  | cons package packages ih =>
    obtain ⟨here, rest⟩ := List.forall_mem_cons.mp passes
    rw [List.map_cons, collectMessages, packageFields_line here]
    by_cases none : getInterfacePackageMsgs disk package.1 = []
    · have empty : stripTrailing (printLines (getInterfacePackageMsgs disk package.1)) = [] := by
        rw [none]
        rfl
      simp only [Option.bind_eq_bind, Option.bind_some, empty, if_true, ih rest]
      rw [collected, collected, List.foldl_cons, none]
      rfl
    · have joined := stringReplace_lines none here.messages
      have nonempty : stripTrailing (printLines (getInterfacePackageMsgs disk package.1)) ≠ [] := by
        rw [stripTrailing_printLines here.messages]
        exact join_ne_nil (fun message member => (here.messages message member).nonempty) none
      simp only [Option.bind_eq_bind, Option.bind_some, nonempty, if_false, joined, ih rest]
      rfl

/-- What the generator gets, one file of one package at a time. -/
def handedOver (calls : List (Text × List Text)) : List (Text × Text) :=
  calls.flatMap fun call => call.2.map fun file => (call.1, file)

theorem generatorCalls_eq (passes : ∀ package ∈ packages, Passes disk package)
    (msgFiles : Text → Text) :
    ∃ calls, generatorCalls msgFiles (packages.map line) = some calls ∧
      handedOver calls = packages.flatMap fun package =>
        (unquoted (msgFiles package.2)).map fun file => (package.2, file) := by
  induction packages with
  | nil => exact ⟨[], rfl, rfl⟩
  | cons package packages ih =>
    obtain ⟨here, rest⟩ := List.forall_mem_cons.mp passes
    obtain ⟨later, ran, handed⟩ := ih rest
    by_cases empty : msgFiles package.2 = []
    · refine ⟨later, ?_, ?_⟩
      · simp [generatorCalls, packageFields_line here, ran, empty]
      · rw [List.flatMap_cons, empty, handed]
        rfl
    · refine ⟨(package.2, unquoted (msgFiles package.2)) :: later, ?_, ?_⟩
      · simp [generatorCalls, packageFields_line here, ran, empty]
      · rw [handedOver, List.flatMap_cons, List.flatMap_cons, ← handed]
        rfl

/-! ## Who set a variable last -/

theorem collected_concat (package : Text × Text) (msgFiles : Text → Text) :
    collected disk (packages ++ [package]) msgFiles =
      Function.update (collected disk packages msgFiles) package.2
        (join ';' (getInterfacePackageMsgs disk package.1)) := by
  simp [collected]

/-- The variable of a package holds the files of the last package of that name. -/
theorem exists_last {package : Text × Text} (member : package ∈ packages) (msgFiles : Text → Text) :
    ∃ last ∈ packages, last.2 = package.2 ∧
      collected disk packages msgFiles package.2 = join ';' (getInterfacePackageMsgs disk last.1) := by
  induction packages using List.reverseRecOn with
  | nil => cases member
  | append_singleton packages last ih =>
    rw [collected_concat]
    by_cases same : last.2 = package.2
    · exact ⟨last, by simp, same, by rw [same, Function.update_self]⟩
    · rw [Function.update_of_ne (Ne.symm same)]
      obtain old | new := List.mem_append.mp member
      · obtain ⟨other, inside, named, value⟩ := ih old
        exact ⟨other, List.mem_append_left _ inside, named, value⟩
      · exact absurd (List.mem_singleton.mp new ▸ rfl) same

theorem count_handedOver (files : Text → List Text) (name message : Text) :
    (packages.flatMap fun package => (files package.2).map fun file => (package.2, file)).count
        (name, message) =
      packages.countP (fun package => package.2 = name) * (files name).count message := by
  induction packages with
  | nil => simp
  | cons package packages ih =>
    rw [List.flatMap_cons, List.count_append, ih, List.countP_cons]
    by_cases same : package.2 = name
    · subst same
      have own : ((files package.2).map fun file => (package.2, file)).count (package.2, message) =
          (files package.2).count message :=
        List.count_map_of_injective _ _ (fun _ _ equal => (Prod.mk.inj equal).2) _
      rw [own, decide_eq_true rfl, if_pos rfl, Nat.add_mul, Nat.one_mul, Nat.add_comm]
    · have other : ((files package.2).map fun file => (package.2, file)).count (name, message) =
          0 := by
        refine List.count_eq_zero.mpr ?_
        intro member
        obtain ⟨file, _, equal⟩ := List.mem_map.mp member
        exact same (Prod.mk.inj equal).1
      rw [other, decide_eq_false same, if_neg Bool.false_ne_true, Nat.zero_add, Nat.add_zero]

/-! ## The packages of a workspace pass -/

/-- What CMake or a script would take for more than a character of a name. -/
def special : List Char := ",;[]'\\\r\n".toList

structure IsCleanName (name : Text) : Prop extends IsPlainName name where
  noSpecial : ∀ char ∈ name, char ∉ special

theorem not_special_render {names : List Text} (clean : ∀ name ∈ names, IsCleanName name) :
    ∀ char ∈ render names, char ∉ special := by
  intro char member
  obtain ⟨name, isName, inside⟩ := List.mem_flatMap.mp member
  obtain rfl | inside := List.mem_cons.mp inside
  · decide
  · exact (clean name isName).noSpecial char inside

theorem noSpecial_iff {name : Text} :
    (name.all fun char => char ∉ special) = true ↔ ∀ char ∈ name, char ∉ special := by
  simp only [List.all_eq_true, decide_eq_true_eq]

theorem isCleanName_packageXml : IsCleanName packageXml :=
  ⟨isPlainName_packageXml, noSpecial_iff.mp (by decide)⟩

/-- A name of a package as the script can print it between others. -/
structure IsPrinted (name : Text) : Prop where
  noSpecial : ∀ char ∈ name, char ∉ special
  solid : ∀ char ∈ name.getLast?, isSpace char = false

theorem isLine_message {names found : List Text} (isFound : found ≠ [])
    (clean : ∀ name ∈ names ++ found, IsCleanName name)
    (ends : ".msg".toList <:+ (split found).2) : IsLine (render (names ++ found)) := by
  have free := not_special_render clean
  refine ⟨fun newline => free _ newline (by decide), fun semicolon => free _ semicolon (by decide),
    ?_⟩
  obtain ⟨front, isFile⟩ := ends
  refine ⟨render (names ++ (split found).1) ++ '/' :: (front ++ ".ms".toList), 'g', ?_, by decide⟩
  have last : front ++ ".ms".toList ++ ['g'] = (split found).2 := by
    rw [← isFile, List.append_assoc]
    rfl
  rw [List.append_assoc, List.cons_append, last, ← render_concat, List.append_assoc,
    split_append isFound]

section
variable [ElementTree] {workspace : Disk} {root : List Text} {callDir : Text}

theorem mem_of_getInterfacePackages {all found : List Text}
    (ran : getInterfacePackages disk all = some found) {package : Text} (member : package ∈ found) :
    package ∈ all := by
  induction all generalizing found with
  | nil =>
    cases ran
    exact member
  | cons head tail ih =>
    simp only [getInterfacePackages, Option.bind_eq_bind, Option.bind_eq_some_iff] at ran
    obtain ⟨elements, _, later, below, isFound⟩ := ran
    cases isFound
    obtain here | there := List.mem_append.mp member
    · obtain ⟨_, _, rfl⟩ := List.mem_map.mp here
      exact List.mem_cons_self
    · exact List.mem_cons_of_mem _ (ih below there)

/-- Each package that is printed is one of the paths, and each line is of that package. -/
theorem mapM_named {paths : List Text} (ran : paths.mapM (named disk) = some packages) :
    (∀ package ∈ packages, package.1 ∈ paths) ∧
      paths.mapM (packageLine disk) = some (packages.map line) := by
  induction paths generalizing packages with
  | nil =>
    cases ran
    exact ⟨nofun, rfl⟩
  | cons path paths ih =>
    simp only [List.mapM_cons, Option.bind_eq_bind, Option.bind_eq_some_iff] at ran
    obtain ⟨head, isHead, tail, isTail, isAll⟩ := ran
    cases isAll
    obtain ⟨inside, lines⟩ := ih isTail
    obtain ⟨name, isName, rfl⟩ := Option.map_eq_some_iff.mp isHead
    refine ⟨?_, by simp [packageLine, isName, lines, line]⟩
    rw [List.forall_mem_cons]
    exact ⟨List.mem_cons_self, fun package member => List.mem_cons_of_mem _ (inside package member)⟩

/-- An interface package is a package on the frontier of the workspace. -/
theorem exists_frontier (nonempty : root ≠ []) (rootPlain : ∀ name ∈ root, IsPlainName name)
    (allPlain : workspace.AllNames IsPlainName)
    (ran : interfacePackages disk (render root) workspace = some packages)
    {package : Text × Text} (member : package ∈ packages) :
    ∃ names ∈ workspace.frontier verdict, package.1 = render (root ++ names ++ [packageXml]) := by
  simp only [interfacePackages, Option.bind_eq_bind, Option.bind_eq_some_iff] at ran
  obtain ⟨paths, found, each⟩ := ran
  have listed := mem_of_getInterfacePackages found ((mapM_named each).1 package member)
  rw [getPackageList_eq nonempty rootPlain allPlain] at listed
  obtain ⟨names, onFrontier, isPath⟩ := List.mem_map.mp listed
  exact ⟨names, onFrontier, isPath.symm⟩

/-- A package with clean names arrives unchanged, and so do the paths of its messages. -/
theorem passes_of_clean (nonempty : root ≠ []) (rootClean : ∀ name ∈ root, IsCleanName name)
    (located : disk.entryAt root = some workspace) (distinct : workspace.Distinct)
    (allClean : workspace.AllNames IsCleanName)
    (ran : interfacePackages disk (render root) workspace = some packages)
    {package : Text × Text} (member : package ∈ packages) (printed : IsPrinted package.2) :
    Passes disk package := by
  have rootPlain : ∀ name ∈ root, IsPlainName name := fun name inside =>
    (rootClean name inside).toIsPlainName
  have allPlain := allClean.mono fun name (clean : IsCleanName name) => clean.toIsPlainName
  obtain ⟨names, onFrontier, isPath⟩ := exists_frontier nonempty rootPlain allPlain ran member
  obtain ⟨listing, leads, _, files⟩ :=
    files_of_onFrontier ".msg".toList nonempty rootPlain located distinct allPlain onFrontier
  obtain ⟨namesClean, belowClean⟩ := allClean.of_entryAt leads
  have frontClean : ∀ name ∈ root ++ names, IsCleanName name :=
    List.forall_mem_append.mpr ⟨rootClean, namesClean⟩
  have pathFree := not_special_render (List.forall_mem_append.mpr
    ⟨frontClean, List.forall_mem_singleton.mpr isCleanName_packageXml⟩)
  rw [← isPath] at pathFree
  refine ⟨⟨?_, ?_, ?_⟩, ⟨?_, ?_, ?_⟩, printed.solid, ?_⟩
  · exact fun comma => pathFree _ comma (by decide)
  · exact fun semicolon => pathFree _ semicolon (by decide)
  · exact fun newline => pathFree _ newline (by decide)
  · exact fun comma => printed.noSpecial _ comma (by decide)
  · exact fun semicolon => printed.noSpecial _ semicolon (by decide)
  · exact fun newline => printed.noSpecial _ newline (by decide)
  · intro message isMessage
    rw [isPath, getInterfacePackageMsgs, files] at isMessage
    obtain ⟨found, inside, rfl⟩ := List.mem_map.mp isMessage
    obtain ⟨isFile, ends⟩ := List.mem_filter.mp inside
    exact isLine_message (Entry.ne_nil_of_mem_files isFile)
      (List.forall_mem_append.mpr ⟨frontClean, belowClean.of_mem_files isFile⟩)
      (of_decide_eq_true ends)

end

/-! ## How often a file is handed over -/

/-- No package with messages shares its name. -/
def Separate (disk : Disk) (packages : List (Text × Text)) : Prop :=
  packages.Pairwise fun first second => first.2 = second.2 →
    getInterfacePackageMsgs disk first.1 = [] ∧ getInterfacePackageMsgs disk second.1 = []

/-- A package with messages is the only one of its name. -/
theorem Separate.only {package : Text × Text} (separate : Separate disk packages)
    (member : package ∈ packages) (some : getInterfacePackageMsgs disk package.1 ≠ []) :
    packages.countP (fun other => other.2 = package.2) = 1 ∧
      ∀ other ∈ packages, other.2 = package.2 → other = package := by
  obtain ⟨before, after, rfl⟩ := List.append_of_mem member
  obtain ⟨_, fromHere, across⟩ := List.pairwise_append.mp separate
  have earlier : ∀ other ∈ before, other.2 ≠ package.2 := fun other inside same =>
    some (across other inside package List.mem_cons_self same).2
  have later : ∀ other ∈ after, other.2 ≠ package.2 := fun other inside same =>
    some ((List.pairwise_cons.mp fromHere).1 other inside same.symm).1
  constructor
  · have noneBefore : before.countP (fun other => other.2 = package.2) = 0 :=
      List.countP_eq_zero.mpr fun other inside => by simpa using earlier other inside
    have noneAfter : after.countP (fun other => other.2 = package.2) = 0 :=
      List.countP_eq_zero.mpr fun other inside => by simpa using later other inside
    rw [List.countP_append, List.countP_cons, noneBefore, noneAfter]
    simp
  · intro other inside same
    obtain old | now := List.mem_append.mp inside
    · exact absurd same (earlier other old)
    · obtain rfl | new := List.mem_cons.mp now
      · rfl
      · exact absurd same (later other new)

section
variable [ElementTree] {workspace : Disk} {root : List Text} {callDir : Text}

theorem buildCalls_eq (ran : interfacePackages disk callDir workspace = some packages)
    (any : packages ≠ []) (passes : ∀ package ∈ packages, Passes disk package) :
    ∃ calls, buildCalls disk callDir workspace = some calls ∧
      ∀ name message, (handedOver calls).count (name, message) =
        packages.countP (fun package => package.2 = name) *
          (unquoted (collected disk packages (fun _ => []) name)).count message := by
  have areLines : ∀ element ∈ packages.map line, IsLine element := by
    intro element member
    obtain ⟨package, inside, rfl⟩ := List.mem_map.mp member
    exact isLine_line (passes package inside)
  have isVariable : packagesVariable disk callDir workspace = some (join ';' (packages.map line)) := by
    simp only [interfacePackages, Option.bind_eq_bind, Option.bind_eq_some_iff] at ran
    obtain ⟨paths, found, each⟩ := ran
    simp only [packagesVariable, found, (mapM_named each).2, Option.bind_eq_bind, Option.bind_some]
    exact stringReplace_lines (by simpa using any) areLines
  obtain ⟨calls, called, handed⟩ :=
    generatorCalls_eq passes (collected disk packages fun _ => [])
  refine ⟨calls, ?_, ?_⟩
  · simp only [buildCalls, isVariable, unquoted_join areLines, collectMessages_eq passes, called,
      Option.bind_eq_bind, Option.bind_some]
  · intro name message
    rw [handed]
    exact count_handedOver (fun name => unquoted (collected disk packages (fun _ => []) name))
      name message

/-- Without an interface package nothing is left to replace in, which CMake takes for an error. -/
theorem buildCalls_of_no_package (ran : interfacePackages disk callDir workspace = some []) :
    buildCalls disk callDir workspace = none := by
  simp only [interfacePackages, Option.bind_eq_bind, Option.bind_eq_some_iff] at ran
  obtain ⟨paths, found, each⟩ := ran
  have noLine : stringReplace '\n' ';' (stripTrailing (printLines [])) = none := rfl
  simp [buildCalls, packagesVariable, found, (mapM_named each).2, noLine]

theorem nodup_messages (nonempty : root ≠ []) (rootPlain : ∀ name ∈ root, IsPlainName name)
    (located : disk.entryAt root = some workspace) (distinct : workspace.Distinct)
    (allPlain : workspace.AllNames IsPlainName)
    (ran : interfacePackages disk (render root) workspace = some packages)
    {package : Text × Text} (member : package ∈ packages) :
    (getInterfacePackageMsgs disk package.1).Nodup := by
  obtain ⟨names, onFrontier, isPath⟩ := exists_frontier nonempty rootPlain allPlain ran member
  rw [isPath]
  exact nodup_files_of_onFrontier _ nonempty rootPlain located distinct allPlain onFrontier

end

end MicroRosAgent.Generator

/-! ## A workspace with one package and with two of one name -/

namespace MicroRosAgent.Generator

open Files

/-- Every manifest is that of the interface package `shapes`. -/
@[reducible] def sampleManifests : ElementTree where
  children _ := some [⟨"name".toList, some "shapes".toList⟩,
    ⟨"member_of_group".toList, some "rosidl_interface_packages".toList⟩]

attribute [local instance] sampleManifests

instance (name : Text) : Decidable (IsCleanName name) :=
  decidable_of_iff (IsPlainName name ∧ (name.all fun char => char ∉ special) = true)
    ⟨fun ⟨isPlain, noSpecial⟩ => ⟨isPlain, noSpecial_iff.mp noSpecial⟩,
    fun clean => ⟨clean.toIsPlainName, noSpecial_iff.mpr clean.noSpecial⟩⟩

theorem samplePackage_clean : samplePackage.AllNames IsCleanName := by
  refine .directory (by decide) ?_
  rw [List.forall_mem_cons, List.forall_mem_singleton]
  refine ⟨.file [], .directory (by decide) ?_⟩
  rw [List.forall_mem_cons, List.forall_mem_singleton]
  exact ⟨.file [], .file []⟩

theorem sampleWorkspace_clean : sampleWorkspace.AllNames IsCleanName := by
  refine .directory (by decide) ?_
  rw [List.forall_mem_cons, List.forall_mem_singleton]
  refine ⟨samplePackage_clean, .directory (by decide) ?_⟩
  rw [List.forall_mem_cons, List.forall_mem_singleton]
  exact ⟨.file [], samplePackage_clean⟩

abbrev samplePackages : List (Text × Text) := [("/ws/shapes/package.xml".toList, "shapes".toList)]

theorem isPrinted_shapes : IsPrinted "shapes".toList := by
  refine ⟨noSpecial_iff.mp (by decide), ?_⟩
  intro char isLast
  obtain rfl : 's' = char := Option.some.inj isLast
  decide

/-- Of two packages of one name the later one's files are handed over twice. -/
example : buildCalls (.directory [("ws".toList, .directory
      [("new".toList, samplePackage), ("old".toList, samplePackage)])]) "/ws".toList
    (.directory [("new".toList, samplePackage), ("old".toList, samplePackage)]) =
      some [("shapes".toList, ["/ws/old/msg/Point.msg".toList]),
        ("shapes".toList, ["/ws/old/msg/Point.msg".toList])] := by decide +kernel

end MicroRosAgent.Generator
