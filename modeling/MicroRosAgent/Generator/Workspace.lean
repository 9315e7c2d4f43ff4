import MicroRosAgent.Files.Paths
import MicroRosAgent.Files.Tree
import MicroRosAgent.Generator.Profiles

/-! # The interface packages of a workspace

Before a build generates profiles it searches the workspace for packages, and each package
for message files.  `GetPackageList` goes down from the directory of the build until it
meets a `package.xml` or a file `COLCON_IGNORE`; `os.walk` then visits everything below the
package.

The functions are those of `utils/__init__.py`, on a directory tree without links; a
function that starts at a directory is given its entry beside its path.
`workspace_files_exact` says which files are found.  The workspace is not the root of the
file system, and no name on the way to it or in it has a backslash: the functions replace
every backslash of a path by a slash (`IsPlainName`).
-/

namespace MicroRosAgent.Generator

open Text Files

abbrev Disk : Type := Entry Text Text

abbrev Listing : Type := List (Text × Disk)

/-- `path.replace("\\", "/")`. -/
def forwardSlashes (path : Text) : Text := path.map fun char => if char = '\\' then '/' else char

def packageXml : Text := "package.xml".toList

def colconIgnore : Text := "COLCON_IGNORE".toList

/-! ## Packages -/

/-- The `package.xml` of a directory, or `COLCON_IGNORE`, or the empty text. -/
def getPackage (dir : Text) (listing : Listing) : Text :=
  if listing.any fun item => item.2.isFile && item.1 = colconIgnore then colconIgnore
  -- whatever the entry is: a directory of that name is found as well
  else if listing.any fun item => item.1 = packageXml then
    forwardSlashes (abspath (joinPath dir packageXml))
  else forwardSlashes []

mutual
def getPackageList (dir : Text) : Disk → List Text
  | .file _ => []
  | .directory listing =>
      let packagePath := getPackage dir listing
      if packagePath = [] then getPackageListIn dir listing
      else if packagePath ≠ colconIgnore then [packagePath]
      else []

def getPackageListIn (dir : Text) : Listing → List Text
  | [] => []
  | (name, entry) :: rest => getPackageList (joinPath dir name) entry ++ getPackageListIn dir rest
end

/-! ## Manifests -/

/-- A child of the root of a manifest. -/
structure Element where
  tag : Text
  text : Option Text
  deriving DecidableEq, Repr

/-- `xml.etree.ElementTree`; `none` is an exception. -/
class ElementTree where
  children : Text → Option (List Element)

section
variable [ElementTree]

def parse (disk : Disk) (path : Text) : Option (List Element) :=
  match disk.entryAt (components path) with
  | some (.file content) => ElementTree.children content
  | _ => none

def findall (root : List Element) (tag : Text) : List Element :=
  root.filter fun element => element.tag = tag

def getInterfacePackages (disk : Disk) : List Text → Option (List Text)
  | [] => some []
  | package :: packages => do
      let root ← parse disk package
      let groups := (findall root "member_of_group".toList).filter fun element =>
        element.text = some "rosidl_interface_packages".toList
      let later ← getInterfacePackages disk packages
      return groups.map (fun _ => package) ++ later

/-- The text of the only `name`; a text of `none` is Python's `None`. -/
def getPackageName (disk : Disk) (packagePath : Text) : Option (Option Text) := do
  let root ← parse disk packagePath
  match findall root "name".toList with
  | [element] => return element.text
  | _ => return some []

end

/-! ## Interface files -/

mutual
/-- `os.walk`: each file with the directory it is in. -/
def walk (root : Text) : Disk → List (Text × Text)
  | .file _ => []
  | .directory listing =>
      (Entry.fileNames listing).map (fun file => (root, file)) ++ walkIn root listing

def walkIn (root : Text) : Listing → List (Text × Text)
  | [] => []
  | (name, entry) :: rest => walk (joinPath root name) entry ++ walkIn root rest
end

/-- `GetInterfacePackageMsgs` and `GetInterfacePackageSrvs`, which differ in the ending. -/
def getInterfacePackageFiles (ending : Text) (disk : Disk) (packagePath : Text) : List Text :=
  let packageDir := dirname packagePath
  match disk.entryAt (components packageDir) with
  | some entry =>
      ((walk packageDir entry).filter fun found => ending <:+ found.2).map fun found =>
        forwardSlashes (joinPath found.1 found.2)
  | none => []

def getInterfacePackageMsgs : Disk → Text → List Text := getInterfacePackageFiles ".msg".toList

def getInterfacePackageSrvs : Disk → Text → List Text := getInterfacePackageFiles ".srv".toList

/-! ## As searches of the tree -/

def verdict (listing : Listing) : Verdict :=
  if listing.any fun item => item.2.isFile && item.1 = colconIgnore then .leave
  else if listing.any fun item => item.1 = packageXml then .take
  else .descend

/-- A name that no function changes. -/
structure IsPlainName (name : Text) : Prop extends IsName name where
  noBackslash : '\\' ∉ name

theorem forwardSlashes_render {names : List Text} (plain : ∀ name ∈ names, IsPlainName name) :
    forwardSlashes (render names) = render names := by
  have unchanged : ∀ char ∈ render names, (if char = '\\' then '/' else char) = id char := by
    intro char member
    obtain ⟨name, isName, inside⟩ := List.mem_flatMap.mp member
    refine if_neg ?_
    rintro rfl
    obtain absurdity | inside := List.mem_cons.mp inside
    · exact absurd absurdity (by decide)
    · exact (plain name isName).noBackslash inside
  rw [forwardSlashes, List.map_congr_left unchanged, List.map_id]

theorem isPlainName_packageXml : IsPlainName packageXml :=
  ⟨⟨by decide, by decide, by decide, by decide⟩, by decide⟩

theorem colconIgnore_ne_nil : colconIgnore ≠ [] := by decide

theorem render_ne_colconIgnore (names : List Text) : render names ≠ colconIgnore := by
  cases names with
  | nil => exact Ne.symm colconIgnore_ne_nil
  | cons name names =>
    intro equal
    have slash : '/' ∈ render (name :: names) := by simp
    rw [equal] at slash
    exact absurd slash (by decide)

theorem IsPlainName.toIsNames {names : List Text} (plain : ∀ name ∈ names, IsPlainName name) :
    ∀ name ∈ names, IsName name := fun name member => (plain name member).toIsName

theorem joinPath_plain {names : List Text} (nonempty : names ≠ [])
    (plain : ∀ name ∈ names, IsPlainName name) {name : Text} (isPlain : IsPlainName name) :
    joinPath (render names) name = render (names ++ [name]) :=
  joinPath_render nonempty (IsPlainName.toIsNames plain) isPlain.toIsName

theorem plain_concat {names : List Text} (plain : ∀ name ∈ names, IsPlainName name) {name : Text}
    (isPlain : IsPlainName name) : ∀ each ∈ names ++ [name], IsPlainName each := by
  intro each member
  obtain old | new := List.mem_append.mp member
  · exact plain each old
  · rw [List.mem_singleton.mp new]
    exact isPlain

theorem getPackage_eq {names : List Text} (nonempty : names ≠ [])
    (plain : ∀ name ∈ names, IsPlainName name) (listing : Listing) :
    getPackage (render names) listing =
      match verdict listing with
      | .leave => colconIgnore
      | .take => render (names ++ [packageXml])
      | .descend => [] := by
  have longer := plain_concat plain isPlainName_packageXml
  unfold getPackage verdict
  split
  · rfl
  · split
    · rw [joinPath_plain nonempty plain isPlainName_packageXml,
        abspath_render (by simp) (IsPlainName.toIsNames longer), forwardSlashes_render longer]
    · rfl

mutual
theorem getPackageList_eq {names : List Text} (nonempty : names ≠ [])
    (plain : ∀ name ∈ names, IsPlainName name) {entry : Disk}
    (allPlain : entry.AllNames IsPlainName) :
    getPackageList (render names) entry =
      (entry.frontier verdict).map fun found => render (names ++ found ++ [packageXml]) := by
  cases allPlain with
  | file content => simp [getPackageList, Entry.frontier]
  | @directory listing plainNames below =>
    rw [getPackageList, getPackage_eq nonempty plain, Entry.frontier_directory]
    cases isVerdict : verdict listing with
    | leave => simp [colconIgnore_ne_nil]
    | take =>
      have found : render (names ++ [packageXml]) ≠ [] := by simp [render]
      simp [found, render_ne_colconIgnore]
    | descend => exact getPackageListIn_eq nonempty plain plainNames below

theorem getPackageListIn_eq {names : List Text} (nonempty : names ≠ [])
    (plain : ∀ name ∈ names, IsPlainName name) {listing : Listing}
    (plainNames : ∀ item ∈ listing, IsPlainName item.1)
    (below : ∀ item ∈ listing, item.2.AllNames IsPlainName) :
    getPackageListIn (render names) listing =
      (Entry.frontierIn verdict listing).map fun found =>
        render (names ++ found ++ [packageXml]) := by
  cases listing with
  | nil => simp [getPackageListIn, Entry.frontierIn]
  | cons item rest =>
    obtain ⟨name, entry⟩ := item
    obtain ⟨isPlain, laterPlain⟩ := List.forall_mem_cons.mp plainNames
    obtain ⟨inside, laterBelow⟩ := List.forall_mem_cons.mp below
    rw [getPackageListIn, Entry.frontierIn, joinPath_plain nonempty plain isPlain,
      getPackageList_eq (by simp) (plain_concat plain isPlain) inside,
      getPackageListIn_eq nonempty plain laterPlain laterBelow]
    simp [List.append_assoc]
end

/-- The names up to the directory a file is in, and its own. -/
def split (found : List Text) : List Text × Text := (found.dropLast, found.getLast?.getD [])

theorem split_cons {name : Text} {found : List Text} (nonempty : found ≠ []) :
    split (name :: found) = (name :: (split found).1, (split found).2) := by
  obtain ⟨head, tail, rfl⟩ := List.exists_cons_of_ne_nil nonempty
  rfl

theorem split_append {found : List Text} (nonempty : found ≠ []) :
    (split found).1 ++ [(split found).2] = found := by
  rw [split, List.getLast?_eq_some_getLast nonempty, Option.getD_some]
  exact List.dropLast_append_getLast nonempty

mutual
theorem walk_eq {names : List Text} (nonempty : names ≠ [])
    (plain : ∀ name ∈ names, IsPlainName name) {entry : Disk}
    (allPlain : entry.AllNames IsPlainName) :
    walk (render names) entry =
      entry.files.map fun found => (render (names ++ (split found).1), (split found).2) := by
  cases allPlain with
  | file content => simp [walk, Entry.files]
  | @directory listing plainNames below =>
    rw [walk, Entry.files_directory, List.map_append, List.map_map,
      walkIn_eq nonempty plain plainNames below]
    simp [Function.comp_def, split]

theorem walkIn_eq {names : List Text} (nonempty : names ≠ [])
    (plain : ∀ name ∈ names, IsPlainName name) {listing : Listing}
    (plainNames : ∀ item ∈ listing, IsPlainName item.1)
    (below : ∀ item ∈ listing, item.2.AllNames IsPlainName) :
    walkIn (render names) listing =
      (Entry.filesIn listing).map fun found =>
        (render (names ++ (split found).1), (split found).2) := by
  cases listing with
  | nil => simp [walkIn, Entry.filesIn]
  | cons item rest =>
    obtain ⟨name, entry⟩ := item
    obtain ⟨isPlain, laterPlain⟩ := List.forall_mem_cons.mp plainNames
    obtain ⟨inside, laterBelow⟩ := List.forall_mem_cons.mp below
    rw [walkIn, Entry.filesIn, List.map_append, joinPath_plain nonempty plain isPlain,
      walk_eq (by simp) (plain_concat plain isPlain) inside,
      walkIn_eq nonempty plain laterPlain laterBelow, List.map_map]
    refine congrArg (· ++ _) (List.map_congr_left ?_)
    intro found member
    simp [split_cons (Entry.ne_nil_of_mem_files member)]
end

/-! ## Which files are found -/

def HasPackageXml (listing : Listing) : Prop := ∃ entry, (packageXml, entry) ∈ listing

def Ignored (listing : Listing) : Prop := ∃ content, (colconIgnore, Entry.file content) ∈ listing

/-- A directory with a `package.xml`, such that no directory above has one and neither it nor
    one above has a file `COLCON_IGNORE`. -/
structure IsPackage (workspace : Disk) (names : List Text) : Prop where
  marked : ∃ listing, workspace.entryAt names = some (.directory listing) ∧
    HasPackageXml listing ∧ ¬ Ignored listing
  above : ∀ shorter, shorter <+: names → shorter ≠ names →
    ∃ listing, workspace.entryAt shorter = some (.directory listing) ∧
      ¬ HasPackageXml listing ∧ ¬ Ignored listing

theorem verdict_eq (listing : Listing) [Decidable (Ignored listing)]
    [Decidable (HasPackageXml listing)] :
    verdict listing =
      if Ignored listing then .leave else if HasPackageXml listing then .take else .descend := by
  have ignored : (listing.any fun item => item.2.isFile && item.1 = colconIgnore) = true ↔
      Ignored listing := by
    rw [List.any_eq_true]
    constructor
    · rintro ⟨⟨name, entry⟩, member, holds⟩
      obtain ⟨isFile, named⟩ := Bool.and_eq_true_iff.mp holds
      cases of_decide_eq_true named
      cases entry with
      | file content => exact ⟨content, member⟩
      | directory below => cases isFile
    · rintro ⟨content, member⟩
      exact ⟨_, member, by simp [Entry.isFile]⟩
  have marked : (listing.any fun item => item.1 = packageXml) = true ↔ HasPackageXml listing := by
    rw [List.any_eq_true]
    constructor
    · rintro ⟨⟨name, entry⟩, member, named⟩
      cases of_decide_eq_true named
      exact ⟨entry, member⟩
    · rintro ⟨entry, member⟩
      exact ⟨_, member, decide_eq_true rfl⟩
  simp only [verdict, ignored, marked]

open Classical in
theorem isPackage_iff {workspace : Disk} {names : List Text} :
    Entry.OnFrontier verdict workspace names ↔ IsPackage workspace names := by
  have taken : ∀ listing, verdict listing = .take ↔ HasPackageXml listing ∧ ¬ Ignored listing := by
    intro listing
    rw [verdict_eq]
    split
    · simp_all
    · split <;> simp_all
  have descended : ∀ listing, verdict listing = .descend ↔
      ¬ HasPackageXml listing ∧ ¬ Ignored listing := by
    intro listing
    rw [verdict_eq]
    split
    · simp_all
    · split <;> simp_all
  simp only [Entry.OnFrontier, taken, descended]
  exact ⟨fun ⟨marked, above⟩ => ⟨marked, above⟩, fun ⟨marked, above⟩ => ⟨marked, above⟩⟩

theorem dirname_render {names : List Text} (nonempty : names ≠ [])
    (plain : ∀ name ∈ names, IsPlainName name) {name : Text} (isPlain : IsPlainName name) :
    dirname (render (names ++ [name])) = render names := by
  have noSlash : ∀ char ∈ name.reverse, char ≠ '/' := by
    rintro char member rfl
    exact isPlain.noSlash (List.mem_reverse.mp member)
  have head : (render (names ++ [name])).reverse.dropWhile (· ≠ '/') =
      '/' :: (render names).reverse := by
    rw [render_concat, List.reverse_append, List.reverse_cons, List.append_assoc,
      List.dropWhile_append_of_pos (by simpa using noSlash)]
    simp
  have last := not_slash_suffix_render nonempty (IsPlainName.toIsNames plain)
  have stripped : ((render names).reverse).dropWhile (· = '/') = (render names).reverse := by
    cases reversed : (render names).reverse with
    | nil => rfl
    | cons char rest =>
      have different : char ≠ '/' := by
        rintro rfl
        refine last ⟨rest.reverse, ?_⟩
        rw [← List.reverse_cons, ← reversed, List.reverse_reverse]
      rw [List.dropWhile_cons_of_neg (by simpa using different)]
  have rendered : render names ≠ [] := by
    obtain ⟨front, tail, rfl⟩ := List.exists_cons_of_ne_nil nonempty
    simp
  simp only [dirname, head]
  rw [List.dropWhile_cons_of_pos (by simp), stripped, if_neg (by simpa using rendered),
    List.reverse_reverse]

section
variable {disk workspace package : Disk} {root names : List Text}

/-- The files of one package, at their positions. -/
theorem getInterfacePackageFiles_eq (ending : Text) (nonempty : root ++ names ≠ [])
    (plain : ∀ name ∈ root ++ names, IsPlainName name)
    (located : disk.entryAt (root ++ names) = some package)
    (allPlain : package.AllNames IsPlainName) :
    getInterfacePackageFiles ending disk (render (root ++ names ++ [packageXml])) =
      (package.files.filter fun found => ending <:+ (split found).2).map fun found =>
        render (root ++ names ++ found) := by
  have dir := dirname_render nonempty plain isPlainName_packageXml
  have there : disk.entryAt (components (render (root ++ names))) = some package := by
    rw [components_render (IsPlainName.toIsNames plain), located]
  simp only [getInterfacePackageFiles, dir, there]
  rw [walk_eq nonempty plain allPlain, List.filter_map, List.map_map]
  refine List.map_congr_left ?_
  intro found member
  have isFound := List.mem_of_mem_filter member
  have whole : root ++ names ++ found = root ++ names ++ (split found).1 ++ [(split found).2] := by
    rw [List.append_assoc _ (split found).1, split_append (Entry.ne_nil_of_mem_files isFound)]
  have longer : ∀ name ∈ root ++ names ++ found, IsPlainName name := by
    intro name inside
    obtain front | below := List.mem_append.mp inside
    · exact plain name front
    · exact allPlain.of_mem_files isFound name below
  rw [whole] at longer
  rw [Function.comp_apply, whole, joinPath_plain, forwardSlashes_render longer]
  · intro empty
    exact nonempty (List.append_eq_nil_iff.mp empty).1
  · intro name inside
    exact longer name (List.mem_append_left _ inside)
  · exact longer _ (by simp)

/-- The files of a package on the frontier, at their positions. -/
theorem files_of_onFrontier (ending : Text) (nonempty : root ≠ [])
    (rootPlain : ∀ name ∈ root, IsPlainName name) (located : disk.entryAt root = some workspace)
    (distinct : workspace.Distinct) (allPlain : workspace.AllNames IsPlainName)
    (member : names ∈ workspace.frontier verdict) :
    ∃ listing, workspace.entryAt names = some (.directory listing) ∧
      (∀ found ∈ (Entry.directory listing).files, ∀ name ∈ root ++ names ++ found,
        IsPlainName name) ∧
      getInterfacePackageFiles ending disk (render (root ++ names ++ [packageXml])) =
        ((Entry.directory listing).files.filter fun found => ending <:+ (split found).2).map
          fun found => render (root ++ names ++ found) := by
  obtain ⟨⟨listing, leads, _⟩, _⟩ := (Entry.mem_frontier_iff distinct).mp member
  obtain ⟨namesPlain, belowPlain⟩ := allPlain.of_entryAt leads
  have plain : ∀ name ∈ root ++ names, IsPlainName name :=
    List.forall_mem_append.mpr ⟨rootPlain, namesPlain⟩
  refine ⟨listing, leads, ?_, ?_⟩
  · intro found isFound
    exact List.forall_mem_append.mpr ⟨plain, belowPlain.of_mem_files isFound⟩
  · exact getInterfacePackageFiles_eq ending (by simp [nonempty]) plain
      ((Entry.entryAt_append located names).trans leads) belowPlain

theorem nodup_files_of_onFrontier (ending : Text) (nonempty : root ≠ [])
    (rootPlain : ∀ name ∈ root, IsPlainName name) (located : disk.entryAt root = some workspace)
    (distinct : workspace.Distinct) (allPlain : workspace.AllNames IsPlainName)
    (member : names ∈ workspace.frontier verdict) :
    (getInterfacePackageFiles ending disk (render (root ++ names ++ [packageXml]))).Nodup := by
  obtain ⟨listing, leads, plain, files⟩ :=
    files_of_onFrontier ending nonempty rootPlain located distinct allPlain member
  rw [files]
  refine List.Nodup.map_on ?_ ((Entry.nodup_files (distinct.of_entryAt leads)).filter _)
  intro first firstFound second secondFound equal
  have same := render_injective
    (IsPlainName.toIsNames (plain first (List.mem_of_mem_filter firstFound)))
    (IsPlainName.toIsNames (plain second (List.mem_of_mem_filter secondFound))) equal
  exact List.append_cancel_left same

/-- In a workspace without links, with distinct names that no function changes: the interface
files are found that are below a package, each once. -/
theorem workspace_files_exact (ending : Text) (nonempty : root ≠ [])
    (rootPlain : ∀ name ∈ root, IsPlainName name) (located : disk.entryAt root = some workspace)
    (distinct : workspace.Distinct) (allPlain : workspace.AllNames IsPlainName) :
    ((getPackageList (render root) workspace).flatMap
        (getInterfacePackageFiles ending disk)).Nodup ∧
      ∀ path, path ∈ (getPackageList (render root) workspace).flatMap
          (getInterfacePackageFiles ending disk) ↔
        ∃ names inner file content, IsPackage workspace names ∧
          workspace.entryAt (names ++ (inner ++ [file])) = some (.file content) ∧
          ending <:+ file ∧ path = render (root ++ names ++ (inner ++ [file])) := by
  rw [getPackageList_eq nonempty rootPlain allPlain, List.flatMap_map]
  have each := fun {names} (member : names ∈ workspace.frontier verdict) =>
    files_of_onFrontier ending nonempty rootPlain located distinct allPlain member
  refine ⟨List.nodup_flatMap.mpr ⟨?_, ?_⟩, ?_⟩
  · intro names member
    exact nodup_files_of_onFrontier ending nonempty rootPlain located distinct allPlain member
  · refine List.Nodup.pairwise_of_forall_ne (Entry.nodup_frontier distinct) ?_
    intro first firstMember second secondMember different path firstPath secondPath
    obtain ⟨firstListing, _, firstPlain, firstFiles⟩ := each firstMember
    obtain ⟨secondListing, _, secondPlain, secondFiles⟩ := each secondMember
    simp only [firstFiles] at firstPath
    simp only [secondFiles] at secondPath
    obtain ⟨one, oneFound, rfl⟩ := List.mem_map.mp firstPath
    obtain ⟨another, anotherFound, equal⟩ := List.mem_map.mp secondPath
    have same := render_injective
      (IsPlainName.toIsNames (secondPlain another (List.mem_of_mem_filter anotherFound)))
      (IsPlainName.toIsNames (firstPlain one (List.mem_of_mem_filter oneFound))) equal
    rw [List.append_assoc, List.append_assoc] at same
    have positions := List.append_cancel_left same
    -- of two packages above one file, one is above the other
    have firstTaken := (Entry.mem_frontier_iff distinct).mp firstMember
    have secondTaken := (Entry.mem_frontier_iff distinct).mp secondMember
    obtain isPrefix | isPrefix := List.prefix_or_prefix_of_prefix
      (List.prefix_append second another) (positions ▸ List.prefix_append first one)
    · exact different (Entry.eq_of_onFrontier_of_prefix secondTaken firstTaken isPrefix).symm
    · exact different (Entry.eq_of_onFrontier_of_prefix firstTaken secondTaken isPrefix)
  · intro path
    rw [List.mem_flatMap]
    constructor
    · rintro ⟨names, member, found⟩
      obtain ⟨listing, leads, plain, files⟩ := each member
      rw [files] at found
      obtain ⟨position, inside, rfl⟩ := List.mem_map.mp found
      obtain ⟨isFile, ends⟩ := List.mem_filter.mp inside
      have whole := split_append (Entry.ne_nil_of_mem_files isFile)
      obtain ⟨_, content, there⟩ :=
        (Entry.mem_files_iff (distinct.of_entryAt leads)).mp isFile
      refine ⟨names, (split position).1, (split position).2, content,
        isPackage_iff.mp ((Entry.mem_frontier_iff distinct).mp member), ?_,
        of_decide_eq_true ends, ?_⟩
      · rw [whole, Entry.entryAt_append leads, there]
      · rw [whole]
    · rintro ⟨names, inner, file, content, isPackage, there, ends, rfl⟩
      have member := (Entry.mem_frontier_iff distinct).mpr (isPackage_iff.mpr isPackage)
      obtain ⟨listing, leads, plain, files⟩ := each member
      rw [Entry.entryAt_append leads] at there
      refine ⟨names, member, ?_⟩
      rw [files]
      refine List.mem_map.mpr ⟨inner ++ [file], List.mem_filter.mpr ⟨?_, ?_⟩, rfl⟩
      · exact (Entry.mem_files_iff (distinct.of_entryAt leads)).mpr ⟨by simp, content, there⟩
      · rw [split, List.getLast?_concat, Option.getD_some]
        exact decide_eq_true ends

end

end MicroRosAgent.Generator

/-! ## A workspace with an ignored package -/

namespace MicroRosAgent.Generator

open Files

abbrev samplePackage : Disk :=
  .directory [(packageXml, .file []),
    ("msg".toList, .directory [("Point.msg".toList, .file []), ("README".toList, .file [])])]

abbrev sampleWorkspace : Disk :=
  .directory [("shapes".toList, samplePackage),
    ("old_shapes".toList, .directory [(colconIgnore, .file []), ("shapes".toList, samplePackage)])]

abbrev sampleDisk : Disk := .directory [("ws".toList, sampleWorkspace)]

theorem samplePackage_distinct : samplePackage.Distinct := by
  refine .directory (by decide) ?_
  rw [List.forall_mem_cons, List.forall_mem_singleton]
  refine ⟨.file [], .directory (by decide) ?_⟩
  rw [List.forall_mem_cons, List.forall_mem_singleton]
  exact ⟨.file [], .file []⟩

instance (name : Text) : Decidable (IsPlainName name) :=
  decidable_of_iff (name ≠ [] ∧ '/' ∉ name ∧ name ≠ ['.'] ∧ name ≠ ['.', '.'] ∧ '\\' ∉ name)
    ⟨fun ⟨nonempty, noSlash, notHere, notParent, noBackslash⟩ =>
      ⟨⟨nonempty, noSlash, notHere, notParent⟩, noBackslash⟩,
    fun plain => ⟨plain.nonempty, plain.noSlash, plain.notHere, plain.notParent, plain.noBackslash⟩⟩

theorem samplePackage_plain : samplePackage.AllNames IsPlainName := by
  refine .directory (by decide) ?_
  rw [List.forall_mem_cons, List.forall_mem_singleton]
  refine ⟨.file [], .directory (by decide) ?_⟩
  rw [List.forall_mem_cons, List.forall_mem_singleton]
  exact ⟨.file [], .file []⟩

theorem sampleWorkspace_distinct : sampleWorkspace.Distinct := by
  refine .directory (by decide) ?_
  rw [List.forall_mem_cons, List.forall_mem_singleton]
  refine ⟨samplePackage_distinct, .directory (by decide) ?_⟩
  rw [List.forall_mem_cons, List.forall_mem_singleton]
  exact ⟨.file [], samplePackage_distinct⟩

theorem sampleWorkspace_plain : sampleWorkspace.AllNames IsPlainName := by
  refine .directory (by decide) ?_
  rw [List.forall_mem_cons, List.forall_mem_singleton]
  refine ⟨samplePackage_plain, .directory (by decide) ?_⟩
  rw [List.forall_mem_cons, List.forall_mem_singleton]
  exact ⟨.file [], samplePackage_plain⟩

theorem workspace_files_exact_sample :
    ((getPackageList (render ["ws".toList]) sampleWorkspace).flatMap
        (getInterfacePackageFiles ".msg".toList sampleDisk)).Nodup ∧
      ∀ path, path ∈ (getPackageList (render ["ws".toList]) sampleWorkspace).flatMap
          (getInterfacePackageFiles ".msg".toList sampleDisk) ↔
        ∃ names inner file content, IsPackage sampleWorkspace names ∧
          sampleWorkspace.entryAt (names ++ (inner ++ [file])) = some (.file content) ∧
          ".msg".toList <:+ file ∧ path = render (["ws".toList] ++ names ++ (inner ++ [file])) :=
  workspace_files_exact ".msg".toList (List.cons_ne_nil _ _) (by decide) rfl
    sampleWorkspace_distinct sampleWorkspace_plain

example : (getPackageList "/ws".toList sampleWorkspace).flatMap
    (getInterfacePackageMsgs sampleDisk) = ["/ws/shapes/msg/Point.msg".toList] := by decide

end MicroRosAgent.Generator
