import Mathlib.Data.List.Nodup
import Mathlib.Data.List.Lattice

/-! # Trees of files

A directory tree and two ways of going through it:

* `frontier` — from the top, a verdict on each directory says whether it is taken, left
  out with all that is below it, or searched further;
* `files` — all files, those of a directory before those of its subdirectories.

A position is the list of names that lead to it.  `onFrontier_iff` and `mem_files_iff` say
which positions the two give, in terms of `entryAt`, and each of them once where the names
in every directory are `Distinct`.
-/

namespace MicroRosAgent.Files

inductive Entry (Name Content : Type) where
  | file (content : Content)
  | directory (listing : List (Name × Entry Name Content))

inductive Verdict where
  | take | leave | descend
  deriving DecidableEq, Repr

namespace Entry

variable {Name Content : Type}

def isFile : Entry Name Content → Bool
  | file _ => true
  | directory _ => false

/-- The names of the files in a directory. -/
def fileNames (listing : List (Name × Entry Name Content)) : List Name :=
  (listing.filter fun item => item.2.isFile).map Prod.fst

mutual
def frontier (verdict : List (Name × Entry Name Content) → Verdict) :
    Entry Name Content → List (List Name)
  | file _ => []
  | directory listing =>
      match verdict listing with
      | .take => [[]]
      | .leave => []
      | .descend => frontierIn verdict listing

def frontierIn (verdict : List (Name × Entry Name Content) → Verdict) :
    List (Name × Entry Name Content) → List (List Name)
  | [] => []
  | (name, entry) :: rest =>
      (frontier verdict entry).map (name :: ·) ++ frontierIn verdict rest
end

mutual
def files : Entry Name Content → List (List Name)
  | file _ => []
  | directory listing => (fileNames listing).map (fun name => [name]) ++ filesIn listing

def filesIn : List (Name × Entry Name Content) → List (List Name)
  | [] => []
  | (name, entry) :: rest => (files entry).map (name :: ·) ++ filesIn rest
end

/-- No directory has two entries of one name. -/
inductive Distinct : Entry Name Content → Prop
  | file (content : Content) : Distinct (file content)
  | directory {listing : List (Name × Entry Name Content)} (names : (listing.map Prod.fst).Nodup)
      (below : ∀ item ∈ listing, Distinct item.2) : Distinct (directory listing)

/-- Every name in the tree is as it should be. -/
inductive AllNames (proper : Name → Prop) : Entry Name Content → Prop
  | file (content : Content) : AllNames proper (file content)
  | directory {listing : List (Name × Entry Name Content)}
      (names : ∀ item ∈ listing, proper item.1) (below : ∀ item ∈ listing, AllNames proper item.2) :
      AllNames proper (directory listing)

theorem AllNames.mono {proper weaker : Name → Prop} {entry : Entry Name Content}
    (allNames : entry.AllNames proper) (weaken : ∀ name, proper name → weaker name) :
    entry.AllNames weaker := by
  induction allNames with
  | file content => exact .file content
  | directory names _ ih =>
    exact .directory (fun item member => weaken _ (names item member)) ih

/-! ## What a position leads to -/

section
variable [DecidableEq Name]

def entryAt : Entry Name Content → List Name → Option (Entry Name Content)
  | entry, [] => some entry
  | file _, _ :: _ => none
  | directory listing, name :: names =>
      match listing.find? fun item => item.1 = name with
      | some item => item.2.entryAt names
      | none => none

@[simp] theorem entryAt_nil (entry : Entry Name Content) : entry.entryAt [] = some entry := by
  cases entry <;> rfl

@[simp] theorem entryAt_file (content : Content) (name : Name) (names : List Name) :
    (file content : Entry Name Content).entryAt (name :: names) = none := rfl

theorem entryAt_cons_eq_some {listing : List (Name × Entry Name Content)} {name : Name}
    {names : List Name} {found : Entry Name Content}
    (leads : (directory listing).entryAt (name :: names) = some found) :
    ∃ entry, (name, entry) ∈ listing ∧ entry.entryAt names = some found := by
  unfold entryAt at leads
  split at leads
  · rename_i item here
    have named : item.1 = name := by simpa using List.find?_some here
    subst named
    exact ⟨item.2, List.mem_of_find?_eq_some here, leads⟩
  · cases leads

theorem find_of_mem {listing : List (Name × Entry Name Content)} {name : Name}
    {entry : Entry Name Content} (names : (listing.map Prod.fst).Nodup)
    (member : (name, entry) ∈ listing) :
    listing.find? (fun item => item.1 = name) = some (name, entry) := by
  induction listing with
  | nil => cases member
  | cons item rest ih =>
    rw [List.map_cons, List.nodup_cons] at names
    obtain rfl | later := List.mem_cons.mp member
    · simp
    · have different : item.1 ≠ name := by
        intro same
        exact names.1 (same ▸ List.mem_map_of_mem later)
      rw [List.find?_cons_of_neg (by simpa using different)]
      exact ih names.2 later

theorem entryAt_of_mem {listing : List (Name × Entry Name Content)} {name : Name}
    {entry : Entry Name Content} (names : (listing.map Prod.fst).Nodup)
    (member : (name, entry) ∈ listing) (rest : List Name) :
    (directory listing).entryAt (name :: rest) = entry.entryAt rest := by
  rw [entryAt, find_of_mem names member]

theorem entryAt_append {entry middle : Entry Name Content} {names : List Name}
    (leads : entry.entryAt names = some middle) (rest : List Name) :
    entry.entryAt (names ++ rest) = middle.entryAt rest := by
  induction names generalizing entry with
  | nil =>
    rw [entryAt_nil] at leads
    cases leads
    rfl
  | cons name names ih =>
    cases entry with
    | file content => cases leads
    | directory listing =>
      unfold entryAt at leads
      rw [List.cons_append, entryAt]
      split at leads
      · exact ih leads
      · cases leads

theorem AllNames.of_entryAt {proper : Name → Prop} {entry found : Entry Name Content}
    {names : List Name} (allNames : entry.AllNames proper)
    (leads : entry.entryAt names = some found) :
    (∀ name ∈ names, proper name) ∧ found.AllNames proper := by
  induction names generalizing entry with
  | nil =>
    rw [entryAt_nil] at leads
    cases leads
    exact ⟨nofun, allNames⟩
  | cons name names ih =>
    cases allNames with
    | file content => cases leads
    | directory named below =>
      obtain ⟨next, member, leads⟩ := entryAt_cons_eq_some leads
      obtain ⟨later, allNames⟩ := ih (below _ member) leads
      exact ⟨List.forall_mem_cons.mpr ⟨named _ member, later⟩, allNames⟩

theorem Distinct.of_entryAt {entry found : Entry Name Content} {names : List Name}
    (distinct : entry.Distinct) (leads : entry.entryAt names = some found) : found.Distinct := by
  induction names generalizing entry with
  | nil =>
    rw [entryAt_nil] at leads
    cases leads
    exact distinct
  | cons name names ih =>
    cases distinct with
    | file content => cases leads
    | directory _ below =>
      obtain ⟨next, member, leads⟩ := entryAt_cons_eq_some leads
      exact ih (below _ member) leads

end

/-! ## The frontier -/

section
variable {verdict : List (Name × Entry Name Content) → Verdict}

theorem frontier_directory (listing : List (Name × Entry Name Content)) :
    (directory listing).frontier verdict =
      match verdict listing with
      | .take => [[]]
      | .leave => []
      | .descend => frontierIn verdict listing := by
  rw [frontier]

theorem mem_frontierIn {listing : List (Name × Entry Name Content)} {names : List Name} :
    names ∈ frontierIn verdict listing ↔
      ∃ name entry rest, (name, entry) ∈ listing ∧ names = name :: rest ∧
        rest ∈ entry.frontier verdict := by
  induction listing with
  | nil => simp [frontierIn]
  | cons item listing ih =>
    rw [frontierIn, List.mem_append, ih, List.mem_map]
    constructor
    · rintro (⟨rest, found, rfl⟩ | ⟨name, entry, rest, member, rfl, found⟩)
      · exact ⟨item.1, item.2, rest, List.mem_cons_self, rfl, found⟩
      · exact ⟨name, entry, rest, List.mem_cons_of_mem _ member, rfl, found⟩
    · rintro ⟨name, entry, rest, member, rfl, found⟩
      obtain rfl | later := List.mem_cons.mp member
      · exact Or.inl ⟨rest, found, rfl⟩
      · exact Or.inr ⟨name, entry, rest, later, rfl, found⟩

/-- A directory that is taken, every directory on the way to which is searched further. -/
def OnFrontier [DecidableEq Name] (verdict : List (Name × Entry Name Content) → Verdict)
    (entry : Entry Name Content) (names : List Name) : Prop :=
  (∃ listing, entry.entryAt names = some (directory listing) ∧ verdict listing = .take) ∧
    ∀ shorter, shorter <+: names → shorter ≠ names →
      ∃ listing, entry.entryAt shorter = some (directory listing) ∧ verdict listing = .descend

variable [DecidableEq Name]

theorem onFrontier_nil {entry : Entry Name Content} :
    OnFrontier verdict entry [] ↔ ∃ listing, entry = directory listing ∧ verdict listing = .take := by
  constructor
  · rintro ⟨⟨listing, leads, taken⟩, _⟩
    rw [entryAt_nil] at leads
    exact ⟨listing, Option.some.inj leads, taken⟩
  · rintro ⟨listing, rfl, taken⟩
    refine ⟨⟨listing, entryAt_nil _, taken⟩, ?_⟩
    intro shorter isPrefix different
    exact absurd (List.prefix_nil.mp isPrefix) different

theorem onFrontier_cons {listing : List (Name × Entry Name Content)} {name : Name}
    {entry : Entry Name Content} {rest : List Name} (names : (listing.map Prod.fst).Nodup)
    (member : (name, entry) ∈ listing) :
    OnFrontier verdict (directory listing) (name :: rest) ↔
      verdict listing = .descend ∧ OnFrontier verdict entry rest := by
  constructor
  · rintro ⟨⟨found, leads, taken⟩, above⟩
    refine ⟨?_, ⟨found, ?_, taken⟩, ?_⟩
    · obtain ⟨top, isTop, descends⟩ := above [] List.nil_prefix (List.cons_ne_nil _ _).symm
      rw [entryAt_nil] at isTop
      cases isTop
      exact descends
    · rwa [entryAt_of_mem names member] at leads
    · intro shorter isPrefix different
      obtain ⟨between, leadsThere, descends⟩ := above (name :: shorter)
        ((List.prefix_cons_inj name).mpr isPrefix) (by simpa using different)
      rw [entryAt_of_mem names member] at leadsThere
      exact ⟨between, leadsThere, descends⟩
  · rintro ⟨descends, ⟨found, leads, taken⟩, above⟩
    refine ⟨⟨found, ?_, taken⟩, ?_⟩
    · rwa [entryAt_of_mem names member]
    · intro shorter isPrefix different
      cases shorter with
      | nil => exact ⟨listing, entryAt_nil _, descends⟩
      | cons head shorter =>
        obtain ⟨rfl, tailPrefix⟩ := List.cons_prefix_cons.mp isPrefix
        rw [entryAt_of_mem names member]
        exact above shorter tailPrefix (by simpa using different)

theorem mem_frontier_iff {entry : Entry Name Content} (distinct : entry.Distinct)
    {names : List Name} : names ∈ entry.frontier verdict ↔ OnFrontier verdict entry names := by
  induction names generalizing entry with
  | nil =>
    rw [onFrontier_nil]
    cases entry with
    | file content => simp [frontier]
    | directory listing =>
      rw [frontier_directory]
      cases found : verdict listing <;> simp [found, mem_frontierIn]
  | cons name rest ih =>
    cases entry with
    | file content =>
      have nowhere : ¬ OnFrontier verdict (file content) (name :: rest) := by
        rintro ⟨⟨listing, leads, _⟩, _⟩
        cases leads
      simp [frontier, nowhere]
    | directory listing =>
      obtain _ | ⟨distinctNames, below⟩ := distinct
      rw [frontier_directory]
      constructor
      · intro found
        cases isVerdict : verdict listing with
        | take | leave => simp [isVerdict] at found
        | descend =>
          simp only [isVerdict, mem_frontierIn] at found
          obtain ⟨_, entry, _, member, equal, found⟩ := found
          cases equal
          rw [onFrontier_cons distinctNames member]
          exact ⟨isVerdict, (ih (below _ member)).mp found⟩
      · intro onFrontier
        obtain ⟨found, leads, _⟩ := onFrontier.1
        obtain ⟨entry, member, _⟩ := entryAt_cons_eq_some leads
        obtain ⟨descends, onFrontier⟩ := (onFrontier_cons distinctNames member).mp onFrontier
        simp only [descends, mem_frontierIn]
        exact ⟨name, entry, rest, member, rfl, (ih (below _ member)).mpr onFrontier⟩

end

/-! ## Each position once -/

/-- Positions below entries of different names are different. -/
theorem nodup_below {positions : Entry Name Content → List (List Name)}
    {within : List (Name × Entry Name Content) → List (List Name)} (nil : within [] = [])
    (cons : ∀ name entry rest,
      within ((name, entry) :: rest) = (positions entry).map (name :: ·) ++ within rest)
    {listing : List (Name × Entry Name Content)} (names : (listing.map Prod.fst).Nodup)
    (below : ∀ item ∈ listing, (positions item.2).Nodup) :
    (within listing).Nodup ∧ ∀ found ∈ within listing, ∃ name ∈ listing.map Prod.fst, ∃ rest,
      found = name :: rest := by
  induction listing with
  | nil => simp [nil]
  | cons item rest ih =>
    rw [List.map_cons, List.nodup_cons] at names
    obtain ⟨nodup, under⟩ := ih names.2 fun other member =>
      below other (List.mem_cons_of_mem _ member)
    rw [cons item.1 item.2 rest]
    refine ⟨List.nodup_append.mpr ⟨?_, nodup, ?_⟩, ?_⟩
    · exact (below item List.mem_cons_self).map (List.cons_injective)
    · intro first firstFound second secondFound equal
      obtain ⟨tail, _, rfl⟩ := List.mem_map.mp firstFound
      obtain ⟨name, member, otherTail, rfl⟩ := under second secondFound
      cases equal
      exact names.1 member
    · intro found member
      obtain here | later := List.mem_append.mp member
      · obtain ⟨tail, _, rfl⟩ := List.mem_map.mp here
        exact ⟨item.1, List.mem_cons_self, tail, rfl⟩
      · obtain ⟨name, listed, tail, rfl⟩ := under found later
        exact ⟨name, List.mem_cons_of_mem _ listed, tail, rfl⟩

theorem nodup_frontier {verdict : List (Name × Entry Name Content) → Verdict}
    {entry : Entry Name Content} (distinct : entry.Distinct) : (entry.frontier verdict).Nodup := by
  induction distinct with
  | file content => simp [frontier]
  | directory names _ ih =>
    rw [frontier_directory]
    split
    · simp
    · simp
    · exact (nodup_below (by rw [frontierIn]) (fun _ _ _ => by rw [frontierIn]) names ih).1

/-- No position that is taken lies below another one. -/
theorem eq_of_onFrontier_of_prefix [DecidableEq Name]
    {verdict : List (Name × Entry Name Content) → Verdict} {entry : Entry Name Content}
    {first second : List Name} (firstTaken : OnFrontier verdict entry first)
    (secondTaken : OnFrontier verdict entry second) (isPrefix : first <+: second) :
    first = second := by
  by_contra different
  obtain ⟨listing, leads, taken⟩ := firstTaken.1
  obtain ⟨again, leadsAgain, descends⟩ := secondTaken.2 first isPrefix different
  cases leads.symm.trans leadsAgain
  cases taken.symm.trans descends

/-! ## All files -/

theorem files_directory (listing : List (Name × Entry Name Content)) :
    (directory listing).files = (fileNames listing).map (fun name => [name]) ++ filesIn listing := by
  rw [files]

theorem mem_filesIn {listing : List (Name × Entry Name Content)} {names : List Name} :
    names ∈ filesIn listing ↔
      ∃ name entry rest, (name, entry) ∈ listing ∧ names = name :: rest ∧ rest ∈ entry.files := by
  induction listing with
  | nil => simp [filesIn]
  | cons item listing ih =>
    rw [filesIn, List.mem_append, ih, List.mem_map]
    constructor
    · rintro (⟨rest, found, rfl⟩ | ⟨name, entry, rest, member, rfl, found⟩)
      · exact ⟨item.1, item.2, rest, List.mem_cons_self, rfl, found⟩
      · exact ⟨name, entry, rest, List.mem_cons_of_mem _ member, rfl, found⟩
    · rintro ⟨name, entry, rest, member, rfl, found⟩
      obtain rfl | later := List.mem_cons.mp member
      · exact Or.inl ⟨rest, found, rfl⟩
      · exact Or.inr ⟨name, entry, rest, later, rfl, found⟩

theorem mem_fileNames {listing : List (Name × Entry Name Content)} {name : Name} :
    name ∈ fileNames listing ↔ ∃ content, (name, file content) ∈ listing := by
  simp only [fileNames, List.mem_map, List.mem_filter]
  constructor
  · rintro ⟨⟨_, entry⟩, ⟨member, isFile⟩, rfl⟩
    cases entry with
    | file content => exact ⟨content, member⟩
    | directory below => cases isFile
  · rintro ⟨content, member⟩
    exact ⟨(name, file content), ⟨member, rfl⟩, rfl⟩

theorem ne_nil_of_mem_files {entry : Entry Name Content} {names : List Name}
    (found : names ∈ entry.files) : names ≠ [] := by
  cases entry with
  | file content => simp [files] at found
  | directory listing =>
    rw [files_directory, List.mem_append] at found
    obtain here | below := found
    · obtain ⟨name, _, rfl⟩ := List.mem_map.mp here
      exact List.cons_ne_nil _ _
    · obtain ⟨name, entry, rest, _, rfl, _⟩ := mem_filesIn.mp below
      exact List.cons_ne_nil _ _

theorem AllNames.of_mem_files {proper : Name → Prop} {entry : Entry Name Content}
    {names : List Name} (allNames : entry.AllNames proper) (found : names ∈ entry.files) :
    ∀ name ∈ names, proper name := by
  induction names generalizing entry with
  | nil => exact nofun
  | cons name rest ih =>
    cases allNames with
    | file content => simp [files] at found
    | @directory listing named below =>
      rw [files_directory, List.mem_append, List.mem_map, mem_filesIn] at found
      obtain ⟨_, here, equal⟩ | ⟨_, entry, _, member, equal, deeper⟩ := found
      · cases equal
        obtain ⟨content, member⟩ := mem_fileNames.mp here
        exact List.forall_mem_cons.mpr ⟨named _ member, nofun⟩
      · cases equal
        exact List.forall_mem_cons.mpr ⟨named _ member, ih (below _ member) deeper⟩

theorem nodup_files {entry : Entry Name Content} (distinct : entry.Distinct) :
    entry.files.Nodup := by
  induction distinct with
  | file content => simp [files]
  | @directory listing names _ ih =>
    rw [files_directory]
    have nodup : (filesIn listing).Nodup :=
      (nodup_below (by rw [filesIn]) (fun _ _ _ => by rw [filesIn]) names ih).1
    refine List.nodup_append.mpr ⟨?_, nodup, ?_⟩
    · have own : (fileNames listing).Nodup := names.sublist (List.filter_sublist.map _)
      exact own.map fun _ _ equal => List.cons.inj equal |>.1
    · intro first firstFound second secondFound equal
      obtain ⟨name, _, rfl⟩ := List.mem_map.mp firstFound
      obtain ⟨_, entry, rest, _, rfl, below⟩ := mem_filesIn.mp secondFound
      exact ne_nil_of_mem_files below (List.cons.inj equal).2.symm

theorem mem_files_iff [DecidableEq Name] {listing : List (Name × Entry Name Content)}
    (distinct : (directory listing).Distinct) {names : List Name} :
    names ∈ (directory listing).files ↔
      names ≠ [] ∧ ∃ content, (directory listing).entryAt names = some (file content) := by
  induction names generalizing listing with
  | nil =>
    constructor
    · intro found
      exact absurd rfl (ne_nil_of_mem_files found)
    · intro found
      exact absurd rfl found.1
  | cons name rest ih =>
    obtain _ | ⟨distinctNames, below⟩ := distinct
    rw [files_directory, List.mem_append, List.mem_map, mem_filesIn]
    constructor
    · rintro (⟨_, here, equal⟩ | ⟨_, entry, _, member, equal, found⟩)
      · cases equal
        obtain ⟨content, member⟩ := mem_fileNames.mp here
        refine ⟨List.cons_ne_nil _ _, content, ?_⟩
        rw [entryAt_of_mem distinctNames member, entryAt_nil]
      · cases equal
        refine ⟨List.cons_ne_nil _ _, ?_⟩
        rw [entryAt_of_mem distinctNames member]
        cases entry with
        | file content => simp [files] at found
        | directory inner => exact ((ih (below _ member)).mp found).2
    · rintro ⟨_, content, leads⟩
      obtain ⟨entry, member, leads⟩ := entryAt_cons_eq_some leads
      cases entry with
      | file inner =>
        cases rest with
        | nil => exact Or.inl ⟨name, mem_fileNames.mpr ⟨inner, member⟩, rfl⟩
        | cons => cases leads
      | directory inner =>
        refine Or.inr ⟨name, _, rest, member, rfl, (ih (below _ member)).mpr ⟨?_, content, leads⟩⟩
        rintro rfl
        cases leads

end Entry

end MicroRosAgent.Files
