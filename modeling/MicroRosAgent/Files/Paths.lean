import MicroRosAgent.Text.Tokens
import Mathlib.Data.List.Basic

/-! # Absolute paths

`os.path.join` and `os.path.abspath` on POSIX, and the paths they give for a position in a
file tree: `render` writes a slash before every name.  On names without a slash `render` is
injective and `components` reads it back; where no name is empty, `.` or `..`, joining
appends a name (`joinPath_render`) and the path is already normal (`abspath_render`).
-/

namespace MicroRosAgent.Files

/-- What a name in a directory can be. -/
structure IsName (name : Text) : Prop where
  nonempty : name ≠ []
  noSlash : '/' ∉ name
  notHere : name ≠ ['.']
  notParent : name ≠ ['.', '.']

/-- `os.path.join`. -/
def joinPath (path name : Text) : Text :=
  if ['/'] <+: name then name
  else if path = [] ∨ ['/'] <:+ path then path ++ name
  else path ++ '/' :: name

/-- The loop of `os.path.normpath` on an absolute path, with the components kept so far,
    the last one first. -/
def normalComponents : List Text → List Text → List Text
  | kept, [] => kept.reverse
  | kept, component :: rest =>
      if component = [] ∨ component = ['.'] then normalComponents kept rest
      else if component = ['.', '.'] then normalComponents kept.tail rest
      else normalComponents (component :: kept) rest

/-- `os.path.abspath` of an absolute path; two leading slashes stay two. -/
def abspath (path : Text) : Text :=
  (if ['/', '/'] <+: path ∧ ¬ ['/', '/', '/'] <+: path then ['/', '/'] else ['/']) ++
    Text.join '/' (normalComponents [] (path.splitOn '/'))

/-- The names an absolute path goes through. -/
def components (path : Text) : List Text := (path.splitOn '/').filter (· ≠ [])

def render (names : List Text) : Text := names.flatMap fun name => '/' :: name

@[simp] theorem render_nil : render [] = [] := rfl

@[simp] theorem render_cons (name : Text) (names : List Text) :
    render (name :: names) = '/' :: (name ++ render names) := by
  simp [render]

theorem render_concat (names : List Text) (name : Text) :
    render (names ++ [name]) = render names ++ '/' :: name := by
  simp [render]

theorem splitOn_render {names : List Text} (noSlash : ∀ name ∈ names, '/' ∉ name) :
    (render names).splitOn '/' = [] :: names := by
  induction names with
  | nil => rfl
  | cons name names ih =>
    obtain ⟨free, rest⟩ := List.forall_mem_cons.mp noSlash
    have different : ∀ char ∈ name, (char == '/') = false := by
      intro char member
      exact beq_false_of_ne fun same => free (same ▸ member)
    have start : (render (name :: names)).splitOn '/' = [] :: (name ++ render names).splitOn '/' := by
      rw [render_cons, List.splitOn_cons_eq_if_modifyHead, if_pos (beq_self_eq_true '/')]
    rw [start]
    cases names with
    | nil => rw [render_nil, List.append_nil, List.splitOn_eq_singleton_of_beq_eq_false different]
    | cons next names =>
      have tail := ih rest
      rw [render_cons, List.splitOn_cons_eq_if_modifyHead, if_pos (beq_self_eq_true '/')] at tail
      rw [render_cons, List.splitOn_eq_splitOnP,
        List.splitOnP_append_cons_of_forall_mem different '/' (beq_self_eq_true '/'),
        ← List.splitOn_eq_splitOnP, (List.cons.inj tail).2]

theorem components_render {names : List Text} (proper : ∀ name ∈ names, IsName name) :
    components (render names) = names := by
  rw [components, splitOn_render fun name member => (proper name member).noSlash,
    List.filter_cons_of_neg (by simp)]
  exact List.filter_eq_self.mpr fun name member => decide_eq_true (proper name member).nonempty

theorem render_injective {first second : List Text} (firstProper : ∀ name ∈ first, IsName name)
    (secondProper : ∀ name ∈ second, IsName name) (equal : render first = render second) :
    first = second := by
  rw [← components_render firstProper, equal, components_render secondProper]

theorem normalComponents_of_proper {names : List Text} (proper : ∀ name ∈ names, IsName name)
    (kept : List Text) : normalComponents kept names = kept.reverse ++ names := by
  induction names generalizing kept with
  | nil => simp [normalComponents]
  | cons name names ih =>
    obtain ⟨here, rest⟩ := List.forall_mem_cons.mp proper
    rw [normalComponents, if_neg (by simp [here.nonempty, here.notHere]), if_neg here.notParent,
      ih rest]
    simp

theorem slash_join {names : List Text} (some : names ≠ []) :
    '/' :: Text.join '/' names = render names := by
  induction names with
  | nil => contradiction
  | cons name names ih =>
    cases names with
    | nil => simp
    | cons next names =>
      rw [Text.join_cons_cons, ih (List.cons_ne_nil _ _), render_cons name]

/-- The last character of a rendered path belongs to the last name. -/
theorem not_slash_suffix_render {names : List Text} (some : names ≠ [])
    (proper : ∀ name ∈ names, IsName name) : ¬ ['/'] <:+ render names := by
  obtain ⟨front, last, rfl⟩ := List.eq_nil_or_concat names |>.resolve_left some
  have isName := proper last (by simp)
  rw [List.concat_eq_append, render_concat]
  rintro ⟨before, ends⟩
  obtain ⟨lastFront, lastChar, rfl⟩ := List.eq_nil_or_concat last |>.resolve_left isName.nonempty
  rw [List.concat_eq_append, ← List.cons_append, ← List.append_assoc] at ends
  have same := (List.append_inj' ends rfl).2
  refine isName.noSlash ?_
  rw [List.concat_eq_append, ← same]
  simp

theorem joinPath_render {names : List Text} (some : names ≠ [])
    (proper : ∀ name ∈ names, IsName name) {name : Text} (isName : IsName name) :
    joinPath (render names) name = render (names ++ [name]) := by
  have relative : ¬ ['/'] <+: name := by
    rintro ⟨rest, rfl⟩
    exact isName.noSlash (by simp)
  have nonempty : render names ≠ [] := by
    obtain ⟨head, tail, rfl⟩ := List.exists_cons_of_ne_nil some
    simp
  rw [joinPath, if_neg relative, if_neg (by simp [nonempty, not_slash_suffix_render some proper]),
    render_concat]

theorem abspath_render {names : List Text} (some : names ≠ [])
    (proper : ∀ name ∈ names, IsName name) : abspath (render names) = render names := by
  have single : ¬ ['/', '/'] <+: render names := by
    obtain ⟨head, tail, rfl⟩ := List.exists_cons_of_ne_nil some
    have isName := proper head (by simp)
    obtain ⟨char, rest, rfl⟩ := List.exists_cons_of_ne_nil isName.nonempty
    rw [render_cons, List.cons_append, List.cons_prefix_cons, List.cons_prefix_cons]
    rintro ⟨_, rfl, _⟩
    exact isName.noSlash (by simp)
  rw [abspath, if_neg (fun two => single two.1),
    splitOn_render fun name member => (proper name member).noSlash, normalComponents,
    if_pos (Or.inl rfl), normalComponents_of_proper proper]
  exact slash_join some

end MicroRosAgent.Files
