import Mathlib.Data.List.Infix

/-! # Character sequences and the searches of `std::string`

The program compares characters for equality and never looks inside one, so a
`std::string` is the list of its characters.  Positions are `size_t`: a search
that fails returns `npos`, here `none`, and a subtraction wraps below zero.
-/

namespace MicroRosAgent

/-- The characters of a `std::string`. -/
abbrev Text : Type := List Char

namespace Text

def sizeSub (minuend subtrahend : Nat) : Nat :=
  if subtrahend ≤ minuend then minuend - subtrahend else minuend + UInt64.size - subtrahend

-- `none` is a read past the end.
def charAt (text : Text) (position : Nat) : Option Char := text[position]?

-- For a `position` inside the text; `std::string::substr` throws past the end.
def substr (text : Text) (position count : Nat) : Text := (text.drop position).take count

/-- `sizeSub` where it does not wrap. -/
def checkedSub (minuend subtrahend : Nat) : Option Nat :=
  if subtrahend ≤ minuend then some (minuend - subtrahend) else none

/-- `substr` where it does not throw. -/
def checkedSubstr (text : Text) (position count : Nat) : Option Text :=
  if position ≤ text.length then some (substr text position count) else none

def find (pattern : Text) : Text → Option Nat
  | [] => if pattern = [] then some 0 else none
  | char :: rest =>
      if pattern <+: char :: rest then some 0 else (find pattern rest).map (· + 1)

def rfind (pattern : Text) : Text → Option Nat
  | [] => if pattern = [] then some 0 else none
  | char :: rest =>
      match rfind pattern rest with
      | some position => some (position + 1)
      | none => if pattern <+: char :: rest then some 0 else none

theorem sizeSub_of_le {minuend subtrahend : Nat} (le : subtrahend ≤ minuend) :
    sizeSub minuend subtrahend = minuend - subtrahend := if_pos le

theorem checkedSub_of_le {minuend subtrahend : Nat} (le : subtrahend ≤ minuend) :
    checkedSub minuend subtrahend = some (minuend - subtrahend) := if_pos le

theorem sizeSub_of_checkedSub {minuend subtrahend difference : Nat}
    (checked : checkedSub minuend subtrahend = some difference) :
    sizeSub minuend subtrahend = difference := by
  unfold checkedSub at checked
  split at checked
  · rename_i le
    cases checked
    exact sizeSub_of_le le
  · cases checked

theorem checkedSubstr_of_le {text : Text} {position : Nat} (le : position ≤ text.length)
    (count : Nat) : checkedSubstr text position count = some (substr text position count) := if_pos le

theorem find_isPrefix {pattern text : Text} {position : Nat}
    (found : find pattern text = some position) : pattern <+: text.drop position := by
  induction text generalizing position with
  | nil =>
    simp only [find] at found
    split at found
    · cases found; simp_all
    · cases found
  | cons char rest ih =>
    simp only [find] at found
    split at found
    · cases found; simpa
    · obtain ⟨before, earlier, rfl⟩ := Option.map_eq_some_iff.mp found
      simpa using ih earlier

theorem find_isInfix {pattern text : Text} {position : Nat}
    (found : find pattern text = some position) : pattern <:+: text :=
  (find_isPrefix found).isInfix.trans (List.drop_suffix position text).isInfix

theorem find_bound {pattern text : Text} {position : Nat} (nonempty : pattern ≠ [])
    (found : find pattern text = some position) : position + pattern.length ≤ text.length := by
  have some : 0 < pattern.length := List.length_pos_iff.mpr nonempty
  have room : pattern.length ≤ (text.drop position).length := (find_isPrefix found).length_le
  rw [List.length_drop] at room
  omega

theorem find_eq_none_iff {pattern text : Text} : find pattern text = none ↔ ¬ pattern <:+: text := by
  induction text with
  | nil => simp [find]
  | cons char rest ih =>
    simp only [find]
    split
    · rename_i here
      simp [List.infix_cons_iff, here]
    · rename_i absent
      simp [List.infix_cons_iff, absent, ih]

theorem find_of_isPrefix {pattern text : Text} (starts : pattern <+: text) :
    find pattern text = some 0 := by
  cases text with
  | nil => simp [find, List.prefix_nil.mp starts]
  | cons char rest => simp [find, starts]

/-- The search passes over a front in which the pattern does not start. -/
theorem find_append {pattern front back : Text}
    (never : ∀ position < front.length, ¬ pattern <+: (front ++ back).drop position) :
    find pattern (front ++ back) = (find pattern back).map (· + front.length) := by
  induction front with
  | nil => simp
  | cons char front ih =>
    have here : ¬ pattern <+: char :: (front ++ back) := never 0 (by simp)
    have later : ∀ position < front.length, ¬ pattern <+: (front ++ back).drop position := by
      intro position bound
      exact never (position + 1) (by simpa using bound)
    simp only [List.cons_append, find, here, if_false, ih later, Option.map_map]
    rfl

theorem find_append_of_not_mem {first : Char} {pattern front : Text} (back : Text)
    (absent : first ∉ front) :
    find (first :: pattern) (front ++ back) =
      (find (first :: pattern) back).map (· + front.length) := by
  apply find_append
  intro position bound starts
  rw [List.drop_append_of_le_length (Nat.le_of_lt bound), List.drop_eq_getElem_cons bound] at starts
  simp only [List.cons_append, List.cons_prefix_cons] at starts
  rw [starts.1] at absent
  exact absent (List.getElem_mem bound)

theorem rfind_isPrefix {pattern text : Text} {position : Nat}
    (found : rfind pattern text = some position) : pattern <+: text.drop position := by
  induction text generalizing position with
  | nil =>
    simp only [rfind] at found
    split at found
    · cases found; simp_all
    · cases found
  | cons char rest ih =>
    simp only [rfind] at found
    split at found
    · rename_i earlier before
      cases found
      simpa using ih before
    · split at found
      · cases found; simpa
      · cases found

theorem rfind_isInfix {pattern text : Text} {position : Nat}
    (found : rfind pattern text = some position) : pattern <:+: text :=
  (rfind_isPrefix found).isInfix.trans (List.drop_suffix position text).isInfix

theorem rfind_le {pattern text : Text} {position : Nat}
    (found : rfind pattern text = some position) : position ≤ text.length := by
  induction text generalizing position with
  | nil =>
    simp only [rfind] at found
    split at found
    · cases found; exact Nat.le_refl _
    · cases found
  | cons char rest ih =>
    simp only [rfind] at found
    split at found
    · rename_i earlier before
      cases found
      exact Nat.succ_le_succ (ih before)
    · split at found
      · cases found; exact Nat.zero_le _
      · cases found

theorem rfind_ne_none {pattern text : Text} {position : Nat} (bound : position ≤ text.length)
    (occurs : pattern <+: text.drop position) : rfind pattern text ≠ none := by
  induction text generalizing position with
  | nil => simp_all [rfind]
  | cons char rest ih =>
    simp only [rfind]
    split
    · simp
    · rename_i absent
      cases position with
      | zero => simp_all
      | succ position => exact absurd absent (ih (by simpa using bound) (by simpa using occurs))

theorem rfind_last {pattern text : Text} {position later : Nat}
    (found : rfind pattern text = some position) (bound : later ≤ text.length)
    (occurs : pattern <+: text.drop later) : later ≤ position := by
  induction text generalizing position later with
  | nil => simp_all
  | cons char rest ih =>
    simp only [rfind] at found
    cases later with
    | zero => exact Nat.zero_le _
    | succ later =>
      simp only [List.length_cons, Nat.add_le_add_iff_right, List.drop_succ_cons] at bound occurs
      split at found
      · rename_i earlier before
        cases found
        exact Nat.succ_le_succ (ih before bound occurs)
      · rename_i before
        exact absurd before (rfind_ne_none bound occurs)

/-- A text that ends with the pattern: `rfind` finds the end. -/
theorem rfind_append (front : Text) {pattern : Text} (nonempty : pattern ≠ []) :
    rfind pattern (front ++ pattern) = some front.length := by
  have bound : front.length ≤ (front ++ pattern).length := by simp
  have occurs : pattern <+: (front ++ pattern).drop front.length := by simp
  obtain ⟨position, found⟩ := Option.ne_none_iff_exists'.mp (rfind_ne_none bound occurs)
  have atLeast : front.length ≤ position := rfind_last found bound occurs
  have atMost : pattern.length ≤ ((front ++ pattern).drop position).length :=
    (rfind_isPrefix found).length_le
  have : 0 < pattern.length := List.length_pos_iff.mpr nonempty
  simp only [List.length_drop, List.length_append] at atMost
  rw [found]
  congr 1
  omega

theorem rfind_eq_none_iff {pattern text : Text} :
    rfind pattern text = none ↔ ¬ pattern <:+: text := by
  induction text with
  | nil => simp [rfind]
  | cons char rest ih =>
    simp only [rfind]
    rw [List.infix_cons_iff]
    split
    · rename_i position later
      simp [rfind_isInfix later]
    · rename_i absent
      simp [ih.mp absent]

theorem rfind_bound {pattern text : Text} {position : Nat}
    (found : rfind pattern text = some position) :
    position + pattern.length ≤ text.length := by
  have inside : position ≤ text.length := rfind_le found
  have room : pattern.length ≤ (text.drop position).length := (rfind_isPrefix found).length_le
  rw [List.length_drop] at room
  omega

/-- Nothing is left behind the last occurrence exactly if the text ends with the pattern. -/
theorem rfind_atEnd_iff {pattern text : Text} {position : Nat} (nonempty : pattern ≠ [])
    (found : rfind pattern text = some position) :
    position + pattern.length = text.length ↔ pattern <:+ text := by
  constructor
  · intro atEnd
    obtain ⟨after, here⟩ := rfind_isPrefix found
    have nothing : after = [] := by
      have lengths := congrArg List.length here
      simp only [List.length_append, List.length_drop] at lengths
      exact List.length_eq_zero_iff.mp (by omega)
    rw [nothing, List.append_nil] at here
    rw [here]
    exact List.drop_suffix position text
  · rintro ⟨front, rfl⟩
    rw [rfind_append front nonempty] at found
    cases found
    exact List.length_append.symm

/-- Both texts are cut at their first separator. -/
theorem isPrefix_cut {separator : Char} {marker word tail rest : Text} (markerFree : separator ∉ marker)
    (wordFree : separator ∉ word) (starts : marker ++ separator :: tail <+: word ++ separator :: rest) :
    marker = word ∧ tail <+: rest := by
  induction marker generalizing word with
  | nil =>
    cases word with
    | nil => simpa using starts
    | cons char word =>
      simp only [List.nil_append, List.cons_append, List.cons_prefix_cons] at starts
      exact absurd (starts.1 ▸ List.mem_cons_self) wordFree
  | cons first marker ih =>
    simp only [List.mem_cons, not_or] at markerFree
    cases word with
    | nil =>
      simp only [List.nil_append, List.cons_append, List.cons_prefix_cons] at starts
      exact absurd starts.1.symm markerFree.1
    | cons char word =>
      simp only [List.mem_cons, not_or] at wordFree
      simp only [List.cons_append, List.cons_prefix_cons] at starts
      obtain ⟨same, cut⟩ := ih markerFree.2 wordFree.2 starts.2
      exact ⟨by rw [starts.1, same], cut⟩

theorem eq_of_cut {separator : Char} {front otherFront back otherBack : Text}
    (frontFree : separator ∉ front) (otherFree : separator ∉ otherFront)
    (equal : front ++ separator :: back = otherFront ++ separator :: otherBack) :
    front = otherFront ∧ back = otherBack := by
  have starts : front ++ separator :: back <+: otherFront ++ separator :: otherBack := by
    rw [equal]
  obtain ⟨rfl, _⟩ := isPrefix_cut frontFree otherFree starts
  exact ⟨rfl, by simpa using equal⟩

/-- Both texts are cut at their last separator. -/
theorem eq_of_lastCut {separator : Char} {front otherFront back otherBack : Text}
    (backFree : separator ∉ back) (otherFree : separator ∉ otherBack)
    (equal : front ++ separator :: back = otherFront ++ separator :: otherBack) :
    front = otherFront ∧ back = otherBack := by
  have reversed := congrArg List.reverse equal
  simp only [List.reverse_append, List.reverse_cons, List.append_assoc, List.singleton_append]
    at reversed
  obtain ⟨backs, fronts⟩ := eq_of_cut (by simpa using backFree) (by simpa using otherFree) reversed
  exact ⟨List.reverse_injective fronts, List.reverse_injective backs⟩

end Text

end MicroRosAgent
