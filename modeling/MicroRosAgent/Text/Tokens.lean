import MicroRosAgent.Text.Search

/-! # Tokens of a string stream

## By `std::getline`

`while (std::getline(stream, token, delimiter)) tokens.push_back(token)` on a
string stream: each call takes the characters up to the delimiter, and the loop
ends at the first call that extracts nothing at all.  A text that ends with the
delimiter therefore has no empty last token.

## By `std::istream_iterator<std::string>`

Each extraction skips white space and takes the characters up to the next one.
-/

namespace MicroRosAgent.Text

def getlinesFrom (delimiter : Char) : Text → Text → List Text
  | token, [] => if token = [] then [] else [token]  -- nothing extracted: the loop ends
  | token, char :: rest =>
      if char = delimiter then token :: getlinesFrom delimiter [] rest
      else getlinesFrom delimiter (token ++ [char]) rest

def getlines (delimiter : Char) (text : Text) : List Text := getlinesFrom delimiter [] text

/-- `std::isspace` of the classic locale: the space, and the controls from the tab to the
    carriage return. -/
def isSpace (char : Char) : Bool := char = ' ' || (9 ≤ char.toNat && char.toNat ≤ 13)

def wordsFrom : Text → Text → List Text
  | word, [] => if word = [] then [] else [word]
  | word, char :: rest =>
      if isSpace char then
        if word = [] then wordsFrom [] rest else word :: wordsFrom [] rest
      else wordsFrom (word ++ [char]) rest

def words (text : Text) : List Text := wordsFrom [] text

def join (delimiter : Char) : List Text → Text
  | [] => []
  | [piece] => piece
  | piece :: pieces => piece ++ delimiter :: join delimiter pieces

@[simp] theorem join_nil (delimiter : Char) : join delimiter [] = [] := rfl

@[simp] theorem join_singleton (delimiter : Char) (piece : Text) :
    join delimiter [piece] = piece := rfl

@[simp] theorem join_cons_cons (delimiter : Char) (piece next : Text) (pieces : List Text) :
    join delimiter (piece :: next :: pieces) = piece ++ delimiter :: join delimiter (next :: pieces) :=
  rfl

theorem join_ne_nil {delimiter : Char} {pieces : List Text}
    (nonempty : ∀ piece ∈ pieces, piece ≠ []) (some : pieces ≠ []) : join delimiter pieces ≠ [] := by
  obtain _ | ⟨piece, _ | ⟨next, pieces⟩⟩ := pieces
  · contradiction
  · exact nonempty piece (by simp)
  · simp

theorem join_concat {delimiter : Char} {pieces : List Text} (piece : Text) (some : pieces ≠ []) :
    join delimiter (pieces ++ [piece]) = join delimiter pieces ++ delimiter :: piece := by
  induction pieces with
  | nil => contradiction
  | cons head pieces ih =>
    cases pieces with
    | nil => rfl
    | cons next pieces =>
      have tail := ih (by simp)
      simp only [List.cons_append] at tail
      simp [tail]

theorem getlinesFrom_append {delimiter : Char} (token : Text) {piece : Text} (rest : Text)
    (free : delimiter ∉ piece) :
    getlinesFrom delimiter token (piece ++ rest) =
      getlinesFrom delimiter (token ++ piece) rest := by
  induction piece generalizing token with
  | nil => simp
  | cons char piece ih =>
    simp only [List.mem_cons, not_or] at free
    simp [getlinesFrom, Ne.symm free.1, ih _ free.2]

/-- Reading what was joined gives the pieces back, if the last one is not empty. -/
theorem getlines_join {delimiter : Char} {pieces : List Text}
    (free : ∀ piece ∈ pieces, delimiter ∉ piece) (last : ∀ piece ∈ pieces.getLast?, piece ≠ []) :
    getlines delimiter (join delimiter pieces) = pieces := by
  unfold getlines
  induction pieces with
  | nil => rfl
  | cons piece pieces ih =>
    have pieceFree : delimiter ∉ piece := free piece (by simp)
    cases pieces with
    | nil =>
      have nonempty : piece ≠ [] := last piece (by simp)
      have reading := @getlinesFrom_append delimiter [] piece [] pieceFree
      simpa [getlinesFrom, nonempty] using reading
    | cons next pieces =>
      rw [join_cons_cons, getlinesFrom_append _ _ pieceFree]
      simp only [getlinesFrom, List.nil_append, if_pos]
      rw [ih (fun other member => free other (by simp [member]))
        (fun other member => last other (by simpa using member))]

/-- Splitting at every delimiter keeps empty pieces, the last one as well. -/
theorem splitOn_join {delimiter : Char} {pieces : List Text} (some : pieces ≠ [])
    (free : ∀ piece ∈ pieces, delimiter ∉ piece) :
    (join delimiter pieces).splitOn delimiter = pieces := by
  induction pieces with
  | nil => contradiction
  | cons piece pieces ih =>
    have different : ∀ char ∈ piece, (char == delimiter) = false := by
      intro char member
      exact beq_false_of_ne fun same => free piece List.mem_cons_self (same ▸ member)
    cases pieces with
    | nil => exact List.splitOn_eq_singleton_of_beq_eq_false different
    | cons next pieces =>
      rw [join_cons_cons, List.splitOn_eq_splitOnP,
        List.splitOnP_append_cons_of_forall_mem different delimiter (beq_self_eq_true delimiter),
        ← List.splitOn_eq_splitOnP,
        ih (List.cons_ne_nil _ _) fun other member => free other (List.mem_cons_of_mem _ member)]

theorem mem_join {delimiter : Char} {pieces : List Text} {char : Char}
    (member : char ∈ join delimiter pieces) : char = delimiter ∨ ∃ piece ∈ pieces, char ∈ piece := by
  induction pieces with
  | nil => cases member
  | cons piece pieces ih =>
    cases pieces with
    | nil => exact Or.inr ⟨piece, List.mem_cons_self, member⟩
    | cons next pieces =>
      rw [join_cons_cons, List.mem_append, List.mem_cons] at member
      obtain here | rfl | later := member
      · exact Or.inr ⟨piece, List.mem_cons_self, here⟩
      · exact Or.inl rfl
      · obtain isDelimiter | ⟨other, inside, found⟩ := ih later
        · exact Or.inl isDelimiter
        · exact Or.inr ⟨other, List.mem_cons_of_mem _ inside, found⟩

end MicroRosAgent.Text
