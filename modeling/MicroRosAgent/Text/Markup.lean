import MicroRosAgent.Text.Tokens
import Mathlib.Data.List.TakeWhile

/-! # Nested elements in text

The part of XML that profiles are written in: elements with attributes, which hold either a
value or further elements, with white space around the elements.  There are no entities,
comments or declarations.

`Spells` says which texts stand for a list of elements, `read` is a reader of them, and
`read_of_spells` that it finds the elements a text stands for.
-/

namespace MicroRosAgent.Text.Markup

abbrev Attributes : Type := List (Text × Text)

inductive Node where
  | leaf (name : Text) (attributes : Attributes) (value : Text)
  | group (name : Text) (attributes : Attributes) (children : List Node)

/-- The double quote. -/
def quote : Char := Char.ofNat 34

def isNameChar (char : Char) : Bool := char.isAlphanum || char = '_'

/-- Neither markup nor a white space that a parser of attributes replaces. -/
def isValueChar (char : Char) : Bool := char ∉ ['<', '>', '&', quote, '\n', '\r', '\t']

/-! ## Texts of elements -/

def printAttribute (item : Text × Text) : Text :=
  item.1 ++ '=' :: quote :: (item.2 ++ [quote])

def startTag (name : Text) (attributes : Attributes) : Text :=
  '<' :: (name ++ (attributes.flatMap fun item => ' ' :: printAttribute item) ++ ['>'])

def endTag (name : Text) : Text := '<' :: '/' :: (name ++ ['>'])

structure IsTagName (name : Text) : Prop where
  nonempty : name ≠ []
  chars : ∀ char ∈ name, isNameChar char

def IsValue (value : Text) : Prop := ∀ char ∈ value, isValueChar char

instance (name : Text) : Decidable (IsTagName name) :=
  decidable_of_iff (name ≠ [] ∧ name.all isNameChar = true)
    ⟨fun ⟨nonempty, chars⟩ => ⟨nonempty, List.all_eq_true.mp chars⟩,
    fun isName => ⟨isName.nonempty, List.all_eq_true.mpr isName.chars⟩⟩

instance (value : Text) : Decidable (IsValue value) :=
  decidable_of_iff (value.all isValueChar = true) List.all_eq_true

theorem isValue_append {first second : Text} :
    IsValue (first ++ second) ↔ IsValue first ∧ IsValue second := List.forall_mem_append

theorem isValue_cons {char : Char} {value : Text} :
    IsValue (char :: value) ↔ isValueChar char ∧ IsValue value := List.forall_mem_cons

structure IsTag (name : Text) (attributes : Attributes) : Prop where
  named : IsTagName name
  attributes : ∀ item ∈ attributes, IsTagName item.1 ∧ IsValue item.2

def Blank (text : Text) : Prop := ∀ char ∈ text, isSpace char

/-- The text stands for the elements. -/
inductive Spells : List Node → Text → Prop
  | nil {space : Text} (blank : Blank space) : Spells [] space
  | leaf {name : Text} {attributes : Attributes} {value space text : Text} {nodes : List Node}
      (blank : Blank space) (isTag : IsTag name attributes)
      (isValue : IsValue value) (solid : ¬ Blank value) (rest : Spells nodes text) :
      Spells (.leaf name attributes value :: nodes)
        (space ++ (startTag name attributes ++ (value ++ (endTag name ++ text))))
  | group {name : Text} {attributes : Attributes} {space inner text : Text}
      {children nodes : List Node} (blank : Blank space) (isTag : IsTag name attributes)
      (inside : Spells children inner) (rest : Spells nodes text) :
      Spells (.group name attributes children :: nodes)
        (space ++ (startTag name attributes ++ (inner ++ (endTag name ++ text))))

theorem blank_nil : Blank [] := List.forall_mem_nil _

theorem Blank.append {first second : Text} (blank : Blank first) (other : Blank second) :
    Blank (first ++ second) := List.forall_mem_append.mpr ⟨blank, other⟩

/-- White space in front changes nothing. -/
theorem Spells.indented {nodes : List Node} {text space : Text} (spells : Spells nodes text)
    (blank : Blank space) : Spells nodes (space ++ text) := by
  cases spells with
  | nil inner => exact .nil (blank.append inner)
  | leaf inner isTag isValue solid rest =>
    rw [← List.append_assoc]
    exact .leaf (blank.append inner) isTag isValue solid rest
  | group inner isTag inside rest =>
    rw [← List.append_assoc]
    exact .group (blank.append inner) isTag inside rest

theorem Spells.append {nodes others : List Node} {text more : Text} (spells : Spells nodes text)
    (rest : Spells others more) : Spells (nodes ++ others) (text ++ more) := by
  induction spells with
  | nil blank => exact rest.indented blank
  | leaf blank isTag isValue solid _ ih =>
    simp only [List.append_assoc, List.cons_append]
    exact .leaf blank isTag isValue solid ih
  | group blank isTag inside _ _ ih =>
    simp only [List.append_assoc, List.cons_append]
    exact .group blank isTag inside ih

/-! ## Reading -/

/-- `name="value"`. -/
def readAttribute (input : Text) : Option ((Text × Text) × Text) :=
  let name := input.takeWhile isNameChar
  match input.dropWhile isNameChar with
  | '=' :: opening :: rest =>
      let value := rest.takeWhile isValueChar
      match rest.dropWhile isValueChar with
      | closing :: rest =>
          if name ≠ [] ∧ opening = quote ∧ closing = quote then some ((name, value), rest) else none
      | [] => none
  | _ => none

/-- The attributes, up to the end of the tag. -/
def readAttributes : Nat → Text → Option (Attributes × Text)
  | _ + 1, '>' :: rest => some ([], rest)
  | fuel + 1, ' ' :: rest => do
      let (item, rest) ← readAttribute rest
      let (attributes, rest) ← readAttributes fuel rest
      return (item :: attributes, rest)
  | _, _ => none

def readEnd (name input : Text) : Option Text :=
  if endTag name <+: input then some (input.drop (endTag name).length) else none

/-- The content of an element: further elements, which `readRest` reads, or a value. -/
def readContent (readRest : Text → Option (List Node × Text)) (name : Text)
    (attributes : Attributes) (input : Text) : Option (Node × Text) :=
  match input.dropWhile isSpace with
  | '<' :: _ => (readRest input).map fun inside => (.group name attributes inside.1, inside.2)
  | _ => some (.leaf name attributes (input.takeWhile isValueChar), input.dropWhile isValueChar)

/-- An element behind its start tag, and the elements that follow it. -/
def readElement (readRest : Text → Option (List Node × Text)) (name : Text)
    (attributes : Attributes) (input : Text) : Option (List Node × Text) := do
  let (node, rest) ← readContent readRest name attributes input
  let rest ← readEnd name rest
  let (nodes, rest) ← readRest rest
  return (node :: nodes, rest)

def readTag (readRest : Text → Option (List Node × Text)) (tag : Text) :
    Option (List Node × Text) :=
  let name := tag.takeWhile isNameChar
  if name = [] then none
  else (readAttributes tag.length (tag.dropWhile isNameChar)).bind fun (attributes, content) =>
    readElement readRest name attributes content

/-- The elements up to the end of the input or an end tag. -/
def readNodes : Nat → Text → Option (List Node × Text)
  | 0, _ => none
  | fuel + 1, input =>
      match input.dropWhile isSpace with
      | [] => some ([], [])
      | '<' :: '/' :: rest => some ([], '<' :: '/' :: rest)
      | '<' :: tag => readTag (readNodes fuel) tag
      | _ => none

def read (input : Text) : Option (List Node) :=
  match readNodes (input.length + 1) input with
  | some (nodes, []) => some nodes
  | _ => none

/-! ## What the reader finds -/

theorem takeWhile_append_stop {p : Char → Bool} {front : Text} {stop : Char} (rest : Text)
    (all : ∀ char ∈ front, p char) (stops : p stop = false) :
    (front ++ stop :: rest).takeWhile p = front ∧
      (front ++ stop :: rest).dropWhile p = stop :: rest := by
  constructor
  · rw [List.takeWhile_append_of_pos all, List.takeWhile_cons_of_neg (by simp [stops]),
      List.append_nil]
  · rw [List.dropWhile_append_of_pos all, List.dropWhile_cons_of_neg (by simp [stops])]

theorem readAttribute_print {item : Text × Text} (rest : Text)
    (named : IsTagName item.1) (isValue : IsValue item.2) :
    readAttribute (printAttribute item ++ rest) = some (item, rest) := by
  have shape : printAttribute item ++ rest =
      item.1 ++ '=' :: (quote :: (item.2 ++ quote :: rest)) := by
    simp [printAttribute]
  have equals : isNameChar '=' = false := by decide
  have closes : isValueChar quote = false := by decide
  obtain ⟨name, afterName⟩ :=
    takeWhile_append_stop (quote :: (item.2 ++ quote :: rest)) named.chars equals
  obtain ⟨value, afterValue⟩ := takeWhile_append_stop rest isValue closes
  rw [shape, readAttribute]
  simp [name, afterName, value, afterValue, named.nonempty]

theorem readAttributes_print {attributes : Attributes} {fuel : Nat} (rest : Text)
    (enough : attributes.length < fuel)
    (proper : ∀ item ∈ attributes, IsTagName item.1 ∧ IsValue item.2) :
    readAttributes fuel ((attributes.flatMap fun item => ' ' :: printAttribute item) ++
      '>' :: rest) = some (attributes, rest) := by
  induction attributes generalizing fuel with
  | nil =>
    obtain ⟨fuel, rfl⟩ := Nat.exists_eq_succ_of_ne_zero (Nat.ne_of_gt enough)
    rfl
  | cons item attributes ih =>
    obtain ⟨here, later⟩ := List.forall_mem_cons.mp proper
    obtain ⟨fuel, rfl⟩ := Nat.exists_eq_succ_of_ne_zero (Nat.ne_of_gt (Nat.zero_lt_of_lt enough))
    have others := ih (Nat.lt_of_succ_lt_succ enough) later
    rw [List.flatMap_cons, List.append_assoc, List.cons_append, readAttributes,
      readAttribute_print _ here.1 here.2]
    simp [others]

theorem readEnd_print (name rest : Text) : readEnd name (endTag name ++ rest) = some rest := by
  rw [readEnd, if_pos (List.prefix_append _ _), List.drop_left]

theorem dropWhile_blank {space : Text} (blank : Blank space) {stop : Char} (rest : Text)
    (solid : isSpace stop = false) : (space ++ stop :: rest).dropWhile isSpace = stop :: rest :=
  (takeWhile_append_stop rest blank solid).2

/-- What is left of the input starts with an end tag, if there is anything. -/
def Ends (rest : Text) : Prop := rest = [] ∨ ∃ more, rest = '<' :: '/' :: more

theorem length_le_printed (attributes : Attributes) :
    attributes.length ≤ (attributes.flatMap fun item => ' ' :: printAttribute item).length := by
  induction attributes with
  | nil => simp
  | cons item attributes ih =>
    simp only [List.flatMap_cons, List.length_append, List.length_cons]
    omega

theorem readTag_print {readRest : Text → Option (List Node × Text)} {name : Text}
    {attributes : Attributes} (content : Text) (isTag : IsTag name attributes) :
    readTag readRest (name ++ ((attributes.flatMap fun item => ' ' :: printAttribute item) ++
      '>' :: content)) = readElement readRest name attributes content := by
  obtain ⟨⟨nonempty, named⟩, proper⟩ := isTag
  -- the character behind the name is a space or the end of the tag
  obtain ⟨stop, more, isMore, stops⟩ : ∃ stop more, ((attributes.flatMap fun item =>
      ' ' :: printAttribute item) ++ '>' :: content) = stop :: more ∧ isNameChar stop = false := by
    cases attributes with
    | nil => exact ⟨'>', content, rfl, by decide⟩
    | cons item attributes => exact ⟨' ', _, rfl, by decide⟩
  obtain ⟨isName, afterName⟩ := takeWhile_append_stop more named stops
  rw [← isMore] at isName afterName
  have enough : attributes.length < (name ++ ((attributes.flatMap fun item =>
      ' ' :: printAttribute item) ++ '>' :: content)).length := by
    have each := length_le_printed attributes
    simp only [List.length_append, List.length_cons]
    omega
  simp only [readTag, isName, afterName]
  rw [if_neg nonempty, readAttributes_print content enough proper]
  rfl

theorem readNodes_element {fuel : Nat} {name space : Text} {attributes : Attributes}
    (content : Text) (blank : Blank space) (isTag : IsTag name attributes) :
    readNodes (fuel + 1) (space ++ (startTag name attributes ++ content)) =
      readElement (readNodes fuel) name attributes content := by
  have tag : startTag name attributes ++ content = '<' :: (name ++
      ((attributes.flatMap fun item => ' ' :: printAttribute item) ++ '>' :: content)) := by
    simp [startTag]
  obtain ⟨first, others, isName⟩ := List.exists_cons_of_ne_nil isTag.named.nonempty
  have notEnd : first ≠ '/' := by
    rintro rfl
    have slash := isTag.named.chars '/' (by simp [isName])
    exact absurd slash (by decide)
  rw [tag, readNodes, dropWhile_blank blank _ (by decide), ← readTag_print content isTag]
  split
  · contradiction
  · rename_i rest same
    rw [isName] at same
    cases same
    contradiction
  · rename_i same
    cases same
    rfl
  · rename_i other
    exact absurd rfl (other _)

/-- A value is followed by the end tag, and it is not blank. -/
theorem readContent_leaf {readRest : Text → Option (List Node × Text)} {name value : Text}
    {attributes : Attributes} (rest : Text) (isValue : IsValue value) (solid : ¬ Blank value) :
    readContent readRest name attributes (value ++ (endTag name ++ rest)) =
      some (.leaf name attributes value, endTag name ++ rest) := by
  have stops : isValueChar '<' = false := by decide
  obtain ⟨whole, after⟩ := takeWhile_append_stop ('/' :: (name ++ ['>']) ++ rest) isValue stops
  have closing : value.dropWhile isSpace ≠ [] := fun none =>
    solid (List.dropWhile_eq_nil_iff.mp none)
  obtain ⟨first, others, isFirst⟩ := List.exists_cons_of_ne_nil closing
  have inside : first ∈ value := (List.dropWhile_suffix isSpace).subset (by simp [isFirst])
  have notStart : first ≠ '<' := by
    rintro rfl
    exact absurd (isValue '<' inside) (by decide)
  have content : (value ++ (endTag name ++ rest)).dropWhile isSpace =
      first :: (others ++ (endTag name ++ rest)) := by
    rw [List.dropWhile_append, isFirst]
    rfl
  rw [readContent, content]
  split
  · rename_i same
    cases same
    contradiction
  · exact congrArg some (Prod.ext (congrArg (Node.leaf name attributes) whole) after)

/-- Elements, or white space alone, are followed by a tag. -/
theorem Spells.starts {nodes : List Node} {text : Text} (spells : Spells nodes text) (rest : Text) :
    ∃ more, (text ++ '<' :: rest).dropWhile isSpace = '<' :: more := by
  cases spells with
  | nil blank => exact ⟨rest, dropWhile_blank blank rest (by decide)⟩
  | leaf blank | group blank =>
    rw [List.append_assoc]
    exact ⟨_, dropWhile_blank blank _ (by decide)⟩

theorem startTag_length (name : Text) (attributes : Attributes) :
    0 < (startTag name attributes).length := Nat.succ_pos _

theorem readNodes_spells {nodes : List Node} {text : Text} (spells : Spells nodes text) :
    ∀ {fuel : Nat} {rest : Text}, text.length < fuel → Ends rest →
      readNodes fuel (text ++ rest) = some (nodes, rest) := by
  induction spells with
  | nil blank =>
    intro fuel rest enough ends
    obtain ⟨fuel, rfl⟩ := Nat.exists_eq_succ_of_ne_zero (Nat.ne_of_gt (Nat.zero_lt_of_lt enough))
    obtain rfl | ⟨more, rfl⟩ := ends
    · rw [List.append_nil, readNodes, List.dropWhile_eq_nil_iff.mpr blank]
    · rw [readNodes, dropWhile_blank blank _ (by decide)]
      rfl
  | @leaf name attributes value space text nodes blank isTag isValue solid _ ih =>
    intro fuel rest enough ends
    obtain ⟨fuel, rfl⟩ := Nat.exists_eq_succ_of_ne_zero (Nat.ne_of_gt (Nat.zero_lt_of_lt enough))
    have tagged := startTag_length name attributes
    simp only [List.length_append] at enough
    have later : readNodes fuel (text ++ rest) = some (nodes, rest) := ih (by omega) ends
    simp only [List.append_assoc]
    rw [readNodes_element _ blank isTag, readElement, readContent_leaf _ isValue solid]
    simp [readEnd_print, later]
  | @group name attributes space inner text children nodes blank isTag inside _ ihInside ih =>
    intro fuel rest enough ends
    obtain ⟨fuel, rfl⟩ := Nat.exists_eq_succ_of_ne_zero (Nat.ne_of_gt (Nat.zero_lt_of_lt enough))
    have tagged := startTag_length name attributes
    simp only [List.length_append] at enough
    have later : readNodes fuel (text ++ rest) = some (nodes, rest) := ih (by omega) ends
    have within : readNodes fuel (inner ++ (endTag name ++ (text ++ rest))) =
        some (children, endTag name ++ (text ++ rest)) := ihInside (by omega) (Or.inr ⟨_, rfl⟩)
    obtain ⟨more, starts⟩ := inside.starts ('/' :: (name ++ ['>']) ++ (text ++ rest))
    have content : readContent (readNodes fuel) name attributes
        (inner ++ (endTag name ++ (text ++ rest))) =
          some (.group name attributes children, endTag name ++ (text ++ rest)) := by
      have isStart : (inner ++ (endTag name ++ (text ++ rest))).dropWhile isSpace = '<' :: more :=
        starts
      rw [readContent, isStart, within]
      rfl
    simp only [List.append_assoc]
    rw [readNodes_element _ blank isTag, readElement, content]
    simp [readEnd_print, later]

/-- A text that stands for elements is read as these. -/
theorem read_of_spells {nodes : List Node} {text : Text} (spells : Spells nodes text) :
    read text = some nodes := by
  have whole : readNodes (text.length + 1) text = some (nodes, []) := by
    have found := readNodes_spells spells (Nat.lt_succ_self _) (Or.inl rfl)
    rwa [List.append_nil] at found
  rw [read, whole]

end MicroRosAgent.Text.Markup
