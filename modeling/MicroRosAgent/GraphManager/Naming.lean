import MicroRosAgent.Text.Tokens

/-! # Node names taken from participant names

A micro-ROS client names its participant after its node, namespace included.
`GraphManager::get_name_and_namespace` takes the two apart again, and both
`add_participant` and `associate_entity` address nodes by its result.

The split keeps the *first* token as the namespace and joins all others to the
node name, so it is right exactly for namespaces of depth at most one.
-/

namespace MicroRosAgent.GraphManager

open Text

/-- `GraphManager::get_name_and_namespace`; the last two arguments are the
    values the output references start with, the result their final values. -/
def getNameAndNamespace (participantName nodeName _nodeNamespace : Text) : Text × Text :=
  -- Remove first / if exists
  let participantName :=
    if ['/'] <+: participantName then participantName.tail else participantName
  -- Split node name in domain and node name
  match getlines '/' participantName with
  | first :: second :: others =>
      let appended := (second :: others).foldl (fun name token => name ++ (token ++ ['/'])) nodeName
      (appended.dropLast, '/' :: first)
  | _ => (participantName, ['/'])

/-! ## Names of ROS 2 -/

structure NodeNamespace where
  components : List Text
  nonempty : ∀ component ∈ components, component ≠ []
  slashFree : ∀ component ∈ components, '/' ∉ component

structure NodeName where
  text : Text
  nonempty : text ≠ []
  slashFree : '/' ∉ text

def NodeNamespace.text (nodeNamespace : NodeNamespace) : Text :=
  '/' :: join '/' nodeNamespace.components

def fullyQualifiedName (nodeNamespace : NodeNamespace) (name : NodeName) : Text :=
  if nodeNamespace.text = ['/'] then '/' :: name.text
  else nodeNamespace.text ++ '/' :: name.text

/-- The components of a fully qualified name, the node name last. -/
def nameTokens (nodeNamespace : NodeNamespace) (name : NodeName) : List Text :=
  nodeNamespace.components ++ [name.text]

theorem nameTokens_slashFree (nodeNamespace : NodeNamespace) (name : NodeName) :
    ∀ token ∈ nameTokens nodeNamespace name, '/' ∉ token := by
  intro token member
  obtain component | last := List.mem_append.mp member
  · exact nodeNamespace.slashFree token component
  · cases List.mem_singleton.mp last
    exact name.slashFree

theorem nameTokens_nonempty (nodeNamespace : NodeNamespace) (name : NodeName) :
    ∀ token ∈ nameTokens nodeNamespace name, token ≠ [] := by
  intro token member
  obtain component | last := List.mem_append.mp member
  · exact nodeNamespace.nonempty token component
  · cases List.mem_singleton.mp last
    exact name.nonempty

theorem fullyQualifiedName_eq (nodeNamespace : NodeNamespace) (name : NodeName) :
    fullyQualifiedName nodeNamespace name = '/' :: join '/' (nameTokens nodeNamespace name) := by
  unfold fullyQualifiedName NodeNamespace.text nameTokens
  by_cases root : nodeNamespace.components = []
  · simp [root]
  · have joined : join '/' nodeNamespace.components ≠ [] := join_ne_nil nodeNamespace.nonempty root
    simp [joined, join_concat _ root]

/-! ## What the split returns -/

/-- The loop over `result[1..]` joins the tokens, and `pop_back` takes the
    trailing slash off again. -/
theorem foldl_tokens_dropLast (tokens : List Text) (some : tokens ≠ []) (start : Text) :
    (tokens.foldl (fun name token => name ++ (token ++ ['/'])) start).dropLast =
      start ++ join '/' tokens := by
  induction tokens generalizing start with
  | nil => contradiction
  | cons token tokens ih =>
    cases tokens with
    | nil => simp [← List.append_assoc, List.dropLast_append_of_ne_nil]
    | cons next tokens =>
      rw [List.foldl_cons, ih (by simp)]
      simp

/-- The split of a list of tokens the way the code does it. -/
def splitFirst : List Text → Text × Text
  | first :: second :: others => (join '/' (second :: others), '/' :: first)
  | tokens => (join '/' tokens, ['/'])

theorem getNameAndNamespace_join {tokens : List Text} (slashFree : ∀ token ∈ tokens, '/' ∉ token)
    (nonempty : ∀ token ∈ tokens, token ≠ []) :
    getNameAndNamespace ('/' :: join '/' tokens) [] [] = splitFirst tokens ∧
      getNameAndNamespace (join '/' tokens) [] [] = splitFirst tokens := by
  have read : getlines '/' (join '/' tokens) = tokens := by
    apply getlines_join slashFree
    intro piece last
    exact nonempty piece (List.mem_of_getLast? last)
  -- Without its leading slash the name starts with the first token, which has none.
  have noSlash : ¬ ['/'] <+: join '/' tokens := by
    cases tokens with
    | nil => simp
    | cons token tokens =>
      have tokenFree := slashFree token (by simp)
      have tokenSome := nonempty token (by simp)
      cases token with
      | nil => contradiction
      | cons char rest =>
        have : '/' ≠ char := by
          rintro rfl
          exact tokenFree (by simp)
        cases tokens <;> simp [join, this]
  have split : ∀ participantName, participantName = join '/' tokens →
      (match getlines '/' participantName with
        | first :: second :: others =>
            (((second :: others).foldl (fun name token => name ++ (token ++ ['/'])) []).dropLast,
              '/' :: first)
        | _ => (participantName, ['/'])) = splitFirst tokens := by
    rintro _ rfl
    rw [read]
    obtain _ | ⟨first, _ | ⟨second, others⟩⟩ := tokens
    · rfl
    · rfl
    · exact congrArg (fun name => (name, '/' :: first)) (foldl_tokens_dropLast _ (by simp) [])
  constructor
  · exact split _ (by simp)
  · exact split _ (by simp [noSlash])

theorem getNameAndNamespace_fullyQualifiedName (nodeNamespace : NodeNamespace) (name : NodeName) :
    getNameAndNamespace (fullyQualifiedName nodeNamespace name) [] [] =
        splitFirst (nameTokens nodeNamespace name) ∧
      getNameAndNamespace (fullyQualifiedName nodeNamespace name).tail [] [] =
        splitFirst (nameTokens nodeNamespace name) := by
  rw [fullyQualifiedName_eq]
  exact getNameAndNamespace_join (nameTokens_slashFree nodeNamespace name)
    (nameTokens_nonempty nodeNamespace name)

theorem splitFirst_injective {first second : List Text} (firstSome : ∀ token ∈ first, token ≠ [])
    (secondSome : ∀ token ∈ second, token ≠ []) (equal : splitFirst first = splitFirst second) :
    join '/' first = join '/' second := by
  rcases first with _ | ⟨a, _ | ⟨b, others⟩⟩ <;> rcases second with _ | ⟨c, _ | ⟨d, rest⟩⟩ <;>
    simp_all [splitFirst]

/-! ## When the split undoes the join -/

/-- The split of the name of a node gives its parts back, with or without the
    leading slash, and tells its name from every other name. -/
structure SplitsBack (nodeNamespace : NodeNamespace) (name : NodeName) : Prop where
  qualified : getNameAndNamespace (fullyQualifiedName nodeNamespace name) [] [] =
    (name.text, nodeNamespace.text)
  stripped : getNameAndNamespace (fullyQualifiedName nodeNamespace name).tail [] [] =
    (name.text, nodeNamespace.text)
  slashFree : '/' ∉ (getNameAndNamespace (fullyQualifiedName nodeNamespace name) [] []).1
  distinct : ∀ otherNamespace otherName,
    fullyQualifiedName nodeNamespace name ≠ fullyQualifiedName otherNamespace otherName →
      getNameAndNamespace (fullyQualifiedName nodeNamespace name) [] [] ≠
        getNameAndNamespace (fullyQualifiedName otherNamespace otherName) [] []

theorem splitFirst_eq_iff (nodeNamespace : NodeNamespace) (name : NodeName) :
    splitFirst (nameTokens nodeNamespace name) = (name.text, nodeNamespace.text) ↔
      nodeNamespace.components.length ≤ 1 := by
  obtain ⟨components, nonempty, slashFree⟩ := nodeNamespace
  obtain _ | ⟨first, _ | ⟨second, others⟩⟩ := components
  · simp [nameTokens, splitFirst, NodeNamespace.text]
  · simp [nameTokens, splitFirst, NodeNamespace.text]
  · simp [nameTokens, splitFirst, NodeNamespace.text]

theorem splitsBack_iff (nodeNamespace : NodeNamespace) (name : NodeName) :
    SplitsBack nodeNamespace name ↔ nodeNamespace.components.length ≤ 1 := by
  obtain ⟨qualified, stripped⟩ := getNameAndNamespace_fullyQualifiedName nodeNamespace name
  rw [← splitFirst_eq_iff nodeNamespace name]
  constructor
  · intro back
    rw [← qualified]
    exact back.qualified
  · intro back
    refine ⟨qualified.trans back, stripped.trans back, ?_, ?_⟩
    · rw [qualified, back]
      exact name.slashFree
    · intro otherNamespace otherName different equal
      rw [qualified, (getNameAndNamespace_fullyQualifiedName otherNamespace otherName).1] at equal
      apply different
      rw [fullyQualifiedName_eq, fullyQualifiedName_eq]
      exact congrArg _ (splitFirst_injective (nameTokens_nonempty nodeNamespace name)
        (nameTokens_nonempty otherNamespace otherName) equal)

theorem splitsBack_fails_at_depth_two :
    ¬ SplitsBack ⟨["a".toList, "b".toList], by decide, by decide⟩ ⟨"n".toList, by decide, by decide⟩ := by
  intro back
  exact absurd back.qualified (by decide)

end MicroRosAgent.GraphManager
