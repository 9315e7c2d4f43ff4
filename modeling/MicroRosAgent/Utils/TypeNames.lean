import MicroRosAgent.Utils.Demangle
import MicroRosAgent.Generator.Profiles

/-! # DDS type names and back

The type supports and the profile generator write a ROS 2 type as
`c1::...::ck::dds_::T_`.  Two demanglers take such names apart: `demangleIfRosType`, and
`demangleServiceTypeOnly` for the request and the response type of a service.

Both look for the *first* `dds_::` and the second one for the *last* suffix, which are the
right ones for every mangled name (`demangle_mangled`).  On other names the service
demangler accepts too much: a `_Request_` that is not at the end passes
(`rejects_iff`).
-/

namespace MicroRosAgent.Utils

open Text

/-! ## Mangling -/

/-- `message_type_support_callbacks_t`. -/
structure MessageTypeSupportCallbacks where
  messageNamespace : Text
  messageName : Text
  deriving DecidableEq, Repr

def typeSupportName (callbacks : MessageTypeSupportCallbacks) : Text :=
  (if callbacks.messageNamespace ≠ [] then callbacks.messageNamespace ++ "::".toList else []) ++
    "dds_::".toList ++ callbacks.messageName ++ ['_']

/-- The name set by `ParticipantEntitiesInfoTypeSupport()`. -/
def participantEntitiesInfoTypeName : MessageTypeSupportCallbacks → Text := typeSupportName

/-- The name set by `MicrorosGraphInfoTypeSupport()`. -/
def microrosGraphInfoTypeName : MessageTypeSupportCallbacks → Text := typeSupportName

/-- A component of a type's namespace. -/
structure IsNamespaceComponent (component : Text) : Prop where
  nonempty : component ≠ []
  chars : ∀ char ∈ component, char.isAlphanum ∨ char = '_'
  noTrailing : ¬ ['_'] <:+ component

instance (component : Text) : Decidable (IsNamespaceComponent component) :=
  decidable_of_iff (component ≠ [] ∧ component.all (fun char => char.isAlphanum || char = '_') ∧
      ¬ ['_'] <:+ component) <| by
    simp only [List.all_eq_true, Bool.or_eq_true, decide_eq_true_eq]
    exact ⟨fun ⟨nonempty, chars, noTrailing⟩ => ⟨nonempty, chars, noTrailing⟩,
      fun valid => ⟨valid.nonempty, valid.chars, valid.noTrailing⟩⟩

/-- `c1::...::ck`. -/
def messageNamespace (components : List Text) : Text := List.intercalate "::".toList components

/-- Each component with a separator behind it. -/
def qualifier (separator : Text) (components : List Text) : Text :=
  components.flatMap (· ++ separator)

/-- `c1::...::ck::dds_::T_`. -/
def mangledTypeName (components : List Text) (typeName : Text) : Text :=
  qualifier "::".toList components ++ (ddsPrefix ++ (typeName ++ ['_']))

@[simp] theorem qualifier_nil (separator : Text) : qualifier separator [] = [] := rfl

@[simp] theorem qualifier_cons (separator component : Text) (components : List Text) :
    qualifier separator (component :: components) =
      component ++ separator ++ qualifier separator components := rfl

theorem IsNamespaceComponent.colonFree {component : Text} (valid : IsNamespaceComponent component) :
    ':' ∉ component := by
  intro member
  exact absurd (valid.chars ':' member) (by decide)

theorem messageNamespace_append {components : List Text} (some : components ≠ []) :
    messageNamespace components ++ "::".toList = qualifier "::".toList components := by
  induction components with
  | nil => contradiction
  | cons component components ih =>
    cases components with
    | nil => simp [messageNamespace]
    | cons next components =>
      have tail := ih (by simp)
      rw [messageNamespace] at tail
      rw [qualifier_cons, messageNamespace, List.intercalate_cons_cons, List.append_assoc, tail]

theorem ddsPrefix_eq : ddsPrefix = "dds_::".toList := rfl

theorem typeSupportName_eq {components : List Text}
    (valid : ∀ component ∈ components, IsNamespaceComponent component) (typeName : Text) :
    typeSupportName ⟨messageNamespace components, typeName⟩ = mangledTypeName components typeName := by
  cases components with
  | nil => simp [typeSupportName, messageNamespace, mangledTypeName, ddsPrefix_eq]
  | cons component components =>
    have some : messageNamespace (component :: components) ≠ [] := by
      have nonempty := (valid component (by simp)).nonempty
      cases components <;> simp [messageNamespace, List.intercalate_cons_cons, nonempty]
    simp only [typeSupportName, some, ne_eq, not_false_eq_true, if_true]
    rw [messageNamespace_append (by simp)]
    simp [mangledTypeName, ddsPrefix_eq]

theorem dataType_eq (file : Generator.MessageFile) :
    file.dataType = mangledTypeName [file.pkgName, file.subfolder] file.msgName := by
  simp [Generator.MessageFile.dataType, mangledTypeName, ddsPrefix_eq]

/-! ## Searches in a mangled name -/

/-- No component reaches into a `dds_::`: it would have to end with the underscore. -/
theorem find_component {component : Text} (valid : IsNamespaceComponent component) (rest : Text) :
    find ddsPrefix (component ++ "::".toList ++ rest) =
      (find ddsPrefix rest).map (· + (component ++ "::".toList).length) := by
  apply find_append
  intro position bound starts
  by_cases inside : position < component.length
  · have cut : (component ++ "::".toList ++ rest).drop position =
        component.drop position ++ ':' :: (':' :: rest) := by
      simp [List.drop_append_of_le_length (Nat.le_of_lt inside)]
    have marker : ddsPrefix = "dds_".toList ++ ':' :: [':'] := by decide
    rw [cut, marker] at starts
    -- `dds_` would be the end of the component
    obtain ⟨same, _⟩ := isPrefix_cut (by decide)
      (fun member => valid.colonFree (List.mem_of_mem_drop member)) starts
    have ends : ['_'] <:+ component.drop position := ⟨"dds".toList, same⟩
    exact valid.noTrailing (ends.trans (List.drop_suffix position component))
  · obtain ⟨offset, rfl⟩ := Nat.exists_eq_add_of_le (Nat.le_of_not_lt inside)
    have colons : offset = 0 ∨ offset = 1 := by
      have two : "::".toList.length = 2 := rfl
      rw [List.length_append, two] at bound
      omega
    rw [List.append_assoc, List.drop_length_add_append] at starts
    obtain rfl | rfl := colons <;> simp [ddsPrefix_eq] at starts

theorem find_qualifier {components : List Text}
    (valid : ∀ component ∈ components, IsNamespaceComponent component) (rest : Text) :
    find ddsPrefix (qualifier "::".toList components ++ (ddsPrefix ++ rest)) =
      some (qualifier "::".toList components).length := by
  induction components with
  | nil => exact find_of_isPrefix (List.prefix_append _ _)
  | cons component components ih =>
    have inner := ih fun other member => valid other (by simp [member])
    rw [qualifier_cons, List.append_assoc, find_component (valid component (by simp)), inner]
    simp only [Option.map_some, List.length_append, Nat.add_comm]

/-- The replacement of the separators in a namespace. -/
theorem findAndReplace_qualifier [Rmw] [LawfulFindAndReplace] {components : List Text}
    (valid : ∀ component ∈ components, IsNamespaceComponent component) :
    Rmw.findAndReplace (qualifier "::".toList components) "::".toList ['/'] =
      qualifier ['/'] components := by
  induction components with
  | nil => exact LawfulFindAndReplace.absent _ _ _ (by decide)
  | cons component components ih =>
    have colonFree := (valid component (by simp)).colonFree
    -- the first separator is the one behind the component
    have passed : find "::".toList (component ++ ("::".toList ++ qualifier "::".toList components)) =
        (find "::".toList ("::".toList ++ qualifier "::".toList components)).map
          (· + component.length) := find_append_of_not_mem _ colonFree
    rw [find_of_isPrefix (List.prefix_append _ _), Option.map_some, Nat.zero_add] at passed
    have step := LawfulFindAndReplace.first _ "::".toList ['/'] _ (by decide) passed
    have inner := ih fun other member => valid other (by simp [member])
    have behind : (component ++ ("::".toList ++ qualifier "::".toList components)).drop
        (component.length + "::".toList.length) = qualifier "::".toList components := by
      rw [List.drop_length_add_append, List.drop_left]
    rw [List.take_left, behind, inner] at step
    rw [qualifier_cons, qualifier_cons, List.append_assoc component, step]

/-! ## The service suffixes -/

def responseSuffix : Text := "_Response_".toList

def requestSuffix : Text := "_Request_".toList

/-- One turn of the loop: a suffix at the end of the name ends it. -/
theorem serviceSuffixPosition_cons {suffix : Text} (nonempty : suffix ≠ []) (ddsTypeName : Text)
    (suffixes : List Text) (suffixPosition : Option Nat) :
    serviceSuffixPosition ddsTypeName (suffix :: suffixes) suffixPosition =
      if suffix <:+ ddsTypeName then rfind suffix ddsTypeName
      else serviceSuffixPosition ddsTypeName suffixes (rfind suffix ddsTypeName) := by
  cases found : rfind suffix ddsTypeName with
  | none =>
    have absent : ¬ suffix <:+ ddsTypeName := by
      intro ends
      exact rfind_eq_none_iff.mp found ends.isInfix
    simp [serviceSuffixPosition, found, absent]
  | some position =>
    have bound := rfind_bound found
    -- neither subtraction wraps
    have left : sizeSub (sizeSub ddsTypeName.length position) suffix.length =
        ddsTypeName.length - position - suffix.length := by
      have inner : sizeSub ddsTypeName.length position = ddsTypeName.length - position :=
        sizeSub_of_le (by omega)
      rw [inner, sizeSub_of_le (by omega)]
    have atEnd : ddsTypeName.length - position - suffix.length ≠ 0 ↔ ¬ suffix <:+ ddsTypeName := by
      rw [← rfind_atEnd_iff nonempty found]
      omega
    by_cases ends : suffix <:+ ddsTypeName
    · simp only [serviceSuffixPosition, found, left, atEnd, ends, not_true_eq_false, if_false, if_true]
    · simp only [serviceSuffixPosition, found, left, atEnd, ends, not_false_eq_true, if_true, if_false]

/-- The loop finds a suffix at the end, or else the last `_Request_`, wherever it is. -/
theorem serviceSuffixPosition_eq (ddsTypeName : Text) :
    serviceSuffixPosition ddsTypeName [responseSuffix, requestSuffix] none =
      if responseSuffix <:+ ddsTypeName then rfind responseSuffix ddsTypeName
      else rfind requestSuffix ddsTypeName := by
  rw [serviceSuffixPosition_cons (by decide), serviceSuffixPosition_cons (by decide)]
  simp [serviceSuffixPosition]

/-- What the two type demanglers make of a name that is taken apart. -/
def reformat [Rmw] (typeNamespace typeName : Text) : Text :=
  Rmw.findAndReplace typeNamespace "::".toList ['/'] ++ typeName

theorem demangleServiceTypeOnly_eq [Rmw] {ddsTypeName : Text} {ddsPrefixPos : Nat}
    (found : find ddsPrefix ddsTypeName = some ddsPrefixPos) :
    demangleServiceTypeOnly ddsTypeName =
      match (if responseSuffix <:+ ddsTypeName then rfind responseSuffix ddsTypeName
        else rfind requestSuffix ddsTypeName) with
      | none => []
      | some suffixPosition =>
          reformat (substr ddsTypeName 0 ddsPrefixPos)
            (substr ddsTypeName (ddsPrefixPos + ddsPrefix.length)
              (sizeSub suffixPosition (ddsPrefixPos + ddsPrefix.length))) := by
  rw [← serviceSuffixPosition_eq]
  simp only [demangleServiceTypeOnly, found]
  rfl

theorem not_endsWith_response {text : Text} (ends : requestSuffix <:+ text) :
    ¬ responseSuffix <:+ text := by
  intro other
  exact absurd (List.suffix_of_suffix_length_le ends other (by decide)) (by decide)

/-- A suffix at the end of the name is the one that is found. -/
theorem serviceSuffix_atEnd {suffix : Text} (isSuffix : suffix = responseSuffix ∨ suffix = requestSuffix)
    (front : Text) :
    (if responseSuffix <:+ front ++ suffix then rfind responseSuffix (front ++ suffix)
      else rfind requestSuffix (front ++ suffix)) = some front.length := by
  have ends : suffix <:+ front ++ suffix := List.suffix_append front suffix
  obtain rfl | rfl := isSuffix
  · rw [if_pos ends, rfind_append front (by decide)]
  · rw [if_neg (not_endsWith_response ends), rfind_append front (by decide)]

/-! ## Mangled names -/

section
variable [Rmw] {components : List Text}

theorem demangleIfRosType_mangled
    (valid : ∀ component ∈ components, IsNamespaceComponent component) (typeName : Text) :
    demangleIfRosType (mangledTypeName components typeName) =
      reformat (qualifier "::".toList components) typeName := by
  have found : find ddsPrefix (mangledTypeName components typeName) =
      some (qualifier "::".toList components).length := find_qualifier valid (typeName ++ ['_'])
  have lengths : (mangledTypeName components typeName).length =
      (qualifier "::".toList components).length + ddsPrefix.length + typeName.length + 1 := by
    simp only [mangledTypeName, List.length_append, List.length_singleton, Nat.add_assoc]
  have last : charAt (mangledTypeName components typeName)
      (sizeSub (mangledTypeName components typeName).length 1) = some '_' := by
    rw [sizeSub_of_le (by omega), charAt, ← List.getLast?_eq_getElem?]
    simp [mangledTypeName]
  have rest : (mangledTypeName components typeName).drop
      ((qualifier "::".toList components).length + ddsPrefix.length) = typeName ++ ['_'] := by
    rw [mangledTypeName, List.drop_length_add_append, List.drop_left]
  have count : sizeSub (sizeSub (mangledTypeName components typeName).length
      ((qualifier "::".toList components).length + ddsPrefix.length)) 1 = typeName.length := by
    have inner : sizeSub (mangledTypeName components typeName).length
        ((qualifier "::".toList components).length + ddsPrefix.length) = typeName.length + 1 := by
      rw [sizeSub_of_le (by omega)]
      omega
    rw [inner, sizeSub_of_le (by omega)]
    omega
  simp only [demangleIfRosType, last, ne_eq, not_true_eq_false, if_false, found, count]
  rw [substr, substr, rest, List.take_left, List.drop_zero, mangledTypeName, List.take_left, reformat]

/-- The name behind the first `dds_::`, up to the suffix at the end. -/
theorem demangleServiceTypeOnly_mangled {suffix : Text}
    (valid : ∀ component ∈ components, IsNamespaceComponent component) (typeName : Text)
    (isSuffix : suffix = responseSuffix ∨ suffix = requestSuffix) :
    demangleServiceTypeOnly (qualifier "::".toList components ++ (ddsPrefix ++ (typeName ++ suffix))) =
      reformat (qualifier "::".toList components) typeName := by
  have whole : qualifier "::".toList components ++ (ddsPrefix ++ (typeName ++ suffix)) =
      (qualifier "::".toList components ++ ddsPrefix ++ typeName) ++ suffix := by
    simp only [List.append_assoc]
  have position :=
    serviceSuffix_atEnd isSuffix (qualifier "::".toList components ++ ddsPrefix ++ typeName)
  have count : sizeSub (qualifier "::".toList components ++ ddsPrefix ++ typeName).length
      ((qualifier "::".toList components).length + ddsPrefix.length) = typeName.length := by
    simp only [List.length_append]
    rw [sizeSub_of_le (by omega)]
    omega
  rw [demangleServiceTypeOnly_eq (find_qualifier valid (typeName ++ suffix)), whole, position]
  simp only [count]
  rw [← whole, substr, substr, List.drop_length_add_append, List.drop_left, List.take_left,
    List.drop_zero, List.take_left]

/-- Demangling undoes mangling, for messages and for the two types of a service; the type
    supports and the profile generator all mangle the same way. -/
theorem demangle_mangled [LawfulFindAndReplace]
    (valid : ∀ component ∈ components, IsNamespaceComponent component) (typeName : Text) :
    (participantEntitiesInfoTypeName ⟨messageNamespace components, typeName⟩ =
        mangledTypeName components typeName ∧
      microrosGraphInfoTypeName ⟨messageNamespace components, typeName⟩ =
        mangledTypeName components typeName ∧
      ∀ file : Generator.MessageFile, components = [file.pkgName, file.subfolder] →
        typeName = file.msgName → file.dataType = mangledTypeName components typeName) ∧
    demangleIfRosType (mangledTypeName components typeName) =
      qualifier ['/'] components ++ typeName ∧
    demangleServiceTypeOnly (mangledTypeName components (typeName ++ "_Request".toList)) =
      qualifier ['/'] components ++ typeName ∧
    demangleServiceTypeOnly (mangledTypeName components (typeName ++ "_Response".toList)) =
      qualifier ['/'] components ++ typeName := by
  have ros : reformat (qualifier "::".toList components) typeName =
      qualifier ['/'] components ++ typeName := by
    rw [reformat, findAndReplace_qualifier valid]
  have request : mangledTypeName components (typeName ++ "_Request".toList) =
      qualifier "::".toList components ++ (ddsPrefix ++ (typeName ++ requestSuffix)) := by
    rw [mangledTypeName, List.append_assoc typeName]
    rfl
  have response : mangledTypeName components (typeName ++ "_Response".toList) =
      qualifier "::".toList components ++ (ddsPrefix ++ (typeName ++ responseSuffix)) := by
    rw [mangledTypeName, List.append_assoc typeName]
    rfl
  refine ⟨⟨typeSupportName_eq valid typeName, typeSupportName_eq valid typeName, ?_⟩, ?_, ?_, ?_⟩
  · rintro file rfl rfl
    exact dataType_eq file
  · rw [demangleIfRosType_mangled valid, ros]
  · rw [request, demangleServiceTypeOnly_mangled valid typeName (Or.inr rfl), ros]
  · rw [response, demangleServiceTypeOnly_mangled valid typeName (Or.inl rfl), ros]

end

/-! ## Names of no service type -/

/-- The name has the marker and ends like a service type. -/
def IsServiceTypeName (ddsTypeName : Text) : Prop :=
  ddsPrefix <:+: ddsTypeName ∧ (requestSuffix <:+ ddsTypeName ∨ responseSuffix <:+ ddsTypeName)

theorem findAndReplace_ne_nil [Rmw] [LawfulFindAndReplace] {input pattern replacement : Text}
    (patternSome : pattern ≠ []) (replacementSome : replacement ≠ []) (nonempty : input ≠ []) :
    Rmw.findAndReplace input pattern replacement ≠ [] := by
  cases found : find pattern input with
  | none => rwa [LawfulFindAndReplace.absent _ _ _ found]
  | some position =>
    rw [LawfulFindAndReplace.first _ _ _ _ patternSome found]
    simp [replacementSome]

/-- No end of a `dds_::` is the beginning of a suffix. -/
theorem suffix_apart {suffix : Text} (isSuffix : suffix = responseSuffix ∨ suffix = requestSuffix) :
    ∀ offset < ddsPrefix.length, ¬ ddsPrefix.drop offset <+: suffix := by
  obtain rfl | rfl := isSuffix <;> decide

/-- A suffix shares no character with a `dds_::` that begins before it. -/
theorem suffix_beside_prefix {text suffix : Text} {prefixPos position : Nat}
    (isSuffix : suffix = responseSuffix ∨ suffix = requestSuffix)
    (marker : ddsPrefix <+: text.drop prefixPos) (starts : suffix <+: text.drop position) :
    position < prefixPos ∨ prefixPos + ddsPrefix.length ≤ position := by
  by_contra! between
  -- an end of the marker would be the beginning of the suffix
  obtain ⟨offset, rfl⟩ := Nat.exists_eq_add_of_le between.1
  have inside : offset < ddsPrefix.length := by omega
  have longer : (ddsPrefix.drop offset).length ≤ suffix.length := by
    have shorter : ddsPrefix.length ≤ suffix.length := by
      obtain rfl | rfl := isSuffix <;> decide
    rw [List.length_drop]
    omega
  have behind : ddsPrefix.drop offset <+: text.drop (prefixPos + offset) := by
    rw [← List.drop_drop]
    exact marker.drop offset
  exact suffix_apart isSuffix offset inside (List.prefix_of_prefix_length_le behind starts longer)

/-- What is left of a name that only has a `_Request_` somewhere. -/
theorem reformat_eq_nil_iff [Rmw] [LawfulFindAndReplace] {ddsTypeName : Text}
    {ddsPrefixPos suffixPosition : Nat} (found : find ddsPrefix ddsTypeName = some ddsPrefixPos)
    (last : rfind requestSuffix ddsTypeName = some suffixPosition) :
    reformat (substr ddsTypeName 0 ddsPrefixPos)
        (substr ddsTypeName (ddsPrefixPos + ddsPrefix.length)
          (sizeSub suffixPosition (ddsPrefixPos + ddsPrefix.length))) = [] ↔
      ddsPrefix <+: ddsTypeName ∧ suffixPosition = ddsPrefix.length := by
  have marker := find_isPrefix found
  have beside := suffix_beside_prefix (Or.inr rfl) marker (rfind_isPrefix last)
  have room := rfind_bound last
  have suffixSome : 0 < requestSuffix.length := by decide
  rw [reformat, List.append_eq_nil_iff]
  cases ddsPrefixPos with
  | zero =>
    -- no namespace: the type name is empty if the suffix begins where it does
    have behind : ddsPrefix.length ≤ suffixPosition := by omega
    have empty : Rmw.findAndReplace (substr ddsTypeName 0 0) "::".toList ['/'] = [] := by
      rw [substr, List.take_zero]
      exact LawfulFindAndReplace.absent _ _ _ (by decide)
    rw [List.drop_zero] at marker
    have typeName : substr ddsTypeName ddsPrefix.length (suffixPosition - ddsPrefix.length) = [] ↔
        suffixPosition = ddsPrefix.length := by
      rw [substr, List.take_eq_nil_iff, List.drop_eq_nil_iff]
      omega
    rw [Nat.zero_add, sizeSub_of_le behind]
    simp only [empty, marker, true_and, typeName]
  | succ before =>
    -- a namespace is left in any case
    have nonempty : substr ddsTypeName 0 (before + 1) ≠ [] := by
      rw [substr, List.drop_zero, ne_eq, List.take_eq_nil_iff, ← List.length_eq_zero_iff]
      omega
    have replaced : Rmw.findAndReplace (substr ddsTypeName 0 (before + 1)) "::".toList ['/'] ≠ [] :=
      findAndReplace_ne_nil (by decide) (by decide) nonempty
    have later : ¬ ddsPrefix <+: ddsTypeName := by
      intro starts
      rw [find_of_isPrefix starts] at found
      cases found
    simp only [replaced, later, false_and]

/-- For a name of no service type the result is empty exactly if there is no `dds_::` or no
    `_Request_` in it, or if the last `_Request_` directly follows a `dds_::` at the very
    beginning. -/
theorem rejects_iff [Rmw] [LawfulFindAndReplace] (ddsTypeName : Text) :
    (¬ IsServiceTypeName ddsTypeName → demangleServiceTypeOnly ddsTypeName = []) ↔
      IsServiceTypeName ddsTypeName ∨ ¬ ddsPrefix <:+: ddsTypeName ∨
        ¬ requestSuffix <:+: ddsTypeName ∨
        (ddsPrefix <+: ddsTypeName ∧ rfind requestSuffix ddsTypeName = some ddsPrefix.length) := by
  by_cases service : IsServiceTypeName ddsTypeName
  · simp [service]
  simp only [service, not_false_eq_true, forall_const, false_or]
  cases found : find ddsPrefix ddsTypeName with
  | none =>
    have absent := find_eq_none_iff.mp found
    simp [demangleServiceTypeOnly, found, absent]
  | some ddsPrefixPos =>
    have marker := find_isInfix found
    have noResponse : ¬ responseSuffix <:+ ddsTypeName := fun ends => service ⟨marker, Or.inr ends⟩
    rw [demangleServiceTypeOnly_eq found, if_neg noResponse]
    cases last : rfind requestSuffix ddsTypeName with
    | none =>
      have absent := rfind_eq_none_iff.mp last
      simp [absent]
    | some suffixPosition =>
      have occurs := rfind_isInfix last
      simp only [marker, occurs, not_true_eq_false, false_or, Option.some.injEq]
      exact reformat_eq_nil_iff found last

end MicroRosAgent.Utils

/-! ## Names taken apart -/

namespace MicroRosAgent.Utils

open Text

attribute [local instance] referenceRmw referenceRmw_lawfulFindAndReplace

/-- The type of a service named after the markers. -/
theorem demangle_mangled_addTwoInts :
    demangleServiceTypeOnly (mangledTypeName ["example_interfaces".toList, "srv".toList]
        ("dds_::_Request_".toList ++ "_Request".toList)) =
      "example_interfaces/srv/dds_::_Request_".toList := by
  have valid : ∀ component ∈ ["example_interfaces".toList, "srv".toList],
      IsNamespaceComponent component := by
    intro component member
    simp only [List.mem_cons, List.not_mem_nil, or_false] at member
    obtain rfl | rfl := member <;> decide
  have ros : qualifier ['/'] ["example_interfaces".toList, "srv".toList] ++ "dds_::_Request_".toList =
      "example_interfaces/srv/dds_::_Request_".toList := by decide
  exact (demangle_mangled valid "dds_::_Request_".toList).2.2.1.trans ros

theorem rejects_iff_message : demangleServiceTypeOnly "std_msgs::msg::dds_::String_".toList = [] := by
  have noService : ¬ IsServiceTypeName "std_msgs::msg::dds_::String_".toList := by
    rintro ⟨_, request | response⟩
    · exact absurd request (by decide)
    · exact absurd response (by decide)
  exact (rejects_iff "std_msgs::msg::dds_::String_".toList).mpr
    (Or.inr (Or.inr (Or.inl (by decide)))) noService

/-- A `_Request_` in the middle is enough. -/
theorem accepts_request_inside :
    ¬ (¬ IsServiceTypeName "pkg::msg::dds_::A_Request_Log_".toList →
      demangleServiceTypeOnly "pkg::msg::dds_::A_Request_Log_".toList = []) := by
  intro rejects
  have noService : ¬ IsServiceTypeName "pkg::msg::dds_::A_Request_Log_".toList := by
    rintro ⟨_, request | response⟩
    · exact absurd request (by decide)
    · exact absurd response (by decide)
  exact absurd (rejects noService) (by decide)

end MicroRosAgent.Utils
