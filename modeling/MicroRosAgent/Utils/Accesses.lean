import MicroRosAgent.Utils.TypeNames

/-! # Where the demanglers read

The demanglers once more, with every index, every subtraction of positions and every
`substr` checked: `none` means that one of them leaves the string.  As long as it does not,
the result is that of the demangler (`checkedDemangleIfRosType_sound` and its siblings).

`staysInside_iff` says for which strings all of them stay inside.  The empty one is not
among them, and neither is a name whose last `_Request_` stands before its `dds_::`.
-/

namespace MicroRosAgent.Utils

open Text

section
variable [Rmw]

def checkedDemangleIfRosType (ddsTypeString : Text) : Option Text := do
  let last ← charAt ddsTypeString (← checkedSub ddsTypeString.length 1)
  if last ≠ '_' then
    return ddsTypeString
  else
    match find ddsPrefix ddsTypeString with
    | none => return ddsTypeString
    | some ddsPrefixPos =>
        let typeNamespace ← checkedSubstr ddsTypeString 0 ddsPrefixPos
        let typeNamespace := Rmw.findAndReplace typeNamespace "::".toList ['/']
        let start := ddsPrefixPos + ddsPrefix.length
        let count ← checkedSub (← checkedSub ddsTypeString.length start) 1
        let typeName ← checkedSubstr ddsTypeString start count
        return typeNamespace ++ typeName

def checkedDemangleServiceFromTopicWith (servicePrefix topicName suffix : Text) : Option Text :=
  let serviceName := Rmw.resolvePrefix topicName servicePrefix
  if serviceName = [] then some []
  else
    match rfind suffix serviceName with
    | none => some []
    | some suffixPosition => do
        let behind ← checkedSub (← checkedSub serviceName.length suffixPosition) suffix.length
        if behind ≠ 0 then return []
        else checkedSubstr serviceName 0 suffixPosition

def checkedServiceSuffixPosition (ddsTypeName : Text) :
    List Text → Option Nat → Option (Option Nat)
  | [], suffixPosition => some suffixPosition
  | suffix :: suffixes, _ =>
      match rfind suffix ddsTypeName with
      | none => checkedServiceSuffixPosition ddsTypeName suffixes none
      | some position => do
          let behind ← checkedSub (← checkedSub ddsTypeName.length position) suffix.length
          if behind ≠ 0 then checkedServiceSuffixPosition ddsTypeName suffixes (some position)
          else return some position

def checkedDemangleServiceTypeOnly (ddsTypeName : Text) : Option Text :=
  match find ddsPrefix ddsTypeName with
  | none => some []
  | some ddsPrefixPos => do
      let suffixPosition ←
        checkedServiceSuffixPosition ddsTypeName ["_Response_".toList, "_Request_".toList] none
      match suffixPosition with
      | none => return []
      | some suffixPosition =>
          let typeNamespace ← checkedSubstr ddsTypeName 0 ddsPrefixPos
          let typeNamespace := Rmw.findAndReplace typeNamespace "::".toList ['/']
          let start := ddsPrefixPos + ddsPrefix.length
          let count ← checkedSub suffixPosition start
          let typeName ← checkedSubstr ddsTypeName start count
          return typeNamespace ++ typeName

/-! ## The loop and the topics never leave the string -/

omit [Rmw] in
/-- What is left behind an occurrence is counted without wrapping. -/
theorem checked_behind {pattern text : Text} {position : Nat}
    (found : rfind pattern text = some position) :
    ((checkedSub text.length position).bind fun rest => checkedSub rest pattern.length) =
      some (sizeSub (sizeSub text.length position) pattern.length) := by
  have bound := rfind_bound found
  have inner : position ≤ text.length := by omega
  rw [checkedSub_of_le inner, sizeSub_of_le inner, Option.bind_some, checkedSub_of_le (by omega),
    sizeSub_of_le (by omega)]

omit [Rmw] in
theorem checkedServiceSuffixPosition_eq (ddsTypeName : Text) (suffixes : List Text)
    (suffixPosition : Option Nat) :
    checkedServiceSuffixPosition ddsTypeName suffixes suffixPosition =
      some (serviceSuffixPosition ddsTypeName suffixes suffixPosition) := by
  induction suffixes generalizing suffixPosition with
  | nil => rfl
  | cons suffix suffixes ih =>
    cases found : rfind suffix ddsTypeName with
    | none => simp only [checkedServiceSuffixPosition, serviceSuffixPosition, found, ih]
    | some position =>
      have behind := checked_behind found
      simp only [checkedServiceSuffixPosition, serviceSuffixPosition, found, Option.bind_eq_bind]
      rw [← Option.bind_assoc, behind, Option.bind_some, ih]
      split <;> rfl

theorem checkedDemangleServiceFromTopicWith_eq (servicePrefix topicName suffix : Text) :
    checkedDemangleServiceFromTopicWith servicePrefix topicName suffix =
      some (demangleServiceFromTopicWith servicePrefix topicName suffix) := by
  simp only [checkedDemangleServiceFromTopicWith, demangleServiceFromTopicWith]
  split
  · rfl
  cases found : rfind suffix (Rmw.resolvePrefix topicName servicePrefix) with
  | none => rfl
  | some position =>
    have behind := checked_behind found
    simp only [Option.bind_eq_bind]
    rw [← Option.bind_assoc, behind, Option.bind_some, checkedSubstr_of_le (Nat.zero_le _)]
    split <;> rfl

/-! ## The type of a service -/

omit [Rmw] in
/-- A response suffix at the end stands behind every `dds_::`. -/
theorem response_behind_prefix {text : Text} {prefixPos position : Nat}
    (marker : ddsPrefix <+: text.drop prefixPos) (ends : text.drop position = responseSuffix) :
    prefixPos + ddsPrefix.length ≤ position := by
  -- the marker has a colon and the suffix has none
  have free : ∀ offset, ¬ ddsPrefix <+: responseSuffix.drop offset := by
    intro offset starts
    have colon : ':' ∈ responseSuffix.drop offset := starts.subset (by decide)
    exact absurd (List.mem_of_mem_drop colon) (by decide)
  have starts : responseSuffix <+: text.drop position := by rw [ends]
  obtain before | behind := suffix_beside_prefix (Or.inl rfl) marker starts
  · obtain ⟨offset, rfl⟩ := Nat.exists_eq_add_of_le (Nat.le_of_lt before)
    rw [← List.drop_drop, ends] at marker
    exact absurd marker (free offset)
  · exact behind

theorem checkedDemangleServiceTypeOnly_eq {ddsTypeName : Text} {ddsPrefixPos : Nat}
    (found : find ddsPrefix ddsTypeName = some ddsPrefixPos) :
    checkedDemangleServiceTypeOnly ddsTypeName =
      match (if responseSuffix <:+ ddsTypeName then rfind responseSuffix ddsTypeName
        else rfind requestSuffix ddsTypeName) with
      | none => some []
      | some suffixPosition =>
          (checkedSub suffixPosition (ddsPrefixPos + ddsPrefix.length)).map fun count =>
            reformat (substr ddsTypeName 0 ddsPrefixPos)
              (substr ddsTypeName (ddsPrefixPos + ddsPrefix.length) count) := by
  have bound := find_bound (by decide) found
  have position : serviceSuffixPosition ddsTypeName ["_Response_".toList, "_Request_".toList] none =
      if responseSuffix <:+ ddsTypeName then rfind responseSuffix ddsTypeName
      else rfind requestSuffix ddsTypeName := serviceSuffixPosition_eq ddsTypeName
  simp only [checkedDemangleServiceTypeOnly, found, checkedServiceSuffixPosition_eq, position,
    checkedSubstr_of_le (Nat.zero_le _), checkedSubstr_of_le bound, Option.bind_eq_bind,
    Option.bind_some]
  cases (if responseSuffix <:+ ddsTypeName then rfind responseSuffix ddsTypeName
    else rfind requestSuffix ddsTypeName) with
  | none => rfl
  | some suffixPosition =>
    simp only [Option.map_eq_bind]
    rfl

theorem checkedDemangleServiceTypeOnly_sound {ddsTypeName result : Text}
    (checked : checkedDemangleServiceTypeOnly ddsTypeName = some result) :
    demangleServiceTypeOnly ddsTypeName = result := by
  cases found : find ddsPrefix ddsTypeName with
  | none =>
    simp only [checkedDemangleServiceTypeOnly, found, Option.some.injEq] at checked
    simp only [demangleServiceTypeOnly, found, checked]
  | some ddsPrefixPos =>
    rw [checkedDemangleServiceTypeOnly_eq found] at checked
    rw [demangleServiceTypeOnly_eq found]
    cases position : (if responseSuffix <:+ ddsTypeName then rfind responseSuffix ddsTypeName
        else rfind requestSuffix ddsTypeName) with
    | none =>
      rw [position] at checked
      exact Option.some.inj checked
    | some suffixPosition =>
      rw [position] at checked
      obtain ⟨count, counted, rfl⟩ := Option.map_eq_some_iff.mp checked
      simp only [sizeSub_of_checkedSub counted]

/-- The last `_Request_` stands before the first `dds_::`, and no suffix ends the name. -/
def RequestBeforePrefix (ddsTypeName : Text) : Prop :=
  ∃ ddsPrefixPos suffixPosition, find ddsPrefix ddsTypeName = some ddsPrefixPos ∧
    rfind requestSuffix ddsTypeName = some suffixPosition ∧ suffixPosition < ddsPrefixPos ∧
      ¬ responseSuffix <:+ ddsTypeName

theorem checkedDemangleServiceTypeOnly_isSome_iff (ddsTypeName : Text) :
    (checkedDemangleServiceTypeOnly ddsTypeName).isSome ↔ ¬ RequestBeforePrefix ddsTypeName := by
  cases found : find ddsPrefix ddsTypeName with
  | none => simp [checkedDemangleServiceTypeOnly, RequestBeforePrefix, found]
  | some ddsPrefixPos =>
    have marker := find_isPrefix found
    rw [checkedDemangleServiceTypeOnly_eq found]
    by_cases response : responseSuffix <:+ ddsTypeName
    · have outside : ¬ RequestBeforePrefix ddsTypeName := by
        rintro ⟨_, _, _, _, _, absent⟩
        exact absent response
      obtain ⟨front, rfl⟩ := response
      have behind := response_behind_prefix marker List.drop_left
      rw [serviceSuffix_atEnd (Or.inl rfl)]
      simp [outside, checkedSub_of_le behind]
    · rw [if_neg response]
      cases last : rfind requestSuffix ddsTypeName with
      | none => simp [RequestBeforePrefix, last]
      | some suffixPosition =>
        have beside := suffix_beside_prefix (Or.inr rfl) marker (rfind_isPrefix last)
        have before : RequestBeforePrefix ddsTypeName ↔ suffixPosition < ddsPrefixPos := by
          simp [RequestBeforePrefix, found, last, response]
        rw [before, Option.isSome_map, checkedSub]
        split
        · simp only [Option.isSome_some, true_iff]
          omega
        · simp only [Option.isSome_none, Bool.false_eq_true, false_iff]
          omega

/-! ## The type of a message -/

omit [Rmw] in
/-- A name that ends with an underscore goes on behind its `dds_::`. -/
theorem behind_prefix_of_underscore {ddsTypeString : Text} {ddsPrefixPos : Nat}
    (found : find ddsPrefix ddsTypeString = some ddsPrefixPos)
    (last : charAt ddsTypeString (ddsTypeString.length - 1) = some '_') :
    ddsPrefixPos + ddsPrefix.length < ddsTypeString.length := by
  have bound := find_bound (by decide) found
  obtain ⟨after, marker⟩ := find_isPrefix found
  have colon : ddsTypeString[ddsPrefixPos + 5]? = some ':' := by
    rw [← List.getElem?_drop, ← marker]
    rfl
  by_contra notBehind
  -- the last character would be the colon of the marker
  have six : ddsPrefix.length = 6 := rfl
  have position : ddsTypeString.length - 1 = ddsPrefixPos + 5 := by omega
  rw [charAt, position, colon] at last
  exact absurd last (by decide)

theorem checkedDemangleIfRosType_eq {ddsTypeString : Text} (nonempty : ddsTypeString ≠ []) :
    checkedDemangleIfRosType ddsTypeString = some (demangleIfRosType ddsTypeString) := by
  have some : 0 < ddsTypeString.length := List.length_pos_iff.mpr nonempty
  have inside : ddsTypeString.length - 1 < ddsTypeString.length := by omega
  have read : charAt ddsTypeString (ddsTypeString.length - 1) =
      Option.some ddsTypeString[ddsTypeString.length - 1] := List.getElem?_eq_getElem inside
  simp only [checkedDemangleIfRosType, demangleIfRosType, checkedSub_of_le some, sizeSub_of_le some,
    Option.bind_eq_bind, Option.bind_some, read, ne_eq, Option.some.injEq]
  split
  · rfl
  rename_i underscore
  rw [not_not.mp underscore] at read
  cases found : find ddsPrefix ddsTypeString with
  | none => rfl
  | some ddsPrefixPos =>
    have behind := behind_prefix_of_underscore found read
    have start : ddsPrefixPos + ddsPrefix.length ≤ ddsTypeString.length := by omega
    have count : 1 ≤ ddsTypeString.length - (ddsPrefixPos + ddsPrefix.length) := by omega
    simp only [checkedSubstr_of_le (Nat.zero_le _), checkedSubstr_of_le start, checkedSub_of_le start,
      sizeSub_of_le start, checkedSub_of_le count, sizeSub_of_le count, Option.bind_some]
    rfl

theorem checkedDemangleIfRosType_nil : checkedDemangleIfRosType [] = none := rfl

theorem checkedDemangleIfRosType_sound {ddsTypeString result : Text}
    (checked : checkedDemangleIfRosType ddsTypeString = some result) :
    demangleIfRosType ddsTypeString = result := by
  by_cases empty : ddsTypeString = []
  · rw [empty, checkedDemangleIfRosType_nil] at checked
    cases checked
  · rw [checkedDemangleIfRosType_eq empty] at checked
    exact Option.some.inj checked

theorem checkedDemangleIfRosType_isSome_iff (ddsTypeString : Text) :
    (checkedDemangleIfRosType ddsTypeString).isSome ↔ ddsTypeString ≠ [] := by
  by_cases empty : ddsTypeString = []
  · simp [empty, checkedDemangleIfRosType_nil]
  · simp [empty, checkedDemangleIfRosType_eq empty]

/-! ## All demanglers -/

/-- Nothing the demanglers do with this string as a type or a topic name leaves it. -/
structure StaysInside (name : Text) : Prop where
  ifRosType : (checkedDemangleIfRosType name).isSome
  serviceTypeOnly : (checkedDemangleServiceTypeOnly name).isSome
  serviceFromTopic : ∀ servicePrefix suffix,
    (checkedDemangleServiceFromTopicWith servicePrefix name suffix).isSome

/-- Exactly the nonempty names stay inside whose last `_Request_` does not stand before the
    first `dds_::`, or that end with a suffix all the same. -/
theorem staysInside_iff (name : Text) :
    StaysInside name ↔ name ≠ [] ∧ ¬ RequestBeforePrefix name := by
  rw [← checkedDemangleIfRosType_isSome_iff, ← checkedDemangleServiceTypeOnly_isSome_iff]
  constructor
  · intro inside
    exact ⟨inside.ifRosType, inside.serviceTypeOnly⟩
  · intro ⟨ifRosType, serviceTypeOnly⟩
    refine ⟨ifRosType, serviceTypeOnly, ?_⟩
    intro servicePrefix suffix
    rw [checkedDemangleServiceFromTopicWith_eq]
    rfl

end

end MicroRosAgent.Utils

/-! ## Two names that are left -/

namespace MicroRosAgent.Utils

attribute [local instance] referenceRmw

/-- The empty string is read at a position that has wrapped, and the length of a type name
    wraps when its `dds_::` comes late. -/
theorem leaves_the_string : ¬ StaysInside [] ∧ ¬ StaysInside "_Request_dds_::".toList := by
  constructor
  · intro inside
    exact absurd inside.ifRosType (by decide)
  · intro inside
    exact absurd inside.serviceTypeOnly (by decide)

end MicroRosAgent.Utils
