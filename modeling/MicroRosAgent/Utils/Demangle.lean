import MicroRosAgent.Middleware

/-! # Demangling DDS names

`Demangle` turns DDS topic and type names back into ROS 2 names; an empty result of a
topic demangler means "not a topic of this kind".  Positions and lengths are `size_t`.
-/

namespace MicroRosAgent.Utils

open Text

section
variable [Rmw]

def demangleIfRosTopic (topicName : Text) : Text := Rmw.stripRosPrefixIfExists topicName

def ddsPrefix : Text := "dds_::".toList

def demangleIfRosType (ddsTypeString : Text) : Text :=
  if charAt ddsTypeString (sizeSub ddsTypeString.length 1) ≠ some '_' then
    -- not a ROS type
    ddsTypeString
  else
    match find ddsPrefix ddsTypeString with
    | none => ddsTypeString  -- not a ROS type
    | some ddsPrefixPos =>
        let typeNamespace := substr ddsTypeString 0 ddsPrefixPos
        let typeNamespace := Rmw.findAndReplace typeNamespace "::".toList ['/']
        let start := ddsPrefixPos + ddsPrefix.length
        let typeName := substr ddsTypeString start (sizeSub (sizeSub ddsTypeString.length start) 1)
        typeNamespace ++ typeName

def demangleRosTopicFromTopic (topicName : Text) : Text :=
  Rmw.resolvePrefix topicName Rmw.rosTopicPrefix

/-- `Demangle::_demangle_service_from_topic`. -/
def demangleServiceFromTopicWith (servicePrefix topicName suffix : Text) : Text :=
  let serviceName := Rmw.resolvePrefix topicName servicePrefix
  if serviceName = [] then []
  else
    match rfind suffix serviceName with
    | none => []
    | some suffixPosition =>
        if sizeSub (sizeSub serviceName.length suffixPosition) suffix.length ≠ 0 then []
        else substr serviceName 0 suffixPosition

def demangleServiceRequestFromTopic (topicName : Text) : Text :=
  demangleServiceFromTopicWith Rmw.rosServiceRequesterPrefix topicName "Request".toList

def demangleServiceReplyFromTopic (topicName : Text) : Text :=
  demangleServiceFromTopicWith Rmw.rosServiceResponsePrefix topicName "Reply".toList

def demangleServiceFromTopic (topicName : Text) : Text :=
  let demangledTopic := demangleServiceReplyFromTopic topicName
  if demangledTopic ≠ [] then demangledTopic else demangleServiceRequestFromTopic topicName

/-- The loop over the suffixes; the position of a suffix that is not at the end is kept
    when the loop ends with it. -/
def serviceSuffixPosition (ddsTypeName : Text) : List Text → Option Nat → Option Nat
  | [], suffixPosition => suffixPosition
  | suffix :: suffixes, _ =>
      match rfind suffix ddsTypeName with
      | none => serviceSuffixPosition ddsTypeName suffixes none
      | some position =>
          if sizeSub (sizeSub ddsTypeName.length position) suffix.length ≠ 0 then
            serviceSuffixPosition ddsTypeName suffixes (some position)
          else some position

def demangleServiceTypeOnly (ddsTypeName : Text) : Text :=
  match find ddsPrefix ddsTypeName with
  | none => []  -- not a ROS service type
  | some ddsPrefixPos =>
      match serviceSuffixPosition ddsTypeName ["_Response_".toList, "_Request_".toList] none with
      | none => []
      | some suffixPosition =>
          -- reformat it from '[type_namespace::]dds_::<type><suffix>' to '[type_namespace/]<type>'
          let typeNamespace := substr ddsTypeName 0 ddsPrefixPos
          let typeNamespace := Rmw.findAndReplace typeNamespace "::".toList ['/']
          let start := ddsPrefixPos + ddsPrefix.length
          let typeName := substr ddsTypeName start (sizeSub suffixPosition start)
          typeNamespace ++ typeName

end

/-! ## What the topic demanglers accept -/

variable [Rmw] [LawfulNamespacePrefix]

theorem resolvePrefix_eq_iff {name namePrefix rest : Text} (nonempty : rest ≠ []) :
    Rmw.resolvePrefix name namePrefix = rest ↔
      ['/'] <+: rest ∧ name = namePrefix ++ rest := by
  rw [LawfulNamespacePrefix.resolvePrefix]
  constructor
  · intro resolved
    split at resolved
    · rename_i starts
      obtain ⟨after, rfl⟩ := starts
      rw [List.append_assoc, List.drop_left] at resolved
      subst resolved
      exact ⟨List.prefix_append _ _, by simp⟩
    · exact absurd resolved.symm nonempty
  · intro ⟨⟨after, starts⟩, equal⟩
    subst starts
    subst equal
    rw [if_pos ⟨after, by simp⟩, List.drop_left]

theorem demangleRosTopicFromTopic_eq_iff {topicName name : Text} (nonempty : name ≠ []) :
    demangleRosTopicFromTopic topicName = name ↔
      ['/'] <+: name ∧ topicName = "rt".toList ++ name := by
  rw [demangleRosTopicFromTopic, resolvePrefix_eq_iff nonempty, LawfulNamespacePrefix.rosTopicPrefix]

omit [Rmw] [LawfulNamespacePrefix] in
/-- A pattern found so that nothing is left behind it is the end of the text. -/
theorem end_of_rfind {pattern text : Text} {position : Nat} (nonempty : pattern ≠ [])
    (found : rfind pattern text = some position)
    (atEnd : sizeSub (sizeSub text.length position) pattern.length = 0) :
    text = substr text 0 position ++ pattern := by
  have bound := rfind_bound found
  have inside : position ≤ text.length := by omega
  rw [sizeSub_of_le inside, sizeSub_of_le (by omega)] at atEnd
  obtain ⟨front, rfl⟩ := (rfind_atEnd_iff nonempty found).mp (by omega)
  rw [rfind_append front nonempty] at found
  cases found
  simp [substr]

theorem demangleServiceFromTopicWith_eq_iff {servicePrefix topicName suffix service : Text}
    (suffixSome : suffix ≠ []) (nonempty : service ≠ []) :
    demangleServiceFromTopicWith servicePrefix topicName suffix = service ↔
      ['/'] <+: service ∧ topicName = servicePrefix ++ service ++ suffix := by
  constructor
  · intro demangled
    simp only [demangleServiceFromTopicWith] at demangled
    split at demangled
    · exact absurd demangled.symm nonempty
    rename_i serviceNameSome
    obtain ⟨slash, topic⟩ := (resolvePrefix_eq_iff serviceNameSome).mp rfl
    split at demangled
    · exact absurd demangled.symm nonempty
    rename_i position found
    split at demangled
    · exact absurd demangled.symm nonempty
    rename_i atEnd
    have whole := end_of_rfind suffixSome found (not_not.mp atEnd)
    rw [demangled] at whole
    rw [whole] at slash topic
    refine ⟨?_, by rw [topic, List.append_assoc]⟩
    obtain ⟨first, rest, rfl⟩ := List.exists_cons_of_ne_nil nonempty
    simpa using slash
  · intro ⟨slash, topic⟩
    have serviceNameSome : service ++ suffix ≠ [] := by simp [nonempty]
    have resolved : Rmw.resolvePrefix topicName servicePrefix = service ++ suffix := by
      refine (resolvePrefix_eq_iff serviceNameSome).mpr ⟨?_, by rw [topic, List.append_assoc]⟩
      exact slash.trans (List.prefix_append _ _)
    simp [demangleServiceFromTopicWith, resolved, nonempty, rfind_append service suffixSome, substr,
      sizeSub]

theorem demangleServiceRequestFromTopic_eq_iff {topicName service : Text} (nonempty : service ≠ []) :
    demangleServiceRequestFromTopic topicName = service ↔
      ['/'] <+: service ∧ topicName = "rq".toList ++ service ++ "Request".toList := by
  rw [demangleServiceRequestFromTopic, demangleServiceFromTopicWith_eq_iff (by decide) nonempty,
    LawfulNamespacePrefix.rosServiceRequesterPrefix]

theorem demangleServiceReplyFromTopic_eq_iff {topicName service : Text} (nonempty : service ≠ []) :
    demangleServiceReplyFromTopic topicName = service ↔
      ['/'] <+: service ∧ topicName = "rr".toList ++ service ++ "Reply".toList := by
  rw [demangleServiceReplyFromTopic, demangleServiceFromTopicWith_eq_iff (by decide) nonempty,
    LawfulNamespacePrefix.rosServiceResponsePrefix]

/-- What the service demanglers accept: the prefix, a service name that starts with a
    slash, and the suffix. -/
def IsServiceTopic (servicePrefix suffix topicName service : Text) : Prop :=
  ['/'] <+: service ∧ topicName = servicePrefix ++ service ++ suffix

omit [Rmw] [LawfulNamespacePrefix] in
theorem IsServiceTopic.take_length {servicePrefix suffix topicName service : Text}
    (accepted : IsServiceTopic servicePrefix suffix topicName service) :
    topicName.take servicePrefix.length = servicePrefix := by
  rw [accepted.2, List.append_assoc, List.take_left]

theorem demangleServiceFromTopic_eq_iff {topicName service : Text} (nonempty : service ≠ []) :
    demangleServiceFromTopic topicName = service ↔
      IsServiceTopic "rq".toList "Request".toList topicName service ∨
        IsServiceTopic "rr".toList "Reply".toList topicName service := by
  unfold IsServiceTopic
  rw [← demangleServiceRequestFromTopic_eq_iff nonempty,
    ← demangleServiceReplyFromTopic_eq_iff nonempty]
  simp only [demangleServiceFromTopic]
  split
  · rename_i accepted
    constructor
    · exact Or.inr
    · rintro (request | reply)
      · obtain ⟨_, asRequest⟩ := (demangleServiceRequestFromTopic_eq_iff nonempty).mp request
        obtain ⟨_, asReply⟩ := (demangleServiceReplyFromTopic_eq_iff accepted).mp rfl
        rw [asRequest] at asReply
        simp at asReply
      · exact reply
  · rename_i rejected
    rw [not_not.mp rejected]
    constructor
    · exact Or.inl
    · rintro (request | reply)
      · exact request
      · exact absurd reply.symm nonempty

omit [Rmw] [LawfulNamespacePrefix] in
/-- A demangler whose nonempty results are known returns nothing else. -/
theorem eq_nil_of_not_accepted {demangled : Text} {accepts : Text → Prop}
    (exactly : ∀ service, service ≠ [] → (demangled = service ↔ accepts service))
    (none : ∀ service, service ≠ [] → ¬ accepts service) : demangled = [] := by
  by_contra some
  exact none demangled some ((exactly demangled some).mp rfl)

/-- The topic demanglers return exactly the names their grammar has, nothing on every other
    topic, and no two of them accept one topic. -/
theorem topicDemanglers_accept (topicName : Text) :
    (∀ service, service ≠ [] →
      (demangleServiceRequestFromTopic topicName = service ↔
        IsServiceTopic "rq".toList "Request".toList topicName service) ∧
      (demangleServiceReplyFromTopic topicName = service ↔
        IsServiceTopic "rr".toList "Reply".toList topicName service) ∧
      (demangleServiceFromTopic topicName = service ↔
        IsServiceTopic "rq".toList "Request".toList topicName service ∨
          IsServiceTopic "rr".toList "Reply".toList topicName service)) ∧
    ((∀ service, service ≠ [] → ¬ IsServiceTopic "rq".toList "Request".toList topicName service) →
      demangleServiceRequestFromTopic topicName = []) ∧
    ((∀ service, service ≠ [] → ¬ IsServiceTopic "rr".toList "Reply".toList topicName service) →
      demangleServiceReplyFromTopic topicName = []) ∧
    ((∀ service, service ≠ [] → ¬ (IsServiceTopic "rq".toList "Request".toList topicName service ∨
        IsServiceTopic "rr".toList "Reply".toList topicName service)) →
      demangleServiceFromTopic topicName = []) ∧
    ¬ (demangleServiceRequestFromTopic topicName ≠ [] ∧
      demangleServiceReplyFromTopic topicName ≠ []) ∧
    ¬ (demangleServiceRequestFromTopic topicName ≠ [] ∧
      demangleRosTopicFromTopic topicName ≠ []) ∧
    ¬ (demangleServiceReplyFromTopic topicName ≠ [] ∧
      demangleRosTopicFromTopic topicName ≠ []) := by
  -- the two letters of the prefix tell the kinds apart
  have requestStarts : demangleServiceRequestFromTopic topicName ≠ [] →
      topicName.take 2 = "rq".toList := by
    intro accepted
    have grammar : IsServiceTopic "rq".toList "Request".toList topicName _ :=
      (demangleServiceRequestFromTopic_eq_iff accepted).mp rfl
    exact grammar.take_length
  have replyStarts : demangleServiceReplyFromTopic topicName ≠ [] →
      topicName.take 2 = "rr".toList := by
    intro accepted
    have grammar : IsServiceTopic "rr".toList "Reply".toList topicName _ :=
      (demangleServiceReplyFromTopic_eq_iff accepted).mp rfl
    exact grammar.take_length
  have topicStarts : demangleRosTopicFromTopic topicName ≠ [] → topicName.take 2 = "rt".toList := by
    intro accepted
    obtain ⟨_, grammar⟩ := (demangleRosTopicFromTopic_eq_iff accepted).mp rfl
    rw [grammar]
    rfl
  refine ⟨?_, ?_, ?_, ?_, ?_, ?_, ?_⟩
  · intro service nonempty
    exact ⟨demangleServiceRequestFromTopic_eq_iff nonempty,
      demangleServiceReplyFromTopic_eq_iff nonempty, demangleServiceFromTopic_eq_iff nonempty⟩
  · exact eq_nil_of_not_accepted fun _ nonempty => demangleServiceRequestFromTopic_eq_iff nonempty
  · exact eq_nil_of_not_accepted fun _ nonempty => demangleServiceReplyFromTopic_eq_iff nonempty
  · exact eq_nil_of_not_accepted fun _ nonempty => demangleServiceFromTopic_eq_iff nonempty
  · intro ⟨request, reply⟩
    exact absurd ((requestStarts request).symm.trans (replyStarts reply)) (by decide)
  · intro ⟨request, topic⟩
    exact absurd ((requestStarts request).symm.trans (topicStarts topic)) (by decide)
  · intro ⟨reply, topic⟩
    exact absurd ((replyStarts reply).symm.trans (topicStarts topic)) (by decide)

end MicroRosAgent.Utils

namespace MicroRosAgent.Utils

attribute [local instance] referenceRmw referenceRmw_lawfulNamespacePrefix

/-- A service whose name ends like the suffix. -/
theorem topicDemanglers_accept_sample :
    demangleServiceFromTopic "rq/getRequestRequest".toList = "/getRequest".toList :=
  ((topicDemanglers_accept "rq/getRequestRequest".toList).1 "/getRequest".toList
    (by decide)).2.2.mpr (Or.inl ⟨by decide, by decide⟩)

end MicroRosAgent.Utils
