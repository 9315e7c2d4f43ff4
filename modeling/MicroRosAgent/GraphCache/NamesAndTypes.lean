import MicroRosAgent.GraphCache.Interface
import Mathlib.Data.List.Nodup
import Mathlib.Tactic.Tauto

/-! # Collecting names and types

The accumulator of every graph query is a map from names to sets of types, filled
by one insertion for each entity (`topics[name].insert(type)`).  `collect` is that
loop, and `collects_collect` says what it returns: each name once, under it the
types it was inserted with.
-/

namespace MicroRosAgent

/-- `topics[name].insert(type)`. -/
def insertType (name type : Text) : NamesAndTypes → NamesAndTypes
  | [] => [(name, [type])]
  | entry :: rest =>
      if entry.1 = name then
        (entry.1, if type ∈ entry.2 then entry.2 else entry.2 ++ [type]) :: rest
      else entry :: insertType name type rest

def collect : List (Text × Text) → NamesAndTypes
  | [] => []
  | (name, type) :: pairs => insertType name type (collect pairs)

theorem mem_names_insertType (name type other : Text) (result : NamesAndTypes) :
    other ∈ (insertType name type result).map Prod.fst ↔
      other = name ∨ other ∈ result.map Prod.fst := by
  induction result with
  | nil => simp [insertType]
  | cons entry rest ih =>
    simp only [insertType]
    split
    · rename_i same
      subst same
      simp
    · simp only [List.map_cons, List.mem_cons, ih]
      tauto

theorem namesNodup_insertType (name type : Text) {result : NamesAndTypes}
    (nodup : (result.map Prod.fst).Nodup) : ((insertType name type result).map Prod.fst).Nodup := by
  induction result with
  | nil => simp [insertType]
  | cons entry rest ih =>
    simp only [List.map_cons, List.nodup_cons] at nodup
    simp only [insertType]
    split
    · simpa using nodup
    · rename_i different
      rw [List.map_cons, List.nodup_cons, mem_names_insertType]
      refine ⟨?_, ih nodup.2⟩
      rintro (same | member)
      · exact different same
      · exact nodup.1 member

/-- The entries of the result: the old ones under other names, and one under
    `name` with the old types and the new one. -/
theorem mem_insertType {name type : Text} {result : NamesAndTypes}
    (nodup : (result.map Prod.fst).Nodup) (entry : Text × List Text)
    (member : entry ∈ insertType name type result) :
    (entry ∈ result ∧ entry.1 ≠ name) ∨
      (entry.1 = name ∧ (∀ other, other ∈ entry.2 ↔
        other = type ∨ ∃ types, (name, types) ∈ result ∧ other ∈ types) ∧
        ((∀ old ∈ result, old.2.Nodup) → entry.2.Nodup)) := by
  induction result with
  | nil =>
    cases List.mem_singleton.mp member
    exact Or.inr ⟨rfl, by simp, by simp⟩
  | cons head rest ih =>
    simp only [List.map_cons, List.nodup_cons] at nodup
    simp only [insertType] at member
    split at member
    · rename_i same
      obtain rfl | member := List.mem_cons.mp member
      · refine Or.inr ⟨same, ?_, ?_⟩
        · intro other
          have only : ∀ types, (name, types) ∈ head :: rest ↔ types = head.2 := by
            intro types
            constructor
            · intro listed
              obtain rfl | listed := List.mem_cons.mp listed
              · rfl
              · exact absurd (List.mem_map_of_mem listed) (same ▸ nodup.1)
            · rintro rfl
              exact List.mem_cons.mpr (Or.inl (by rw [← same]))
          simp only [only, exists_eq_left]
          split
          · constructor
            · exact Or.inr
            · rintro (rfl | old)
              · assumption
              · exact old
          · simp only [List.mem_append, List.mem_singleton]
            exact or_comm
        · intro old
          have headNodup := old head (by simp)
          split
          · exact headNodup
          · rename_i absent
            exact headNodup.append (by simp) (by simpa using absent)
      · refine Or.inl ⟨by simp [member], ?_⟩
        rintro rfl
        exact nodup.1 (same ▸ List.mem_map_of_mem member)
    · rename_i different
      obtain rfl | member := List.mem_cons.mp member
      · exact Or.inl ⟨by simp, different⟩
      · obtain ⟨old, other⟩ | ⟨same, types, distinct⟩ := ih nodup.2 member
        · exact Or.inl ⟨by simp [old], other⟩
        · refine Or.inr ⟨same, ?_, fun old => distinct fun entry here => old entry (by simp [here])⟩
          intro other
          rw [types]
          have : ∀ types, (name, types) ∈ head :: rest ↔ (name, types) ∈ rest := by
            intro types
            simp only [List.mem_cons, or_iff_right_iff_imp]
            rintro rfl
            exact absurd rfl different
          simp only [this]

theorem collects_collect (pairs : List (Text × Text)) :
    Collects (collect pairs) fun name type => (name, type) ∈ pairs := by
  induction pairs with
  | nil => constructor <;> simp [collect]
  | cons pair pairs ih =>
    obtain ⟨name, type⟩ := pair
    have entries := @mem_insertType name type (collect pairs) ih.namesNodup
    refine ⟨namesNodup_insertType name type ih.namesNodup, ?_, ?_, ?_⟩
    · intro entry member
      obtain ⟨old, _⟩ | ⟨_, _, distinct⟩ := entries entry member
      · exact ih.typesNodup entry old
      · exact distinct ih.typesNodup
    · intro other
      simp only [collect, mem_names_insertType, ih.named, List.mem_cons, Prod.mk.injEq]
      constructor
      · rintro (rfl | ⟨type', known⟩)
        · exact ⟨type, Or.inl ⟨rfl, rfl⟩⟩
        · exact ⟨type', Or.inr known⟩
      · rintro ⟨type', ⟨rfl, _⟩ | known⟩
        · exact Or.inl rfl
        · exact Or.inr ⟨type', known⟩
    · intro entry member other
      simp only [List.mem_cons, Prod.mk.injEq]
      obtain ⟨old, different⟩ | ⟨same, types, _⟩ := entries entry member
      · rw [ih.typed entry old]
        simp [different]
      · rw [types, same]
        constructor
        · rintro (rfl | ⟨listed, known, here⟩)
          · exact Or.inl ⟨rfl, rfl⟩
          · exact Or.inr ((ih.typed _ known other).mp here)
        · rintro (⟨_, rfl⟩ | known)
          · exact Or.inl rfl
          · obtain ⟨⟨_, listed⟩, here, rfl⟩ := List.mem_map.mp ((ih.named name).mpr ⟨other, known⟩)
            exact Or.inr ⟨listed, here, (ih.typed _ here other).mpr known⟩

theorem Collects.congr {result : NamesAndTypes} {first second : Text → Text → Prop}
    (collects : Collects result first) (same : ∀ name type, first name type ↔ second name type) :
    Collects result second := by
  have : first = second := funext fun name => funext fun type => propext (same name type)
  exact this ▸ collects

/-- An entry has the type it was collected for. -/
theorem Collects.types_ne_nil {result : NamesAndTypes} {pairs : Text → Text → Prop}
    (collects : Collects result pairs) : ∀ entry ∈ result, entry.2 ≠ [] := by
  intro entry member
  obtain ⟨type, pair⟩ := (collects.named entry.1).mp (List.mem_map_of_mem member)
  exact List.ne_nil_of_mem ((collects.typed entry member type).mpr pair)

/-- A result determines the pairs it collects. -/
theorem Collects.pairs_unique {result : NamesAndTypes} {first second : Text → Text → Prop}
    (firstCollects : Collects result first) (secondCollects : Collects result second)
    (name type : Text) : first name type ↔ second name type := by
  have transfer : ∀ {one other : Text → Text → Prop}, Collects result one → Collects result other →
      one name type → other name type := by
    intro one other oneCollects otherCollects pair
    obtain ⟨entry, member, named⟩ :=
      List.mem_map.mp ((oneCollects.named name).mpr ⟨type, pair⟩)
    subst named
    exact (otherCollects.typed entry member type).mp ((oneCollects.typed entry member type).mpr pair)
  exact ⟨transfer firstCollects secondCollects, transfer secondCollects firstCollects⟩

/-- The pairs the entities with the given gids contribute. -/
def contributions (table : Gid → Option EntityInfo) (gids : List Gid)
    (demangleTopic demangleType : DemangleFunction) : List (Text × Text) :=
  gids.filterMap fun gid => (table gid).bind fun info =>
    if demangleTopic info.topicName = [] then none
    else some (demangleTopic info.topicName, demangleType info.topicType)

theorem mem_contributions (table : Gid → Option EntityInfo) (gids : List Gid)
    (demangleTopic demangleType : DemangleFunction) (name type : Text) :
    (name, type) ∈ contributions table gids demangleTopic demangleType ↔
      NodeContributes table gids demangleTopic demangleType name type := by
  simp only [contributions, NodeContributes, Contributes, List.mem_filterMap,
    Option.bind_eq_some_iff, Option.ite_none_left_eq_some, Option.some.injEq, Prod.mk.injEq]
  constructor
  · rintro ⟨gid, member, info, known, some, rfl, rfl⟩
    exact ⟨gid, member, info, known, rfl, some, rfl⟩
  · rintro ⟨gid, member, info, known, rfl, some, rfl⟩
    exact ⟨gid, member, info, known, some, rfl, rfl⟩

end MicroRosAgent
