/-
**Normal shapes.**

Merging leaves shapes in a normal form: a list has one element, and a union has no unions among its
members, never one member alone, and neither several objects nor several lists without anything
else, null aside. What is interned stays as it is while the registry grows, so that the form is kept
by every merge.

* `NormalShape.congr`: the form depends on what the children of a shape are;
* `Normal.intern`, `Normal.prune`: a normal shape may be interned, and any shape dropped;
* `members?_of_mem_flatten`: among several flat candidates there is no union;
* `mergeStep_normalizes`, `merge_normal`: **merging keeps every shape normal.**
-/

import SampleShapes.Proofs.Registry.Merging

namespace SampleShapes.Registry

variable {registry later : Registry} {candidates : List ShapeId} {id : ShapeId} {shape : Shape}

/-! ### The normal form -/

/-- Null aside there is one identity at most. -/
def OneSolid (ids : IdSet) : Prop :=
  ∀ first ∈ ids, ∀ second ∈ ids, first ≠ .null → second ≠ .null → first = second

/-- A union as merging leaves it. -/
structure NormalUnion (registry : Registry) (members : IdSet) : Prop where
  /-- No member is a union. -/
  flat : ∀ id ∈ members, registry.members? id = none
  /-- No member is alone. -/
  notAlone : ∀ id, members ≠ .singleton id
  /-- Objects without anything else are one object. -/
  objects : (∀ id ∈ members, id ≠ .null → (registry.fields? id).isSome) → OneSolid members
  /-- Lists without anything else are one list. -/
  lists : (∀ id ∈ members, id ≠ .null → (registry.elements? id).isSome) → OneSolid members

theorem NormalUnion.empty_or_several {members : IdSet} (normal : registry.NormalUnion members) :
    members.toList = [] ∨ 2 ≤ members.toList.length := by
  rcases listed : members.toList with _ | ⟨first, _ | ⟨second, rest⟩⟩
  · exact .inl rfl
  · refine absurd (IdSet.eq_of_mem_iff fun other => ?_) (normal.notAlone first)
    rw [← IdSet.mem_toList, ← IdSet.mem_toList, listed]
    rfl
  · exact .inr (by simp)

/-- A shape as observing and merging leave it. -/
def NormalShape (registry : Registry) : Shape → Prop
  | .object _ => True
  | .list elements => ∃ element, elements = .singleton element
  | .union members => registry.NormalUnion members

/-- Every shape that is kept is normal. -/
def Normal (registry : Registry) : Prop :=
  ∀ id shape, registry.shape? id = some shape → registry.NormalShape shape

theorem Normal.singleton (normal : registry.Normal) {elements : IdSet}
    (found : registry.elements? id = some elements) : ∃ element, elements = .singleton element :=
  normal id _ (elements?_eq_some_iff.mp found)

theorem Normal.union (normal : registry.Normal) {members : IdSet}
    (found : registry.members? id = some members) : registry.NormalUnion members :=
  normal id _ (members?_eq_some_iff.mp found)

theorem normal_empty : (∅ : Registry).Normal := by
  intro id shape found
  cases (shape?_empty id).symm.trans found

theorem ne_primitive_of_shape? {kind : Primitive} (found : registry.shape? id = some shape) :
    id ≠ .primitive kind := by
  rintro rfl
  cases found

/-- The form depends on what the children are. -/
theorem NormalShape.congr (normal : registry.NormalShape shape)
    (same : ∀ child ∈ shape.children, later.shape? child = registry.shape? child) :
    later.NormalShape shape := by
  cases shape with
  | object fields => trivial
  | list elements => exact normal
  | union members =>
    have same : ∀ id ∈ members, later.shape? id = registry.shape? id := same
    refine ⟨fun id member => ?_, normal.notAlone, fun all => ?_, fun all => ?_⟩
    · rw [members?_congr (same id member)]
      exact normal.flat id member
    · refine normal.objects fun id member solid => ?_
      rw [← fields?_congr (same id member)]
      exact all id member solid
    · refine normal.lists fun id member solid => ?_
      rw [← elements?_congr (same id member)]
      exact all id member solid

/-- A normal shape may be interned. -/
theorem Normal.intern (normal : registry.Normal) (sound : registry.Sound)
    (isNormal : (registry.intern shape).2.NormalShape shape) :
    (registry.intern shape).2.Normal := by
  intro id kept found
  obtain ⟨index, rfl, slot⟩ := shape?_eq_some_iff.mp found
  rcases shapeAt?_intern_cases slot with old | ⟨_, rfl⟩
  · have before : registry.shape? (.node index) = some kept := old
    refine (normal _ kept before).congr fun child member => ?_
    exact (grows_intern shape registry).shape?_eq (sound.child before member).1
  · exact isNormal

/-- **Dropping shapes keeps the others normal.** -/
theorem Normal.prune (normal : registry.Normal) (sound : registry.Sound) (roots : List ShapeId) :
    (registry.prune roots).Normal := by
  intro id shape found
  refine (normal id shape ((within_prune roots registry).shape? found)).congr fun child member => ?_
  exact shape?_prune_of_holds ((sound.prune roots).child found member).1

/-! ### Merging -/

theorem normalUnion_empty : registry.NormalUnion ∅ where
  flat id member := absurd member List.not_mem_nil
  notAlone id same := by
    have none : id ∉ (∅ : IdSet) := List.not_mem_nil
    rw [same] at none
    exact none (List.mem_singleton_self id)
  objects _ first member := absurd member List.not_mem_nil
  lists _ first member := absurd member List.not_mem_nil

/-- What is no union becomes nullable in a normal union. -/
theorem normalUnion_nullable (solid : id ≠ .null) (notUnion : registry.members? id = none) :
    registry.NormalUnion (.ofList [id, .null]) := by
  have cases_of_mem : ∀ other ∈ IdSet.ofList [id, .null], other = id ∨ other = .null := by simp
  have one : OneSolid (.ofList [id, .null]) := by
    intro first member second member' notNull notNull'
    rw [(cases_of_mem first member).resolve_right notNull,
      (cases_of_mem second member').resolve_right notNull']
  refine ⟨fun other member => ?_, fun other same => ?_, fun _ => one, fun _ => one⟩
  · rcases cases_of_mem other member with rfl | rfl
    · exact notUnion
    · rfl
  · have only : ∀ part ∈ IdSet.ofList [id, .null], part = other := by
      rw [same]
      exact fun part member => List.mem_singleton.mp member
    exact solid ((only id (by simp)).trans (only .null (by simp)).symm)

/-- Among several flat candidates there is no union. -/
theorem members?_of_mem_flatten (normal : registry.Normal)
    (several : 2 ≤ (registry.flatten candidates).length)
    (member : id ∈ registry.flatten candidates) : registry.members? id = none := by
  unfold flatten at several member
  split at several
  · exact absurd several (by simp)
  · next notAlone =>
    split at member
    · next only alone => exact absurd alone (notAlone only)
    · rw [List.mem_eraseDups, List.mem_flatMap] at member
      obtain ⟨candidate, _, inside⟩ := member
      unfold alternatives at inside
      split at inside
      · next members found => exact (normal.union found).flat id inside
      · next notUnion => rwa [List.mem_singleton.mp inside]

/-- Several flat candidates of different kinds make a normal union. -/
theorem normalUnion_flatten (normal : registry.Normal)
    (several : 2 ≤ (registry.flatten candidates).length)
    (notObjects : ((registry.flatten candidates).filter (· ≠ .null)).mapM registry.fields? = none)
    (notLists : ((registry.flatten candidates).filter (· ≠ .null)).mapM registry.elements? =
      none) :
    registry.NormalUnion (.ofList (registry.flatten candidates)) := by
  refine ⟨fun id member => members?_of_mem_flatten normal several (IdSet.mem_ofList.mp member),
    fun id same => ?_, fun all => ?_, fun all => ?_⟩
  · obtain ⟨other, member, apart⟩ := Lists.exists_ne_of_nodup (nodup_flatten _ _) several id
    have inside := IdSet.mem_ofList.mpr member
    rw [same] at inside
    exact apart (List.mem_singleton.mp inside)
  · obtain ⟨objects, some⟩ := Lists.exists_mapM_eq_some fun id member =>
      have ⟨inside, solid⟩ := List.mem_filter.mp member
      all id (IdSet.mem_ofList.mpr inside) (of_decide_eq_true solid)
    cases notObjects.symm.trans some
  · obtain ⟨lists, some⟩ := Lists.exists_mapM_eq_some fun id member =>
      have ⟨inside, solid⟩ := List.mem_filter.mp member
      all id (IdSet.mem_ofList.mpr inside) (of_decide_eq_true solid)
    cases notLists.symm.trans some

/-- The merger keeps a registry normal when it merges candidates that are kept below `level`. -/
def NormalizesBelow (level : Nat) (merger : Merger) : Prop :=
  ∀ candidates registry, registry.Sound → registry.Normal → registry.HoldsBelow level candidates →
    (merger candidates registry).2.Normal

/-- What is no union may be made nullable. -/
theorem orNull_normal (ids : List ShapeId) {merged : ShapeId × Registry} (sound : merged.2.Sound)
    (normal : merged.2.Normal) (found : merged.2.shape? merged.1 = some shape)
    (notUnion : shape.members? = none) : (orNull ids merged).2.Normal := by
  unfold orNull
  split
  · refine normal.intern sound (normalUnion_nullable (ne_primitive_of_shape? found) ?_)
    unfold members?
    rw [(grows_intern _ merged.2).within.shape? found]
    exact notUnion
  · exact normal

section Step

variable {level : Nat} {deeper : Merger} (merges : MergesBelow level deeper)
  (normalizes : NormalizesBelow level deeper) (sound : registry.Sound) (normal : registry.Normal)
include merges normalizes sound normal

theorem mergeObjects_normal {objects : List (Table String Field)}
    (held : ∀ raw, registry.HoldsBelow level (shapesUnder objects raw)) :
    (mergeObjects deeper objects registry).2.Normal := by
  rw [mergeObjects_eq]
  -- Each merge starts in the registry that the merges before it have left, which is normal.
  have one : ∀ entry ∈ (Evidence.gather objects).entries, ∀ between, registry.Grows between →
      between.Sound ∧ between.Normal →
        ((settle deeper objects.length entry.2 between).2.Sound ∧
          (settle deeper objects.length entry.2 between).2.Normal) ∧
          between.Grows (settle deeper objects.length entry.2 between).2 ∧ True := by
    rintro ⟨raw, evidence⟩ member between grows ⟨sound, normal⟩
    have held := (holdsBelow_of_gather held (Table.get?_eq_some_iff.mpr member)).grow grows
    have merged := merges evidence.shapes between sound held
    exact ⟨⟨merged.sound, normalizes evidence.shapes between sound normal held⟩, merged.grows,
      trivial⟩
  obtain ⟨⟨soundLater, normalLater⟩, _⟩ :=
    Table.forall₂_threadEntries Grows.refl (fun _ _ _ => Grows.trans)
      (fun _ _ _ _ _ _ _ => trivial) _ registry ⟨sound, normal⟩ one
  exact normalLater.intern soundLater trivial

theorem mergeLists_normal {lists : List IdSet}
    (held : registry.HoldsBelow level (lists.flatMap IdSet.toList)) :
    (mergeLists deeper lists registry).2.Normal := by
  have held : registry.HoldsBelow level (lists.flatMap IdSet.toList).eraseDups :=
    fun id member => held id (List.mem_eraseDups.mp member)
  have merged := merges _ registry sound held
  exact (normalizes _ registry sound normal held).intern merged.sound ⟨_, rfl⟩

end Step

/-- **One step down keeps every shape normal.** -/
theorem mergeStep_normalizes {level : Nat} {deeper : Merger} (merges : MergesBelow level deeper)
    (normalizes : NormalizesBelow level deeper) :
    NormalizesBelow (level + 1) (mergeStep deeper) := by
  intro candidates registry sound normal held
  have heldFlat := held.flatten sound
  cases registry.kinds candidates with
  | nothing flat =>
    rw [mergeStep_of_nil flat]
    exact normal.intern sound normalUnion_empty
  | alone flat =>
    rw [mergeStep_of_singleton flat]
    exact normal
  | @objects objects several all =>
    rw [mergeStep_of_objects several all]
    have heldUnder := heldFlat.shapesUnder sound all
    have keyed : ∀ object ∈ objects, Shape.Keyed object := by
      intro object member
      obtain ⟨id, _, found⟩ := exists_fields?_of_mem all member
      exact sound.keyed found
    obtain ⟨safe, fields, found, _⟩ := mergeObjects_joins merges sound heldUnder keyed
    exact orNull_normal _ safe.sound
      (mergeObjects_normal merges normalizes sound normal heldUnder)
      (fields?_eq_some_iff.mp found) rfl
  | lists several all =>
    rw [mergeStep_of_lists several all]
    have heldElements := heldFlat.elements sound all
    obtain ⟨safe, element, found, _⟩ := mergeLists_joins merges sound heldElements
    exact orNull_normal _ safe.sound
      (mergeLists_normal merges normalizes sound normal heldElements)
      (elements?_eq_some_iff.mp found) rfl
  | mixed several notObjects notLists =>
    rw [mergeStep_of_mix several notObjects notLists]
    have isNormal : registry.NormalShape (.union (.ofList (registry.flatten candidates))) :=
      normalUnion_flatten normal several notObjects notLists
    refine normal.intern sound (isNormal.congr fun child member => ?_)
    exact (grows_intern _ registry).shape?_eq (heldFlat child (IdSet.mem_ofList.mp member)).1

theorem normalizesBelow_mergeBelow (level : Nat) : NormalizesBelow level (mergeBelow level) := by
  induction level with
  | zero =>
    intro candidates registry sound normal held
    have nothing : candidates = [] :=
      List.eq_nil_iff_forall_not_mem.mpr fun candidate member =>
        Nat.not_lt_zero _ (held candidate member).2
    subst nothing
    exact normal.intern sound normalUnion_empty
  | succ level step => exact mergeStep_normalizes (mergesBelow_mergeBelow level) step

/-- **Merging keeps every shape normal.** -/
theorem merge_normal (sound : registry.Sound) (normal : registry.Normal)
    (held : ∀ candidate ∈ candidates, registry.Holds candidate) :
    (registry.merge candidates).2.Normal :=
  normalizesBelow_mergeBelow _ candidates registry sound normal fun candidate member =>
    ⟨held candidate member, Nat.lt_succ_of_le (ceiling_le_of_mem member)⟩

end SampleShapes.Registry
