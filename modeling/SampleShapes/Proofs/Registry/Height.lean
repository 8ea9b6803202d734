/-
**How high shapes are.**

A shape is as high as the objects and lists that stand on top of each other in it. Unions do not
count, because merging takes their members out of them. A join is then no higher than what it joins,
so that merging never leads to a shape that is higher than every shape it started from.

* `NoHigher.mono`, `noHigher_ceiling`: a bound may be raised, and the index of a node is one;
* `noHigher_grow_iff`: the height of a shape does not change while the registry grows;
* `noHigher_of_object`, `noHigher_of_list`: what stands in a shape is less high;
* `Joins.noHigher`: **a join is no higher than its candidates**;
* `exists_least_height`: an object is one level higher than the highest of its fields.
-/

import Mathlib.Data.Nat.Find
import SampleShapes.Proofs.Registry.Joins

namespace SampleShapes.Registry

variable {registry later : Registry} {id joined : ShapeId} {candidates : List ShapeId}
  {limit : Nat}

/-- The shape is at most `limit` objects and lists high. -/
inductive NoHigher (registry : Registry) : Nat → ShapeId → Prop where
  /-- What is no node is not high at all. -/
  | flat {limit : Nat} {id : ShapeId} (found : registry.shape? id = none) :
    NoHigher registry limit id
  /-- An object is one level higher than its fields. -/
  | object {limit : Nat} {id : ShapeId} {fields : Table String Field}
      (found : registry.fields? id = some fields)
      (each : ∀ raw field, fields.get? raw = some field → NoHigher registry limit field.shape) :
      NoHigher registry (limit + 1) id
  /-- A list is one level higher than its elements. -/
  | list {limit : Nat} {id : ShapeId} {elements : IdSet}
      (found : registry.elements? id = some elements)
      (each : ∀ element ∈ elements, NoHigher registry limit element) :
      NoHigher registry (limit + 1) id
  /-- A union is as high as its members. -/
  | union {limit : Nat} {id : ShapeId} {members : IdSet}
      (found : registry.members? id = some members)
      (each : ∀ member ∈ members, NoHigher registry limit member) :
      NoHigher registry limit id

namespace NoHigher

theorem mono {more : Nat} (high : registry.NoHigher limit id) (raised : limit ≤ more) :
    registry.NoHigher more id := by
  induction high generalizing more with
  | flat found => exact .flat found
  | object found each step =>
    obtain ⟨more, rfl⟩ := Nat.exists_eq_succ_of_ne_zero (Nat.ne_zero_of_lt raised)
    exact .object found fun raw field under => step raw field under (Nat.le_of_succ_le_succ raised)
  | list found each step =>
    obtain ⟨more, rfl⟩ := Nat.exists_eq_succ_of_ne_zero (Nat.ne_zero_of_lt raised)
    exact .list found fun element member => step element member (Nat.le_of_succ_le_succ raised)
  | union found each step => exact .union found fun member inside => step member inside raised

theorem null (registry : Registry) (limit : Nat) : registry.NoHigher limit .null := .flat rfl

/-- What stands in an object is less high. -/
theorem of_object (high : registry.NoHigher limit id) {fields : Table String Field}
    (found : registry.fields? id = some fields) :
    ∃ less, limit = less + 1 ∧
      ∀ raw field, fields.get? raw = some field → registry.NoHigher less field.shape := by
  have shape := fields?_eq_some_iff.mp found
  cases high with
  | flat found' => cases found'.symm.trans shape
  | object found' each =>
    obtain rfl := Option.some.inj (found'.symm.trans found)
    exact ⟨_, rfl, each⟩
  | list found' => cases (elements?_eq_some_iff.mp found').symm.trans shape
  | union found' => cases (members?_eq_some_iff.mp found').symm.trans shape

/-- What stands in a list is less high. -/
theorem of_list (high : registry.NoHigher limit id) {elements : IdSet}
    (found : registry.elements? id = some elements) :
    ∃ less, limit = less + 1 ∧ ∀ element ∈ elements, registry.NoHigher less element := by
  have shape := elements?_eq_some_iff.mp found
  cases high with
  | flat found' => cases found'.symm.trans shape
  | object found' => cases (fields?_eq_some_iff.mp found').symm.trans shape
  | list found' each =>
    obtain rfl := Option.some.inj (found'.symm.trans found)
    exact ⟨_, rfl, each⟩
  | union found' => cases (members?_eq_some_iff.mp found').symm.trans shape

/-- What stands in a union is no higher. -/
theorem of_union (high : registry.NoHigher limit id) {members : IdSet}
    (found : registry.members? id = some members) :
    ∀ member ∈ members, registry.NoHigher limit member := by
  have shape := members?_eq_some_iff.mp found
  cases high with
  | flat found' => cases found'.symm.trans shape
  | object found' => cases (fields?_eq_some_iff.mp found').symm.trans shape
  | list found' => cases (elements?_eq_some_iff.mp found').symm.trans shape
  | union found' each =>
    obtain rfl := Option.some.inj (found'.symm.trans found)
    exact each

/-- What a shape points at is no higher. -/
theorem child (high : registry.NoHigher limit id) {shape : Shape}
    (found : registry.shape? id = some shape) {child : ShapeId} (member : child ∈ shape.children) :
    registry.NoHigher limit child := by
  cases shape with
  | object fields =>
    obtain ⟨field, inside, rfl⟩ := List.mem_map.mp member
    obtain ⟨raw, under⟩ := Table.mem_values_iff.mp inside
    obtain ⟨less, rfl, each⟩ := high.of_object (fields?_eq_some_iff.mpr found)
    exact (each raw field under).mono (Nat.le_succ less)
  | list elements =>
    obtain ⟨less, rfl, each⟩ := high.of_list (elements?_eq_some_iff.mpr found)
    exact (each child member).mono (Nat.le_succ less)
  | union members => exact high.of_union (members?_eq_some_iff.mpr found) child member

end NoHigher

/-- **The index of a node bounds its height,** because children lie further down. -/
theorem Sound.noHigher_ceiling (sound : registry.Sound) (id : ShapeId) :
    registry.NoHigher id.ceiling id := by
  obtain ⟨level, enough⟩ : ∃ level, id.ceiling ≤ level := ⟨_, Nat.le_refl _⟩
  induction level generalizing id with
  | zero =>
    cases id with
    | node index => exact absurd enough (Nat.not_succ_le_zero index)
    | primitive kind => exact .flat rfl
    | date => exact .flat rfl
  | succ level step =>
    cases found : registry.shape? id with
    | none => exact .flat found
    | some shape =>
      obtain ⟨index, rfl, kept⟩ := shape?_eq_some_iff.mp found
      -- Children lie further down, and so does their height.
      have below : ∀ child ∈ shape.children, registry.NoHigher index child := by
        intro child member
        have lower := sound.descends index shape kept child member
        have room : index + 1 ≤ level + 1 := enough
        exact (step child (by omega)).mono lower
      cases shape with
      | object fields =>
        refine .object (fields?_eq_some_iff.mpr found) fun raw field under => below _ ?_
        exact List.mem_map_of_mem (Table.mem_values_iff.mpr ⟨raw, under⟩)
      | list elements => exact .list (elements?_eq_some_iff.mpr found) below
      | union members =>
        exact (NoHigher.union (members?_eq_some_iff.mpr found) below).mono (Nat.le_succ index)

/-- **The height of a shape does not change** while the registry grows. -/
theorem noHigher_grow_iff (sound : registry.Sound) (grows : registry.Grows later)
    (held : registry.Holds id) : later.NoHigher limit id ↔ registry.NoHigher limit id := by
  constructor
  · intro high
    induction high with
    | flat found => exact .flat ((grows.shape?_eq held).symm.trans found)
    | object found each step =>
      have found := (grows.fields?_eq held).symm.trans found
      exact .object found fun raw field under => step raw field under (sound.field found under).1
    | list found each step =>
      have found := (grows.elements?_eq held).symm.trans found
      exact .list found fun element member => step element member (sound.element found member).1
    | union found each step =>
      have found := (grows.members?_eq held).symm.trans found
      exact .union found fun member inside => step member inside (sound.member found inside).1
  · intro high
    induction high with
    | flat found => exact .flat ((grows.shape?_eq held).trans found)
    | object found each step =>
      exact .object (grows.within.fields? found) fun raw field under =>
        step raw field under (sound.field found under).1
    | list found each step =>
      exact .list (grows.within.elements? found) fun element member =>
        step element member (sound.element found member).1
    | union found each step =>
      exact .union (grows.within.members? found) fun member inside =>
        step member inside (sound.member found inside).1

/-! ### Joins -/

/-- Flat candidates are no higher than the candidates. -/
theorem noHigher_flatten (high : ∀ candidate ∈ candidates, registry.NoHigher limit candidate) :
    ∀ id ∈ registry.flatten candidates, registry.NoHigher limit id := by
  intro id member
  rcases mem_candidates_of_mem_flatten member with inside | ⟨union, inside, members, found, part⟩
  · exact high id inside
  · exact (high union inside).of_union found id part

/-- What is made nullable is as high as it is without null. -/
theorem IsNullable.noHigher_iff {ids : List ShapeId} {solid : ShapeId}
    (nullable : registry.IsNullable ids solid joined) :
    registry.NoHigher limit joined ↔ registry.NoHigher limit solid := by
  unfold IsNullable at nullable
  split at nullable
  · constructor
    · exact fun high => high.of_union nullable solid (IdSet.mem_ofList.mpr List.mem_cons_self)
    · refine fun high => .union nullable fun member inside => ?_
      rcases List.mem_cons.mp (IdSet.mem_ofList.mp inside) with rfl | isNull
      · exact high
      · rw [List.mem_singleton.mp isNull]
        exact .null registry limit
  · rw [nullable]

/-- One of several flat candidates is not null. -/
theorem exists_solid (several : 2 ≤ (registry.flatten candidates).length) :
    ∃ id ∈ registry.flatten candidates, id ∈ (registry.flatten candidates).filter (· ≠ .null) := by
  obtain ⟨id, member, notNull⟩ := Lists.exists_ne_of_nodup (nodup_flatten _ _) several .null
  exact ⟨id, member, List.mem_filter.mpr ⟨member, decide_eq_true notNull⟩⟩

/-- What objects have under a raw key is less high than they are. -/
theorem noHigher_shapesUnder (several : 2 ≤ (registry.flatten candidates).length)
    (high : ∀ candidate ∈ candidates, registry.NoHigher limit candidate)
    {objects : List (Table String Field)}
    (all : ((registry.flatten candidates).filter (· ≠ .null)).mapM registry.fields? =
      some objects) :
    ∃ less, limit = less + 1 ∧
      ∀ raw, ∀ id ∈ shapesUnder objects raw, registry.NoHigher less id := by
  have flat := noHigher_flatten high
  obtain ⟨first, member, solid⟩ := exists_solid several
  obtain ⟨object, _, found⟩ := Lists.exists_mem_of_mapM all solid
  obtain ⟨less, rfl, _⟩ := (flat first member).of_object found
  refine ⟨less, rfl, fun raw id inside => ?_⟩
  obtain ⟨object, among, field, under, rfl⟩ := mem_shapesUnder_iff.mp inside
  obtain ⟨holder, listed, found⟩ := exists_fields?_of_mem all among
  obtain ⟨_, same, each⟩ := (flat holder listed).of_object found
  obtain rfl := Nat.succ.inj same
  exact each raw field under

/-- The elements of lists are less high than they are. -/
theorem noHigher_elements (several : 2 ≤ (registry.flatten candidates).length)
    (high : ∀ candidate ∈ candidates, registry.NoHigher limit candidate) {lists : List IdSet}
    (all : ((registry.flatten candidates).filter (· ≠ .null)).mapM registry.elements? =
      some lists) :
    ∃ less, limit = less + 1 ∧
      ∀ id ∈ lists.flatMap IdSet.toList, registry.NoHigher less id := by
  have flat := noHigher_flatten high
  obtain ⟨first, member, solid⟩ := exists_solid several
  obtain ⟨list, _, found⟩ := Lists.exists_mem_of_mapM all solid
  obtain ⟨less, rfl, _⟩ := (flat first member).of_list found
  refine ⟨less, rfl, fun id inside => ?_⟩
  obtain ⟨list, among, element⟩ := List.mem_flatMap.mp inside
  obtain ⟨holder, listed, found⟩ := exists_elements?_of_mem all among
  obtain ⟨_, same, each⟩ := (flat holder listed).of_list found
  obtain rfl := Nat.succ.inj same
  exact each id element

/-- **A join is no higher than its candidates.** -/
theorem Joins.noHigher (joins : registry.Joins candidates joined)
    (high : ∀ candidate ∈ candidates, registry.NoHigher limit candidate) :
    registry.NoHigher limit joined := by
  induction joins generalizing limit with
  | nothing _ found => exact .union found fun member inside => absurd inside List.not_mem_nil
  | alone flat =>
    refine noHigher_flatten high _ ?_
    rw [flat]
    exact List.mem_singleton_self _
  | objects several all found _ _ nullable step =>
    obtain ⟨less, rfl, under⟩ := noHigher_shapesUnder several high all
    rw [nullable.noHigher_iff]
    exact .object found fun raw field here => step raw field here (under raw)
  | lists several all found _ nullable step =>
    obtain ⟨less, rfl, under⟩ := noHigher_elements several high all
    rw [nullable.noHigher_iff]
    refine .list found fun element member => ?_
    rw [List.mem_singleton.mp member]
    exact step under
  | mixed _ _ _ found =>
    exact .union found fun member inside =>
      noHigher_flatten high member (IdSet.mem_ofList.mp inside)

/-! ### Objects -/

/-- **An object is one level higher than the highest of its fields.** -/
theorem Sound.exists_least_height (sound : registry.Sound) {fields : Table String Field}
    (found : registry.fields? id = some fields) :
    ∃ limit, registry.NoHigher (limit + 1) id ∧ ¬ registry.NoHigher limit id := by
  have some : ∃ limit, ∀ raw field, fields.get? raw = some field →
      registry.NoHigher limit field.shape :=
    ⟨id.ceiling, fun raw field under =>
      (sound.noHigher_ceiling field.shape).mono (Nat.le_of_lt (sound.field found under).2)⟩
  classical
  refine ⟨Nat.find some, .object found (Nat.find_spec some), fun high => ?_⟩
  obtain ⟨less, same, each⟩ := high.of_object found
  exact Nat.find_min some (same ▸ Nat.lt_succ_self less) each

end SampleShapes.Registry
