/-
**Values that differ in their scalars.**

Scalars of one kind are interchangeable, and among the elements of an array it does not matter where
they stand and how often. Two values differ in no more than this if arrays have their containers in
the same order and scalars of the same kinds, and objects have the same members.

* `Interchanged.refl`: a value differs in nothing from itself;
* `Interchanged.coarsen`: scalars of one kind stay so where dates are not told from other texts;
* `eq_nil_iff_of_interchanged`: the one array is empty exactly if the other is;
* `Interchanged.refusedRoot?_eq`: **the one is a sample exactly if the other is.**
-/

import SampleShapes.Observer
import SampleShapes.Proofs.Json.Objects

namespace SampleShapes.Json

/-- The value has no structure. -/
def isScalar : Json → Bool
  | array _ => false
  | object _ => false
  | _ => true

/-- The values with structure, in order. -/
def containers (elements : List Json) : List Json := elements.filter (!·.isScalar)

/-- The kinds of the values without structure. -/
def kinds (detectDates : Bool) (elements : List Json) : List ShapeId :=
  (elements.filter isScalar).map (scalarId detectDates)

mutual

/-- The values differ in nothing but scalars of one kind and, among the elements of arrays, in where
these stand and how often. -/
inductive Interchanged (detectDates : Bool) : Json → Json → Prop where
  /-- Scalars of one kind are interchangeable. -/
  | scalar {value other : Json} (scalar : value.isScalar = true) (scalar' : other.isScalar = true)
      (same : value.scalarId detectDates = other.scalarId detectDates) :
      Interchanged detectDates value other
  /-- Containers keep their order among the elements of an array, and the kinds of scalars are the
  same. -/
  | array {elements others : List Json}
      (inside : List.Forall₂ (Interchanged detectDates) (containers elements) (containers others))
      (same : ∀ id, id ∈ kinds detectDates elements ↔ id ∈ kinds detectDates others) :
      Interchanged detectDates (.array elements) (.array others)
  /-- Objects have the same keys in the same order. -/
  | object {members others : List (String × Json)}
      (inside : List.Forall₂ (InterchangedMember detectDates) members others) :
      Interchanged detectDates (.object members) (.object others)

/-- The members have the same key, and their values differ in scalars only. -/
inductive InterchangedMember (detectDates : Bool) : String × Json → String × Json → Prop where
  /-- The key stays. -/
  | under {raw : String} {value other : Json} (inside : Interchanged detectDates value other) :
      InterchangedMember detectDates (raw, value) (raw, other)

end

variable {detectDates : Bool} {value other element : Json} {elements others : List Json}
  {id : ShapeId}

/-! ### Elements -/

theorem mem_containers_iff :
    element ∈ containers elements ↔ element ∈ elements ∧ element.isScalar = false := by
  rw [containers, List.mem_filter, Bool.not_eq_true']

theorem mem_kinds_iff :
    id ∈ kinds detectDates elements ↔
      ∃ element ∈ elements, element.isScalar = true ∧ element.scalarId detectDates = id := by
  simp only [kinds, List.mem_map, List.mem_filter, and_assoc]

theorem containers_cons_of_isScalar (scalar : element.isScalar = true) (rest : List Json) :
    containers (element :: rest) = containers rest :=
  List.filter_cons_of_neg (by rw [scalar]; decide)

theorem containers_cons_of_not_isScalar (container : element.isScalar = false)
    (rest : List Json) : containers (element :: rest) = element :: containers rest :=
  List.filter_cons_of_pos (by rw [container]; decide)

theorem kinds_cons_of_isScalar (scalar : element.isScalar = true) (rest : List Json) :
    kinds detectDates (element :: rest) =
      element.scalarId detectDates :: kinds detectDates rest := by
  rw [kinds, List.filter_cons_of_pos scalar, List.map_cons, kinds]

theorem kinds_cons_of_not_isScalar (container : element.isScalar = false) (rest : List Json) :
    kinds detectDates (element :: rest) = kinds detectDates rest := by
  rw [kinds, List.filter_cons_of_neg (by rw [container]; decide), kinds]

/-- An array is empty if it has neither containers nor scalars. -/
theorem eq_nil_iff (detectDates : Bool) (elements : List Json) :
    elements = [] ↔ containers elements = [] ∧ ∀ id, id ∉ kinds detectDates elements := by
  constructor
  · rintro rfl
    exact ⟨rfl, fun id => List.not_mem_nil⟩
  · rintro ⟨noContainer, noScalar⟩
    refine List.eq_nil_iff_forall_not_mem.mpr fun element listed => ?_
    cases scalar : element.isScalar with
    | true => exact noScalar _ (mem_kinds_iff.mpr ⟨element, listed, scalar, rfl⟩)
    | false =>
      have inside := mem_containers_iff.mpr ⟨listed, scalar⟩
      rw [noContainer] at inside
      exact List.not_mem_nil inside

section Arrays

variable
  (inside : List.Forall₂ (Interchanged detectDates) (containers elements) (containers others))
  (same : ∀ id, id ∈ kinds detectDates elements ↔ id ∈ kinds detectDates others)
include inside same

theorem eq_nil_iff_of_interchanged : elements = [] ↔ others = [] := by
  have lengths : containers elements = [] ↔ containers others = [] := by
    rw [← List.length_eq_zero_iff, ← List.length_eq_zero_iff, inside.length_eq]
  rw [eq_nil_iff detectDates elements, eq_nil_iff detectDates others, lengths]
  simp only [same]

end Arrays

/-- Arrays of objects only have no scalars, and their containers are objects. -/
theorem all_isObject_iff (detectDates : Bool) (elements : List Json) :
    elements.all isObject ↔
      (∀ id, id ∉ kinds detectDates elements) ∧
        ∀ element ∈ containers elements, element.isObject := by
  rw [List.all_eq_true]
  constructor
  · intro objects
    refine ⟨fun id member => ?_, fun element inside =>
      objects element (mem_containers_iff.mp inside).1⟩
    obtain ⟨element, listed, scalar, _⟩ := mem_kinds_iff.mp member
    have object := objects element listed
    cases element <;> simp [isScalar, isObject] at scalar object
  · rintro ⟨noScalar, objects⟩ element listed
    cases scalar : element.isScalar with
    | true => exact absurd (mem_kinds_iff.mpr ⟨element, listed, scalar, rfl⟩) (noScalar _)
    | false => exact objects element (mem_containers_iff.mpr ⟨listed, scalar⟩)

/-! ### Kinds -/

/-- Why a scalar of a kind is no sample. -/
def refusal : ShapeId → RefusedRoot
  | .primitive .null => .null
  | .primitive .boolean => .boolean
  | .primitive .number => .number
  | _ => .string

theorem refusedRoot?_of_isScalar (detectDates : Bool) (scalar : value.isScalar = true) :
    refusedRoot? value = some (refusal (value.scalarId detectDates)) := by
  cases value with
  | string text =>
    unfold scalarId
    split <;> rfl
  | null => rfl
  | bool value => rfl
  | number literal => rfl
  | array elements => cases scalar
  | object members => cases scalar

/-- The kind of a text, be it a date or not. -/
def undated : ShapeId → ShapeId
  | .date => .primitive .string
  | id => id

theorem scalarId_false (detectDates : Bool) (scalar : value.isScalar = true) :
    value.scalarId false = undated (value.scalarId detectDates) := by
  cases value with
  | string text =>
    have plain : scalarId false (string text) = .primitive .string := rfl
    rw [plain, scalarId]
    split <;> rfl
  | null => rfl
  | bool value => rfl
  | number literal => rfl
  | array elements => cases scalar
  | object members => cases scalar

theorem mem_kinds_false_iff (detectDates : Bool) :
    id ∈ kinds false elements ↔ ∃ kind ∈ kinds detectDates elements, undated kind = id := by
  constructor
  · intro member
    obtain ⟨element, listed, scalar, rfl⟩ := mem_kinds_iff.mp member
    exact ⟨_, mem_kinds_iff.mpr ⟨element, listed, scalar, rfl⟩,
      (scalarId_false detectDates scalar).symm⟩
  · rintro ⟨kind, member, rfl⟩
    obtain ⟨element, listed, scalar, rfl⟩ := mem_kinds_iff.mp member
    exact mem_kinds_iff.mpr ⟨element, listed, scalar, scalarId_false detectDates scalar⟩

namespace Interchanged

/-! ### What is kept -/

/-- A value differs in nothing from itself. -/
theorem refl (detectDates : Bool) (value : Json) : Interchanged detectDates value value := by
  induction value using induct with
  | step value parts =>
    cases value with
    | array elements =>
      refine .array (List.forall₂_same.mpr fun element listed => ?_) fun _ => Iff.rfl
      exact parts element (mem_containers_iff.mp listed).1
    | object members =>
      refine .object (List.forall₂_same.mpr fun member listed => ?_)
      exact .under (parts member.2 (parts_inside listed))
    | _ => exact .scalar rfl rfl rfl

/-- **Scalars of one kind stay so where dates are not told from other texts.** -/
theorem coarsen {coarse : Bool} (finer : coarse = true → detectDates = true)
    (interchanged : Interchanged detectDates value other) : Interchanged coarse value other := by
  cases coarse with
  | true => rwa [finer rfl] at interchanged
  | false =>
    induction value using induct generalizing other with
    | step value parts =>
      cases interchanged with
      | scalar scalar scalar' same =>
        refine .scalar scalar scalar' ?_
        rw [scalarId_false detectDates scalar, same, scalarId_false detectDates scalar']
      | array inside same =>
        refine .array ?_ fun id => ?_
        · have both := (List.forall₂_and_left _ _).mpr ⟨fun element listed => listed, inside⟩
          exact both.imp fun element other ⟨listed, interchanged⟩ =>
            parts element (mem_containers_iff.mp listed).1 interchanged
        · rw [mem_kinds_false_iff detectDates, mem_kinds_false_iff detectDates]
          simp only [same]
      | object inside =>
        have both := (List.forall₂_and_left _ _).mpr ⟨fun member listed => listed, inside⟩
        refine .object (both.imp fun member other ⟨listed, interchanged⟩ => ?_)
        cases interchanged with
        | under inside => exact .under (parts _ (parts_inside listed) inside)

theorem isObject_eq (interchanged : Interchanged detectDates value other) :
    value.isObject = other.isObject := by
  cases interchanged with
  | array => rfl
  | object => rfl
  | scalar scalar scalar' =>
    have notObject : ∀ value : Json, value.isScalar = true → value.isObject = false := by
      intro value scalar
      cases value <;> first | rfl | cases scalar
    rw [notObject value scalar, notObject other scalar']

/-- **The one is a sample exactly if the other is,** and refused for the same reason otherwise. -/
theorem refusedRoot?_eq (interchanged : Interchanged detectDates value other) :
    refusedRoot? value = refusedRoot? other := by
  cases interchanged with
  | scalar scalar scalar' same =>
    rw [refusedRoot?_of_isScalar detectDates scalar, refusedRoot?_of_isScalar detectDates scalar',
      same]
  | object => rfl
  | @array elements others inside same =>
    have empty := eq_nil_iff_of_interchanged inside same
    have containers : (∀ element ∈ containers elements, element.isObject) ↔
        ∀ other ∈ containers others, other.isObject := by
      constructor
      · intro objects other listed
        obtain ⟨element, among, interchanged⟩ := Lists.exists_mem_of_forall₂_right inside listed
        rw [← interchanged.isObject_eq]
        exact objects element among
      · intro objects element listed
        obtain ⟨other, among, interchanged⟩ := Lists.exists_mem_of_forall₂ inside listed
        rw [interchanged.isObject_eq]
        exact objects other among
    have objects : elements.all isObject = others.all isObject := by
      rw [Bool.eq_iff_iff, all_isObject_iff detectDates, all_isObject_iff detectDates, containers]
      simp only [same]
    match elements, others with
    | [], [] => rfl
    | [], first :: rest => cases empty.mp rfl
    | first :: rest, [] => cases empty.mpr rfl
    | first :: rest, first' :: rest' =>
      show (if _ then _ else _) = (if _ then _ else _)
      rw [objects]

end Interchanged

end SampleShapes.Json
