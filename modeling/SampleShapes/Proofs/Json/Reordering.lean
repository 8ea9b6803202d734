/-
**Values in another order.**

Two values are the same up to order if they differ in nothing but the order of the elements of
arrays and of the members of objects, at any depth.

* `Reordered.exists_part`, `Reordered.exists_part_back`: their parts are the same up to order;
* `Reordered.keysDistinct`, `Reordered.unmarked`: what holds of all keys is kept;
* `Reordered.shallow_iff`: so is how deep values nest;
* `Reordered.refusedRoot?_eq`: the one is a sample exactly if the other is.
-/

import SampleShapes.Failure
import SampleShapes.Proofs.Json.Objects

namespace SampleShapes.Json

mutual

/-- The values are the same up to the order of the elements of arrays and the members of objects,
at any depth. -/
inductive Reordered : Json → Json → Prop where
  /-- A value without structure is the same. -/
  | scalar {value : Json} (notArray : ∀ elements, value ≠ .array elements)
      (notObject : ∀ members, value ≠ .object members) : Reordered value value
  /-- The elements of an array are reordered, and then change places. -/
  | array {elements between others : List Json} (inside : List.Forall₂ Reordered elements between)
      (moved : between.Perm others) : Reordered (.array elements) (.array others)
  /-- The members of an object are reordered, and then change places. -/
  | object {members between others : List (String × Json)}
      (inside : List.Forall₂ ReorderedMember members between)
      (moved : between.Perm others) : Reordered (.object members) (.object others)

/-- The members have the same key, and their values are the same up to order. -/
inductive ReorderedMember : String × Json → String × Json → Prop where
  /-- The key stays. -/
  | under {raw : String} {value other : Json} (inside : Reordered value other) :
      ReorderedMember (raw, value) (raw, other)

end

theorem ReorderedMember.key_eq {member other : String × Json}
    (reordered : ReorderedMember member other) : member.1 = other.1 := by
  cases reordered
  rfl

theorem ReorderedMember.value {member other : String × Json}
    (reordered : ReorderedMember member other) : Reordered member.2 other.2 := by
  cases reordered
  assumption

namespace Reordered

variable {value other : Json}

/-- Without a change, order stays the same. -/
theorem refl (value : Json) : value.Reordered value := by
  induction value using induct with
  | step value parts =>
    cases value with
    | array elements => exact .array (List.forall₂_same.mpr parts) (.refl elements)
    | object members =>
      refine .object (List.forall₂_same.mpr fun member listed => ?_) (.refl members)
      exact .under (parts member.2 (parts_inside listed))
    | _ => exact .scalar nofun nofun

/-! ### Parts -/

section Elements

variable {elements between others : List Json} (inside : List.Forall₂ Reordered elements between)
  (moved : between.Perm others)
include inside moved

theorem exists_element {element : Json} (member : element ∈ elements) :
    ∃ other ∈ others, element.Reordered other := by
  obtain ⟨other, among, same⟩ := Lists.exists_mem_of_forall₂ inside member
  exact ⟨other, moved.mem_iff.mp among, same⟩

theorem exists_element_back {other : Json} (member : other ∈ others) :
    ∃ element ∈ elements, element.Reordered other :=
  Lists.exists_mem_of_forall₂_right inside (moved.mem_iff.mpr member)

end Elements

section Members

variable {members between others : List (String × Json)}
  (inside : List.Forall₂ ReorderedMember members between) (moved : between.Perm others)
include inside moved

theorem exists_member {member : String × Json} (listed : member ∈ members) :
    ∃ other ∈ others, ReorderedMember member other := by
  obtain ⟨other, among, same⟩ := Lists.exists_mem_of_forall₂ inside listed
  exact ⟨other, moved.mem_iff.mp among, same⟩

theorem exists_member_back {other : String × Json} (listed : other ∈ others) :
    ∃ member ∈ members, ReorderedMember member other :=
  Lists.exists_mem_of_forall₂_right inside (moved.mem_iff.mpr listed)

/-- The keys are the same up to order. -/
theorem keys_perm : (members.map Prod.fst).Perm (others.map Prod.fst) := by
  have same : members.map Prod.fst = between.map Prod.fst := by
    clear moved
    induction inside with
    | nil => rfl
    | cons first _ step => rw [List.map_cons, List.map_cons, first.key_eq, step]
  rw [same]
  exact moved.map Prod.fst

end Members

/-- **Every part is one of the other value,** up to order. -/
theorem exists_part (reordered : value.Reordered other) {part : Json}
    (member : part ∈ value.parts) : ∃ part' ∈ other.parts, part.Reordered part' := by
  cases reordered with
  | scalar notArray notObject =>
    cases value with
    | array elements => exact absurd rfl (notArray elements)
    | object members => exact absurd rfl (notObject members)
    | _ => exact absurd member List.not_mem_nil
  | array inside moved => exact exists_element inside moved member
  | object inside moved =>
    obtain ⟨entry, listed, rfl⟩ := List.mem_map.mp member
    obtain ⟨entry', listed', same⟩ := exists_member inside moved listed
    exact ⟨entry'.2, parts_inside listed', same.value⟩

/-- **Every part of the other value is one,** up to order. -/
theorem exists_part_back (reordered : value.Reordered other) {part' : Json}
    (member : part' ∈ other.parts) : ∃ part ∈ value.parts, part.Reordered part' := by
  cases reordered with
  | scalar notArray notObject =>
    cases value with
    | array elements => exact absurd rfl (notArray elements)
    | object members => exact absurd rfl (notObject members)
    | _ => exact absurd member List.not_mem_nil
  | array inside moved => exact exists_element_back inside moved member
  | object inside moved =>
    obtain ⟨entry', listed', rfl⟩ := List.mem_map.mp member
    obtain ⟨entry, listed, same⟩ := exists_member_back inside moved listed'
    exact ⟨entry.2, parts_inside listed, same.value⟩

/-! ### What is kept -/

theorem keysDistinct (reordered : value.Reordered other) (distinct : value.KeysDistinct) :
    other.KeysDistinct := by
  induction value using Json.induct generalizing other with
  | step value parts =>
    cases reordered with
    | scalar => exact distinct
    | array inside moved =>
      refine keysDistinct_array.mpr fun part member => ?_
      obtain ⟨element, listed, same⟩ := exists_element_back inside moved member
      exact parts element listed same (keysDistinct_array.mp distinct element listed)
    | object inside moved =>
      obtain ⟨once, distinct⟩ := keysDistinct_object.mp distinct
      refine keysDistinct_object.mpr ⟨(keys_perm inside moved).nodup_iff.mp once, ?_⟩
      intro part member
      obtain ⟨entry, listed, same⟩ := exists_member_back inside moved member
      exact parts entry.2 (parts_inside listed) same.value (distinct entry listed)

theorem unmarked (reordered : value.Reordered other) (unmarked : value.Unmarked) :
    other.Unmarked := by
  induction value using Json.induct generalizing other with
  | step value parts =>
    cases reordered with
    | scalar => exact unmarked
    | array inside moved =>
      refine unmarked_array.mpr fun part member => ?_
      obtain ⟨element, listed, same⟩ := exists_element_back inside moved member
      exact parts element listed same (unmarked_array.mp unmarked element listed)
    | object inside moved =>
      refine unmarked_object.mpr fun part member => ?_
      obtain ⟨entry, listed, same⟩ := exists_member_back inside moved member
      obtain ⟨plain, within⟩ := unmarked_object.mp unmarked entry listed
      exact ⟨same.key_eq ▸ plain, parts entry.2 (parts_inside listed) same.value within⟩

theorem isObject_eq (reordered : value.Reordered other) : value.isObject = other.isObject := by
  cases reordered <;> rfl

/-- **The one is a sample exactly if the other is,** and refused for the same reason otherwise. -/
theorem refusedRoot?_eq (reordered : value.Reordered other) :
    refusedRoot? value = refusedRoot? other := by
  cases reordered with
  | scalar => rfl
  | @array elements between others inside moved =>
    have objects : elements.all isObject = others.all isObject := by
      rw [Bool.eq_iff_iff, List.all_eq_true, List.all_eq_true]
      constructor
      · intro all other member
        obtain ⟨element, listed, same⟩ := exists_element_back inside moved member
        rw [← same.isObject_eq]
        exact all element listed
      · intro all element member
        obtain ⟨other, listed, same⟩ := exists_element inside moved member
        rw [same.isObject_eq]
        exact all other listed
    have count := inside.length_eq.trans moved.length_eq
    match elements, others with
    | [], [] => rfl
    | first :: rest, first' :: rest' =>
      show (if _ then _ else _) = (if _ then _ else _)
      rw [objects]
  | object => rfl

end Reordered

/-! ### Depth -/

/-- Nothing inside of a value that stands `depth` levels deep stands deeper than `limit`. -/
inductive Shallow (limit : Nat) : Nat → Json → Prop where
  /-- The value stands high enough, and so does everything inside of it. -/
  | intro {depth : Nat} {value : Json} (here : depth ≤ limit)
      (inside : ∀ part ∈ value.parts, Shallow limit (depth + 1) part) : Shallow limit depth value

theorem shallow_iff {limit depth : Nat} {value : Json} :
    value.Shallow limit depth ↔
      depth ≤ limit ∧ ∀ part ∈ value.parts, part.Shallow limit (depth + 1) :=
  ⟨fun ⟨here, inside⟩ => ⟨here, inside⟩, fun ⟨here, inside⟩ => ⟨here, inside⟩⟩

/-- **Values nest as deep in any order.** -/
theorem Reordered.shallow_iff {value other : Json} (reordered : value.Reordered other)
    {limit depth : Nat} : value.Shallow limit depth ↔ other.Shallow limit depth := by
  induction value using Json.induct generalizing other depth with
  | step value parts =>
    rw [Json.shallow_iff, Json.shallow_iff]
    refine and_congr_right fun _ => ⟨fun inside part' member => ?_, fun inside part member => ?_⟩
    · obtain ⟨part, listed, same⟩ := reordered.exists_part_back member
      exact (parts part listed same).mp (inside part listed)
    · obtain ⟨part', listed, same⟩ := reordered.exists_part member
      exact (parts part member same).mpr (inside part' listed)

end SampleShapes.Json
