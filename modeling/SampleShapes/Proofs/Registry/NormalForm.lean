/-
**The form of every shape.**

A registry that arises is acyclic, and its shapes are as small as they can be. A child is interned
before the shape that points at it, and it is never the kind that says nothing: values are of other
kinds, null is what makes a shape nullable, and merging hands this on. The other properties are
those that merging is known to keep: a union has no unions among its members, so that flattening
candidates by one level is enough, and it is not left where an object or a list would do.

* `lasting_definite`: what merging interns says something if its candidates do;
* `NormalUnion.irreducible`: a normal union is neither one of objects nor one of lists, and what
  null makes nullable is one shape;
* `Produced.wellFormed`: **every shape of every registry that arises is well-formed.**
-/

import SampleShapes.Proofs.Registry.Interning
import SampleShapes.Proofs.Registry.Lasting
import SampleShapes.Proofs.Registry.Spreading

namespace SampleShapes.Registry

variable {registry : Registry} {options : Options} {members : IdSet}

/-! ### What says nothing -/

/-- What kept shapes point at says something. -/
def Definite (registry : Registry) : Prop :=
  registry.PointsAt fun _ id => id ≠ .any

theorem heritable_ne_any : Heritable fun _ id => id ≠ .any where
  grow _ known := known
  kept found := ne_primitive_of_shape? found
  null _ := by decide

theorem lasting_definite : Lasting Definite where
  empty id shape found := by cases (shape?_empty id).symm.trans found
  object _ _ _ definite _ known := (Interns.nothing.next known).pointsAt heritable_ne_any definite
  merge _ _ sound definite known :=
    (merge_handsOn heritable_ne_any sound.toIndexed definite
      fun id member => (known id member).2).interns.pointsAt heritable_ne_any definite
  list registry elements sound definite known := by
    have handsOn := merge_handsOn heritable_ne_any sound.toIndexed definite
      fun id member => (known id member).2
    refine (handsOn.interns.next fun child member => ?_).pointsAt heritable_ne_any definite
    rw [List.mem_singleton.mp member]
    exact handsOn.result
  prune registry roots _ definite id shape found :=
    definite id shape ((within_prune roots registry).shape? found)

/-- **In every registry that arises no shape points at what says nothing.** -/
theorem Produced.definite (produced : Produced options registry) : registry.Definite :=
  produced.of_lasting lasting_definite

/-! ### Unions -/

/-- A union that nothing simpler stands for. -/
structure Irreducible (registry : Registry) (members : IdSet) : Prop where
  /-- It has no member, or several. -/
  size : members.size = 0 ∨ 2 ≤ members.size
  /-- None is a union. -/
  flat : ∀ id ∈ members, registry.members? id = none
  /-- Not all are objects. -/
  notObjects : members.size ≠ 0 → ∃ id ∈ members, registry.fields? id = none
  /-- Not all are lists. -/
  notLists : members.size ≠ 0 → ∃ id ∈ members, registry.elements? id = none
  /-- Beside null, objects alone are one object. -/
  nullableObject : .null ∈ members →
    (∀ id ∈ members, id ≠ .null → (registry.fields? id).isSome) →
      ∃! id, id ∈ members ∧ id ≠ .null
  /-- Beside null, lists alone are one list. -/
  nullableList : .null ∈ members →
    (∀ id ∈ members, id ≠ .null → (registry.elements? id).isSome) →
      ∃! id, id ∈ members ∧ id ≠ .null

/-- Several members, all but null the same, are null and one other. -/
theorem OneSolid.null_and_one (one : OneSolid members) (several : 2 ≤ members.size) :
    .null ∈ members ∧ ∃! id, id ∈ members ∧ id ≠ .null := by
  obtain ⟨solid, notNull, same, _⟩ := one.exists_nullable several
  have inside : solid ∈ members ∧ .null ∈ members := by
    rw [same]
    simp
  exact ⟨inside.2, solid, ⟨inside.1, notNull⟩,
    fun other inside' => one other inside'.1 solid inside.1 inside'.2 notNull⟩

theorem NormalUnion.irreducible (normal : registry.NormalUnion members) :
    registry.Irreducible members := by
  have size : members.size = 0 ∨ 2 ≤ members.size :=
    normal.empty_or_several.imp_left List.length_eq_zero_iff.mpr
  have notEmpty : .null ∈ members → members.size ≠ 0 := fun null empty => by
    rw [IdSet.size, List.length_eq_zero_iff] at empty
    rw [← IdSet.mem_toList, empty] at null
    cases null
  refine ⟨size, normal.flat, fun enough => ?_, fun enough => ?_, fun null all => ?_,
    fun null all => ?_⟩
  -- Objects alone were one, which only null could have made several members of.
  · by_contra! objects
    have one := normal.objects fun id member _ => Option.isSome_iff_ne_none.mpr (objects id member)
    exact objects .null (one.null_and_one (size.resolve_left enough)).1 rfl
  · by_contra! lists
    have one := normal.lists fun id member _ => Option.isSome_iff_ne_none.mpr (lists id member)
    exact lists .null (one.null_and_one (size.resolve_left enough)).1 rfl
  · exact ((normal.objects all).null_and_one (size.resolve_left (notEmpty null))).2
  · exact ((normal.lists all).null_and_one (size.resolve_left (notEmpty null))).2

/-! ### Every shape -/

/-- The shape at an index of a registry that arises. -/
structure WellFormed (registry : Registry) (index : Nat) (shape : Shape) : Prop where
  /-- What it points at is kept. -/
  kept : ∀ child ∈ shape.children, registry.Holds child
  /-- Nodes that it points at come before it. -/
  before : ∀ child, .node child ∈ shape.children → child < index
  /-- What it points at says something. -/
  definite : .any ∉ shape.children
  /-- The keys of an object are read from the raw keys. -/
  keyed : ∀ fields, shape = .object fields → ∀ raw field, fields.get? raw = some field →
    field.key = Key.parse raw
  /-- A list has one element. -/
  list : ∀ elements, shape = .list elements → elements.size = 1
  /-- Nothing simpler stands for a union. -/
  union : ∀ members, shape = .union members → registry.Irreducible members

/-- **Every shape of every registry that arises is well-formed.** -/
theorem Produced.wellFormed (produced : Produced options registry) {index : Nat} {shape : Shape}
    (found : registry.shapeAt? index = some shape) : registry.WellFormed index shape := by
  have sound := produced.sound
  have kept : registry.shape? (.node index) = some shape := found
  have carries := sound.carries index shape found
  have normal := produced.normal (.node index) shape kept
  refine ⟨carries.holds, fun child member => sound.descends index shape found _ member,
    fun member => produced.definite _ shape kept _ member rfl, fun fields object => ?_,
    fun elements list => ?_, fun members union => ?_⟩
  · exact carries.keyed fields object
  · subst list
    obtain ⟨element, rfl⟩ := normal
    rfl
  · subst union
    exact normal.irreducible

/-- An array of two objects, null and a boolean leaves a union; two references to one target are
merged, and what a sample that is too deep leaves behind is dropped. -/
theorem wellFormed_of_mixed_array :
    ∃ registry, Produced { maxDepth := 3 } registry ∧ registry.shapeAt? 9 = none ∧
      (registry.shapeAt? 10).isSome ∧
      registry.shapeAt? 4 =
        some (.union (.ofList [.null, .primitive .boolean, .node 0, .node 3])) ∧
      registry.WellFormed 4 (.union (.ofList [.null, .primitive .boolean, .node 0, .node 3])) := by
  have observed : Produced { maxDepth := 3 } _ := .observed
    [.object [
        ("xs", .array [.object [("a", .null)], .null, .bool true, .object [("b", .array [])]]),
        ("u[T]", .object [("k", .null)]), ("v[T]", .object [("l", .bool true)])],
      .object [("c", .object [("z", .bool true)]), ("d", .array [.array [.array [.array []]]])]]
  have produced := (observed.unified (.node 8)).pruned [.node 8, .node 10]
  refine ⟨_, produced, by decide +kernel, by decide +kernel, ?found, produced.wellFormed ?found⟩
  decide +kernel

end SampleShapes.Registry
