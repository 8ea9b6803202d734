/-
**The registry of shapes.**

A registry keeps every distinct shape once, in a slot of its own, and finds it by its fingerprint.
Slots are handed out in order and never used again, so an identity never comes to denote another
shape; a shape that is no longer needed leaves an empty slot behind.

Slots are numbered by natural numbers, of which there is always another one. A registry whose
identities are numbers of 32 bits does the same as long as it hands out fewer than `2 ^ 32` slots;
what it does beyond that is not described here.

* `shapeAt?_intern_of_lt`: interning leaves the slots that are handed out as they are;
* `shapeAt?_retain`: dropping empties slots and changes no other.
-/

import SampleShapes.Shape.Basic

namespace SampleShapes

/-- Shapes by identity, and identities by fingerprint. -/
structure Registry where
  /-- The shape of each node; nothing where it was dropped. -/
  slots : Array (Option Shape)
  /-- The node of each fingerprint, latest first. -/
  index : List (Fingerprint × Nat)

namespace Registry

/-- The registry without shapes. -/
def empty : Registry := ⟨#[], []⟩

instance : EmptyCollection Registry := ⟨empty⟩
instance : Inhabited Registry := ⟨empty⟩

/-! ### Looking up -/

/-- The shape of the node at `index`. -/
def shapeAt? (registry : Registry) (index : Nat) : Option Shape :=
  registry.slots[index]?.join

/-- The shape behind an identity; a primitive or a date has none. -/
def shape? (registry : Registry) : ShapeId → Option Shape
  | .node index => registry.shapeAt? index
  | _ => none

/-- The fields behind the identity of an object. -/
def fields? (registry : Registry) (id : ShapeId) : Option (Table String Field) :=
  (registry.shape? id).bind Shape.fields?

/-- The elements behind the identity of a list. -/
def elements? (registry : Registry) (id : ShapeId) : Option IdSet :=
  (registry.shape? id).bind Shape.elements?

/-- The alternatives behind the identity of a union. -/
def members? (registry : Registry) (id : ShapeId) : Option IdSet :=
  (registry.shape? id).bind Shape.members?

/-- The number of slots handed out so far. -/
def capacity (registry : Registry) : Nat := registry.slots.size

/-- The number of shapes that are kept. -/
def size (registry : Registry) : Nat := registry.index.length

/-- The shapes that are kept, by index. -/
def live (registry : Registry) : List (Nat × Shape) :=
  (List.range registry.capacity).filterMap fun index =>
    (registry.shapeAt? index).map (index, ·)

/-! ### Interning and dropping -/

/-- The identity of a shape, which gets a slot unless an equal one is there. -/
def intern (shape : Shape) (registry : Registry) : ShapeId × Registry :=
  match registry.index.lookup shape.fingerprint with
  | some index => (.node index, registry)
  | none =>
    let index := registry.slots.size
    (.node index,
      { slots := registry.slots.push (some shape)
        index := (shape.fingerprint, index) :: registry.index })

/-- Drop every shape whose index is not in `kept`. -/
def retain (kept : List Nat) (registry : Registry) : Registry where
  slots := registry.slots.mapIdx fun index slot => if index ∈ kept then slot else none
  index := registry.index.filter fun entry => entry.2 ∈ kept

/-- Drop every shape whose index is not in `kept`; the number of shapes that were dropped comes with
the result. -/
def retainCounting (kept : List Nat) (registry : Registry) : Nat × Registry :=
  let after := registry.retain kept
  (registry.size - after.size, after)

/-! ### What happens to slots -/

theorem shapeAt?_empty (index : Nat) : (∅ : Registry).shapeAt? index = none := rfl

/-- No node beyond the slots handed out has a shape. -/
theorem shapeAt?_of_capacity_le {registry : Registry} {index : Nat}
    (beyond : registry.capacity ≤ index) : registry.shapeAt? index = none := by
  unfold shapeAt?
  rw [Array.getElem?_eq_none beyond]
  rfl

theorem lt_capacity_of_shapeAt? {registry : Registry} {index : Nat} {shape : Shape}
    (found : registry.shapeAt? index = some shape) : index < registry.capacity := by
  rcases Nat.lt_or_ge index registry.capacity with inside | beyond
  · exact inside
  · rw [shapeAt?_of_capacity_le beyond] at found
    simp at found

/-- Interning hands out one slot at most. -/
theorem capacity_le_intern (shape : Shape) (registry : Registry) :
    registry.capacity ≤ (registry.intern shape).2.capacity := by
  unfold intern
  split
  · exact Nat.le_refl _
  · simp [capacity]

/-- **Interning leaves the slots that are handed out as they are.** -/
theorem shapeAt?_intern_of_lt {shape : Shape} {registry : Registry} {index : Nat}
    (inside : index < registry.capacity) :
    (registry.intern shape).2.shapeAt? index = registry.shapeAt? index := by
  unfold intern
  split
  · rfl
  · have apart : index ≠ registry.slots.size := Nat.ne_of_lt inside
    simp [shapeAt?, Array.getElem?_push, apart]

/-- A new shape stands in its slot. -/
theorem shape?_intern_of_lookup_eq_none {shape : Shape} {registry : Registry}
    (fresh : registry.index.lookup shape.fingerprint = none) :
    (registry.intern shape).2.shape? (registry.intern shape).1 = some shape := by
  unfold intern
  rw [fresh]
  simp [shape?, shapeAt?]

theorem capacity_retain (kept : List Nat) (registry : Registry) :
    (registry.retain kept).capacity = registry.capacity := by
  simp [retain, capacity]

/-- **Dropping empties slots and changes no other.** -/
theorem shapeAt?_retain (kept : List Nat) (registry : Registry) (index : Nat) :
    (registry.retain kept).shapeAt? index =
      if index ∈ kept then registry.shapeAt? index else none := by
  by_cases inside : index < registry.slots.size
  · by_cases member : index ∈ kept <;> simp [retain, shapeAt?, inside, member]
  · by_cases member : index ∈ kept <;> simp [retain, shapeAt?, inside, member]

end Registry

end SampleShapes
