/-
**The walk over the objects of a graph.**

Objects are linked by their fields, looked at through lists, unions and aliases. The walk goes
depth first from the root, enters each object once, and notes every hint on its way, also those for
objects that it has entered before.
-/

import SampleShapes.Naming.Hint

namespace SampleShapes

namespace ShapeGraph

/-- The objects in the position of `id`, at most `depth` lists and unions deep, and whether a list
lies on the way to each. -/
def objectsAt (graph : ShapeGraph) : Nat → Bool → ShapeId → List (Nat × Bool)
  | 0, _, _ => []
  | depth + 1, element, id =>
    match graph.canonical id with
    | .node index =>
      match graph.registry.shapeAt? index with
      | some (.object _) => [(index, element)]
      | some (.list elements) => elements.toList.flatMap (graph.objectsAt depth true)
      | some (.union members) => members.toList.flatMap (graph.objectsAt depth element)
      | none => []
    | _ => []

/-- The objects in the position of `id`, with the hint for each. -/
def hintsAt (graph : ShapeGraph) (hint : Hint) (id : ShapeId) : List (Nat × Hint) :=
  (graph.objectsAt (graph.registry.capacity + 1) false id).map fun (index, element) =>
    (index, { hint with element })

/-- The objects that the fields of the object at `index` lead to, with the hints they give. -/
def links (graph : ShapeGraph) (index : Nat) : List (Nat × Hint) :=
  match graph.registry.shapeAt? index with
  | some (.object fields) =>
    fields.values.flatMap fun field =>
      graph.hintsAt (Hint.ofField graph.registry field) field.shape
  | _ => []

end ShapeGraph

/-- What a walk has noted so far. -/
structure Walk where
  /-- The objects that were entered, latest first. -/
  entered : List Nat
  /-- Every hint on the way, latest first. -/
  hints : List (Nat × Hint)

namespace Walk

/-- Arrive at an object with a hint, and walk on from it unless it was entered before. A walk is at
most `fuel` objects deep. -/
def visit (graph : ShapeGraph) : Nat → Walk → Nat × Hint → Walk
  | 0, walk, _ => walk
  | fuel + 1, walk, (index, hint) =>
    let hints := (index, hint) :: walk.hints
    if index ∈ walk.entered then { walk with hints }
    else (graph.links index).foldl (visit graph fuel) ⟨index :: walk.entered, hints⟩

/-- The walk from the root. An object is entered once, so that no walk is deeper than the number
of objects and the last arrival. -/
def ofGraph (graph : ShapeGraph) (rootName : String) : Walk :=
  (graph.hintsAt (Hint.ofRoot rootName) graph.root).foldl
    (visit graph (graph.registry.capacity + 1)) ⟨[], []⟩

/-- The objects by first arrival. -/
def order (walk : Walk) : List Nat := walk.entered.reverse

/-- The hints for one object, in the order in which they were noted. -/
def hintsFor (walk : Walk) (index : Nat) : List Hint :=
  (walk.hints.filter (·.1 = index)).reverse.map Prod.snd

/-- The hint that counts most for an object: of the strongest tier, the earliest. -/
def best? (walk : Walk) (index : Nat) : Option Hint :=
  let hints := walk.hintsFor index
  Tier.all.findSome? fun tier => hints.find? (·.tier = tier)

end Walk

end SampleShapes
