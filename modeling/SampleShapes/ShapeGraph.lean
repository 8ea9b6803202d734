/-
**Shape graphs.**

A graph is what observation leaves of a sample: a root, the shapes that are reachable from it, and
the aliases that lead from the objects under one explicit reference to their merge.
-/

import SampleShapes.Json.Basic
import SampleShapes.Observer
import SampleShapes.Registry.Targets
import SampleShapes.Sorting

namespace SampleShapes

/-- The shapes of a sample. -/
structure ShapeGraph where
  /-- The shape of the sample. -/
  root : ShapeId
  /-- The shapes it is built from. -/
  registry : Registry
  /-- The merge that each object under an explicit reference stands for. -/
  aliases : Table Nat Nat

namespace ShapeGraph

/-- The node that a node stands for. -/
def canonicalNode (graph : ShapeGraph) (index : Nat) : Nat :=
  (graph.aliases.get? index).getD index

/-- The shape that an identity stands for. -/
def canonical (graph : ShapeGraph) : ShapeId → ShapeId
  | .node index => .node (graph.canonicalNode index)
  | id => id

/-- The aliases by rising member. -/
def sortedAliases (graph : ShapeGraph) : List (Nat × Nat) :=
  Sorting.sort (fun first second => first.1 ≤ second.1) graph.aliases.entries

/-! ### Inference -/

/-- Unify explicit references and drop what is reachable neither from the root nor from a merge. -/
def ofObserver (root : ShapeId) (observer : Observer) : ShapeGraph :=
  let (aliases, registry) := observer.registry.unifyTargets root
  { root
    registry := registry.prune (root :: aliases.values.map ShapeId.node)
    aliases }

/-- The shape graph of a sample. -/
def infer (options : Options) (sample : Json) : Except Failure ShapeGraph := do
  checkRoot sample
  let (result, observer) := Observer.empty.observe options sample
  let root ← result
  return ofObserver root observer

/-! ### The view as JSON -/

/-- A set of identities as JSON. -/
def viewIds (ids : IdSet) : Json := .array (ids.toList.map fun id => .string id.text)

/-- A field as JSON: its type, whether it is optional, and the target it refers to. -/
def viewField (field : Field) : Json :=
  .object <|
    [("type", .string field.shape.text), ("optional", .bool field.optional)]
    ++ match field.key.mark with
      | .plain => []
      | .reference target => [("reference", .string target)]
      | .subclass target => [("subclass", .string target)]

/-- A shape as JSON. -/
def viewShape : Shape → Json
  | .object fields =>
    .object
      [("kind", .string "object"),
        ("fields", .object (fields.entries.map fun (raw, field) => (raw, viewField field)))]
  | .list elements => .object [("kind", .string "list"), ("element", viewIds elements)]
  | .union members => .object [("kind", .string "union"), ("members", viewIds members)]

/-- The graph as JSON, for inspection. -/
def view (graph : ShapeGraph) : Json :=
  let name (index : Nat) := (ShapeId.node index).text
  let shapes := graph.registry.live.map fun (index, shape) => (name index, viewShape shape)
  let aliases := graph.sortedAliases.map fun (member, merged) =>
    (name member, .string (name merged))
  .object <|
    [("root", .string graph.root.text), ("shapes", .object shapes)]
    ++ if aliases.isEmpty then [] else [("aliases", .object aliases)]

end ShapeGraph

end SampleShapes
