/-
**Merging shapes that share a position.**

The candidates are a set: each counts once, and a union counts as its members. Objects merge field
by field, lists element by element, and null beside objects or lists makes their merge nullable;
every other mix becomes a union.
-/

import SampleShapes.Registry.Basic

namespace SampleShapes

/-! ### Objects -/

/-- What the objects to be merged say about one raw key. -/
structure Evidence where
  /-- The key, read. -/
  key : Key
  /-- The shapes of its values, each once, in order of first mention. -/
  shapes : List ShapeId
  /-- The number of objects that have the field. -/
  holders : Nat
  /-- Some object has it as an optional field. -/
  optional : Bool

/-- Count in the field of one more object. -/
def Evidence.add (field : Field) : Option Evidence → Evidence
  | none => ⟨field.key, [field.shape], 1, field.optional⟩
  | some evidence =>
    { evidence with
      shapes :=
        if field.shape ∈ evidence.shapes then evidence.shapes
        else evidence.shapes ++ [field.shape]
      holders := evidence.holders + 1
      optional := evidence.optional || field.optional }

/-- What some objects say about every raw key of theirs. -/
def Evidence.gather (objects : List (Table String Field)) : Table String Evidence :=
  objects.foldl
    (fun table fields =>
      fields.entries.foldl (fun table (raw, field) => table.alter raw (Evidence.add field)) table)
    ∅

namespace Registry

/-- A function that merges candidates. -/
abbrev Merger := List ShapeId → Registry → ShapeId × Registry

/-- Merge objects: a field is optional if it is so somewhere or some object goes without it. -/
def mergeObjects (deeper : Merger) (objects : List (Table String Field)) (registry : Registry) :
    ShapeId × Registry :=
  let (fields, registry) :=
    (Evidence.gather objects).thread
      (fun evidence registry =>
        let (shape, registry) := deeper evidence.shapes registry
        (⟨evidence.key, shape, evidence.optional || evidence.holders < objects.length⟩, registry))
      registry
  registry.intern (.object fields)

/-! ### Lists -/

/-- Merge lists: their elements merge. -/
def mergeLists (deeper : Merger) (lists : List IdSet) (registry : Registry) :
    ShapeId × Registry :=
  let (element, registry) := deeper (lists.flatMap IdSet.toList).eraseDups registry
  registry.intern (.list (.singleton element))

/-! ### Candidates -/

/-- What a candidate counts as: the members of a union, or itself. -/
def alternatives (registry : Registry) (id : ShapeId) : List ShapeId :=
  match registry.members? id with
  | some members => members.toList
  | none => [id]

/-- The candidates, each once, with the members of unions in place of unions. A candidate that is
alone is left as it is. -/
def flatten (registry : Registry) (candidates : List ShapeId) : List ShapeId :=
  match candidates.eraseDups with
  | [only] => [only]
  | ids => (ids.flatMap registry.alternatives).eraseDups

/-- Make the merge of the solid candidates nullable if null is among `ids`. -/
def orNull (ids : List ShapeId) (merged : ShapeId × Registry) : ShapeId × Registry :=
  if .null ∈ ids then merged.2.intern (.union (.ofList [merged.1, .null])) else merged

/-- Merge candidates, where `deeper` merges what the fields and elements of theirs point at. -/
def mergeStep (deeper : Merger) (candidates : List ShapeId) (registry : Registry) :
    ShapeId × Registry :=
  match registry.flatten candidates with
  | [] => registry.intern (.union ∅)
  | [only] => (only, registry)
  | ids =>
    let solid := ids.filter (· ≠ .null)
    match solid.mapM registry.fields?, solid.mapM registry.elements? with
    | some objects, _ => orNull ids (mergeObjects deeper objects registry)
    | none, some lists => orNull ids (mergeLists deeper lists registry)
    | none, none => registry.intern (.union (.ofList ids))

/-- Merge candidates whose nodes all lie below `level`, give or take one: children lie below their
parents, so each step down needs one level less. -/
def mergeBelow : Nat → Merger
  | 0, candidates, registry => registry.intern (.union (.ofList candidates))
  | level + 1, candidates, registry => mergeStep (mergeBelow level) candidates registry

/-- The least bound that the nodes among `ids` lie below. -/
def ceiling (ids : List ShapeId) : Nat := (ids.map ShapeId.ceiling).foldr max 0

/-- Merge candidates into one shape. -/
def merge (candidates : List ShapeId) (registry : Registry) : ShapeId × Registry :=
  mergeBelow (ceiling candidates + 1) candidates registry

end Registry

end SampleShapes
