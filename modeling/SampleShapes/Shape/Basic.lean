/-
**Shapes.**

A shape is an object with its fields in order of first mention, a list of elements, or a union of
alternatives. Shapes point at other shapes by identity only. The fingerprint of a shape is what
makes it the shape it is: it forgets the order of fields and nothing else.
-/

import SampleShapes.Key
import SampleShapes.Table
import SampleShapes.Shape.IdSet
import SampleShapes.Sorting

namespace SampleShapes

/-- A field of an object shape. -/
structure Field where
  /-- The key, read. -/
  key : Key
  /-- The shape of its values. -/
  shape : ShapeId
  /-- Some object goes without it. -/
  optional : Bool
  deriving DecidableEq

/-- The structure of a node. -/
inductive Shape where
  /-- An object, its fields under their raw keys. -/
  | object (fields : Table String Field)
  /-- A list of elements. -/
  | list (elements : IdSet)
  /-- One of several alternatives; of none, for the elements of an empty list. -/
  | union (members : IdSet)
  deriving DecidableEq

/-- What tells one shape from another. -/
inductive Fingerprint where
  /-- The fields by rising raw key: whether each is optional, and its shape. -/
  | object (entries : List (String × Bool × ShapeId))
  /-- The elements. -/
  | list (elements : IdSet)
  /-- The alternatives. -/
  | union (members : IdSet)
  deriving DecidableEq

namespace Shape

/-- The identities that a shape points at. -/
def children : Shape → List ShapeId
  | object fields => fields.values.map Field.shape
  | list elements => elements.toList
  | union members => members.toList

/-- The fields of an object. -/
def fields? : Shape → Option (Table String Field)
  | object fields => some fields
  | _ => none

/-- The elements of a list. -/
def elements? : Shape → Option IdSet
  | list elements => some elements
  | _ => none

/-- The alternatives of a union. -/
def members? : Shape → Option IdSet
  | union members => some members
  | _ => none

/-- What tells this shape from others. -/
def fingerprint : Shape → Fingerprint
  | object fields =>
    .object <| Sorting.sort (fun first second => first.1 ≤ second.1) <|
      fields.entries.map fun (raw, field) => (raw, field.optional, field.shape)
  | list elements => .list elements
  | union members => .union members

end Shape

end SampleShapes
