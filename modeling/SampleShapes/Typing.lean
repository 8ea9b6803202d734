/-
**Types of shapes.**

Under a naming, an object has the type of its name, a list is an array and a union is a union.
-/

import SampleShapes.Naming.Basic
import SampleShapes.TypeRef

namespace SampleShapes

/-- The type of an element: a list of nothing but null is a list of `any`. -/
def TypeRef.ofElement (type : TypeRef) : TypeRef :=
  if type = .null then .any else type

namespace Naming

/-- The type of a shape, looked at through at most `depth` lists and unions. -/
def typeWithin (naming : Naming) (registry : Registry) : Nat → ShapeId → TypeRef
  | _, .primitive kind => .primitive kind
  | _, .date => .date
  | 0, .node _ => .any
  | depth + 1, .node index =>
    match registry.shapeAt? index with
    | some (.object _) =>
      match naming.nameOf? index with
      | some name => .named name
      | none => .any
    | some (.list elements) =>
      .array <| .ofArms <|
        elements.toList.map fun element => (naming.typeWithin registry depth element).ofElement
    | some (.union members) => .ofArms (members.toList.map (naming.typeWithin registry depth))
    | none => .any

/-- The type of a shape. Members lie below their list or union, which bounds the depth. -/
def typeOf (naming : Naming) (registry : Registry) (id : ShapeId) : TypeRef :=
  naming.typeWithin registry id.ceiling id

end Naming

end SampleShapes
