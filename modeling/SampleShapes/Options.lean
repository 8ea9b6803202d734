/-
**Options.**

How samples are read and declarations are written.
-/

namespace SampleShapes

/-- The form of declarations. -/
inductive Style where
  /-- Interfaces. -/
  | interfaces
  /-- Classes, which extend their parents. -/
  | classes
  deriving DecidableEq, Repr

/-- What becomes of an explicit reference whose target is never declared. -/
inductive ReferencePolicy where
  /-- The reference is ignored, and the field keeps the type of its values. -/
  | drop
  /-- The target is named although nothing declares it. -/
  | keep
  /-- The declarations fail. -/
  | error
  deriving DecidableEq, Repr

namespace ReferencePolicy

/-- The policy with a name, where case does not matter. -/
def ofName? (name : String) : Option ReferencePolicy :=
  match name.map Char.toLower with
  | "drop" => some drop
  | "keep" => some keep
  | "error" => some error
  | _ => none

/-- What is said of a name that no policy has. -/
def unknownMessage (name : String) : String :=
  "unknown reference policy `" ++ name.map Char.toLower ++ "` (expected drop, keep or error)"

end ReferencePolicy

/-- The options of a run. -/
structure Options where
  /-- The name of the declaration of the root. -/
  rootName : String := "RootObject"
  /-- The form of the declarations. -/
  style : Style := .interfaces
  /-- Texts that look like dates count as dates. -/
  detectDates : Bool := false
  /-- The deepest level of nesting that is accepted. -/
  maxDepth : Nat := 256
  /-- What becomes of unresolved references. -/
  references : ReferencePolicy := .drop
  deriving DecidableEq, Repr

end SampleShapes
