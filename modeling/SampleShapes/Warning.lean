/-
**Warnings.**

What is not as the sample asked for, though there are declarations all the same.
-/

import SampleShapes.Json.Basic

namespace SampleShapes

/-- Something that could not be done as asked. -/
inductive Warning where
  /-- A target and another declaration wanted the same name; the second was called `assigned`. -/
  | nameCollision (target assigned : String)
  /-- A field refers to a target that is never declared. -/
  | unresolvedReference (declaration field target : String)
  /-- A second declaration claimed `child` as its subclass. -/
  | conflictingParent (child parent kept : String)
  /-- A key without its mark is the key of another field too, so the mark stays. -/
  | duplicateKey (declaration key : String)
  deriving DecidableEq, Repr

namespace Warning

/-- The wording of a warning. -/
def message : Warning → String
  | nameCollision target assigned =>
    "`" ++ target ++ "` names two different shapes; the second is declared as `" ++ assigned ++ "`"
  | unresolvedReference declaration field target =>
    declaration ++ "." ++ field ++ " references undeclared `" ++ target ++ "`"
  | conflictingParent child parent kept =>
    "`" ++ child ++ "` already extends `" ++ kept ++ "`; ignoring `" ++ parent ++ "`"
  | duplicateKey declaration key =>
    declaration ++ "." ++ key
      ++ " clashes with a sibling key once its annotation is stripped; kept verbatim"

/-- A warning as JSON. -/
def toJson : Warning → Json
  | nameCollision target assigned =>
    .object
      [("warning", .string "name_collision"), ("target", .string target),
        ("assigned", .string assigned)]
  | unresolvedReference declaration field target =>
    .object
      [("warning", .string "unresolved_reference"), ("declaration", .string declaration),
        ("field", .string field), ("target", .string target)]
  | conflictingParent child parent kept =>
    .object
      [("warning", .string "conflicting_parent"), ("child", .string child),
        ("parent", .string parent), ("kept", .string kept)]
  | duplicateKey declaration key =>
    .object
      [("warning", .string "duplicate_key"), ("declaration", .string declaration),
        ("key", .string key)]

end Warning

end SampleShapes
