/-
**Failures.**

The reasons for which samples give no declarations, and their wording.
-/

import SampleShapes.Json.Basic

namespace SampleShapes

/-- The values that are no samples: neither an object nor a list of one object or more. -/
inductive RefusedRoot where
  | null
  | boolean
  | number
  | string
  | emptyArray
  | mixedArray
  deriving DecidableEq, Repr

/-- What a refused value is called. -/
def RefusedRoot.description : RefusedRoot → String
  | null => "null"
  | boolean => "boolean"
  | number => "number"
  | string => "string"
  | emptyArray => "empty array"
  | mixedArray => "array containing non-objects"

/-- Why there are no declarations. -/
inductive Failure where
  /-- The value is no sample. -/
  | invalidRoot (found : RefusedRoot)
  /-- The value nests deeper than `limit` levels. -/
  | depthLimitExceeded (limit : Nat)
  /-- The field with the raw key `field` refers to a target that is never declared. -/
  | unresolvedReference (field target : String)
  deriving DecidableEq, Repr

/-- The wording of a failure. -/
def Failure.message : Failure → String
  | invalidRoot found =>
    "only (object) and (array of object) roots are supported, found " ++ found.description
  | depthLimitExceeded limit =>
    "input nests deeper than the configured limit of " ++ toString limit ++ " levels"
  | unresolvedReference field target =>
    "field `" ++ field ++ "` references `" ++ target
      ++ "`, but no declaration with that name exists"

/-- Why a value is no sample, if it is none. -/
def refusedRoot? : Json → Option RefusedRoot
  | .null => some .null
  | .bool _ => some .boolean
  | .number _ => some .number
  | .string _ => some .string
  | .array [] => some .emptyArray
  | .array elements => if elements.all Json.isObject then none else some .mixedArray
  | .object _ => none

/-- A sample is an object, or a list of one object or more. -/
def checkRoot (value : Json) : Except Failure Unit :=
  match refusedRoot? value with
  | some found => .error (.invalidRoot found)
  | none => .ok ()

end SampleShapes
