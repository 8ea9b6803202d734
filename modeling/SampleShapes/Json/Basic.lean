/-
**JSON values.**

An object keeps its members in order of first mention. A number is kept as its literal: nothing
here computes with it.
-/

namespace SampleShapes

/-- A JSON value. -/
inductive Json where
  | null
  | bool (value : Bool)
  | number (literal : String)
  | string (text : String)
  | array (elements : List Json)
  | object (members : List (String × Json))
  deriving Inhabited

namespace Json

/-- The value is an object. -/
def isObject : Json → Bool
  | object _ => true
  | _ => false

/-- The member of an object under `key`. -/
def member? (key : String) : Json → Option Json
  | object members => members.lookup key
  | _ => none

/-- A whole number. -/
def ofNat (n : Nat) : Json := number (toString n)

end Json

end SampleShapes
