/-
**Types of fields.**

A type is a primitive, a date, the name of a declaration, an array or a union. Its text puts a
union in parentheses when it stands right under an array, and nowhere else.

* `collapseNull`: a field that may be null is an optional field of the rest of its type.
-/

import SampleShapes.Json.Basic
import SampleShapes.Shape.Id

namespace SampleShapes

/-- The type of a field. -/
inductive TypeRef where
  /-- A kind without structure. -/
  | primitive (kind : Primitive)
  /-- A date. -/
  | date
  /-- A declaration. -/
  | named (name : String)
  /-- An array. -/
  | array (element : TypeRef)
  /-- One of several types. -/
  | union (arms : List TypeRef)
  deriving Inhabited

namespace TypeRef

/-- The type that says nothing. -/
abbrev any : TypeRef := primitive .any

/-- The type of null. -/
abbrev null : TypeRef := primitive .null

/-! ### Equality -/

mutual

/-- Whether two types are equal. -/
def decEq : (first second : TypeRef) → Decidable (first = second)
  | primitive kind, primitive kind' =>
    if same : kind = kind' then isTrue (same ▸ rfl) else isFalse fun h => same (by injection h)
  | date, date => isTrue rfl
  | named name, named name' =>
    if same : name = name' then isTrue (same ▸ rfl) else isFalse fun h => same (by injection h)
  | array element, array element' =>
    match decEq element element' with
    | isTrue same => isTrue (same ▸ rfl)
    | isFalse apart => isFalse fun h => apart (by injection h)
  | union arms, union arms' =>
    match decEqArms arms arms' with
    | isTrue same => isTrue (same ▸ rfl)
    | isFalse apart => isFalse fun h => apart (by injection h)
  | primitive _, date | primitive _, named _ | primitive _, array _ | primitive _, union _
  | date, primitive _ | date, named _ | date, array _ | date, union _
  | named _, primitive _ | named _, date | named _, array _ | named _, union _
  | array _, primitive _ | array _, date | array _, named _ | array _, union _
  | union _, primitive _ | union _, date | union _, named _ | union _, array _ =>
    isFalse fun h => nomatch h

/-- Whether two lists of types are equal. -/
def decEqArms : (first second : List TypeRef) → Decidable (first = second)
  | [], [] => isTrue rfl
  | first :: rest, first' :: rest' =>
    match decEq first first', decEqArms rest rest' with
    | isTrue same, isTrue same' => isTrue (by rw [same, same'])
    | isFalse apart, _ => isFalse fun h => apart (by injection h)
    | _, isFalse apart => isFalse fun h => apart (by injection h)
  | [], _ :: _ | _ :: _, [] => isFalse fun h => nomatch h

end

instance : DecidableEq TypeRef := decEq

/-! ### Text -/

/-- The type is a union. -/
def isUnion : TypeRef → Bool
  | union _ => true
  | _ => false

mutual

/-- How a type is written. -/
def text : TypeRef → String
  | primitive kind => kind.keyword
  | date => "Date"
  | named name => name
  | array element =>
    if element.isUnion then "(" ++ element.text ++ ")[]" else element.text ++ "[]"
  | union arms => String.intercalate " | " (armTexts arms)

/-- How the arms of a union are written. -/
def armTexts : List TypeRef → List String
  | [] => []
  | arm :: rest => arm.text :: armTexts rest

end

/-! ### References -/

/-- The declaration that a type is, looked at through arrays. -/
def named? : TypeRef → Option String
  | named name => some name
  | array element => element.named?
  | _ => none

mutual

/-- Every mention of a declaration in a type, from left to right. -/
def references : TypeRef → List String
  | primitive _ => []
  | date => []
  | named name => [name]
  | array element => element.references
  | union arms => armReferences arms

/-- Every mention of a declaration in the arms of a union. -/
def armReferences : List TypeRef → List String
  | [] => []
  | arm :: rest => arm.references ++ armReferences rest

end

/-! ### Unions and null -/

/-- The union of some types: the only one itself, and `any` for none. -/
def ofArms : List TypeRef → TypeRef
  | [] => any
  | [arm] => arm
  | arms => union arms

/-- Take null out of the type of a field, and tell whether it was there. -/
def collapseNull (type : TypeRef) : TypeRef × Bool :=
  match type with
  | primitive .null => (any, true)
  | union arms =>
    if null ∈ arms then (ofArms (arms.filter (· ≠ null)), true) else (union arms, false)
  | other => (other, false)

/-! ### JSON -/

mutual

/-- A type as JSON. -/
def toJson : TypeRef → Json
  | primitive kind => .object [("kind", .string "primitive"), ("of", .string kind.keyword)]
  | date => .object [("kind", .string "date")]
  | named name => .object [("kind", .string "named"), ("of", .string name)]
  | array element => .object [("kind", .string "array"), ("of", element.toJson)]
  | union arms => .object [("kind", .string "union"), ("of", .array (armsToJson arms))]

/-- The arms of a union as JSON. -/
def armsToJson : List TypeRef → List Json
  | [] => []
  | arm :: rest => arm.toJson :: armsToJson rest

end

end TypeRef

end SampleShapes
