/-
**Declarations.**

What is finally declared: named records of fields, which of them extend which, and what could not
be done as asked.
-/

import SampleShapes.Sorting
import SampleShapes.Table
import SampleShapes.TypeRef
import SampleShapes.Warning

namespace SampleShapes

/-- What a field is to the declaration it stands in. -/
inductive FieldKind where
  /-- A field like any other. -/
  | plain
  /-- A reference to a declaration. -/
  | reference
  /-- A reference to a declaration that extends this one. -/
  | subclass
  deriving DecidableEq, Repr

/-- The word for a kind of field. -/
def FieldKind.keyword : FieldKind → String
  | plain => "plain"
  | reference => "reference"
  | subclass => "subclass"

/-- A field of a declaration. -/
structure DeclaredField where
  /-- The key, unquoted. -/
  key : String
  /-- The type. -/
  type : TypeRef
  /-- The field may be absent. -/
  optional : Bool
  /-- What the field is to its declaration. -/
  kind : FieldKind
  deriving DecidableEq

/-- A declaration. -/
structure Declaration where
  /-- Its name. -/
  name : String
  /-- Its fields, in order of first mention. -/
  fields : List DeclaredField
  deriving DecidableEq

/-- Everything that is declared. -/
structure Resolution where
  /-- The declarations, the root first. -/
  declarations : List Declaration
  /-- The parent of each declaration that extends another. -/
  parents : Table String String
  /-- What could not be done as asked. -/
  warnings : List Warning
  deriving DecidableEq

namespace Resolution

/-- The declaration of a name. -/
def find? (resolution : Resolution) (name : String) : Option Declaration :=
  resolution.declarations.find? (·.name = name)

/-- Each child with its parent, by rising name of the child. -/
def sortedParents (resolution : Resolution) : List (String × String) :=
  Sorting.sort (fun first second => first.1 ≤ second.1) resolution.parents.entries

end Resolution

/-! ### JSON -/

/-- A field as JSON. -/
def DeclaredField.toJson (field : DeclaredField) : Json :=
  .object
    [("key", .string field.key), ("ty", field.type.toJson), ("optional", .bool field.optional),
      ("kind", .string field.kind.keyword)]

/-- A declaration as JSON. -/
def Declaration.toJson (declaration : Declaration) : Json :=
  .object
    [("name", .string declaration.name),
      ("fields", .array (declaration.fields.map DeclaredField.toJson))]

/-- Everything that is declared, as JSON. -/
def Resolution.toJson (resolution : Resolution) : Json :=
  .object
    [("declarations", .array (resolution.declarations.map Declaration.toJson)),
      ("subclasses",
        .object (resolution.sortedParents.map fun (child, parent) => (child, .string parent))),
      ("warnings", .array (resolution.warnings.map Warning.toJson))]

end SampleShapes
