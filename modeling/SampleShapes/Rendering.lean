/-
**Rendering declarations.**

A declaration becomes an interface or a class with one field a line. As a class it extends its
parent, and leaves out the fields that only say which classes extend it.
-/

import SampleShapes.Declaration
import SampleShapes.Options
import SampleShapes.PropertyName

namespace SampleShapes

/-- A field as a line. -/
def DeclaredField.render (field : DeclaredField) : String :=
  "  " ++ PropertyName.render field.key ++ (if field.optional then "?" else "") ++ ": "
    ++ field.type.text ++ ";\n"

/-- The first line of a declaration. -/
def Style.header (style : Style) (name : String) (parent : Option String) : String :=
  match style, parent with
  | .interfaces, _ => "interface " ++ name ++ " \x7b\n"
  | .classes, none => "class " ++ name ++ " \x7b\n"
  | .classes, some parent => "class " ++ name ++ " extends " ++ parent ++ " \x7b\n"

/-- A field stands in the body of a declaration. -/
def Style.shows (style : Style) (field : DeclaredField) : Bool :=
  !(style = .classes && field.kind = .subclass)

/-- A declaration as text. -/
def Declaration.render (style : Style) (parent : Option String) (declaration : Declaration) :
    String :=
  style.header declaration.name parent
    ++ String.join ((declaration.fields.filter style.shows).map DeclaredField.render) ++ "\x7d"

/-- Every declaration as text, in order. -/
def Resolution.render (style : Style) (resolution : Resolution) : List String :=
  resolution.declarations.map fun declaration =>
    declaration.render style (resolution.parents.get? declaration.name)

end SampleShapes
