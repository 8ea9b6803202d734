/-
**Property names.**

A key stands bare in a declaration when it is an ASCII identifier, and otherwise in single quotes,
where a backslash stands before each quote and each backslash.
-/

namespace SampleShapes.PropertyName

/-- The name is an ASCII letter or underscore followed by ASCII letters, digits and underscores. -/
def isBare (name : String) : Bool :=
  match name.toList with
  | [] => false
  | c :: rest => (c.isAlpha || c == '_') && rest.all fun c => c.isAlphanum || c == '_'

/-- How a character stands between single quotes. -/
def escape (c : Char) : List Char :=
  if c = '\\' then ['\\', '\\'] else if c = '\'' then ['\\', '\''] else [c]

/-- The name as it stands in a declaration. -/
def render (name : String) : String :=
  if isBare name then name
  else String.ofList ('\'' :: name.toList.flatMap escape ++ ['\''])

end SampleShapes.PropertyName
