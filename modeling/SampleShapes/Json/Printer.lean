/-
**Writing JSON.**

Two forms: compact, without any white space, and indented, with one member or element a line and
two spaces a level. Only the quote, the backslash and the control characters are escaped; an empty
container is written on one line in both forms.
-/

import SampleShapes.Json.Basic

namespace SampleShapes.Json

/-! ### Strings -/

/-- The lower case hexadecimal digit of a number below sixteen. -/
def hexDigit (n : Nat) : Char :=
  if n < 10 then Char.ofNat ('0'.toNat + n) else Char.ofNat ('a'.toNat + (n - 10))

/-- How a character stands inside a string. -/
def escape (c : Char) : List Char :=
  if c = '"' then ['\\', '"']
  else if c = '\\' then ['\\', '\\']
  else if c = '\x08' then ['\\', 'b']
  else if c = '\t' then ['\\', 't']
  else if c = '\n' then ['\\', 'n']
  else if c = '\x0c' then ['\\', 'f']
  else if c = '\r' then ['\\', 'r']
  else if c.toNat < 0x20 then
    ['\\', 'u', '0', '0', hexDigit (c.toNat / 16), hexDigit (c.toNat % 16)]
  else [c]

/-- A string in quotes. -/
def quote (text : String) : String :=
  String.ofList ('"' :: text.toList.flatMap escape ++ ['"'])

/-! ### Compact form -/

mutual

/-- The value without any white space. -/
def compact : Json → String
  | null => "null"
  | bool true => "true"
  | bool false => "false"
  | number literal => literal
  | string text => quote text
  | array elements => "[" ++ String.intercalate "," (compactElements elements) ++ "]"
  | object members => "\x7b" ++ String.intercalate "," (compactMembers members) ++ "\x7d"

/-- The elements of an array, each in compact form. -/
def compactElements : List Json → List String
  | [] => []
  | value :: rest => compact value :: compactElements rest

/-- The members of an object, each in compact form. -/
def compactMembers : List (String × Json) → List String
  | [] => []
  | (key, value) :: rest => (quote key ++ ":" ++ compact value) :: compactMembers rest

end

/-! ### Indented form -/

/-- Set `items` on lines of their own, one level deeper than the brackets around them. -/
def block (opening closing indent : String) (items : List String) : String :=
  let inner := indent ++ "  "
  opening ++ "\n" ++ String.intercalate ",\n" (items.map (inner ++ ·)) ++ "\n" ++ indent ++ closing

mutual

/-- The value in indented form, where its first line stands behind `indent`. -/
def indented (indent : String) : Json → String
  | array [] => "[]"
  | object [] => "\x7b\x7d"
  | array elements => block "[" "]" indent (indentedElements (indent ++ "  ") elements)
  | object members => block "\x7b" "\x7d" indent (indentedMembers (indent ++ "  ") members)
  | null => "null"
  | bool true => "true"
  | bool false => "false"
  | number literal => literal
  | string text => quote text

/-- The elements of an array, each in indented form. -/
def indentedElements (indent : String) : List Json → List String
  | [] => []
  | value :: rest => indented indent value :: indentedElements indent rest

/-- The members of an object, each in indented form. -/
def indentedMembers (indent : String) : List (String × Json) → List String
  | [] => []
  | (key, value) :: rest =>
    (quote key ++ ": " ++ indented indent value) :: indentedMembers indent rest

end

/-- The value with one member or element a line. -/
def pretty (value : Json) : String := indented "" value

end SampleShapes.Json
