/-
**JSON tokens.**

A text is cut into brackets, separators, literals, numbers and strings; space, tab, line feed and
carriage return may stand between them. Escapes in strings are decoded here: a surrogate must be
the first half of a pair, and control characters must be escaped.
-/

import SampleShapes.Json.Number

namespace SampleShapes.Json

/-- A lexical unit of a JSON text. -/
inductive Token where
  | openArray
  | closeArray
  | openObject
  | closeObject
  | comma
  | colon
  | null
  | bool (value : Bool)
  | number (literal : String)
  | string (text : String)

namespace Token

/-! ### Strings -/

/-- The value of a hexadecimal digit. -/
def hexValue? (c : Char) : Option Nat :=
  if c.isDigit then some (c.toNat - '0'.toNat)
  else if 'a' ≤ c && c ≤ 'f' then some (c.toNat - 'a'.toNat + 10)
  else if 'A' ≤ c && c ≤ 'F' then some (c.toNat - 'A'.toNat + 10)
  else none

/-- The number that four hexadecimal digits write. -/
def unit? (a b c d : Char) : Option Nat := do
  return (((← hexValue? a) * 16 + (← hexValue? b)) * 16 + (← hexValue? c)) * 16 + (← hexValue? d)

/-- The character of a pair of surrogates. -/
def pair? (high low : Nat) : Option Char :=
  if 0xd800 ≤ high && high < 0xdc00 && 0xdc00 ≤ low && low < 0xe000 then
    some (Char.ofNat (0x10000 + (high - 0xd800) * 0x400 + (low - 0xdc00)))
  else none

/-- The character that one code unit writes, unless it is a surrogate. -/
def single? (unit : Nat) : Option Char :=
  if 0xd800 ≤ unit && unit < 0xe000 then none else some (Char.ofNat unit)

/-- The character after a backslash, for the escapes of one letter. -/
def simpleEscape? : Char → Option Char
  | '"' => some '"'
  | '\\' => some '\\'
  | '/' => some '/'
  | 'b' => some '\x08'
  | 'f' => some '\x0c'
  | 'n' => some '\n'
  | 'r' => some '\r'
  | 't' => some '\t'
  | _ => none

/-- The text up to the closing quote and what follows it; `done` holds what is decoded already,
latest first. -/
def stringBody? (done : List Char) : List Char → Option (String × List Char)
  | [] => none
  | '"' :: rest => some (String.ofList done.reverse, rest)
  | '\\' :: 'u' :: a :: b :: c :: d :: '\\' :: 'u' :: e :: f :: g :: h :: rest =>
    match unit? a b c d with
    | none => none
    | some first =>
      match single? first with
      | some char => stringBody? (char :: done) ('\\' :: 'u' :: e :: f :: g :: h :: rest)
      | none =>
        match (unit? e f g h).bind (pair? first) with
        | some char => stringBody? (char :: done) rest
        | none => none
  | '\\' :: 'u' :: a :: b :: c :: d :: rest =>
    match (unit? a b c d).bind single? with
    | some char => stringBody? (char :: done) rest
    | none => none
  | '\\' :: c :: rest =>
    match simpleEscape? c with
    | some char => stringBody? (char :: done) rest
    | none => none
  | c :: rest => if c.toNat < 0x20 || c == '\\' then none else stringBody? (c :: done) rest

/-! ### Scanning -/

/-- White space between tokens. -/
def isSpace (c : Char) : Bool := c == ' ' || c == '\n' || c == '\t' || c == '\r'

/-- Split one token off the front of `chars`, which do not start with white space. -/
def next? : List Char → Option (Token × List Char)
  | '[' :: rest => some (openArray, rest)
  | ']' :: rest => some (closeArray, rest)
  | '{' :: rest => some (openObject, rest)
  | '}' :: rest => some (closeObject, rest)
  | ',' :: rest => some (comma, rest)
  | ':' :: rest => some (colon, rest)
  | 'n' :: 'u' :: 'l' :: 'l' :: rest => some (null, rest)
  | 't' :: 'r' :: 'u' :: 'e' :: rest => some (bool true, rest)
  | 'f' :: 'a' :: 'l' :: 's' :: 'e' :: rest => some (bool false, rest)
  | '"' :: rest => (stringBody? [] rest).map fun (text, rest) => (string text, rest)
  | chars =>
    match NumberLiteral.read? chars with
    | some (literal, rest) => if literal.isFinite then some (number literal.text, rest) else none
    | none => none

/-- All tokens of a text; every token uses up one character or more, so `fuel` need not exceed the
number of characters. -/
def scanWithin (done : List Token) : Nat → List Char → Option (List Token)
  | _, [] => some done.reverse
  | 0, _ => none
  | fuel + 1, c :: rest =>
    if isSpace c then scanWithin done fuel rest
    else
      match next? (c :: rest) with
      | some (token, rest) => scanWithin (token :: done) fuel rest
      | none => none

/-- The tokens of a text. -/
def scan? (text : String) : Option (List Token) :=
  let chars := text.toList
  scanWithin [] chars.length chars

end Token

end SampleShapes.Json
