/-
**Blank characters and lines.**

A blank is a character with the Unicode property White_Space. Lines end at a line feed, which a
carriage return may precede.
-/

namespace SampleShapes.Text

/-- The white space characters of Unicode. -/
def isBlank (c : Char) : Bool :=
  let code := c.toNat
  (9 ≤ code && code ≤ 13) || code == 0x20 || code == 0x85 || code == 0xa0 || code == 0x1680 ||
  (0x2000 ≤ code && code ≤ 0x200a) || code == 0x2028 || code == 0x2029 || code == 0x202f ||
  code == 0x205f || code == 0x3000

/-- A text without any visible character. -/
def isBlankText (text : String) : Bool :=
  text.toList.all isBlank

/-- Drop one carriage return at the end. -/
def dropReturn (line : List Char) : List Char :=
  if line.getLast? = some '\r' then line.dropLast else line

/-- The lines of `chars`, where `line` holds the characters of the current line, latest first. -/
def splitLines (line : List Char) : List Char → List String
  | [] => if line.isEmpty then [] else [String.ofList line.reverse]
  | '\n' :: rest => String.ofList (dropReturn line.reverse) :: splitLines [] rest
  | c :: rest => splitLines (c :: line) rest

/-- The lines of a text without their line ends; the last line needs none. -/
def lines (text : String) : List String :=
  splitLines [] text.toList

end SampleShapes.Text
