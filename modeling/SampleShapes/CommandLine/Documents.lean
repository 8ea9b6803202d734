/-
**Documents.**

An input holds one document, or one on every line that is not blank. The pointer selects a part of
each. Several documents are combined into one list of samples, to which a list adds its elements
and everything else itself.
-/

import SampleShapes.Json.Pointer
import SampleShapes.Json.Reader
import SampleShapes.Text.Blank

namespace SampleShapes.CommandLine

/-- Why documents cannot be had from an input. -/
inductive DocumentError where
  /-- The input is no JSON text. -/
  | notJson (input : String)
  /-- The line with a number is no JSON text. -/
  | lineNotJson (input : String) (line : Nat)
  /-- The pointer selects nothing. -/
  | unselected (input pointer : String)
  /-- There is no document in any input. -/
  | none
  deriving DecidableEq, Repr

namespace Documents

/-- The most containers inside each other in a document. -/
def maxNesting : Nat := 127

/-- The part of a document that the pointer selects. -/
def select (input : String) (pointer : Option String) (document : Json) :
    Except DocumentError Json :=
  match pointer with
  | .none => .ok document
  | some pointer =>
    match document.pointer? pointer with
    | some part => .ok part
    | .none => .error (.unselected input pointer)

/-- Read the document of a text. -/
def read (error : DocumentError) (text : String) : Except DocumentError Json :=
  match Json.read? (some maxNesting) text with
  | some document => .ok document
  | .none => .error error

/-- The documents on lines, of which the first has the number `number`. -/
def ofLines (input : String) (pointer : Option String) :
    Nat → List String → Except DocumentError (List Json)
  | _, [] => .ok []
  | number, line :: rest =>
    if Text.isBlankText line then ofLines input pointer (number + 1) rest
    else do
      let document ← select input pointer (← read (.lineNotJson input number) line)
      return document :: (← ofLines input pointer (number + 1) rest)

/-- The documents of an input. -/
def ofInput (lineByLine : Bool) (pointer : Option String) (input text : String) :
    Except DocumentError (List Json) :=
  if lineByLine then ofLines input pointer 1 (Text.lines text)
  else do
    return [← select input pointer (← read (.notJson input) text)]

/-- What a document adds to the samples. -/
def samples : Json → List Json
  | .array elements => elements
  | document => [document]

/-- Combine documents: a single one is left as it is. -/
def combine : List Json → Except DocumentError Json
  | [] => .error .none
  | [document] => .ok document
  | documents => .ok (.array (documents.flatMap samples))

end Documents

end SampleShapes.CommandLine
