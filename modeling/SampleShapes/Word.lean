/-
**Words and type names.**

A key is turned into the name of a type by cutting it at every character that is neither a letter
nor a number and starting each part with a capital; the name of the elements of a list comes from
the singular of its key.

* `typeName`: `favorite_word` and `favoriteWord` to `FavoriteWord`;
* `singular`: a best effort at the English singular of the last word, by a table of irregular
  plurals and a few endings.
-/

import SampleShapes.Text.Alphanumeric
import SampleShapes.Text.Casing

namespace SampleShapes.Word

/-! ### Type names -/

/-- The parts of a word run together, each with a capital; `fresh` says that a part starts here. -/
def pascal (fresh : Bool) : List Char → List Char
  | [] => []
  | c :: rest =>
    if Text.isAlphanumeric c then
      (if fresh then Text.upper c else [c]) ++ pascal false rest
    else pascal true rest

/-- The type name that a word gives: `Type` if nothing of it is left, and an underscore in front
of a leading digit. -/
def typeName (word : String) : String :=
  match pascal true word.toList with
  | [] => "Type"
  | c :: rest => String.ofList (if c.isDigit then '_' :: c :: rest else c :: rest)

/-! ### Singulars -/

/-- Plurals that no ending explains, with their singulars. -/
def irregular : List (String × String) :=
  [("people", "person"), ("children", "child"), ("women", "woman"), ("men", "man"),
    ("mice", "mouse"), ("geese", "goose")]

/-- Plural endings in `-es` of which two letters go. -/
def longEndings : List String := ["sses", "xes", "ches", "shes", "zes"]

/-- Endings in `s` that are no plurals. -/
def singularEndings : List String := ["ss", "us", "is"]

/-- The number of bytes that characters take in UTF-8. -/
def byteLength (chars : List Char) : Nat :=
  chars.foldr (fun c total => c.utf8Size + total) 0

/-- `chars` end with the characters of `ending`. -/
def endsWith (ending : String) (chars : List Char) : Bool :=
  ending.toList.isSuffixOf chars

/-- Leave out the last `n` characters. -/
def dropEnd (n : Nat) (chars : List Char) : List Char := chars.take (chars.length - n)

/-- Put the irregular singular `single` for the last `n` characters, with a capital if they start
with one. -/
def replaceEnd (n : Nat) (single : String) (chars : List Char) : String :=
  let capital := (chars.drop (chars.length - n)).head?.any Char.isUpper
  String.ofList (dropEnd n chars ++ (if capital then typeName single else single).toList)

/-- The singular of a word whose lower case form is `lowered`, by the endings of the latter. -/
def singularOf (word : String) (lowered : List Char) : String :=
  let chars := word.toList
  match irregular.find? fun (plural, _) => endsWith plural lowered with
  | some (plural, single) => replaceEnd plural.length single chars
  | none =>
    if endsWith "ies" lowered && 3 < byteLength lowered then
      String.ofList (dropEnd 3 chars ++ ['y'])
    else if longEndings.any (endsWith · lowered) then String.ofList (dropEnd 2 chars)
    else if singularEndings.any (endsWith · lowered) then word
    else if endsWith "s" lowered && 1 < byteLength lowered then String.ofList (dropEnd 1 chars)
    else word

/-- A best effort at the singular of the last word in `word`. A word whose lower case form takes
another number of bytes is left as it is. -/
def singular (word : String) : String :=
  let lowered := word.toList.flatMap Text.lower
  if byteLength lowered = byteLength word.toList then singularOf word lowered else word

/-- The type name for the elements of a list stored under `word`. -/
def elementTypeName (word : String) : String := typeName (singular word)

end SampleShapes.Word
