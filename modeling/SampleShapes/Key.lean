/-
**Field keys and explicit references.**

A key may bind its field to a declaration by name:

* `base[Target]` refers to the declaration `Target`;
* `+base[Target]` also makes `Target` a subclass of the declaring type;
* `+base` does the same with a target named after `base`.

The target is an identifier over ASCII letters, digits, `_` and `$` that does not start with a
digit, and the base holds no line feed; every other key is plain.
-/

import SampleShapes.Word

namespace SampleShapes

/-- What a key says beyond its name. -/
inductive Mark where
  /-- Nothing. -/
  | plain
  /-- The field refers to a declaration. -/
  | reference (target : String)
  /-- The field refers to a declaration that is a subclass of the declaring type. -/
  | subclass (target : String)
  deriving DecidableEq, Repr

/-- The declaration that a mark names. -/
def Mark.target? : Mark → Option String
  | plain => none
  | reference target => some target
  | subclass target => some target

/-- A field key. -/
structure Key where
  /-- The key without its mark. -/
  name : String
  /-- What the key says beyond its name. -/
  mark : Mark
  deriving DecidableEq, Repr

namespace Key

/-- The declaration that a key names. -/
def target? (key : Key) : Option String := key.mark.target?

/-- A character that a target may start with. -/
def startsTarget (c : Char) : Bool := c.isAlpha || c == '_' || c == '$'

/-- A character that a target may hold. -/
def inTarget (c : Char) : Bool := c.isAlphanum || c == '_' || c == '$'

/-- The characters are an identifier that may stand as a target. -/
def isTarget : List Char → Bool
  | [] => false
  | c :: rest => startsTarget c && rest.all inTarget

/-- Split `base[Target]` into its two parts. The target holds no bracket, so the split is at the
last opening one. -/
def bracketed? (raw : List Char) : Option (List Char × List Char) :=
  match raw.reverse with
  | ']' :: rest =>
    match rest.dropWhile inTarget with
    | '[' :: base =>
      let target := (rest.takeWhile inTarget).reverse
      if isTarget target && !base.contains '\n' then some (base.reverse, target) else none
    | _ => none
  | _ => none

/-- Read a key. -/
def parse (raw : String) : Key :=
  match bracketed? raw.toList, raw.toList with
  | some ('+' :: base, target), _ => ⟨String.ofList base, .subclass (String.ofList target)⟩
  | some (base, target), _ => ⟨String.ofList base, .reference (String.ofList target)⟩
  | none, '+' :: c :: rest =>
    let base := String.ofList (c :: rest)
    ⟨base, .subclass (Word.elementTypeName base)⟩
  | none, _ => ⟨raw, .plain⟩

end Key

end SampleShapes
