/-
**Hints for names.**

Every path to an object suggests a name for it. Suggestions fall into tiers: the name of the root,
the target of an explicit reference, the key of a field, and the key of a reference whose value
carries no structure of its own.
-/

import SampleShapes.ShapeGraph
import SampleShapes.Word

namespace SampleShapes

/-- How much a suggestion counts, the strongest first. -/
inductive Tier where
  /-- The name of the root. -/
  | root
  /-- The target of a reference with a structured value. -/
  | target
  /-- The key of a plain field. -/
  | key
  /-- The key of a reference whose value is a placeholder. -/
  | placeholder
  deriving DecidableEq, Repr

/-- The tiers, the strongest first. -/
def Tier.all : List Tier := [root, target, key, placeholder]

/-- A suggestion for the name of an object. -/
structure Hint where
  /-- The word it is made from. -/
  word : String
  /-- How much it counts. -/
  tier : Tier
  /-- The word is taken as it is. -/
  verbatim : Bool
  /-- The path leads through a list, so that the word is a plural. -/
  element : Bool
  deriving DecidableEq, Repr

/-- The name that a hint suggests. -/
def Hint.name (hint : Hint) : String :=
  if hint.verbatim then hint.word
  else if hint.element then Word.elementTypeName hint.word
  else Word.typeName hint.word

/-- The shape is that of null, of an object without fields or of a list without elements: values
that carry no structure of their own. -/
def Registry.isPlaceholder (registry : Registry) (id : ShapeId) : Bool :=
  id = .null ||
    match registry.shape? id with
    | some (.object fields) => fields.isEmpty
    | some (.list elements) =>
      elements.toList.all fun element => (registry.members? element).any IdSet.isEmpty
    | _ => false

/-- The hint for the root. -/
def Hint.ofRoot (name : String) : Hint := ⟨name, .root, true, false⟩

/-- The hint that a field gives for the objects in its position. -/
def Hint.ofField (registry : Registry) (field : Field) : Hint :=
  match field.key.target? with
  | some target =>
    if registry.isPlaceholder field.shape then ⟨field.key.name, .placeholder, false, false⟩
    else ⟨target, .target, true, false⟩
  | none => ⟨field.key.name, .key, false, false⟩

end SampleShapes
