/-
**Resolving explicit references.**

Once objects have names, every field gets its type. A reference whose value has structure keeps the
type of that structure, which carries the name of the target already; any other reference is bound
to the declaration of its target, if there is one, and otherwise treated as the policy says.
Declarations that were made for a placeholder alone are left out, because nothing mentions them.
-/

import SampleShapes.Declaration
import SampleShapes.Options
import SampleShapes.Reach
import SampleShapes.Typing

namespace SampleShapes

/-! ### Fields -/

/-- What a mark makes of its field. -/
def Mark.fieldKind : Mark → FieldKind
  | plain => .plain
  | reference _ => .reference
  | subclass _ => .subclass

/-- The type of a reference to `target`: an array if the value is a list, and nullable if it is
null. -/
def Registry.boundType (registry : Registry) (shape : ShapeId) (target : String) : TypeRef :=
  if (registry.elements? shape).isSome then .array (.named target)
  else if shape = .null then .union [.named target, .null]
  else .named target

/-- A field in the making: its type, what it is, and what could not be done as asked. -/
structure FieldType where
  /-- The type, which may still be nullable. -/
  type : TypeRef
  /-- What the field is to its declaration. -/
  kind : FieldKind
  /-- The target that nothing declares. -/
  undeclared : Option String

/-- The type of a field with the raw key `raw`. -/
def Naming.fieldType (naming : Naming) (registry : Registry) (policy : ReferencePolicy)
    (raw : String) (field : Field) : Except Failure FieldType :=
  let natural := naming.typeOf registry field.shape
  let kind := field.key.mark.fieldKind
  match field.key.target? with
  | none => .ok ⟨natural, kind, none⟩
  | some target =>
    if !registry.isPlaceholder field.shape && !natural.references.isEmpty then
      .ok ⟨natural, kind, none⟩
    else
      let bound := registry.boundType field.shape target
      if naming.isDeclared target then .ok ⟨bound, kind, none⟩
      else
        match policy with
        | .error => .error (.unresolvedReference raw target)
        | .keep => .ok ⟨bound, kind, some target⟩
        | .drop => .ok ⟨natural, .plain, some target⟩

/-! ### Declarations -/

/-- What is found out while declarations are made: who extends whom, and the warnings, latest
first. -/
structure Findings where
  /-- The parent of each child. -/
  parents : Table String String
  /-- The warnings, latest first. -/
  warnings : List Warning

namespace Findings

/-- Add a warning. -/
def warn (findings : Findings) (warning : Warning) : Findings :=
  { findings with warnings := warning :: findings.warnings }

/-- A field of `parent` says that the declaration of its type extends `parent`. The first to say so
wins, and no declaration extends itself. -/
def addParent (findings : Findings) (type : TypeRef) (parent : String) : Findings :=
  match type.named? with
  | none => findings
  | some child =>
    if child = parent then findings
    else
      match findings.parents.get? child with
      | none => { findings with parents := findings.parents.put child parent }
      | some kept =>
        if kept = parent then findings else findings.warn (.conflictingParent child parent kept)

end Findings

/-- The setting in which the fields of one declaration are resolved. -/
structure Declaring where
  /-- The names of objects. -/
  naming : Naming
  /-- The shapes. -/
  registry : Registry
  /-- What becomes of unresolved references. -/
  policy : ReferencePolicy
  /-- The name of the declaration. -/
  name : String
  /-- The keys of all its fields without their marks. -/
  keys : List String

namespace Declaring

/-- Resolve one field. A key whose mark hides a clash with another one keeps its mark. -/
def field (setting : Declaring) (findings : Findings) (raw : String) (field : Field) :
    Except Failure (DeclaredField × Findings) := do
  let found ← setting.naming.fieldType setting.registry setting.policy raw field
  let findings :=
    match found.undeclared with
    | some target =>
      findings.warn (.unresolvedReference setting.name field.key.name target)
    | none => findings
  let (type, nullable) := found.type.collapseNull
  let clash := raw ≠ field.key.name && 1 < setting.keys.count field.key.name
  let findings := if clash then findings.warn (.duplicateKey setting.name raw) else findings
  let findings :=
    if found.kind = .subclass then findings.addParent type setting.name else findings
  return (⟨if clash then raw else field.key.name, type, field.optional || nullable, found.kind⟩,
    findings)

/-- Resolve fields in order. -/
def fields (setting : Declaring) :
    Findings → List (String × Field) → Except Failure (List DeclaredField × Findings)
  | findings, [] => .ok ([], findings)
  | findings, (raw, first) :: rest => do
    let (declared, findings) ← setting.field findings raw first
    let (others, findings) ← setting.fields findings rest
    return (declared :: others, findings)

end Declaring

/-- Make the declarations of named objects in order. -/
def Naming.declare (naming : Naming) (registry : Registry) (policy : ReferencePolicy) :
    Findings → List (Nat × String) → Except Failure (List Declaration × Findings)
  | findings, [] => .ok ([], findings)
  | findings, (index, name) :: rest =>
    match registry.shapeAt? index with
    | some (.object fields) => do
      let keys := fields.values.map (·.key.name)
      let (declared, findings) ←
        Declaring.fields ⟨naming, registry, policy, name, keys⟩ findings fields.entries
      let (others, findings) ← naming.declare registry policy findings rest
      return (⟨name, declared⟩ :: others, findings)
    | _ => naming.declare registry policy findings rest

/-! ### Mentioned declarations -/

namespace Declaration

/-- The declarations that are mentioned in the fields of the declaration of `name`. -/
def mentioned (declarations : List Declaration) (name : String) : List String :=
  match declarations.find? (·.name = name) with
  | some declaration =>
    (declaration.fields.flatMap (·.type.references)).filter fun target =>
      declarations.any (·.name = target)
  | none => []

/-- The names of the declarations that are mentioned, directly or not, from the one of `root`. -/
def reachable (declarations : List Declaration) (root : Option String) : List String :=
  Reach.explore (mentioned declarations) declarations.length
    (root.toList.filter (· ∈ declarations.map Declaration.name))

end Declaration

/-- Resolve the references of a graph whose objects are named. -/
def ShapeGraph.resolve (graph : ShapeGraph) (naming : Naming) (policy : ReferencePolicy) :
    Except Failure Resolution := do
  let (declarations, findings) ←
    naming.declare graph.registry policy ⟨∅, naming.warnings.reverse⟩ naming.entries
  let live := Declaration.reachable declarations (naming.entries.head?.map Prod.snd)
  return {
    declarations := declarations.filter (·.name ∈ live)
    parents := findings.parents.filter (· ∈ live)
    warnings := findings.warnings.reverse }

end SampleShapes
