/-
**Observing values.**

An observer walks through values and interns the shape of everything they contain. The elements of
an array are merged into one; equal structures get one identity. An observation that fails leaves
behind what it interned up to then.
-/

import SampleShapes.Calendar
import SampleShapes.Failure
import SampleShapes.Options
import SampleShapes.Registry.Merge

namespace SampleShapes

/-! ### Values without structure -/

/-- The groups of values that are told apart before their structure is looked at. -/
inductive ValueGroup where
  | primitive
  | date
  | array
  | object
  deriving DecidableEq, Repr

namespace Json

/-- The group of a value; texts are looked at for dates only if `detectDates` says so. -/
def group (detectDates : Bool) : Json → ValueGroup
  | array _ => .array
  | object _ => .object
  | string text => if detectDates && Calendar.looksLikeDate text then .date else .primitive
  | _ => .primitive

/-- The kind of a value without structure. -/
def primitive : Json → Primitive
  | null => .null
  | bool _ => .boolean
  | number _ => .number
  | string _ => .string
  | array _ => .any
  | object _ => .any

/-- The identity of a value without structure. -/
def scalarId (detectDates : Bool) (value : Json) : ShapeId :=
  if value.group detectDates = .date then .date else .primitive value.primitive

end Json

/-! ### The observer -/

/-- What observations leave behind. -/
structure Observer where
  /-- The shapes seen so far. -/
  registry : Registry
  /-- The list shape that each explicit reference was first bound to. -/
  bindings : Table String ShapeId

namespace Observer

/-- An observer that has seen nothing. -/
def empty : Observer := ⟨∅, ∅⟩

instance : EmptyCollection Observer := ⟨empty⟩

end Observer

/-- A step of an observation, which may fail; what it left behind stays in either case. -/
abbrev Observing := ExceptT Failure (StateM Observer)

namespace Observing

/-- Intern a shape. -/
def intern (shape : Shape) : Observing ShapeId :=
  modifyGet fun observer =>
    let (id, registry) := observer.registry.intern shape
    (id, { observer with registry })

/-- Merge shapes. -/
def merge (candidates : List ShapeId) : Observing ShapeId :=
  modifyGet fun observer =>
    let (id, registry) := observer.registry.merge candidates
    (id, { observer with registry })

/-- The shape of a field. Under an explicit reference a list with elements binds its target, unless
a list did so before, and an empty list takes the shape that its target is bound to. -/
def bindList (target : Option String) (value : Json) (observe : Observing ShapeId) :
    Observing ShapeId :=
  match target, value with
  | some target, .array [] => do
    match (← get).bindings.get? target with
    | some bound => pure bound
    | none => observe
  | some target, .array (_ :: _) => do
    let id ← observe
    modify fun observer => { observer with bindings := observer.bindings.putNew target id }
    pure id
  | _, _ => observe

mutual

/-- The shape of a value that stands `depth` levels deep. -/
def value (options : Options) (depth : Nat) (sample : Json) : Observing ShapeId := do
  if options.maxDepth < depth then
    throw (.depthLimitExceeded options.maxDepth)
  match sample with
  | .array elements =>
    let ids ← Observing.elements options (depth + 1) elements
    let element ← merge ids
    intern (.list (.singleton element))
  | .object members =>
    let fields ← Observing.members options (depth + 1) members
    intern (.object (.ofList fields))
  | scalar => pure (scalar.scalarId options.detectDates)

/-- The shapes of the elements of an array. -/
def elements (options : Options) (depth : Nat) : List Json → Observing (List ShapeId)
  | [] => pure []
  | element :: rest => do
    let id ← value options depth element
    let ids ← elements options depth rest
    pure (id :: ids)

/-- The fields of an object under their raw keys. -/
def members (options : Options) (depth : Nat) :
    List (String × Json) → Observing (List (String × Field))
  | [] => pure []
  | (raw, member) :: rest => do
    let key := Key.parse raw
    let shape ← bindList key.target? member (value options depth member)
    let fields ← members options depth rest
    pure ((raw, ⟨key, shape, false⟩) :: fields)

end

end Observing

/-- Observe one value: the identity of its shape or the reason why it has none, and what is left
behind. -/
def Observer.observe (options : Options) (sample : Json) (observer : Observer) :
    Except Failure ShapeId × Observer :=
  (Observing.value options 0 sample).run.run observer

end SampleShapes
