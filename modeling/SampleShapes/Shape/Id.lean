/-
**Shape identities.**

A shape is identified by a primitive kind, as a date, or by the place of its node in a registry.
Equal identities of one registry mean equal structure.

* `rank_injective`: identities are ordered by rank, and the rank determines the identity.
-/

namespace SampleShapes

/-- The kinds of values without structure. -/
inductive Primitive where
  | string
  | number
  | boolean
  | null
  | any
  deriving DecidableEq, Repr

/-- The word for a kind. -/
def Primitive.keyword : Primitive → String
  | string => "string"
  | number => "number"
  | boolean => "boolean"
  | null => "null"
  | any => "any"

/-- The identity of a shape. -/
inductive ShapeId where
  /-- A kind without structure. -/
  | primitive (kind : Primitive)
  /-- A date written as text. -/
  | date
  /-- An object, a list or a union: the node at `index`. -/
  | node (index : Nat)
  deriving DecidableEq, Repr

namespace ShapeId

/-- The identity of the null value. -/
abbrev null : ShapeId := primitive .null

/-- The identity that says nothing. -/
abbrev any : ShapeId := primitive .any

/-- The index of a node. -/
def index? : ShapeId → Option Nat
  | node index => some index
  | _ => none

/-- How an identity is written: a keyword, `Date`, or the index behind a hash sign. -/
def text : ShapeId → String
  | primitive kind => kind.keyword
  | date => "Date"
  | node index => "#" ++ toString index

/-- The place of an identity in the order of identities: the kinds, dates, then nodes by index. -/
def rank : ShapeId → Nat
  | primitive .string => 0
  | primitive .number => 1
  | primitive .boolean => 2
  | primitive .null => 3
  | primitive .any => 4
  | date => 5
  | node index => index + 6

/-- **The rank determines the identity.** -/
theorem rank_injective {first second : ShapeId} (same : first.rank = second.rank) :
    first = second := by
  rcases first with kind | _ | index <;> rcases second with other | _ | index' <;>
    (try cases kind) <;> (try cases other) <;> simp [rank] at same ⊢
  omega

/-- One more than the index of a node, and zero for everything else. -/
def ceiling : ShapeId → Nat
  | node index => index + 1
  | _ => 0

end ShapeId

end SampleShapes
