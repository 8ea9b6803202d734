/-
**Names for objects.**

Every object that the walk enters gets a name of its own: that of its best hint, or the first free
one with a number behind it. Objects with stronger hints choose first, and among equals those that
were reached first.

* `uniqueName_notMem`: a unique name is not used;
* `mem_of_lt_freeSuffix`: every number before the one it takes makes a name that is used.
-/

import Std.Data.String.ToNat
import SampleShapes.Naming.Walk
import SampleShapes.Warning

namespace SampleShapes

/-- The names of the objects of a graph. -/
structure Naming where
  /-- The name of each object, by first arrival. -/
  entries : List (Nat × String)
  /-- Collisions between a target and another name. -/
  warnings : List Warning
  /-- The objects that only placeholders lead to. -/
  synthesized : List Nat
  /-- The merge that each object under an explicit reference stands for. -/
  aliases : Table Nat Nat

namespace Naming

/-- The name of a node, or of the merge that it stands for. -/
def nameOf? (naming : Naming) (index : Nat) : Option String :=
  naming.entries.lookup ((naming.aliases.get? index).getD index)

/-- The name belongs to an object that more than placeholders lead to. -/
def isDeclared (naming : Naming) (name : String) : Bool :=
  naming.entries.any fun entry => entry.2 = name && entry.1 ∉ naming.synthesized

/-! ### Free names -/

/-- The least number from `suffix` on that makes a free name behind `wanted`. A name that is found
used is taken off, so that `fuel` need not exceed the number of used names. -/
def freeSuffix (wanted : String) : Nat → Nat → List String → Nat
  | 0, suffix, _ => suffix
  | fuel + 1, suffix, used =>
    if wanted ++ toString suffix ∈ used then
      freeSuffix wanted fuel (suffix + 1) (used.erase (wanted ++ toString suffix))
    else suffix

/-- The names among `used` that start with `wanted`. With the latest name first in `used`, numbers
behind `wanted` come in about the order in which they were given. -/
def alike (wanted : String) (used : List String) : List String :=
  (used.filter (·.startsWith wanted)).reverse

/-- `wanted` if it is free; else the first free one of `wanted2`, `wanted3`, …, which comes before
every name is used up. -/
def uniqueName (wanted : String) (used : List String) : String :=
  if wanted ∉ used then wanted
  else
    let others := alike wanted used
    wanted ++ toString (freeSuffix wanted others.length 2 others)

/-- Only names that are alike can stand in the way. -/
theorem append_mem_alike {wanted ending : String} {used : List String} :
    wanted ++ ending ∈ alike wanted used ↔ wanted ++ ending ∈ used := by
  simp [alike]

theorem le_freeSuffix {wanted : String} {fuel suffix : Nat} {used : List String} :
    suffix ≤ freeSuffix wanted fuel suffix used := by
  induction fuel generalizing suffix used with
  | zero => exact Nat.le_refl _
  | succ fuel step =>
    unfold freeSuffix
    split
    · exact Nat.le_trans (Nat.le_succ suffix) step
    · exact Nat.le_refl _

/-- A later number makes another name. -/
theorem append_toString_ne {wanted : String} {number suffix : Nat} (later : suffix < number) :
    wanted ++ toString number ≠ wanted ++ toString suffix := fun same =>
  Nat.ne_of_gt later (Nat.repr_inj.mp ((String.append_right_inj wanted).mp same))

/-- The number makes a free name. -/
theorem notMem_freeSuffix {wanted : String} {fuel suffix : Nat} {used : List String}
    (enough : used.length ≤ fuel) :
    wanted ++ toString (freeSuffix wanted fuel suffix used) ∉ used := by
  induction fuel generalizing suffix used with
  | zero => simp [List.length_eq_zero_iff.mp (Nat.le_zero.mp enough)]
  | succ fuel step =>
    unfold freeSuffix
    split
    · next taken =>
      have shorter := List.length_erase_of_mem taken
      have rest : (used.erase (wanted ++ toString suffix)).length ≤ fuel := by omega
      rw [← List.mem_erase_of_ne (append_toString_ne le_freeSuffix)]
      exact step rest
    · next free => exact free

/-- Every number before it makes a name that is used. -/
theorem mem_of_lt_freeSuffix {wanted : String} {fuel suffix number : Nat} {used : List String}
    (start : suffix ≤ number) (before : number < freeSuffix wanted fuel suffix used) :
    wanted ++ toString number ∈ used := by
  induction fuel generalizing suffix used with
  | zero => exact absurd before (Nat.not_lt.mpr start)
  | succ fuel step =>
    unfold freeSuffix at before
    split at before
    · next taken =>
      rcases Nat.eq_or_lt_of_le start with rfl | later
      · exact taken
      · exact List.mem_of_mem_erase (step later before)
    · exact absurd before (Nat.not_lt.mpr start)

/-- **A unique name is not used.** -/
theorem uniqueName_notMem {wanted : String} {used : List String} :
    uniqueName wanted used ∉ used := by
  unfold uniqueName
  split
  · next free => exact free
  · rw [← append_mem_alike]
    exact notMem_freeSuffix (Nat.le_refl _)

/-! ### Assignments -/

/-- The names that are assigned so far. -/
structure Assignment where
  /-- The name of each object, latest first. -/
  named : List (Nat × String)
  /-- The names that targets got. -/
  targets : List String
  /-- The objects named through placeholders. -/
  synthesized : List Nat
  /-- The collisions, latest first. -/
  warnings : List Warning

/-- Name one object by its best hint. -/
def Assignment.name (assignment : Assignment) (index : Nat) (hint : Hint) : Assignment :=
  let wanted := hint.name
  let name := uniqueName wanted (assignment.named.map Prod.snd)
  let contested :=
    match hint.tier with
    | .target => true
    | .key => wanted ∈ assignment.targets
    | .root | .placeholder => false
  { named := (index, name) :: assignment.named
    targets := if hint.tier = .target then name :: assignment.targets else assignment.targets
    synthesized :=
      if hint.tier = .placeholder then index :: assignment.synthesized
      else assignment.synthesized
    warnings :=
      if name ≠ wanted && contested then .nameCollision wanted name :: assignment.warnings
      else assignment.warnings }

/-- The objects with their best hints, in the order in which they choose their names. -/
def choosing (walk : Walk) : List (Nat × Hint) :=
  let candidates := walk.order.filterMap fun index => (walk.best? index).map (index, ·)
  Tier.all.flatMap fun tier => candidates.filter (·.2.tier = tier)

/-- Name the objects of a graph. -/
def ofGraph (graph : ShapeGraph) (rootName : String) : Naming :=
  let walk := Walk.ofGraph graph rootName
  let assignment :=
    (choosing walk).foldl (fun assignment entry => Assignment.name assignment entry.1 entry.2)
      ⟨[], [], [], []⟩
  { entries := walk.order.filterMap fun index => (assignment.named.lookup index).map (index, ·)
    warnings := assignment.warnings.reverse
    synthesized := assignment.synthesized
    aliases := graph.aliases }

end Naming

end SampleShapes
