/-
**Renaming nodes.**

Two registries may keep the same shapes under different nodes. If the nodes stand in the same order,
a renaming takes everything that is built from identities from one registry to the other: sets keep
the order of their members, fields the order of their keys, and two shapes have one fingerprint
exactly if they have one before.

* `ShapeId.rank_rename_lt`: renamed identities stand in the same order;
* `IdSet.rename_insert`, `IdSet.rename_insertAll`, `IdSet.rename_ofList`: sets are built alike;
* `Shape.children_rename`: a renamed shape points at the renamed children;
* `Shape.fingerprint_rename_eq_iff`: **renaming neither joins nor parts shapes.**
-/

import Mathlib.Order.Hom.Basic
import SampleShapes.Proofs.Shape.Fingerprint

namespace SampleShapes

variable {nodes : Nat ↪o Nat}

/-! ### Moving nodes up -/

/-- Nodes from `first` on move up by `more`. -/
def shiftFrom (first more : Nat) : Nat ↪o Nat :=
  OrderEmbedding.ofStrictMono (fun index => if index < first then index else index + more) <| by
    intro index other before
    dsimp only
    split <;> split <;> omega

theorem shiftFrom_of_lt {first index : Nat} (before : index < first) (more : Nat) :
    shiftFrom first more index = index := if_pos before

theorem shiftFrom_add (first more offset : Nat) :
    shiftFrom first more (first + offset) = first + offset + more :=
  if_neg (Nat.not_lt.mpr (Nat.le_add_right first offset))

/-! ### Identities -/

namespace ShapeId

variable {id other : ShapeId}

/-- The identity in terms of renamed nodes. -/
def rename (nodes : Nat ↪o Nat) : ShapeId → ShapeId
  | node index => node (nodes index)
  | primitive kind => primitive kind
  | date => date

@[simp] theorem rename_node (index : Nat) : (node index).rename nodes = node (nodes index) := rfl
@[simp] theorem rename_primitive (kind : Primitive) :
    (primitive kind).rename nodes = primitive kind := rfl
@[simp] theorem rename_date : date.rename nodes = date := rfl

theorem rename_injective : Function.Injective (rename nodes) := by
  intro id other same
  cases id with
  | node index =>
    cases other with
    | node index' => rw [nodes.injective (node.inj same)]
    | primitive kind => cases same
    | date => cases same
  | primitive kind =>
    cases other with
    | node index => cases same
    | primitive kind' => exact same
    | date => cases same
  | date =>
    cases other with
    | node index => cases same
    | primitive kind => cases same
    | date => rfl

@[simp] theorem rename_eq_null_iff : id.rename nodes = null ↔ id = null :=
  rename_injective.eq_iff' rfl

@[simp] theorem index?_rename : (id.rename nodes).index? = id.index?.map nodes := by
  cases id <;> rfl

/-- **Renamed identities stand in the same order.** -/
theorem rank_rename_lt (before : id.rank < other.rank) :
    (id.rename nodes).rank < (other.rename nodes).rank := by
  have kinds : ∀ kind : Primitive, (primitive kind).rank < 5 := by
    intro kind
    cases kind <;> decide
  cases id with
  | node index =>
    cases other with
    | node index' =>
      have rises := nodes.strictMono (Nat.lt_of_add_lt_add_right before)
      show nodes index + 6 < nodes index' + 6
      omega
    | primitive kind =>
      have low := kinds kind
      change index + 6 < _ at before
      omega
    | date =>
      change index + 6 < 5 at before
      omega
  | primitive kind =>
    cases other with
    | node index =>
      have low := kinds kind
      show (primitive kind).rank < nodes index + 6
      omega
    | primitive kind' => exact before
    | date => exact before
  | date =>
    cases other with
    | node index =>
      show 5 < nodes index + 6
      omega
    | primitive kind => exact before
    | date => exact before

theorem ceiling_rename_lt (below : id.ceiling < other.ceiling) :
    (id.rename nodes).ceiling < (other.rename nodes).ceiling := by
  cases other with
  | node index =>
    cases id with
    | node index' =>
      have rises := nodes.strictMono (Nat.lt_of_add_lt_add_right below)
      exact Nat.succ_lt_succ rises
    | primitive kind => exact Nat.succ_pos _
    | date => exact Nat.succ_pos _
  | primitive kind => exact absurd below (Nat.not_lt_zero _)
  | date => exact absurd below (Nat.not_lt_zero _)

theorem rename_shiftFrom {first : Nat} (below : id.ceiling ≤ first) (more : Nat) :
    id.rename (shiftFrom first more) = id := by
  cases id with
  | node index => exact congrArg node (shiftFrom_of_lt below more)
  | primitive kind => rfl
  | date => rfl

/-- Null keeps its name. -/
theorem filter_rename (ids : List ShapeId) :
    (ids.map (rename nodes)).filter (· ≠ .null) = (ids.filter (· ≠ .null)).map (rename nodes) := by
  rw [List.filter_map]
  refine congrArg _ (List.filter_congr fun id _ => ?_)
  simp

end ShapeId

/-! ### Sets -/

namespace IdSet

variable {id : ShapeId} {set : IdSet} {ids : List ShapeId}

/-- The set in terms of renamed nodes. -/
def rename (nodes : Nat ↪o Nat) (set : IdSet) : IdSet where
  toList := set.toList.map (ShapeId.rename nodes)
  sorted := List.pairwise_map.mpr (set.sorted.imp ShapeId.rank_rename_lt)

@[simp] theorem toList_rename : (set.rename nodes).toList = set.toList.map (ShapeId.rename nodes) :=
  rfl

theorem mem_rename_iff : id ∈ set.rename nodes ↔ ∃ old ∈ set, old.rename nodes = id :=
  List.mem_map

@[simp] theorem rename_mem_rename_iff : id.rename nodes ∈ set.rename nodes ↔ id ∈ set :=
  List.mem_map_of_injective ShapeId.rename_injective

theorem rename_injective : Function.Injective (rename nodes) := by
  intro set other same
  have kept (set : IdSet) (id : ShapeId) : id.rename nodes ∈ set.rename nodes ↔ id ∈ set :=
    rename_mem_rename_iff
  refine eq_of_mem_iff fun id => ?_
  rw [← kept set, same, kept other]

@[simp] theorem isEmpty_rename : (set.rename nodes).isEmpty = set.isEmpty := by
  simp [isEmpty]

theorem rename_eq_self (fixed : ∀ id ∈ set, id.rename nodes = id) : set.rename nodes = set := by
  refine eq_of_mem_iff fun id => ?_
  rw [mem_rename_iff]
  constructor
  · rintro ⟨old, member, rfl⟩
    rw [fixed old member]
    exact member
  · exact fun member => ⟨id, member, fixed id member⟩

theorem rename_insert :
    (set.insert id).rename nodes = (set.rename nodes).insert (id.rename nodes) := by
  refine eq_of_mem_iff fun other => ?_
  simp only [mem_rename_iff, mem_insert]
  constructor
  · rintro ⟨old, rfl | member, rfl⟩
    · exact .inl rfl
    · exact .inr ⟨old, member, rfl⟩
  · rintro (rfl | ⟨old, member, rfl⟩)
    · exact ⟨id, .inl rfl, rfl⟩
    · exact ⟨old, .inr member, rfl⟩

theorem rename_insertAll :
    (set.insertAll ids).rename nodes =
      (set.rename nodes).insertAll (ids.map (ShapeId.rename nodes)) := by
  unfold insertAll
  induction ids with
  | nil => rfl
  | cons first rest step =>
    rw [List.foldr_cons, rename_insert, step, List.map_cons, List.foldr_cons]

theorem rename_ofList :
    (ofList ids).rename nodes = ofList (ids.map (ShapeId.rename nodes)) :=
  rename_insertAll

end IdSet

/-! ### Shapes -/

/-- The field in terms of renamed nodes. -/
def Field.rename (nodes : Nat ↪o Nat) (field : Field) : Field :=
  { field with shape := field.shape.rename nodes }

@[simp] theorem Field.key_rename (field : Field) : (field.rename nodes).key = field.key := rfl
@[simp] theorem Field.shape_rename (field : Field) :
    (field.rename nodes).shape = field.shape.rename nodes := rfl
@[simp] theorem Field.optional_rename (field : Field) :
    (field.rename nodes).optional = field.optional := rfl

namespace Shape

variable {shape other : Shape}

/-- The shape in terms of renamed nodes. -/
def rename (nodes : Nat ↪o Nat) : Shape → Shape
  | object fields => object (fields.map (Field.rename nodes))
  | list elements => list (elements.rename nodes)
  | union members => union (members.rename nodes)

/-- **A renamed shape points at the renamed children.** -/
@[simp] theorem children_rename :
    (shape.rename nodes).children = shape.children.map (ShapeId.rename nodes) := by
  cases shape with
  | object fields => simp [rename, children]
  | list elements => rfl
  | union members => rfl

@[simp] theorem fields?_rename :
    (shape.rename nodes).fields? = shape.fields?.map (Table.map (Field.rename nodes)) := by
  cases shape <;> rfl

@[simp] theorem elements?_rename :
    (shape.rename nodes).elements? = shape.elements?.map (IdSet.rename nodes) := by
  cases shape <;> rfl

@[simp] theorem members?_rename :
    (shape.rename nodes).members? = shape.members?.map (IdSet.rename nodes) := by
  cases shape <;> rfl

/-- **A renaming that leaves the children of a shape leaves the shape.** -/
theorem rename_eq_self (fixed : ∀ child ∈ shape.children, child.rename nodes = child) :
    shape.rename nodes = shape := by
  cases shape with
  | object fields =>
    refine congrArg object (Table.eq_of_entries_eq ?_)
    refine (List.map_congr_left fun entry member => ?_).trans (List.map_id _)
    have child : entry.2.shape ∈ fields.values.map Field.shape :=
      List.mem_map_of_mem (List.mem_map_of_mem member)
    show (entry.1, entry.2.rename nodes) = entry
    rw [Field.rename, fixed _ child]
  | list elements => exact congrArg list (IdSet.rename_eq_self fixed)
  | union members => exact congrArg union (IdSet.rename_eq_self fixed)

/-- **Renaming neither joins nor parts shapes.** -/
theorem fingerprint_rename_eq_iff :
    (shape.rename nodes).fingerprint = (other.rename nodes).fingerprint ↔
      shape.fingerprint = other.fingerprint := by
  have outline (field : Field) : (field.rename nodes).outline =
      Prod.map id (ShapeId.rename nodes) field.outline := rfl
  have parts : Function.Injective (Option.map (Prod.map id (ShapeId.rename nodes)) :
      Option (Bool × ShapeId) → Option (Bool × ShapeId)) :=
    Option.map_injective (Function.injective_id.prodMap ShapeId.rename_injective)
  cases shape with
  | object fields =>
    cases other with
    | object others =>
      simp only [rename, fingerprint_object_eq_iff, Table.get?_map, Option.map_map]
      refine forall_congr' fun raw => ?_
      rw [← parts.eq_iff (a := (fields.get? raw).map Field.outline), Option.map_map, Option.map_map]
      rfl
    | list elements => exact iff_of_false (fun same => by cases same) (fun same => by cases same)
    | union members => exact iff_of_false (fun same => by cases same) (fun same => by cases same)
  | list elements =>
    cases other with
    | object fields => exact iff_of_false (fun same => by cases same) (fun same => by cases same)
    | list others =>
      simp only [rename, fingerprint, Fingerprint.list.injEq, IdSet.rename_injective.eq_iff]
    | union members => exact iff_of_false (fun same => by cases same) (fun same => by cases same)
  | union members =>
    cases other with
    | object fields => exact iff_of_false (fun same => by cases same) (fun same => by cases same)
    | list elements => exact iff_of_false (fun same => by cases same) (fun same => by cases same)
    | union others =>
      simp only [rename, fingerprint, Fingerprint.union.injEq, IdSet.rename_injective.eq_iff]

end Shape

end SampleShapes
