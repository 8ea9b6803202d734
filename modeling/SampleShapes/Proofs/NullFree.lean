/-
**Samples without null.**

Where null stands nowhere in a sample, no shape of its graph points at null: what is observed in a
value points at what is observed in its parts, and a join is nullable only where null is among its
candidates. Nothing else brings null in. Without references, too, no two shapes of the graph look
alike: objects stand for themselves, and a list of which nothing is said is the one list of nothing.

* `Registry.nullFree_iff`: a shape is free of null if everything it points at is;
* `Registry.Joins.nullFree`: **the join of candidates without null is without null**;
* `ShapeGraph.null_notMem_children`: no shape points at null in the graph of such a sample;
* `ShapeGraph.eq_of_looksAlike_of_infer`: **and no two of them look alike.**
-/

import SampleShapes.Proofs.Naming.Lookalikes
import SampleShapes.Proofs.Resolution.Exactness

namespace SampleShapes

/-! ### Values -/

namespace Json

mutual

/-- Null stands nowhere inside of a value. -/
def lacksNull : Json → Bool
  | null => false
  | array elements => lackNull elements
  | object members => membersLackNull members
  | _ => true

/-- Null stands nowhere inside of some values. -/
def lackNull : List Json → Bool
  | [] => true
  | element :: rest => lacksNull element && lackNull rest

/-- Null stands nowhere inside of some members. -/
def membersLackNull : List (String × Json) → Bool
  | [] => true
  | (_, member) :: rest => lacksNull member && membersLackNull rest

end

/-- Null stands nowhere inside of the value. -/
def NullFree (value : Json) : Prop := value.lacksNull

instance (value : Json) : Decidable value.NullFree :=
  inferInstanceAs (Decidable (_ = true))

theorem nullFree_array {elements : List Json} :
    (array elements).NullFree ↔ ∀ element ∈ elements, element.NullFree := by
  unfold NullFree
  rw [lacksNull]
  induction elements with
  | nil => simp [lackNull]
  | cons element rest step => simp [lackNull, step]

theorem nullFree_object {members : List (String × Json)} :
    (object members).NullFree ↔ ∀ member ∈ members, member.2.NullFree := by
  unfold NullFree
  rw [lacksNull]
  induction members with
  | nil => simp [membersLackNull]
  | cons member rest step =>
    obtain ⟨raw, value⟩ := member
    simp [membersLackNull, step]

theorem NullFree.ne_null {value : Json} (nullFree : value.NullFree) : value ≠ null := by
  rintro rfl
  cases nullFree

end Json

/-! ### Shapes -/

namespace Registry

variable {registry : Registry} {detectDates : Bool} {sample : Json} {candidates ids : List ShapeId}
  {id joined solid : ShapeId} {shape : Shape}

/-- The shape is not null, and nothing that is reached from it points at null. -/
def NullFree (registry : Registry) (id : ShapeId) : Prop :=
  id ≠ .null ∧ ∀ index shape, registry.IsReached [id] index →
    registry.shapeAt? index = some shape → .null ∉ shape.children

theorem nullFree_of_shape?_eq_none (solid : id ≠ .null) (found : registry.shape? id = none) :
    registry.NullFree id := by
  refine ⟨solid, fun index shape reached kept => ?_⟩
  rcases isReached_singleton_iff.mp reached with rfl | ⟨shape, here, _⟩
  · cases found.symm.trans kept
  · cases found.symm.trans here

/-- **A shape is free of null if everything it points at is.** -/
theorem nullFree_iff (found : registry.shape? id = some shape) :
    registry.NullFree id ↔ ∀ child ∈ shape.children, registry.NullFree child := by
  constructor
  · intro ⟨_, reaches⟩ child member
    refine ⟨?_, fun index kept reached => ?_⟩
    · rintro rfl
      obtain ⟨index, rfl, kept⟩ := shape?_eq_some_iff.mp found
      exact reaches index shape (.start (List.mem_singleton_self index)) kept member
    · exact reaches index kept
        (isReached_singleton_iff.mpr (.inr ⟨shape, found, child, member, reached⟩))
  · intro children
    refine ⟨ne_primitive_of_shape? found, fun index kept reached here null => ?_⟩
    rcases isReached_singleton_iff.mp reached with rfl | ⟨_, own, child, member, reached⟩
    · obtain rfl := Option.some.inj (found.symm.trans here)
      exact (children .null null).1 rfl
    · obtain rfl := Option.some.inj (found.symm.trans own)
      exact (children child member).2 index kept reached here null

theorem nullFree_of_fields? {fields : Table String Field}
    (found : registry.fields? id = some fields)
    (each : ∀ raw field, fields.get? raw = some field → registry.NullFree field.shape) :
    registry.NullFree id := by
  refine (nullFree_iff (fields?_eq_some_iff.mp found)).mpr fun child member => ?_
  obtain ⟨field, value, rfl⟩ := List.mem_map.mp member
  obtain ⟨raw, under⟩ := Table.mem_values_iff.mp value
  exact each raw field under

theorem nullFree_of_singleton {element : ShapeId}
    (found : registry.elements? id = some (.singleton element))
    (inside : registry.NullFree element) : registry.NullFree id := by
  refine (nullFree_iff (elements?_eq_some_iff.mp found)).mpr fun child member => ?_
  rw [List.mem_singleton.mp member]
  exact inside

/-! ### Joins -/

theorem nullFree_of_mem_flatten
    (nullFree : ∀ candidate ∈ candidates, registry.NullFree candidate) :
    ∀ id ∈ registry.flatten candidates, registry.NullFree id := by
  intro id member
  rcases mem_candidates_of_mem_flatten member with inside | ⟨union, inside, members, found, part⟩
  · exact nullFree id inside
  · exact (nullFree_iff (members?_eq_some_iff.mp found)).mp (nullFree union inside) id part

/-- Without null among them, candidates make nothing nullable. -/
theorem IsNullable.eq_solid (nullable : registry.IsNullable ids solid joined)
    (nullFree : ∀ id ∈ ids, registry.NullFree id) : joined = solid := by
  rwa [IsNullable, if_neg fun null => (nullFree .null null).1 rfl] at nullable

/-- **The join of candidates without null is without null.** -/
theorem Joins.nullFree (joins : registry.Joins candidates joined)
    (nullFree : ∀ candidate ∈ candidates, registry.NullFree candidate) :
    registry.NullFree joined := by
  induction joins with
  | nothing flat found =>
    exact (nullFree_iff (members?_eq_some_iff.mp found)).mpr fun _ member =>
      absurd member List.not_mem_nil
  | @alone candidates joined flat =>
    refine nullFree_of_mem_flatten nullFree joined ?_
    rw [flat]
    exact List.mem_singleton_self joined
  | @objects candidates joined solid objects fields several all found unites each nullable step =>
    have flat := nullFree_of_mem_flatten nullFree
    rw [nullable.eq_solid flat]
    refine nullFree_of_fields? found fun raw field under => step raw field under fun id member => ?_
    obtain ⟨parent, inside, shape, found, child⟩ := exists_parent_of_mem_shapesUnder all member
    exact (nullFree_iff found).mp (flat parent inside) id child
  | @lists candidates joined solid element lists several all found each nullable step =>
    have flat := nullFree_of_mem_flatten nullFree
    rw [nullable.eq_solid flat]
    refine nullFree_of_singleton found (step fun id member => ?_)
    obtain ⟨parent, inside, shape, found, child⟩ := exists_parent_of_mem_elements all member
    exact (nullFree_iff found).mp (flat parent inside) id child
  | mixed several notObjects notLists found =>
    refine (nullFree_iff (members?_eq_some_iff.mp found)).mpr fun part member => ?_
    exact nullFree_of_mem_flatten nullFree part (IdSet.mem_ofList.mp member)

/-! ### Observation -/

/-- **What is observed in a value without null is without null.** -/
theorem Mirrors.nullFree (nullFree : sample.NullFree)
    (mirrors : registry.Mirrors detectDates sample id) : registry.NullFree id := by
  induction sample using Json.induct generalizing id with
  | step sample parts =>
    have solid := mt mirrors.eq_null_iff.mp nullFree.ne_null
    cases mirrors with
    | scalar => exact nullFree_of_shape?_eq_none solid (shape?_scalarId registry)
    | @list elements ids _ element each joins found =>
      have nullFree := Json.nullFree_array.mp nullFree
      refine nullFree_of_singleton found (joins.nullFree fun id listed => ?_)
      obtain ⟨value, inside, mirrors⟩ := Lists.exists_mem_of_forall₂_right each listed
      exact parts value inside (nullFree value inside) mirrors
    | @object members fields _ found keys required each =>
      have nullFree := Json.nullFree_object.mp nullFree
      refine nullFree_of_fields? found fun raw field under => ?_
      obtain ⟨⟨_, value⟩, listed, rfl⟩ :=
        List.mem_map.mp ((keys raw).mp (Table.mem_keys_of_get? under))
      exact parts value (Json.parts_inside listed) (nullFree _ listed)
        (each _ value field listed under)

end Registry

/-! ### Graphs -/

namespace ShapeGraph

open Registry

variable {options : Options} {sample : Json} {graph : ShapeGraph}

/-- What the graph of a sample without references keeps was observed in the sample, and is reached
from its root. -/
theorem exists_mirrors_of_shape? (distinct : sample.KeysDistinct) (unmarked : sample.Unmarked)
    (inferred : infer options sample = .ok graph) {id : ShapeId} {shape : Shape}
    (found : graph.registry.shape? id = some shape) :
    ∃ registry index, Registry.Mirrors registry options.detectDates sample graph.root ∧
      registry.IsReached [graph.root] index ∧ registry.shapeAt? index = some shape := by
  obtain ⟨registry, _, mirrors, made⟩ := exists_mirrors_of_infer distinct unmarked inferred
  obtain ⟨index, rfl, kept⟩ := shape?_eq_some_iff.mp found
  rw [made] at kept
  exact ⟨registry, index, mirrors, isReached_of_shapeAt?_prune kept,
    within_prune _ _ index shape kept⟩

/-- **No shape points at null** in the graph of a sample without null and without references. -/
theorem null_notMem_children (distinct : sample.KeysDistinct) (unmarked : sample.Unmarked)
    (nullFree : sample.NullFree) (inferred : infer options sample = .ok graph) {id : ShapeId}
    {shape : Shape} (found : graph.registry.shape? id = some shape) :
    .null ∉ shape.children := by
  obtain ⟨_, index, mirrors, reached, kept⟩ :=
    exists_mirrors_of_shape? distinct unmarked inferred found
  exact (mirrors.nullFree nullFree).2 index shape reached kept

/-- No object stands for another in the graph of a sample without references. -/
theorem aliases_of_infer (distinct : sample.KeysDistinct) (unmarked : sample.Unmarked)
    (inferred : infer options sample = .ok graph) : graph.aliases = ∅ := by
  obtain ⟨_, _, _, made⟩ := exists_mirrors_of_infer distinct unmarked inferred
  rw [made]

/-- Where nothing stands for another shape and nothing points at null, shapes that look alike are
the same. -/
theorem LooksAlike.eq (sound : graph.registry.Sound) (plain : graph.aliases = ∅)
    (nullFree : ∀ id shape, graph.registry.shape? id = some shape → .null ∉ shape.children)
    {id other : ShapeId} (held : graph.registry.Holds id) (alike : graph.LooksAlike id other) :
    id = other := by
  suffices all : ∀ other, graph.LooksAlike id other → id = other from all other alike
  refine sound.induct_children (fun id held step other alike => ?_) held
  cases alike with
  | same => rfl
  | objects object object' stand =>
    have itself : ∀ id, graph.canonical id = id := fun id => by
      cases id <;> simp [canonical, canonicalNode, plain]
    rwa [itself, itself] at stand
  | @lists _ _ element element' found found' elements =>
    have list := elements?_eq_some_iff.mp found
    obtain rfl := step _ list element (List.mem_singleton_self element) element' elements
    exact sound.toIndexed.eq_of_shape? list (elements?_eq_some_iff.mp found')
  | @bareLists _ _ element element' found found' bare bare' =>
    -- Neither element is null, so that both are the union of nothing.
    have nothing : ∀ {id element}, graph.registry.elements? id = some (.singleton element) →
        graph.registry.IsBare element → graph.registry.shape? element = some (.union ∅) := by
      intro id element found bare
      refine members?_eq_some_iff.mp (bare.resolve_left fun isNull => ?_)
      exact nullFree id _ (elements?_eq_some_iff.mp found) (List.mem_singleton.mpr isNull.symm)
    obtain rfl := sound.toIndexed.eq_of_shape? (nothing found bare) (nothing found' bare')
    exact sound.toIndexed.eq_of_shape? (elements?_eq_some_iff.mp found)
      (elements?_eq_some_iff.mp found')
  | @unions _ _ members members' found found' alternatives =>
    have union := members?_eq_some_iff.mp found
    have same : members.toList = members'.toList :=
      List.forall₂_eq_eq_eq ▸ Lists.forall₂_imp_of_mem
        (fun member inside other _ => step _ union member inside other) alternatives
    obtain rfl : members = members' :=
      IdSet.eq_of_mem_iff fun id => by rw [← IdSet.mem_toList, same, IdSet.mem_toList]
    exact sound.toIndexed.eq_of_shape? union (members?_eq_some_iff.mp found')

/-- **No two shapes look alike** in the graph of a sample without null and without references. -/
theorem eq_of_looksAlike_of_infer (distinct : sample.KeysDistinct) (unmarked : sample.Unmarked)
    (nullFree : sample.NullFree) (inferred : infer options sample = .ok graph)
    {id other : ShapeId} (held : graph.registry.Holds id) (alike : graph.LooksAlike id other) :
    id = other :=
  alike.eq (represents_of_infer inferred).registry (aliases_of_infer distinct unmarked inferred)
    (fun _ _ found => null_notMem_children distinct unmarked nullFree inferred found) held

end ShapeGraph

end SampleShapes
