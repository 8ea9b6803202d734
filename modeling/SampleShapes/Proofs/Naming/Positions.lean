/-
**Objects in a position.**

An object lies in a position if it is what stands there, or if it lies in an element of the list or
in an alternative of the union that stands there. Unification binds the objects with fields that lie
in a position; the walk comes from it to what the objects stand for that lie in it, with fields or
without. Both go as deep as they may, which is always deep enough, and both search a position in one
way: through lists and unions, and no further than to objects.

* `LiesIn.iff_of_fields?`, `LiesIn.iff_of_elements?`, `LiesIn.iff_of_members?`: what lies in an
  object, a list and a union;
* `Searches.iff_liesIn`: **a search finds what is sought in the objects that lie in the position**;
* `mem_boundObjects_iff`: what a position binds;
* `mem_objectsAt_iff`: what the walk finds in it;
* `mem_starts_iff`, `mem_successors_iff`: where the walk starts and goes on.
-/

import SampleShapes.Proofs.Naming.Walk

namespace SampleShapes

namespace Registry

variable {registry : Registry} {object position id : ShapeId}

/-- The object stands in the position, or inside of the lists and unions that stand there. -/
inductive LiesIn (registry : Registry) (object : ShapeId) : ShapeId → Prop where
  /-- An object lies where it stands. -/
  | here {fields : Table String Field} (found : registry.fields? object = some fields) :
    LiesIn registry object object
  /-- What lies in an element lies in the list. -/
  | element {list element : ShapeId} {elements : IdSet}
      (found : registry.elements? list = some elements) (member : element ∈ elements)
      (inside : LiesIn registry object element) : LiesIn registry object list
  /-- What lies in an alternative lies in the union. -/
  | member {union alternative : ShapeId} {members : IdSet}
      (found : registry.members? union = some members) (member : alternative ∈ members)
      (inside : LiesIn registry object alternative) : LiesIn registry object union

namespace LiesIn

theorem isSome_fields? (inside : registry.LiesIn object position) :
    (registry.fields? object).isSome := by
  induction inside with
  | here found => exact Option.isSome_of_eq_some found
  | element _ _ _ step => exact step
  | member _ _ _ step => exact step

/-- Nothing lies where no shape stands. -/
theorem absurd_of_leaf {goal : Prop} (inside : registry.LiesIn object position)
    (leaf : registry.shape? position = none) : goal := by
  cases inside with
  | here found => cases leaf.symm.trans (fields?_eq_some_iff.mp found)
  | element found => cases leaf.symm.trans (elements?_eq_some_iff.mp found)
  | member found => cases leaf.symm.trans (members?_eq_some_iff.mp found)

/-- What lies in a position is no higher. -/
theorem ceiling_le (sound : registry.Sound) (inside : registry.LiesIn object position) :
    object.ceiling ≤ position.ceiling := by
  induction inside with
  | here _ => exact Nat.le_refl _
  | element found member _ step => exact step.trans (Nat.le_of_lt (sound.element found member).2)
  | member found member _ step => exact step.trans (Nat.le_of_lt (sound.member found member).2)

/-- Only an object itself lies where an object stands. -/
theorem iff_of_fields? {fields : Table String Field}
    (found : registry.fields? position = some fields) :
    registry.LiesIn object position ↔ object = position := by
  refine ⟨fun inside => ?_, fun same => ?_⟩
  · have shape := fields?_eq_some_iff.mp found
    cases inside with
    | here _ => rfl
    | element list => cases (elements?_eq_some_iff.mp list).symm.trans shape
    | member union => cases (members?_eq_some_iff.mp union).symm.trans shape
  · rw [same]
    exact .here found

theorem iff_of_elements? {elements : IdSet}
    (found : registry.elements? position = some elements) :
    registry.LiesIn object position ↔ ∃ element ∈ elements, registry.LiesIn object element := by
  refine ⟨fun inside => ?_, fun ⟨_, listed, inside⟩ => .element found listed inside⟩
  have shape := elements?_eq_some_iff.mp found
  cases inside with
  | here own => cases (fields?_eq_some_iff.mp own).symm.trans shape
  | element list member inside =>
    obtain rfl := Option.some.inj (list.symm.trans found)
    exact ⟨_, member, inside⟩
  | member union => cases (members?_eq_some_iff.mp union).symm.trans shape

theorem iff_of_members? {members : IdSet} (found : registry.members? position = some members) :
    registry.LiesIn object position ↔
      ∃ alternative ∈ members, registry.LiesIn object alternative := by
  refine ⟨fun inside => ?_, fun ⟨_, listed, inside⟩ => .member found listed inside⟩
  have shape := members?_eq_some_iff.mp found
  cases inside with
  | here own => cases (fields?_eq_some_iff.mp own).symm.trans shape
  | element list => cases (elements?_eq_some_iff.mp list).symm.trans shape
  | member union member inside =>
    obtain rfl := Option.some.inj (union.symm.trans found)
    exact ⟨_, member, inside⟩

end LiesIn

/-! ### Searching positions -/

/-- Something is found in a position, at most `depth` lists and unions deep, if it is found in an
element of the list or in an alternative of the union that stands there, or if an object stands
there that is good. A list may change the way in which it is searched. -/
structure Searches {ι : Type} (registry : Registry) (finds : ι → Nat → ShapeId → Prop)
    (good : ShapeId → Prop) : Prop where
  /-- Nothing is found in what is no node. -/
  leaf : ∀ way depth id, id.index? = none → ¬ finds way depth id
  /-- It is found in the objects that are good. -/
  object : ∀ way depth id fields, registry.fields? id = some fields →
    (finds way (depth + 1) id ↔ good id)
  /-- It is found in a list if it is in an element. -/
  list : ∀ way depth id elements, registry.elements? id = some elements →
    ∃ other, finds way (depth + 1) id ↔ ∃ element ∈ elements, finds other depth element
  /-- It is found in a union if it is in an alternative. -/
  union : ∀ way depth id members, registry.members? id = some members →
    ∃ other, finds way (depth + 1) id ↔ ∃ alternative ∈ members, finds other depth alternative

/-- **A search finds what is sought in the objects that lie in the position.** -/
theorem Searches.iff_liesIn {ι : Type} {finds : ι → Nat → ShapeId → Prop} {good : ShapeId → Prop}
    (searches : registry.Searches finds good) (sound : registry.Sound)
    (held : registry.Holds position) (way : ι) (depth : Nat) (enough : position.ceiling ≤ depth) :
    finds way depth position ↔ ∃ object, registry.LiesIn object position ∧ good object := by
  revert way depth
  refine sound.induct (fun kind => ?_) ?_ (fun index shape kept step => ?_) held
  · exact fun way depth _ => iff_of_false (searches.leaf way depth _ rfl) fun ⟨_, inside, _⟩ =>
      inside.absurd_of_leaf rfl
  · exact fun way depth _ => iff_of_false (searches.leaf way depth _ rfl) fun ⟨_, inside, _⟩ =>
      inside.absurd_of_leaf rfl
  · intro way depth enough
    obtain _ | depth := depth
    · exact absurd enough (Nat.not_succ_le_zero index)
    have found : registry.shape? (.node index) = some shape := kept
    -- Children lie further down, so that one level less is enough for them.
    have among : ∀ (parts : IdSet) (other : ι), (∀ part ∈ parts, part ∈ shape.children) →
        ((∃ part ∈ parts, finds other depth part) ↔
          ∃ object, (∃ part ∈ parts, registry.LiesIn object part) ∧ good object) := by
      intro parts other children
      have deeper : ∀ part ∈ parts, (finds other depth part ↔
          ∃ object, registry.LiesIn object part ∧ good object) := fun part listed => by
        obtain ⟨inside, below⟩ := sound.child found (children part listed)
        exact step part (children part listed) inside other depth
          (Nat.le_of_lt_succ (Nat.lt_of_lt_of_le below enough))
      constructor
      · rintro ⟨part, listed, finding⟩
        obtain ⟨object, inside, isGood⟩ := (deeper part listed).mp finding
        exact ⟨object, ⟨part, listed, inside⟩, isGood⟩
      · rintro ⟨object, ⟨part, listed, inside⟩, isGood⟩
        exact ⟨part, listed, (deeper part listed).mpr ⟨object, inside, isGood⟩⟩
    cases shape with
    | object fields =>
      have object := fields?_eq_some_iff.mpr found
      simp only [searches.object way depth _ fields object, LiesIn.iff_of_fields? object,
        exists_eq_left]
    | list elements =>
      have list := elements?_eq_some_iff.mpr found
      obtain ⟨other, onward⟩ := searches.list way depth _ elements list
      simp only [onward, LiesIn.iff_of_elements? list]
      exact among elements other fun _ listed => listed
    | union members =>
      have union := members?_eq_some_iff.mpr found
      obtain ⟨other, onward⟩ := searches.union way depth _ members union
      simp only [onward, LiesIn.iff_of_members? union]
      exact among members other fun _ listed => listed

/-- Unification searches a position for an object with fields. -/
theorem searches_boundObjects (registry : Registry) (id : ShapeId) :
    registry.Searches (fun (_ : Unit) depth position => id ∈ registry.boundObjects depth position)
      fun object => object = id ∧ registry.HasFields id where
  leaf _ depth position leaf := by
    cases depth with
    | zero => exact List.not_mem_nil
    | succ depth =>
      cases position with
      | node index => cases leaf
      | primitive kind => exact List.not_mem_nil
      | date => exact List.not_mem_nil
  object _ depth position fields object := by
    rw [boundObjects, fields?_eq_some_iff.mp object]
    dsimp only
    constructor
    · intro member
      split at member
      · exact absurd member List.not_mem_nil
      · next notEmpty =>
        obtain rfl := List.mem_singleton.mp member
        exact ⟨rfl, fields, object, Bool.eq_false_iff.mpr notEmpty⟩
    · rintro ⟨rfl, own, here, notEmpty⟩
      obtain rfl := Option.some.inj (object.symm.trans here)
      rw [notEmpty]
      exact List.mem_singleton_self _
  list _ depth position elements list := by
    rw [boundObjects, elements?_eq_some_iff.mp list]
    exact ⟨(), List.mem_flatMap⟩
  union _ depth position members union := by
    rw [boundObjects, members?_eq_some_iff.mp union]
    exact ⟨(), List.mem_flatMap⟩

/-- **What a position binds** are the objects with fields that lie in it. -/
theorem mem_boundObjects_iff (sound : registry.Sound) (held : registry.Holds position)
    (depth : Nat) (enough : position.ceiling ≤ depth) :
    id ∈ registry.boundObjects depth position ↔
      registry.LiesIn id position ∧ registry.HasFields id := by
  rw [(registry.searches_boundObjects id).iff_liesIn sound held () depth enough]
  constructor
  · rintro ⟨object, inside, rfl, hasFields⟩
    exact ⟨inside, hasFields⟩
  · rintro ⟨inside, hasFields⟩
    exact ⟨id, inside, rfl, hasFields⟩

end Registry

namespace ShapeGraph

open Registry

variable {graph : ShapeGraph} {position : ShapeId} {index parent : Nat} {hint : Hint}

/-- The walk searches a position for an object that stands for a node. -/
theorem searches_objectsAt (sound : graph.Sound) (index : Nat) :
    graph.registry.Searches
      (fun element depth position =>
        ∃ under, (index, under) ∈ graph.objectsAt depth element position)
      fun object => ∃ member, object = .node member ∧ graph.canonicalNode member = index where
  leaf element depth position leaf := by
    rintro ⟨under, member⟩
    cases position with
    | node index => cases leaf
    | primitive kind =>
      rw [objectsAt_of_shape?_eq_none rfl rfl] at member
      exact List.not_mem_nil member
    | date =>
      rw [objectsAt_of_shape?_eq_none rfl rfl] at member
      exact List.not_mem_nil member
  object element depth position fields object := by
    obtain ⟨own, same, _, only⟩ :=
      objectsAt_of_fields? sound depth element (Option.isSome_of_eq_some object)
    obtain ⟨place, rfl, _⟩ := shape?_eq_some_iff.mp (fields?_eq_some_iff.mp object)
    obtain rfl := ShapeId.node.inj same
    simp [only, eq_comm]
  list element depth position elements list := by
    refine ⟨true, ?_⟩
    simp only [objectsAt_of_elements? sound depth element list, List.mem_flatMap]
    exact exists_comm.trans (exists_congr fun part => exists_and_left)
  union element depth position members union := by
    refine ⟨element, ?_⟩
    simp only [objectsAt_of_members? sound depth element union, List.mem_flatMap]
    exact exists_comm.trans (exists_congr fun part => exists_and_left)

/-- **What the walk finds in a position** is what the objects stand for that lie in it. -/
theorem mem_objectsAt_iff (sound : graph.Sound) (held : graph.registry.Holds position)
    (depth : Nat) (enough : position.ceiling ≤ depth) (element : Bool) :
    (∃ under, (index, under) ∈ graph.objectsAt depth element position) ↔
      ∃ member, graph.registry.LiesIn (.node member) position ∧
        graph.canonicalNode member = index := by
  rw [(searches_objectsAt sound index).iff_liesIn sound.registry held element depth enough]
  constructor
  · rintro ⟨_, inside, member, rfl, stands⟩
    exact ⟨member, inside, stands⟩
  · rintro ⟨member, inside, stands⟩
    exact ⟨_, inside, member, rfl, stands⟩

/-- The walk goes as deep as any position of the graph. -/
theorem mem_objectsAt_capacity_iff (sound : graph.Sound) (held : graph.registry.Holds position) :
    (∃ under, (index, under) ∈ graph.objectsAt (graph.registry.capacity + 1) false position) ↔
      ∃ member, graph.registry.LiesIn (.node member) position ∧
        graph.canonicalNode member = index :=
  mem_objectsAt_iff sound held _ (Nat.le_succ_of_le (ceiling_le_capacity held)) false

/-- The walk starts at what lies in the position of the root. -/
theorem mem_starts_iff (sound : graph.Sound) :
    index ∈ Walk.starts graph ↔
      ∃ member, graph.registry.LiesIn (.node member) graph.root ∧
        graph.canonicalNode member = index := by
  rw [← mem_objectsAt_capacity_iff sound sound.root.holds]
  unfold Walk.starts
  constructor
  · intro start
    obtain ⟨⟨place, under⟩, member, rfl⟩ := List.mem_map.mp start
    exact ⟨under, member⟩
  · rintro ⟨under, member⟩
    exact List.mem_map.mpr ⟨(index, under), member, rfl⟩

/-- What the walk finds in the position of a field is what the objects stand for that lie in it. -/
theorem mem_objectsAt_field_iff (sound : graph.Sound) {fields : Table String Field} {field : Field}
    (object : graph.registry.fields? (.node parent) = some fields) (value : field ∈ fields.values) :
    (∃ under, (index, under) ∈
        graph.objectsAt (graph.registry.capacity + 1) false field.shape) ↔
      ∃ member, graph.registry.LiesIn (.node member) field.shape ∧
        graph.canonicalNode member = index := by
  obtain ⟨raw, under⟩ := Table.mem_values_iff.mp value
  exact mem_objectsAt_capacity_iff sound (sound.registry.field object under).1

/-- The walk goes on from an object to what lies in the positions of its fields. -/
theorem mem_successors_iff (sound : graph.Sound) :
    index ∈ Walk.successors graph parent ↔
      ∃ fields field member, graph.registry.fields? (.node parent) = some fields ∧
        field ∈ fields.values ∧ graph.registry.LiesIn (.node member) field.shape ∧
        graph.canonicalNode member = index := by
  unfold Walk.successors
  constructor
  · intro leads
    obtain ⟨⟨place, hint⟩, linked, rfl⟩ := List.mem_map.mp leads
    obtain ⟨fields, field, under, object, value, member, _⟩ := mem_links_iff.mp linked
    obtain ⟨own, inside, stands⟩ :=
      (mem_objectsAt_field_iff sound object value).mp ⟨under, member⟩
    exact ⟨fields, field, own, object, value, inside, stands⟩
  · rintro ⟨fields, field, own, object, value, inside, stands⟩
    obtain ⟨under, member⟩ :=
      (mem_objectsAt_field_iff sound object value).mpr ⟨own, inside, stands⟩
    exact List.mem_map.mpr
      ⟨_, mem_links_iff.mpr ⟨fields, field, under, object, value, member, rfl⟩, rfl⟩

end ShapeGraph

end SampleShapes
