/-
**Sound registries.**

A registry is sound if its index finds exactly the shapes that are kept, every shape points at
shapes that are kept further down, and every key is read from its raw key. Interning what rests on
kept shapes and dropping what is not reached keep a registry sound.

* `Indexed.intern`, `Indexed.retain`: the index stays in step with the slots;
* `grows_intern`: interning changes no slot that is handed out;
* `Sound.intern`: what rests on kept shapes may be interned;
* `Indexed.elements?_intern`, `Indexed.members?_intern`, `Sound.fields?_intern`: the identity that
  comes back is that of the shape;
* `Sound.prune`: what is reached rests on what is reached.
-/

import SampleShapes.Proofs.Shape.Fingerprint
import SampleShapes.Registry.Pruning

namespace SampleShapes.Registry

variable {registry later last : Registry} {shape : Shape} {id other : ShapeId} {index : Nat}

/-! ### Looking up -/

theorem shape?_eq_some_iff :
    registry.shape? id = some shape ↔
      ∃ index, id = .node index ∧ registry.shapeAt? index = some shape := by
  cases id <;> simp [shape?]

theorem fields?_eq_some_iff {fields : Table String Field} :
    registry.fields? id = some fields ↔ registry.shape? id = some (.object fields) := by
  unfold fields?
  cases registry.shape? id with
  | none => simp
  | some shape => cases shape <;> simp [Shape.fields?]

theorem elements?_eq_some_iff {elements : IdSet} :
    registry.elements? id = some elements ↔ registry.shape? id = some (.list elements) := by
  unfold elements?
  cases registry.shape? id with
  | none => simp
  | some shape => cases shape <;> simp [Shape.elements?]

theorem members?_eq_some_iff {members : IdSet} :
    registry.members? id = some members ↔ registry.shape? id = some (.union members) := by
  unfold members?
  cases registry.shape? id with
  | none => simp
  | some shape => cases shape <;> simp [Shape.members?]

section Congr

variable (same : later.shape? id = registry.shape? id)
include same

theorem fields?_congr : later.fields? id = registry.fields? id := by
  unfold fields?
  rw [same]

theorem elements?_congr : later.elements? id = registry.elements? id := by
  unfold elements?
  rw [same]

theorem members?_congr : later.members? id = registry.members? id := by
  unfold members?
  rw [same]

end Congr

theorem elements?_eq_none_of_fields? (object : (registry.fields? id).isSome) :
    registry.elements? id = none := by
  obtain ⟨fields, found⟩ := Option.isSome_iff_exists.mp object
  rw [elements?, fields?_eq_some_iff.mp found]
  rfl

theorem members?_eq_none_of_fields? (object : (registry.fields? id).isSome) :
    registry.members? id = none := by
  obtain ⟨fields, found⟩ := Option.isSome_iff_exists.mp object
  rw [members?, fields?_eq_some_iff.mp found]
  rfl

theorem members?_eq_none_of_elements? (list : (registry.elements? id).isSome) :
    registry.members? id = none := by
  obtain ⟨elements, found⟩ := Option.isSome_iff_exists.mp list
  rw [members?, elements?_eq_some_iff.mp found]
  rfl

/-- The identity is that of a shape that is kept, unless it is no node. -/
def Holds (registry : Registry) : ShapeId → Prop
  | .node index => ∃ shape, registry.shapeAt? index = some shape
  | _ => True

theorem holds_of_shape? (found : registry.shape? id = some shape) : registry.Holds id := by
  obtain ⟨index, rfl, kept⟩ := shape?_eq_some_iff.mp found
  exact ⟨shape, kept⟩

theorem holds_of_fields? (object : (registry.fields? id).isSome) : registry.Holds id := by
  obtain ⟨fields, found⟩ := Option.isSome_iff_exists.mp object
  exact holds_of_shape? (fields?_eq_some_iff.mp found)

/-- What is not kept is no object, no list and no union, and it is not null. -/
theorem leaf_of_not_holds (missing : ¬ registry.Holds id) :
    registry.shape? id = none ∧ id ≠ .null := by
  refine ⟨Option.eq_none_iff_forall_ne_some.mpr fun shape found => ?_, ?_⟩
  · exact missing (holds_of_shape? found)
  · rintro rfl
    exact missing trivial

theorem ceiling_le_capacity (holds : registry.Holds id) : id.ceiling ≤ registry.capacity := by
  cases id with
  | node index =>
    obtain ⟨shape, found⟩ := holds
    exact lt_capacity_of_shapeAt? found
  | primitive kind => exact Nat.zero_le _
  | date => exact Nat.zero_le _

/-! ### Growth -/

/-- What is kept in `registry` is kept in `larger`. -/
def Within (registry larger : Registry) : Prop :=
  ∀ index shape, registry.shapeAt? index = some shape → larger.shapeAt? index = some shape

theorem Within.shape? (within : registry.Within later) (found : registry.shape? id = some shape) :
    later.shape? id = some shape := by
  obtain ⟨index, rfl, kept⟩ := shape?_eq_some_iff.mp found
  exact within index shape kept

theorem Within.holds (within : registry.Within later) (held : registry.Holds id) :
    later.Holds id := by
  cases id with
  | node index =>
    obtain ⟨shape, kept⟩ := held
    exact ⟨shape, within index shape kept⟩
  | primitive kind => trivial
  | date => trivial

/-- What is held is the same in both. -/
theorem Within.shape?_of_holds (within : registry.Within later) (held : registry.Holds id) :
    registry.shape? id = later.shape? id := by
  cases id with
  | node index =>
    obtain ⟨shape, kept⟩ := held
    exact kept.trans (within index shape kept).symm
  | primitive kind => rfl
  | date => rfl

theorem Within.fields? (within : registry.Within later) {fields : Table String Field}
    (found : registry.fields? id = some fields) : later.fields? id = some fields :=
  fields?_eq_some_iff.mpr (within.shape? (fields?_eq_some_iff.mp found))

theorem Within.elements? (within : registry.Within later) {elements : IdSet}
    (found : registry.elements? id = some elements) : later.elements? id = some elements :=
  elements?_eq_some_iff.mpr (within.shape? (elements?_eq_some_iff.mp found))

theorem Within.members? (within : registry.Within later) {members : IdSet}
    (found : registry.members? id = some members) : later.members? id = some members :=
  members?_eq_some_iff.mpr (within.shape? (members?_eq_some_iff.mp found))

theorem Within.isSome_fields? (within : registry.Within later)
    (object : (registry.fields? id).isSome) : (later.fields? id).isSome := by
  obtain ⟨fields, found⟩ := Option.isSome_iff_exists.mp object
  exact Option.isSome_of_eq_some (within.fields? found)

theorem Within.isSome_elements? (within : registry.Within later)
    (list : (registry.elements? id).isSome) : (later.elements? id).isSome := by
  obtain ⟨elements, found⟩ := Option.isSome_iff_exists.mp list
  exact Option.isSome_of_eq_some (within.elements? found)

/-- Slots are added behind those that are handed out. -/
structure Grows (registry later : Registry) : Prop where
  /-- No slot is lost. -/
  capacity_le : registry.capacity ≤ later.capacity
  /-- No slot changes. -/
  shapeAt?_eq : ∀ index, index < registry.capacity →
    later.shapeAt? index = registry.shapeAt? index

namespace Grows

theorem refl (registry : Registry) : registry.Grows registry :=
  ⟨Nat.le_refl _, fun _ _ => rfl⟩

theorem trans (first : registry.Grows later) (second : later.Grows last) : registry.Grows last where
  capacity_le := Nat.le_trans first.capacity_le second.capacity_le
  shapeAt?_eq index inside := by
    rw [second.shapeAt?_eq index (Nat.lt_of_lt_of_le inside first.capacity_le),
      first.shapeAt?_eq index inside]

theorem within (grows : registry.Grows later) : registry.Within later := by
  intro index shape found
  rw [grows.shapeAt?_eq index (lt_capacity_of_shapeAt? found), found]

theorem holds (grows : registry.Grows later) (held : registry.Holds id) : later.Holds id :=
  grows.within.holds held

/-- What is behind an identity that was handed out stays, also where it was dropped. -/
theorem shape?_eq_of_le (grows : registry.Grows later) (issued : id.ceiling ≤ registry.capacity) :
    later.shape? id = registry.shape? id := by
  cases id with
  | node index => exact grows.shapeAt?_eq index issued
  | primitive kind => rfl
  | date => rfl

/-- What is behind an identity stays, also where nothing is behind it. -/
theorem shape?_eq (grows : registry.Grows later) (held : registry.Holds id) :
    later.shape? id = registry.shape? id :=
  grows.shape?_eq_of_le (ceiling_le_capacity held)

theorem fields?_eq (grows : registry.Grows later) (held : registry.Holds id) :
    later.fields? id = registry.fields? id := fields?_congr (grows.shape?_eq held)

theorem elements?_eq (grows : registry.Grows later) (held : registry.Holds id) :
    later.elements? id = registry.elements? id := elements?_congr (grows.shape?_eq held)

theorem members?_eq (grows : registry.Grows later) (held : registry.Holds id) :
    later.members? id = registry.members? id := members?_congr (grows.shape?_eq held)

end Grows

/-- **Interning changes no slot that is handed out.** -/
theorem grows_intern (shape : Shape) (registry : Registry) :
    registry.Grows (registry.intern shape).2 :=
  ⟨capacity_le_intern shape registry, fun _ inside => shapeAt?_intern_of_lt inside⟩

/-! ### The index -/

/-- The index finds exactly the shapes that are kept. -/
structure Indexed (registry : Registry) : Prop where
  /-- No fingerprint is there twice. -/
  distinct : (registry.index.map Prod.fst).Nodup
  /-- A node stands under a fingerprint if its shape has it. -/
  mem_index_iff : ∀ mark index, (mark, index) ∈ registry.index ↔
    ∃ shape, registry.shapeAt? index = some shape ∧ shape.fingerprint = mark

theorem indexed_empty : (∅ : Registry).Indexed :=
  ⟨List.nodup_nil, by
    intro mark index
    simp only [shapeAt?_empty, reduceCtorEq, false_and, exists_false, iff_false]
    exact List.not_mem_nil⟩

namespace Indexed

theorem lookup_eq_some_iff (indexed : registry.Indexed) {mark : Fingerprint} :
    registry.index.lookup mark = some index ↔
      ∃ shape, registry.shapeAt? index = some shape ∧ shape.fingerprint = mark := by
  rw [Lists.lookup_eq_some_iff_mem indexed.distinct, indexed.mem_index_iff]

/-- Shapes with one fingerprint share their node. -/
theorem eq_of_fingerprint_eq (indexed : registry.Indexed) {other : Nat} {shape' : Shape}
    (found : registry.shapeAt? index = some shape) (found' : registry.shapeAt? other = some shape')
    (same : shape.fingerprint = shape'.fingerprint) : index = other := by
  have first := indexed.lookup_eq_some_iff.mpr ⟨shape, found, same⟩
  have second := indexed.lookup_eq_some_iff.mpr ⟨shape', found', rfl⟩
  exact Option.some.inj (first.symm.trans second)

/-- A shape has one identity. -/
theorem eq_of_shape? (indexed : registry.Indexed) (found : registry.shape? id = some shape)
    (found' : registry.shape? other = some shape) : id = other := by
  obtain ⟨index, rfl, kept⟩ := shape?_eq_some_iff.mp found
  obtain ⟨index', rfl, kept'⟩ := shape?_eq_some_iff.mp found'
  rw [indexed.eq_of_fingerprint_eq kept kept' rfl]

end Indexed

/-- Interning a shape that is known changes nothing. -/
theorem intern_of_lookup_eq_some
    (known : registry.index.lookup shape.fingerprint = some index) :
    registry.intern shape = (.node index, registry) := by
  unfold intern
  rw [known]

section Fresh

variable (fresh : registry.index.lookup shape.fingerprint = none)
include fresh

/-- A new shape gets the next slot. -/
theorem fst_intern_of_lookup_eq_none : (registry.intern shape).1 = .node registry.capacity := by
  unfold intern
  rw [fresh]
  rfl

theorem capacity_intern_of_lookup_eq_none :
    (registry.intern shape).2.capacity = registry.capacity + 1 := by
  unfold intern
  rw [fresh]
  simp [capacity]

end Fresh

/-- What a registry keeps once a new shape got a slot. -/
theorem shapeAt?_intern_of_lookup_eq_none
    (fresh : registry.index.lookup shape.fingerprint = none) (index : Nat) :
    (registry.intern shape).2.shapeAt? index =
      if index = registry.capacity then some shape else registry.shapeAt? index := by
  unfold intern
  rw [fresh]
  by_cases last : index = registry.slots.size
  · simp [shapeAt?, capacity, last]
  · simp [shapeAt?, capacity, Array.getElem?_push, last]

/-- **The index stays in step with the slots when a shape is interned.** -/
theorem Indexed.intern (indexed : registry.Indexed) (shape : Shape) :
    (registry.intern shape).2.Indexed := by
  cases known : registry.index.lookup shape.fingerprint with
  | some index =>
    rw [intern_of_lookup_eq_some known]
    exact indexed
  | none =>
    have entries : (registry.intern shape).2.index =
        (shape.fingerprint, registry.capacity) :: registry.index := by
      unfold Registry.intern
      rw [known]
      rfl
    have absent : shape.fingerprint ∉ registry.index.map Prod.fst := by
      rw [← Lists.lookup_isSome_iff_mem, known]
      simp
    refine ⟨?_, fun mark index => ?_⟩
    · rw [entries, List.map_cons]
      exact List.nodup_cons.mpr ⟨absent, indexed.distinct⟩
    · rw [entries, List.mem_cons, indexed.mem_index_iff, Prod.mk.injEq,
        shapeAt?_intern_of_lookup_eq_none known]
      by_cases last : index = registry.capacity
      · have beyond : registry.shapeAt? index = none :=
          shapeAt?_of_capacity_le (Nat.le_of_eq last.symm)
        rw [if_pos last, beyond]
        constructor
        · rintro (⟨rfl, _⟩ | ⟨_, found, _⟩)
          · exact ⟨shape, rfl, rfl⟩
          · simp at found
        · rintro ⟨_, same, rfl⟩
          obtain rfl := Option.some.inj same
          exact .inl ⟨rfl, last⟩
      · rw [if_neg last]
        simp [last]

/-- Everything but what is interned stays behind its identity. -/
theorem shape?_intern_of_ne (apart : id ≠ (registry.intern shape).1) :
    (registry.intern shape).2.shape? id = registry.shape? id := by
  cases known : registry.index.lookup shape.fingerprint with
  | some index => rw [intern_of_lookup_eq_some known]
  | none =>
    rw [fst_intern_of_lookup_eq_none known] at apart
    cases id with
    | node index =>
      have other : index ≠ registry.capacity := fun same => apart (congrArg ShapeId.node same)
      exact (shapeAt?_intern_of_lookup_eq_none known index).trans (if_neg other)
    | primitive kind => rfl
    | date => rfl

/-- What is kept afterwards was kept before, or it is the new shape behind all others. -/
theorem shapeAt?_intern_cases {kept : Shape}
    (found : (registry.intern shape).2.shapeAt? index = some kept) :
    registry.shapeAt? index = some kept ∨ index = registry.capacity ∧ kept = shape := by
  cases known : registry.index.lookup shape.fingerprint with
  | some other =>
    rw [intern_of_lookup_eq_some known] at found
    exact .inl found
  | none =>
    rw [shapeAt?_intern_of_lookup_eq_none known] at found
    split at found
    · next last => exact .inr ⟨last, (Option.some.inj found).symm⟩
    · exact .inl found

/-- The identity that comes back from interning is that of a shape with the same fingerprint. -/
theorem Indexed.exists_shape?_intern (indexed : registry.Indexed) (shape : Shape) :
    ∃ kept, (registry.intern shape).2.shape? (registry.intern shape).1 = some kept ∧
      kept.fingerprint = shape.fingerprint := by
  cases known : registry.index.lookup shape.fingerprint with
  | none => exact ⟨shape, shape?_intern_of_lookup_eq_none known, rfl⟩
  | some index =>
    obtain ⟨kept, found, same⟩ := indexed.lookup_eq_some_iff.mp known
    rw [intern_of_lookup_eq_some known]
    exact ⟨kept, found, same⟩

/-- **The identity of an interned list is that of the list.** -/
theorem Indexed.elements?_intern (indexed : registry.Indexed) (elements : IdSet) :
    (registry.intern (.list elements)).2.elements? (registry.intern (.list elements)).1 =
      some elements := by
  obtain ⟨kept, found, same⟩ := indexed.exists_shape?_intern (.list elements)
  rw [elements?_eq_some_iff, found, Shape.eq_list_of_fingerprint same]

/-- **The identity of an interned union is that of the union.** -/
theorem Indexed.members?_intern (indexed : registry.Indexed) (members : IdSet) :
    (registry.intern (.union members)).2.members? (registry.intern (.union members)).1 =
      some members := by
  obtain ⟨kept, found, same⟩ := indexed.exists_shape?_intern (.union members)
  rw [members?_eq_some_iff, found, Shape.eq_union_of_fingerprint same]

/-- Interning what has the fingerprint of a kept shape comes back with that shape and changes
nothing. -/
theorem Indexed.intern_of_fingerprint_eq (indexed : registry.Indexed) {kept : Shape}
    (found : registry.shape? id = some kept) (same : kept.fingerprint = shape.fingerprint) :
    registry.intern shape = (id, registry) := by
  obtain ⟨index, rfl, slot⟩ := shape?_eq_some_iff.mp found
  exact intern_of_lookup_eq_some (indexed.lookup_eq_some_iff.mpr ⟨kept, slot, same⟩)

/-- **The index stays in step with the slots when shapes are dropped.** -/
theorem Indexed.retain (indexed : registry.Indexed) (kept : List Nat) :
    (registry.retain kept).Indexed := by
  refine ⟨indexed.distinct.sublist (List.filter_sublist.map _), fun mark index => ?_⟩
  have entries : (registry.retain kept).index =
      registry.index.filter fun entry => entry.2 ∈ kept := rfl
  rw [entries, List.mem_filter, indexed.mem_index_iff, shapeAt?_retain]
  by_cases member : index ∈ kept <;> simp [member]

/-! ### Soundness -/

/-- The shape rests on shapes that are kept, and its keys are read from its raw keys. -/
structure Carries (registry : Registry) (shape : Shape) : Prop where
  holds : ∀ child ∈ shape.children, registry.Holds child
  keyed : ∀ fields, shape = .object fields → Shape.Keyed fields

theorem Carries.grow (carries : registry.Carries shape) (grows : registry.Grows later) :
    later.Carries shape :=
  ⟨fun child member => grows.holds (carries.holds child member), carries.keyed⟩

/-- The index is in step with the slots, and every shape rests on shapes further down. -/
structure Sound (registry : Registry) : Prop extends registry.Indexed where
  carries : ∀ index shape, registry.shapeAt? index = some shape → registry.Carries shape
  descends : ∀ index shape, registry.shapeAt? index = some shape →
    ∀ child ∈ shape.children, child.ceiling ≤ index

theorem shape?_empty (id : ShapeId) : (∅ : Registry).shape? id = none := by
  cases id with
  | node index => exact shapeAt?_empty index
  | primitive kind => rfl
  | date => rfl

theorem sound_empty : (∅ : Registry).Sound where
  toIndexed := indexed_empty
  carries index shape found := by simp [shapeAt?_empty] at found
  descends index shape found := by simp [shapeAt?_empty] at found

namespace Sound

/-- **What rests on kept shapes may be interned.** -/
theorem intern (sound : registry.Sound) (carries : registry.Carries shape) :
    (registry.intern shape).2.Sound := by
  have grows := grows_intern shape registry
  refine ⟨sound.toIndexed.intern shape, fun index kept found => ?_,
    fun index kept found child member => ?_⟩
  · rcases shapeAt?_intern_cases found with old | ⟨_, rfl⟩
    · exact (sound.carries index kept old).grow grows
    · exact carries.grow grows
  · rcases shapeAt?_intern_cases found with old | ⟨rfl, rfl⟩
    · exact sound.descends index kept old child member
    · exact ceiling_le_capacity (carries.holds child member)

theorem holds_intern (sound : registry.Sound) (shape : Shape) :
    (registry.intern shape).2.Holds (registry.intern shape).1 := by
  obtain ⟨kept, found, _⟩ := sound.exists_shape?_intern shape
  exact holds_of_shape? found

/-- **The identity of an interned object is that of an object with the same fields,** which may
stand in another order. -/
theorem fields?_intern (sound : registry.Sound) {fields : Table String Field}
    (carries : registry.Carries (.object fields)) :
    ∃ kept, (registry.intern (.object fields)).2.fields? (registry.intern (.object fields)).1 =
        some kept ∧ ∀ raw, kept.get? raw = fields.get? raw := by
  obtain ⟨shape, found, same⟩ := sound.exists_shape?_intern (.object fields)
  obtain ⟨kept, rfl, outlines⟩ := Shape.exists_object_of_fingerprint same
  obtain ⟨index, _, slot⟩ := shape?_eq_some_iff.mp found
  -- A fingerprint leaves keys out, but both tables have theirs from the same raw keys.
  have keyed := ((sound.intern carries).carries index _ slot).keyed kept rfl
  exact ⟨kept, fields?_eq_some_iff.mpr found, keyed.get?_eq (carries.keyed fields rfl) outlines⟩

/-! ### What a sound registry keeps -/

/-- What a kept shape points at is kept further down. -/
theorem child (sound : registry.Sound) (found : registry.shape? id = some shape)
    (member : other ∈ shape.children) : registry.Holds other ∧ other.ceiling < id.ceiling := by
  obtain ⟨index, rfl, kept⟩ := shape?_eq_some_iff.mp found
  exact ⟨(sound.carries index shape kept).holds other member,
    Nat.lt_succ_of_le (sound.descends index shape kept other member)⟩

/-- **What is kept rests on its children.** -/
@[elab_as_elim]
theorem induct {motive : ShapeId → Prop} (sound : registry.Sound)
    (primitive : ∀ kind, motive (.primitive kind)) (date : motive .date)
    (step : ∀ index shape, registry.shapeAt? index = some shape →
      (∀ child ∈ shape.children, registry.Holds child → motive child) → motive (.node index))
    (held : registry.Holds id) : motive id := by
  induction level : id.ceiling using Nat.strong_induction_on generalizing id with
  | h level below =>
    subst level
    cases id with
    | primitive kind => exact primitive kind
    | date => exact date
    | node index =>
      obtain ⟨shape, kept⟩ := held
      refine step index shape kept fun child member inside => ?_
      exact below child.ceiling (Nat.lt_succ_of_le (sound.descends index shape kept child member))
        inside rfl

theorem field (sound : registry.Sound) {fields : Table String Field}
    (found : registry.fields? id = some fields) {raw : String} {field : Field}
    (member : fields.get? raw = some field) :
    registry.Holds field.shape ∧ field.shape.ceiling < id.ceiling := by
  refine sound.child (fields?_eq_some_iff.mp found) (List.mem_map.mpr ⟨field, ?_, rfl⟩)
  exact Table.mem_values_iff.mpr ⟨raw, member⟩

theorem element (sound : registry.Sound) {elements : IdSet}
    (found : registry.elements? id = some elements) (member : other ∈ elements) :
    registry.Holds other ∧ other.ceiling < id.ceiling :=
  sound.child (elements?_eq_some_iff.mp found) member

theorem member (sound : registry.Sound) {members : IdSet}
    (found : registry.members? id = some members) (member : other ∈ members) :
    registry.Holds other ∧ other.ceiling < id.ceiling :=
  sound.child (members?_eq_some_iff.mp found) member

theorem keyed (sound : registry.Sound) {fields : Table String Field}
    (found : registry.fields? id = some fields) : Shape.Keyed fields := by
  obtain ⟨index, _, kept⟩ := shape?_eq_some_iff.mp (fields?_eq_some_iff.mp found)
  exact (sound.carries index _ kept).keyed fields rfl

end Sound

/-! ### What is reached -/

theorem node_of_index? {index : Nat} (isNode : id.index? = some index) : id = .node index := by
  cases id with
  | node other => rw [Option.some.inj isNode]
  | primitive kind => cases isNode
  | date => cases isNode

/-- What a node points at. -/
theorem mem_childNodes_iff {below : Nat} :
    below ∈ registry.childNodes index ↔
      ∃ shape, registry.shapeAt? index = some shape ∧ .node below ∈ shape.children := by
  unfold childNodes
  cases registry.shapeAt? index with
  | none => simp
  | some shape =>
    simp only [List.mem_filterMap, Option.some.injEq, exists_eq_left']
    constructor
    · rintro ⟨child, member, isNode⟩
      cases child with
      | node other => rwa [← Option.some.inj isNode]
      | primitive kind => cases isNode
      | date => cases isNode
    · intro member
      exact ⟨_, member, rfl⟩

/-- A sound part of a registry keeps what is reached from what it keeps. -/
theorem holds_of_isReached_later {roots : List ShapeId} (sound : registry.Sound)
    (within : registry.Within later) (held : ∀ root ∈ roots, registry.Holds root)
    (reached : later.IsReached roots index) : registry.Holds (.node index) := by
  induction reached with
  | start member =>
    obtain ⟨root, inside, isNode⟩ := List.mem_filterMap.mp member
    rw [← node_of_index? isNode]
    exact held root inside
  | step _ leads before =>
    obtain ⟨shape, found, child⟩ := mem_childNodes_iff.mp leads
    have here : registry.shape? (.node _) = some shape :=
      (within.shape?_of_holds before).trans found
    exact (sound.child here child).1

/-- What is reached from what it keeps is reached in it. -/
theorem isReached_of_isReached_later {roots : List ShapeId} (sound : registry.Sound)
    (within : registry.Within later) (held : ∀ root ∈ roots, registry.Holds root)
    (reached : later.IsReached roots index) : registry.IsReached roots index := by
  induction reached with
  | start member => exact .start member
  | step before leads step =>
    obtain ⟨shape, found, child⟩ := mem_childNodes_iff.mp leads
    have holds := holds_of_isReached_later sound within held before
    exact .step step
      (mem_childNodes_iff.mpr ⟨shape, (within.shape?_of_holds holds).trans found, child⟩)

/-- What is reached from kept shapes is kept. -/
theorem holds_of_isReached {roots : List ShapeId} (sound : registry.Sound)
    (held : ∀ root ∈ roots, registry.Holds root) (reached : registry.IsReached roots index) :
    registry.Holds (.node index) :=
  holds_of_isReached_later sound (fun _ _ found => found) held reached

/-! ### Pruning -/

theorem within_prune (roots : List ShapeId) (registry : Registry) :
    (registry.prune roots).Within registry := by
  intro index shape found
  rw [shapeAt?_prune] at found
  split at found
  · exact found
  · simp at found

theorem shapeAt?_prune_of_isReached {roots : List ShapeId}
    (reached : registry.IsReached roots index) :
    (registry.prune roots).shapeAt? index = registry.shapeAt? index := by
  rw [shapeAt?_prune, if_pos (mem_reachable_iff.mpr reached)]

theorem isReached_of_shapeAt?_prune {roots : List ShapeId}
    (found : (registry.prune roots).shapeAt? index = some shape) :
    registry.IsReached roots index := by
  rw [shapeAt?_prune] at found
  split at found
  · next member => exact mem_reachable_iff.mp member
  · simp at found

theorem shape?_prune_of_holds {roots : List ShapeId} (held : (registry.prune roots).Holds id) :
    (registry.prune roots).shape? id = registry.shape? id :=
  (within_prune roots registry).shape?_of_holds held

theorem fields?_prune_of_holds {roots : List ShapeId} (held : (registry.prune roots).Holds id) :
    (registry.prune roots).fields? id = registry.fields? id :=
  fields?_congr (shape?_prune_of_holds held)

theorem elements?_prune_of_holds {roots : List ShapeId}
    (held : (registry.prune roots).Holds id) :
    (registry.prune roots).elements? id = registry.elements? id :=
  elements?_congr (shape?_prune_of_holds held)

theorem members?_prune_of_holds {roots : List ShapeId} (held : (registry.prune roots).Holds id) :
    (registry.prune roots).members? id = registry.members? id :=
  members?_congr (shape?_prune_of_holds held)

theorem holds_prune_root {roots : List ShapeId} (holds : registry.Holds id) (root : id ∈ roots) :
    (registry.prune roots).Holds id := by
  cases id with
  | node index =>
    obtain ⟨shape, found⟩ := holds
    refine ⟨shape, ?_⟩
    rw [shapeAt?_prune_of_isReached (.start (List.mem_filterMap.mpr ⟨_, root, rfl⟩)), found]
  | primitive kind => trivial
  | date => trivial

/-- What a reached shape points at is reached. -/
theorem holds_prune_child {roots : List ShapeId} (holds : registry.Holds other)
    (found : (registry.prune roots).shapeAt? index = some shape)
    (member : other ∈ shape.children) : (registry.prune roots).Holds other := by
  cases other with
  | node below =>
    obtain ⟨kept, inside⟩ := holds
    have next : below ∈ registry.childNodes index := by
      unfold childNodes
      rw [within_prune roots registry index shape found]
      exact List.mem_filterMap.mpr ⟨_, member, rfl⟩
    refine ⟨kept, ?_⟩
    rw [shapeAt?_prune_of_isReached (.step (isReached_of_shapeAt?_prune found) next), inside]
  | primitive kind => trivial
  | date => trivial

/-- **What is reached rests on what is reached.** -/
theorem Sound.prune (sound : registry.Sound) (roots : List ShapeId) :
    (registry.prune roots).Sound where
  toIndexed := sound.toIndexed.retain _
  carries index shape found := by
    have carries := sound.carries index shape (within_prune roots registry index shape found)
    exact ⟨fun child member => holds_prune_child (carries.holds child member) found member,
      carries.keyed⟩
  descends index shape found :=
    sound.descends index shape (within_prune roots registry index shape found)

end SampleShapes.Registry
