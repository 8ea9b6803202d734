/-
**Shapes without references.**

Where no object that is reached has a key that names a target, there is nothing to unify: no object
gets an alias, and the registry stays as it is. Where one has such a key, references may still not
be nested: what stands under the key names no target. A join has no keys but those of its
candidates, and both are handed on to it.

* `everyField_iff`: what is reached from a shape are its own fields and what is reached from its
  children;
* `Joins.everyField`: **a join has what all fields of its candidates have,** if joins do;
* `Joins.isPlain`, `Joins.isUnnested`: the join of plain candidates is plain, and references are no
  more nested in a join;
* `unifyTargets_of_isPlain`: **unification leaves what is plain alone.**
-/

import SampleShapes.Proofs.Registry.Joins
import SampleShapes.Registry.Targets

namespace SampleShapes.Registry

variable {registry later : Registry} {id child position : ShapeId} {index : Nat}
  {roots : List ShapeId} {good : String → ShapeId → Prop}

/-- Every field of every object that is reached is good, for its raw key and its shape. -/
def EveryField (registry : Registry) (good : String → ShapeId → Prop) (id : ShapeId) : Prop :=
  ∀ index fields, registry.IsReached [id] index →
    registry.shapeAt? index = some (.object fields) →
      ∀ raw field, fields.get? raw = some field → good raw field.shape

/-- No key of an object that is reached says more than a name. -/
def IsPlain (registry : Registry) (id : ShapeId) : Prop :=
  registry.EveryField (fun raw _ => (Key.parse raw).mark = .plain) id

/-- What stands under a key that says more than a name is plain. -/
def IsUnnested (registry : Registry) (id : ShapeId) : Prop :=
  registry.EveryField (fun raw shape => (Key.parse raw).mark = .plain ∨ registry.IsPlain shape) id

/-! ### One step at a time -/

/-- What is reached from an identity is its own node, or reached from something its shape points
at. -/
theorem isReached_singleton_iff :
    registry.IsReached [id] index ↔ id = .node index ∨
      ∃ shape, registry.shape? id = some shape ∧
        ∃ child ∈ shape.children, registry.IsReached [child] index := by
  constructor
  · intro reached
    induction reached with
    | start member =>
      cases id with
      | node index => exact .inl (congrArg ShapeId.node (List.mem_singleton.mp member).symm)
      | primitive kind => exact absurd member List.not_mem_nil
      | date => exact absurd member List.not_mem_nil
    | @step place below _ next before =>
      rcases before with rfl | ⟨shape, found, child, member, reached⟩
      · unfold childNodes at next
        split at next
        · next shape found =>
          obtain ⟨child, member, isNode⟩ := List.mem_filterMap.mp next
          refine .inr ⟨shape, found, child, member, .start (List.mem_filterMap.mpr ?_)⟩
          exact ⟨child, List.mem_singleton_self child, isNode⟩
        · exact absurd next List.not_mem_nil
      · exact .inr ⟨shape, found, child, member, .step reached next⟩
  · rintro (rfl | ⟨shape, found, child, member, reached⟩)
    · exact .start (List.mem_singleton_self index)
    · obtain ⟨place, rfl, kept⟩ := shape?_eq_some_iff.mp found
      induction reached with
      | start first =>
        obtain ⟨root, single, isNode⟩ := List.mem_filterMap.mp first
        rw [← List.mem_singleton.mp single] at member
        refine .step (.start (List.mem_singleton_self place)) ?_
        unfold childNodes
        rw [kept]
        exact List.mem_filterMap.mpr ⟨root, member, isNode⟩
      | step _ next before => exact .step before next

/-- What is reached from some identities is reached from one of them. -/
theorem isReached_iff_exists_root :
    registry.IsReached roots index ↔ ∃ root ∈ roots, registry.IsReached [root] index := by
  constructor
  · intro reached
    induction reached with
    | start member =>
      obtain ⟨root, inside, isNode⟩ := List.mem_filterMap.mp member
      have single := List.mem_filterMap.mpr ⟨root, List.mem_singleton_self root, isNode⟩
      exact ⟨root, inside, .start single⟩
    | step _ leads before =>
      obtain ⟨root, inside, reached⟩ := before
      exact ⟨root, inside, .step reached leads⟩
  · rintro ⟨root, inside, reached⟩
    induction reached with
    | start member =>
      obtain ⟨only, single, isNode⟩ := List.mem_filterMap.mp member
      rw [List.mem_singleton.mp single] at isNode
      exact .start (List.mem_filterMap.mpr ⟨root, inside, isNode⟩)
    | step _ leads before => exact .step before leads

theorem everyField_of_shape?_eq_none (found : registry.shape? id = none) :
    registry.EveryField good id := by
  intro index fields reached kept
  rcases isReached_singleton_iff.mp reached with rfl | ⟨shape, here, _⟩
  · exact absurd (found.symm.trans kept) (by simp)
  · exact absurd (found.symm.trans here) (by simp)

/-- **The fields that are reached from a shape** are its own, and those that are reached from what
it points at. -/
theorem everyField_iff {shape : Shape} (found : registry.shape? id = some shape) :
    registry.EveryField good id ↔
      (∀ fields, shape = .object fields →
        ∀ raw field, fields.get? raw = some field → good raw field.shape) ∧
      ∀ child ∈ shape.children, registry.EveryField good child := by
  constructor
  · refine fun every => ⟨?_, fun child member index fields reached => ?_⟩
    · rintro fields rfl
      obtain ⟨index, rfl, kept⟩ := shape?_eq_some_iff.mp found
      exact every index fields (.start (List.mem_singleton_self index)) kept
    · exact every index fields
        (isReached_singleton_iff.mpr (.inr ⟨shape, found, child, member, reached⟩))
  · rintro ⟨own, children⟩ index fields reached kept
    rcases isReached_singleton_iff.mp reached with rfl | ⟨_, here, child, member, reached⟩
    · exact own fields (Option.some.inj (found.symm.trans kept))
    · obtain rfl := Option.some.inj (here.symm.trans found)
      exact children child member index fields reached kept

/-! ### Kinds of shapes -/

theorem everyField_iff_of_fields? {fields : Table String Field}
    (found : registry.fields? id = some fields) :
    registry.EveryField good id ↔ ∀ raw field, fields.get? raw = some field →
      good raw field.shape ∧ registry.EveryField good field.shape := by
  rw [everyField_iff (fields?_eq_some_iff.mp found)]
  constructor
  · intro ⟨own, children⟩ raw field under
    have value : field ∈ fields.values := Table.mem_values_iff.mpr ⟨raw, under⟩
    exact ⟨own fields rfl raw field under, children field.shape (List.mem_map_of_mem value)⟩
  · refine fun all => ⟨?_, fun child member => ?_⟩
    · rintro _ ⟨⟩ raw field under
      exact (all raw field under).1
    · obtain ⟨field, value, rfl⟩ := List.mem_map.mp member
      obtain ⟨raw, under⟩ := Table.mem_values_iff.mp value
      exact (all raw field under).2

theorem everyField_iff_of_elements? {elements : IdSet}
    (found : registry.elements? id = some elements) :
    registry.EveryField good id ↔ ∀ element ∈ elements, registry.EveryField good element :=
  (everyField_iff (elements?_eq_some_iff.mp found)).trans (and_iff_right fun _ => nofun)

theorem everyField_of_singleton {element : ShapeId}
    (found : registry.elements? id = some (.singleton element))
    (every : registry.EveryField good element) : registry.EveryField good id := by
  refine (everyField_iff_of_elements? found).mpr fun part member => ?_
  rw [List.mem_singleton.mp member]
  exact every

theorem everyField_iff_of_members? {members : IdSet}
    (found : registry.members? id = some members) :
    registry.EveryField good id ↔ ∀ member ∈ members, registry.EveryField good member :=
  (everyField_iff (members?_eq_some_iff.mp found)).trans (and_iff_right fun _ => nofun)

/-- What a position binds lies inside of it. -/
theorem everyField_of_mem_boundObjects {depth : Nat} (every : registry.EveryField good position)
    (member : id ∈ registry.boundObjects depth position) : registry.EveryField good id := by
  induction depth generalizing position with
  | zero => exact absurd member List.not_mem_nil
  | succ depth step =>
    unfold boundObjects at member
    split at member
    · split at member
      · exact absurd member List.not_mem_nil
      · rw [List.mem_singleton.mp member]
        exact every
    · next elements found =>
      obtain ⟨element, listed, inside⟩ := List.mem_flatMap.mp member
      have found := elements?_eq_some_iff.mpr found
      exact step ((everyField_iff_of_elements? found).mp every element listed) inside
    · next members found =>
      obtain ⟨alternative, listed, inside⟩ := List.mem_flatMap.mp member
      have found := members?_eq_some_iff.mpr found
      exact step ((everyField_iff_of_members? found).mp every alternative listed) inside
    · exact absurd member List.not_mem_nil

/-! ### Targets -/

variable {fields : Table String Field} {field : Field}

theorem EveryField.of_value (every : registry.EveryField good id) (sound : registry.Sound)
    (reached : registry.IsReached [id] index)
    (kept : registry.shapeAt? index = some (.object fields)) (value : field ∈ fields.values) :
    ∃ raw, field.key = Key.parse raw ∧ good raw field.shape := by
  obtain ⟨raw, under⟩ := Table.mem_values_iff.mp value
  exact ⟨raw, (sound.carries index _ kept).keyed fields rfl raw field under,
    every index fields reached kept raw field under⟩

/-- No field names a target where all is plain. -/
theorem IsPlain.target?_eq_none (plain : registry.IsPlain id) (sound : registry.Sound)
    (reached : registry.IsReached [id] index)
    (kept : registry.shapeAt? index = some (.object fields)) (value : field ∈ fields.values) :
    field.key.target? = none := by
  obtain ⟨raw, keyed, mark⟩ := EveryField.of_value plain sound reached kept value
  rw [Key.target?, keyed, mark]
  rfl

/-- What a field binds is plain where references are not nested. -/
theorem IsUnnested.isPlain (unnested : registry.IsUnnested id) (sound : registry.Sound)
    (reached : registry.IsReached [id] index)
    (kept : registry.shapeAt? index = some (.object fields)) (value : field ∈ fields.values)
    {target : String} (names : field.key.target? = some target) :
    registry.IsPlain field.shape := by
  obtain ⟨raw, keyed, mark | plain⟩ := EveryField.of_value unnested sound reached kept value
  · rw [Key.target?, keyed, mark] at names
    cases names
  · exact plain

/-! ### Growth -/

/-- What is good of the fields of what is kept is good of them in a registry that has grown, if it
lasts. -/
theorem EveryField.grow {lasting : String → ShapeId → Prop} (every : registry.EveryField good id)
    (sound : registry.Sound) (within : registry.Within later) (held : registry.Holds id)
    (lasts : ∀ raw shape, registry.Holds shape → good raw shape → lasting raw shape) :
    later.EveryField lasting id := by
  intro index fields reached found raw field under
  have held : ∀ root ∈ [id], registry.Holds root := List.forall_mem_singleton.mpr held
  have before := isReached_of_isReached_later sound within held reached
  have holds := holds_of_isReached sound held before
  have kept : registry.shapeAt? index = some (.object fields) :=
    (within.shape?_of_holds holds).trans found
  have value : field ∈ fields.values := Table.mem_values_iff.mpr ⟨raw, under⟩
  exact lasts raw field.shape ((sound.carries index _ kept).holds _ (List.mem_map_of_mem value))
    (every index fields before kept raw field under)

theorem IsPlain.grow (plain : registry.IsPlain id) (sound : registry.Sound)
    (within : registry.Within later) (held : registry.Holds id) : later.IsPlain id :=
  EveryField.grow plain sound within held fun _ _ _ same => same

theorem IsUnnested.grow (unnested : registry.IsUnnested id) (sound : registry.Sound)
    (within : registry.Within later) (held : registry.Holds id) : later.IsUnnested id :=
  EveryField.grow unnested sound within held fun _ _ holds either =>
    either.imp_right fun plain => plain.grow sound within holds

/-- What is plain nests no references. -/
theorem IsPlain.isUnnested (plain : registry.IsPlain id) : registry.IsUnnested id :=
  fun index fields reached kept raw field under =>
    .inl (plain index fields reached kept raw field under)

/-! ### Joins -/

variable {candidates : List ShapeId} {joined : ShapeId}

theorem everyField_of_mem_flatten
    (every : ∀ candidate ∈ candidates, registry.EveryField good candidate) :
    ∀ id ∈ registry.flatten candidates, registry.EveryField good id := by
  intro id member
  rcases mem_candidates_of_mem_flatten member with inside | ⟨union, inside, members, found, part⟩
  · exact every id inside
  · exact (everyField_iff_of_members? found).mp (every union inside) id part

theorem IsNullable.everyField {ids : List ShapeId} {solid : ShapeId}
    (nullable : registry.IsNullable ids solid joined) (every : registry.EveryField good solid) :
    registry.EveryField good joined := by
  unfold IsNullable at nullable
  split at nullable
  · refine (everyField_iff_of_members? nullable).mpr fun member inside => ?_
    have among : member = solid ∨ member = .null := by simpa using inside
    rcases among with rfl | rfl
    · exact every
    · exact everyField_of_shape?_eq_none rfl
  · rw [nullable]
    exact every

/-- **A join has what all fields of its candidates have,** if the shape of a field has what those
have that it joins. -/
theorem Joins.everyField
    (closed : ∀ raw shapes joined, shapes ≠ [] → registry.Joins shapes joined →
      (∀ shape ∈ shapes, good raw shape) → good raw joined)
    (joins : registry.Joins candidates joined)
    (every : ∀ candidate ∈ candidates, registry.EveryField good candidate) :
    registry.EveryField good joined := by
  induction joins with
  | nothing flat found =>
    exact (everyField_iff_of_members? found).mpr fun _ member => absurd member List.not_mem_nil
  | @alone candidates joined flat =>
    refine everyField_of_mem_flatten every joined ?_
    rw [flat]
    exact List.mem_singleton_self joined
  | @objects candidates joined solid objects fields several all found unites each nullable step =>
    have flat := everyField_of_mem_flatten every
    have inside : ∀ raw, ∀ shape ∈ shapesUnder objects raw,
        good raw shape ∧ registry.EveryField good shape := by
      intro raw shape member
      obtain ⟨object, inside, own, there, rfl⟩ := mem_shapesUnder_iff.mp member
      obtain ⟨id, member, here⟩ := exists_fields?_of_mem all inside
      exact (everyField_iff_of_fields? here).mp (flat id member) raw own there
    refine nullable.everyField
      ((everyField_iff_of_fields? found).mpr fun raw field under => ⟨?_, ?_⟩)
    · -- Some object has the key, so that the field joins something.
      obtain ⟨object, holder, key⟩ := (unites.keys raw).mp (Table.mem_keys_of_get? under)
      obtain ⟨own, there⟩ := Table.exists_get?_of_mem_keys key
      have member := mem_shapesUnder_iff.mpr ⟨object, holder, own, there, rfl⟩
      exact closed raw _ _ (List.ne_nil_of_mem member) (each raw field under)
        fun shape member => (inside raw shape member).1
    · exact step raw field under fun shape member => (inside raw shape member).2
  | @lists candidates joined solid element lists several all found each nullable step =>
    have flat := everyField_of_mem_flatten every
    have elementEvery : registry.EveryField good element := by
      refine step fun shape member => ?_
      obtain ⟨list, inside, listed⟩ := List.mem_flatMap.mp member
      obtain ⟨id, member, here⟩ := exists_elements?_of_mem all inside
      exact (everyField_iff_of_elements? here).mp (flat id member) shape listed
    exact nullable.everyField (everyField_of_singleton found elementEvery)
  | mixed several notObjects notLists found =>
    refine (everyField_iff_of_members? found).mpr fun part member => ?_
    exact everyField_of_mem_flatten every part (IdSet.mem_ofList.mp member)

/-- **The join of plain candidates is plain.** -/
theorem Joins.isPlain (joins : registry.Joins candidates joined)
    (plain : ∀ candidate ∈ candidates, registry.IsPlain candidate) : registry.IsPlain joined := by
  refine joins.everyField (fun raw shapes _ nonempty _ all => ?_) plain
  obtain ⟨shape, member⟩ := List.exists_mem_of_ne_nil shapes nonempty
  exact all shape member

/-- **References are no more nested in a join** than in its candidates. -/
theorem Joins.isUnnested (joins : registry.Joins candidates joined)
    (unnested : ∀ candidate ∈ candidates, registry.IsUnnested candidate) :
    registry.IsUnnested joined := by
  refine joins.everyField (fun raw shapes _ _ joins all => ?_) unnested
  by_cases mark : (Key.parse raw).mark = .plain
  · exact .inl mark
  · exact .inr (joins.isPlain fun shape member => (all shape member).resolve_left mark)

/-! ### Unification -/

/-- Where nothing names a target there are no groups. -/
theorem groups_of_isPlain (sound : registry.Sound) (plain : registry.IsPlain id) :
    registry.groups [id] = ∅ := by
  unfold groups
  refine List.foldlRecOn (motive := (· = ∅)) _ _ rfl ?_
  rintro groups rfl index listed
  split
  · next fields kept =>
    refine List.foldlRecOn (motive := (· = ∅)) _ _ rfl ?_
    rintro groups rfl field value
    unfold groupField
    rw [plain.target?_eq_none sound (mem_reachable_iff.mp listed) kept value]
  · rfl

/-- **Unification leaves what is plain alone.** -/
theorem unifyTargets_of_isPlain (sound : registry.Sound) (plain : registry.IsPlain id) :
    registry.unifyTargets id = (∅, registry) := by
  have none : registry.groups (id :: (∅ : Table String Nat).values.map ShapeId.node) = ∅ :=
    groups_of_isPlain sound plain
  have unified : unifyRounds id maxRounds ∅ ⟨∅, registry⟩ = (∅, ⟨∅, registry⟩) := by
    unfold maxRounds unifyRounds
    dsimp only
    rw [none]
    rfl
  unfold unifyTargets
  rw [unified]
  rfl

end SampleShapes.Registry
