/-
**What a merge is.**

`Joins` says of the shapes that a registry keeps which one joins some candidates, without a word
about how the registry came by it: field by field for objects, element by element for lists, beside
null a nullable join, and a union for every other mix.

* `HoldsBelow.flatten`, `HoldsBelow.shapesUnder`, `HoldsBelow.elements`: flat candidates are kept,
  and what their fields and elements point at is kept further down;
* `Joins.grow`: **a join stays one while the registry grows**;
* `Joins.object`, `Joins.hasFields`: the join of objects is an object, and has fields if they do.
-/

import SampleShapes.Proofs.Registry.Soundness
import SampleShapes.Registry.Merge

namespace SampleShapes.Registry

variable {registry later : Registry} {candidates : List ShapeId} {id joined : ShapeId}

/-! ### Flat candidates -/

theorem flatten_eraseDups (registry : Registry) (candidates : List ShapeId) :
    registry.flatten candidates.eraseDups = registry.flatten candidates := by
  unfold flatten
  rw [Lists.eraseDups_eraseDups]

/-- A flat candidate is a candidate, or a member of a union that is one. -/
theorem mem_candidates_of_mem_flatten (member : id ∈ registry.flatten candidates) :
    id ∈ candidates ∨
      ∃ union ∈ candidates, ∃ members, registry.members? union = some members ∧ id ∈ members := by
  unfold flatten at member
  split at member
  · next only alone =>
    have inside : id ∈ candidates.eraseDups := by rw [alone]; exact member
    exact .inl (List.mem_eraseDups.mp inside)
  · rw [List.mem_eraseDups, List.mem_flatMap] at member
    obtain ⟨candidate, inside, alternative⟩ := member
    have inside := List.mem_eraseDups.mp inside
    unfold alternatives at alternative
    split at alternative
    · next members found => exact .inr ⟨candidate, inside, members, found, alternative⟩
    · rw [List.mem_singleton] at alternative
      exact .inl (alternative ▸ inside)

/-- A candidate is a flat one, or a union whose members are flat ones. -/
theorem mem_flatten_of_mem_candidates (registry : Registry) (member : id ∈ candidates) :
    id ∈ registry.flatten candidates ∨
      ∃ members, registry.members? id = some members ∧
        ∀ alternative ∈ members, alternative ∈ registry.flatten candidates := by
  have inside := List.mem_eraseDups.mpr member
  unfold flatten
  split
  · next only alone =>
    rw [alone] at inside
    exact .inl inside
  · cases found : registry.members? id with
    | none =>
      refine .inl (List.mem_eraseDups.mpr (List.mem_flatMap.mpr ⟨id, inside, ?_⟩))
      simp [alternatives, found]
    | some members =>
      refine .inr ⟨members, rfl, fun alternative here => ?_⟩
      refine List.mem_eraseDups.mpr (List.mem_flatMap.mpr ⟨id, inside, ?_⟩)
      simpa [alternatives, found] using here

/-- What the identities are for is kept, and lies below `level`. -/
def HoldsBelow (registry : Registry) (level : Nat) (ids : List ShapeId) : Prop :=
  ∀ id ∈ ids, registry.Holds id ∧ id.ceiling < level

theorem holdsBelow_of_holds (held : ∀ candidate ∈ candidates, registry.Holds candidate) :
    registry.HoldsBelow (registry.capacity + 1) candidates :=
  fun candidate member => ⟨held candidate member,
    Nat.lt_succ_of_le (ceiling_le_capacity (held candidate member))⟩

theorem HoldsBelow.grow {level : Nat} {ids : List ShapeId} (held : registry.HoldsBelow level ids)
    (grows : registry.Grows later) : later.HoldsBelow level ids :=
  fun id member => ⟨grows.holds (held id member).1, (held id member).2⟩

/-- Flat candidates are kept, and lie no higher than the candidates. -/
theorem HoldsBelow.flatten (sound : registry.Sound) {level : Nat}
    (held : registry.HoldsBelow level candidates) :
    registry.HoldsBelow level (registry.flatten candidates) := by
  intro id member
  rcases mem_candidates_of_mem_flatten member with inside | ⟨union, inside, members, found, part⟩
  · exact held id inside
  · obtain ⟨holds, below⟩ := sound.member found part
    exact ⟨holds, Nat.lt_trans below (held union inside).2⟩

theorem flatten_grow (grows : registry.Grows later)
    (held : ∀ candidate ∈ candidates, registry.Holds candidate) :
    later.flatten candidates = registry.flatten candidates := by
  have same : candidates.eraseDups.flatMap later.alternatives =
      candidates.eraseDups.flatMap registry.alternatives := by
    refine List.flatMap_congr fun candidate member => ?_
    unfold alternatives
    rw [grows.members?_eq (held candidate (List.mem_eraseDups.mp member))]
  unfold flatten
  generalize candidates.eraseDups = ids at same
  match ids with
  | [] => rfl
  | [only] => rfl
  | first :: second :: rest => exact congrArg List.eraseDups same

/-- What is kept is made of the same objects in a registry that has grown, null aside. -/
theorem mapM_fields?_of_holds (grows : registry.Grows later) {ids : List ShapeId}
    (held : ∀ id ∈ ids, registry.Holds id) :
    (ids.filter (· ≠ .null)).mapM later.fields? =
      (ids.filter (· ≠ .null)).mapM registry.fields? :=
  Lists.mapM_congr fun id member => grows.fields?_eq (held id (List.mem_of_mem_filter member))

/-- It is made of the same lists, too. -/
theorem mapM_elements?_of_holds (grows : registry.Grows later) {ids : List ShapeId}
    (held : ∀ id ∈ ids, registry.Holds id) :
    (ids.filter (· ≠ .null)).mapM later.elements? =
      (ids.filter (· ≠ .null)).mapM registry.elements? :=
  Lists.mapM_congr fun id member => grows.elements?_eq (held id (List.mem_of_mem_filter member))

/-- Flat candidates are the same objects in a registry that has grown. -/
theorem mapM_fields?_grow (sound : registry.Sound) (grows : registry.Grows later)
    (held : ∀ candidate ∈ candidates, registry.Holds candidate) :
    ((later.flatten candidates).filter (· ≠ .null)).mapM later.fields? =
      ((registry.flatten candidates).filter (· ≠ .null)).mapM registry.fields? := by
  have heldFlat := (holdsBelow_of_holds held).flatten sound
  rw [flatten_grow grows held]
  exact mapM_fields?_of_holds grows fun id member => (heldFlat id member).1

/-- They are the same lists, too. -/
theorem mapM_elements?_grow (sound : registry.Sound) (grows : registry.Grows later)
    (held : ∀ candidate ∈ candidates, registry.Holds candidate) :
    ((later.flatten candidates).filter (· ≠ .null)).mapM later.elements? =
      ((registry.flatten candidates).filter (· ≠ .null)).mapM registry.elements? := by
  have heldFlat := (holdsBelow_of_holds held).flatten sound
  rw [flatten_grow grows held]
  exact mapM_elements?_of_holds grows fun id member => (heldFlat id member).1

/-! ### Joins -/

/-- The shapes that objects have under a raw key. -/
def shapesUnder (objects : List (Table String Field)) (raw : String) : List ShapeId :=
  (objects.filterMap (·.get? raw)).map Field.shape

/-- The fields of a join of objects: those of all of them, and a field is required exactly if every
object requires it. -/
structure Unites (objects : List (Table String Field)) (fields : Table String Field) : Prop where
  /-- The keys are those of the objects. -/
  keys : ∀ raw, raw ∈ fields.keys ↔ ∃ object ∈ objects, raw ∈ object.keys
  /-- What every object requires is required. -/
  required : ∀ raw field, fields.get? raw = some field →
    (field.optional = false ↔
      ∀ object ∈ objects, ∃ found, object.get? raw = some found ∧ found.optional = false)

/-- `joined` is `solid`, made nullable if null is among `ids`. -/
def IsNullable (registry : Registry) (ids : List ShapeId) (solid joined : ShapeId) : Prop :=
  if .null ∈ ids then registry.members? joined = some (.ofList [solid, .null]) else joined = solid

/-- `joined` joins the candidates. -/
inductive Joins (registry : Registry) : List ShapeId → ShapeId → Prop where
  /-- Nothing joins to the union of nothing. -/
  | nothing {candidates : List ShapeId} {joined : ShapeId}
      (flat : registry.flatten candidates = [])
      (found : registry.members? joined = some ∅) :
      Joins registry candidates joined
  /-- A candidate that is alone is its own join. -/
  | alone {candidates : List ShapeId} {joined : ShapeId}
      (flat : registry.flatten candidates = [joined]) :
      Joins registry candidates joined
  /-- Objects join field by field. -/
  | objects {candidates : List ShapeId} {joined solid : ShapeId}
      {objects : List (Table String Field)} {fields : Table String Field}
      (several : 2 ≤ (registry.flatten candidates).length)
      (all : ((registry.flatten candidates).filter (· ≠ .null)).mapM registry.fields? =
        some objects)
      (found : registry.fields? solid = some fields) (unites : Unites objects fields)
      (each : ∀ raw field, fields.get? raw = some field →
        Joins registry (shapesUnder objects raw) field.shape)
      (nullable : registry.IsNullable (registry.flatten candidates) solid joined) :
      Joins registry candidates joined
  /-- Lists join element by element. -/
  | lists {candidates : List ShapeId} {joined solid element : ShapeId} {lists : List IdSet}
      (several : 2 ≤ (registry.flatten candidates).length)
      (all : ((registry.flatten candidates).filter (· ≠ .null)).mapM registry.elements? =
        some lists)
      (found : registry.elements? solid = some (.singleton element))
      (each : Joins registry (lists.flatMap IdSet.toList) element)
      (nullable : registry.IsNullable (registry.flatten candidates) solid joined) :
      Joins registry candidates joined
  /-- Every other mix joins to a union. -/
  | mixed {candidates : List ShapeId} {joined : ShapeId}
      (several : 2 ≤ (registry.flatten candidates).length)
      (notObjects : ((registry.flatten candidates).filter (· ≠ .null)).mapM registry.fields? = none)
      (notLists : ((registry.flatten candidates).filter (· ≠ .null)).mapM registry.elements? = none)
      (found : registry.members? joined = some (.ofList (registry.flatten candidates))) :
      Joins registry candidates joined

/-- A join depends on the flat candidates alone. -/
theorem Joins.congr {others : List ShapeId}
    (same : registry.flatten others = registry.flatten candidates)
    (joins : registry.Joins candidates joined) : registry.Joins others joined := by
  cases joins with
  | nothing flat found => exact .nothing (same.trans flat) found
  | alone flat => exact .alone (same.trans flat)
  | objects several all found unites each nullable =>
    rw [← same] at several all nullable
    exact .objects several all found unites each nullable
  | lists several all found each nullable =>
    rw [← same] at several all nullable
    exact .lists several all found each nullable
  | mixed several notObjects notLists found =>
    rw [← same] at several notObjects notLists found
    exact .mixed several notObjects notLists found

theorem exists_fields?_of_mem {ids : List ShapeId} {objects : List (Table String Field)}
    (all : (ids.filter (· ≠ .null)).mapM registry.fields? = some objects)
    {object : Table String Field} (member : object ∈ objects) :
    ∃ id ∈ ids, registry.fields? id = some object := by
  obtain ⟨id, inside, found⟩ := Lists.exists_mem_of_mapM_right all member
  exact ⟨id, List.mem_of_mem_filter inside, found⟩

theorem exists_elements?_of_mem {ids : List ShapeId} {lists : List IdSet}
    (all : (ids.filter (· ≠ .null)).mapM registry.elements? = some lists) {list : IdSet}
    (member : list ∈ lists) : ∃ id ∈ ids, registry.elements? id = some list := by
  obtain ⟨id, inside, found⟩ := Lists.exists_mem_of_mapM_right all member
  exact ⟨id, List.mem_of_mem_filter inside, found⟩

/-- What succeeds on identities, null aside, succeeds on each of them. -/
theorem exists_result_of_mem {β : Type} {partialMap : ShapeId → Option β} {ids : List ShapeId}
    {results : List β} (all : (ids.filter (· ≠ .null)).mapM partialMap = some results)
    (member : id ∈ ids) (notNull : id ≠ .null) :
    ∃ result ∈ results, partialMap id = some result :=
  Lists.exists_mem_of_mapM all (List.mem_filter.mpr ⟨member, decide_eq_true notNull⟩)

theorem mapM_eq_none_of_mem {β : Type} {partialMap : ShapeId → Option β} {ids : List ShapeId}
    (member : id ∈ ids) (notNull : id ≠ .null) (fails : partialMap id = none) :
    (ids.filter (· ≠ .null)).mapM partialMap = none := by
  refine Option.eq_none_iff_forall_ne_some.mpr fun results all => ?_
  obtain ⟨_, _, made⟩ := exists_result_of_mem all member notNull
  cases fails.symm.trans made

theorem mem_shapesUnder_iff {objects : List (Table String Field)} {raw : String} :
    id ∈ shapesUnder objects raw ↔
      ∃ object ∈ objects, ∃ field, object.get? raw = some field ∧ field.shape = id := by
  unfold shapesUnder
  simp only [List.mem_map, List.mem_filterMap]
  constructor
  · rintro ⟨field, ⟨object, member, found⟩, same⟩
    exact ⟨object, member, field, found, same⟩
  · rintro ⟨object, member, field, found, same⟩
    exact ⟨field, ⟨object, member, found⟩, same⟩

section Parents

variable {ids : List ShapeId} {level : Nat} {objects : List (Table String Field)}
  {lists : List IdSet}

/-- What objects have under a raw key is what some of them points at. -/
theorem exists_parent_of_mem_shapesUnder {raw : String}
    (all : (ids.filter (· ≠ .null)).mapM registry.fields? = some objects)
    (member : id ∈ shapesUnder objects raw) :
    ∃ parent ∈ ids, ∃ shape, registry.shape? parent = some shape ∧ id ∈ shape.children := by
  obtain ⟨object, inside, field, under, rfl⟩ := mem_shapesUnder_iff.mp member
  obtain ⟨parent, among, found⟩ := exists_fields?_of_mem all inside
  exact ⟨parent, among, _, fields?_eq_some_iff.mp found,
    List.mem_map_of_mem (Table.mem_values_iff.mpr ⟨raw, under⟩)⟩

/-- An element of lists is what some of them points at. -/
theorem exists_parent_of_mem_elements
    (all : (ids.filter (· ≠ .null)).mapM registry.elements? = some lists)
    (member : id ∈ lists.flatMap IdSet.toList) :
    ∃ parent ∈ ids, ∃ shape, registry.shape? parent = some shape ∧ id ∈ shape.children := by
  obtain ⟨list, inside, element⟩ := List.mem_flatMap.mp member
  obtain ⟨parent, among, found⟩ := exists_elements?_of_mem all inside
  exact ⟨parent, among, _, elements?_eq_some_iff.mp found, element⟩

/-- What flat candidates point at is kept further down. -/
theorem HoldsBelow.child (sound : registry.Sound) (held : registry.HoldsBelow (level + 1) ids)
    (parents : ∃ parent ∈ ids, ∃ shape, registry.shape? parent = some shape ∧ id ∈ shape.children) :
    registry.Holds id ∧ id.ceiling < level := by
  obtain ⟨parent, among, shape, found, member⟩ := parents
  obtain ⟨holds, below⟩ := sound.child found member
  exact ⟨holds, Nat.lt_of_lt_of_le below (Nat.le_of_lt_succ (held parent among).2)⟩

/-- What objects among flat candidates have under a raw key is kept further down. -/
theorem HoldsBelow.shapesUnder (sound : registry.Sound)
    (held : registry.HoldsBelow (level + 1) ids)
    (all : (ids.filter (· ≠ .null)).mapM registry.fields? = some objects) (raw : String) :
    registry.HoldsBelow level (shapesUnder objects raw) :=
  fun _ member => held.child sound (exists_parent_of_mem_shapesUnder all member)

/-- The elements of lists among flat candidates are kept further down. -/
theorem HoldsBelow.elements (sound : registry.Sound) (held : registry.HoldsBelow (level + 1) ids)
    (all : (ids.filter (· ≠ .null)).mapM registry.elements? = some lists) :
    registry.HoldsBelow level (lists.flatMap IdSet.toList) :=
  fun _ member => held.child sound (exists_parent_of_mem_elements all member)

end Parents

/-! ### The cases of a join -/

theorem nodup_flatten (registry : Registry) (candidates : List ShapeId) :
    (registry.flatten candidates).Nodup := by
  unfold flatten
  split
  · exact List.nodup_singleton _
  · exact Lists.nodup_eraseDups _

/-- Several flat candidates are not objects and lists at once. -/
theorem not_objects_and_lists (several : 2 ≤ (registry.flatten candidates).length)
    {objects : List (Table String Field)} {lists : List IdSet}
    (allObjects : ((registry.flatten candidates).filter (· ≠ .null)).mapM registry.fields? =
      some objects)
    (allLists : ((registry.flatten candidates).filter (· ≠ .null)).mapM registry.elements? =
      some lists) : False := by
  obtain ⟨id, member, notNull⟩ := Lists.exists_ne_of_nodup (nodup_flatten _ _) several .null
  obtain ⟨object, _, found⟩ := exists_result_of_mem allObjects member notNull
  obtain ⟨list, _, found'⟩ := exists_result_of_mem allLists member notNull
  rw [elements?_eq_none_of_fields? (Option.isSome_of_eq_some found)] at found'
  cases found'

theorem not_objects_of_lists (several : 2 ≤ (registry.flatten candidates).length)
    {lists : List IdSet}
    (allLists : ((registry.flatten candidates).filter (· ≠ .null)).mapM registry.elements? =
      some lists) :
    ((registry.flatten candidates).filter (· ≠ .null)).mapM registry.fields? = none :=
  Option.eq_none_iff_forall_ne_some.mpr fun _ allObjects =>
    not_objects_and_lists several allObjects allLists

/-- What flat candidates are. -/
inductive Kinds (registry : Registry) (candidates : List ShapeId) : Prop where
  /-- There are none. -/
  | nothing (flat : registry.flatten candidates = [])
  /-- There is one. -/
  | alone {only : ShapeId} (flat : registry.flatten candidates = [only])
  /-- There are several, and all of them are objects, null aside. -/
  | objects {objects : List (Table String Field)}
      (several : 2 ≤ (registry.flatten candidates).length)
      (all : ((registry.flatten candidates).filter (· ≠ .null)).mapM registry.fields? =
        some objects)
  /-- All of them are lists, null aside. -/
  | lists {lists : List IdSet} (several : 2 ≤ (registry.flatten candidates).length)
      (all : ((registry.flatten candidates).filter (· ≠ .null)).mapM registry.elements? =
        some lists)
  /-- They are neither. -/
  | mixed (several : 2 ≤ (registry.flatten candidates).length)
      (notObjects : ((registry.flatten candidates).filter (· ≠ .null)).mapM registry.fields? = none)
      (notLists : ((registry.flatten candidates).filter (· ≠ .null)).mapM registry.elements? = none)

theorem kinds (registry : Registry) (candidates : List ShapeId) : registry.Kinds candidates := by
  rcases ids : registry.flatten candidates with _ | ⟨only, _ | ⟨second, rest⟩⟩
  · exact .nothing ids
  · exact .alone ids
  · have several : 2 ≤ (registry.flatten candidates).length := by
      rw [ids]
      simp
    cases objects : ((registry.flatten candidates).filter (· ≠ .null)).mapM registry.fields? with
    | some tables => exact .objects several objects
    | none =>
      cases lists : ((registry.flatten candidates).filter (· ≠ .null)).mapM registry.elements? with
      | some sets => exact .lists several lists
      | none => exact .mixed several objects lists

theorem Joins.of_nil (joins : registry.Joins candidates joined)
    (flat : registry.flatten candidates = []) : registry.members? joined = some ∅ := by
  cases joins with
  | nothing _ found => exact found
  | alone flat' => rw [flat] at flat'; cases flat'
  | objects several => rw [flat] at several; exact absurd several (by decide)
  | lists several => rw [flat] at several; exact absurd several (by decide)
  | mixed several => rw [flat] at several; exact absurd several (by decide)

theorem Joins.of_singleton (joins : registry.Joins candidates joined)
    (flat : registry.flatten candidates = [id]) : joined = id := by
  cases joins with
  | nothing flat' => rw [flat] at flat'; cases flat'
  | alone flat' => exact List.singleton_injective (flat'.symm.trans flat)
  | objects several => rw [flat] at several; exact absurd several (by simp)
  | lists several => rw [flat] at several; exact absurd several (by simp)
  | mixed several => rw [flat] at several; exact absurd several (by simp)

section Several

variable (joins : registry.Joins candidates joined)
  (several : 2 ≤ (registry.flatten candidates).length)
include joins several

/-- Several objects, null aside, join field by field. -/
theorem Joins.of_several_objects {objects : List (Table String Field)}
    (all : ((registry.flatten candidates).filter (· ≠ .null)).mapM registry.fields? =
      some objects) :
    ∃ solid fields, registry.fields? solid = some fields ∧ Unites objects fields ∧
      (∀ raw field, fields.get? raw = some field →
        registry.Joins (shapesUnder objects raw) field.shape) ∧
      registry.IsNullable (registry.flatten candidates) solid joined := by
  cases joins with
  | nothing flat => rw [flat] at several; exact absurd several (by decide)
  | alone flat => rw [flat] at several; exact absurd several (by simp)
  | objects _ all' found unites each nullable =>
    obtain rfl := Option.some.inj (all'.symm.trans all)
    exact ⟨_, _, found, unites, each, nullable⟩
  | lists _ allLists => exact (not_objects_and_lists several all allLists).elim
  | mixed _ notObjects => rw [notObjects] at all; cases all

/-- Several lists, null aside, join element by element. -/
theorem Joins.of_several_lists {lists : List IdSet}
    (all : ((registry.flatten candidates).filter (· ≠ .null)).mapM registry.elements? =
      some lists) :
    ∃ solid element, registry.elements? solid = some (.singleton element) ∧
      registry.Joins (lists.flatMap IdSet.toList) element ∧
      registry.IsNullable (registry.flatten candidates) solid joined := by
  cases joins with
  | nothing flat => rw [flat] at several; exact absurd several (by decide)
  | alone flat => rw [flat] at several; exact absurd several (by simp)
  | objects _ allObjects => exact (not_objects_and_lists several allObjects all).elim
  | lists _ all' found each nullable =>
    obtain rfl := Option.some.inj (all'.symm.trans all)
    exact ⟨_, _, found, each, nullable⟩
  | mixed _ _ notLists => rw [notLists] at all; cases all

/-- Every other mix of several joins to a union. -/
theorem Joins.of_several_mix
    (notObjects : ((registry.flatten candidates).filter (· ≠ .null)).mapM registry.fields? = none)
    (notLists : ((registry.flatten candidates).filter (· ≠ .null)).mapM registry.elements? =
      none) :
    registry.members? joined = some (.ofList (registry.flatten candidates)) := by
  cases joins with
  | nothing flat => rw [flat] at several; exact absurd several (by decide)
  | alone flat => rw [flat] at several; exact absurd several (by simp)
  | objects _ all => rw [notObjects] at all; cases all
  | lists _ all => rw [notLists] at all; cases all
  | mixed _ _ _ found => exact found

end Several

/-! ### Growth -/

theorem IsNullable.congr {ids others : List ShapeId} {solid : ShapeId}
    (null : .null ∈ others ↔ .null ∈ ids) (nullable : registry.IsNullable ids solid joined) :
    registry.IsNullable others solid joined := by
  unfold IsNullable at nullable ⊢
  simpa only [null] using nullable

theorem IsNullable.grow {ids : List ShapeId} {solid : ShapeId} (grows : registry.Grows later)
    (nullable : registry.IsNullable ids solid joined) : later.IsNullable ids solid joined := by
  unfold IsNullable at nullable ⊢
  split
  · next null =>
    rw [if_pos null] at nullable
    exact grows.within.members? nullable
  · next solidOnly =>
    rw [if_neg solidOnly] at nullable
    exact nullable

/-- **A join stays one while the registry grows.** -/
theorem Joins.grow (sound : registry.Sound) (grows : registry.Grows later)
    (joins : registry.Joins candidates joined)
    (held : ∀ candidate ∈ candidates, registry.Holds candidate) :
    later.Joins candidates joined := by
  induction joins with
  | nothing flat found =>
    exact .nothing ((flatten_grow grows held).trans flat) (grows.within.members? found)
  | alone flat => exact .alone ((flatten_grow grows held).trans flat)
  | objects several all found unites each nullable step =>
    have heldFlat := (holdsBelow_of_holds held).flatten sound
    rw [← flatten_grow grows held] at several nullable
    refine .objects several ((mapM_fields?_grow sound grows held).trans all)
      (grows.within.fields? found) unites (fun raw field under => ?_) (nullable.grow grows)
    exact step raw field under fun id member => (heldFlat.shapesUnder sound all raw id member).1
  | lists several all found each nullable step =>
    have heldFlat := (holdsBelow_of_holds held).flatten sound
    rw [← flatten_grow grows held] at several nullable
    refine .lists several ((mapM_elements?_grow sound grows held).trans all)
      (grows.within.elements? found) (step fun id member => ?_) (nullable.grow grows)
    exact (heldFlat.elements sound all id member).1
  | mixed several notObjects notLists found =>
    rw [← flatten_grow grows held] at several found
    exact .mixed several ((mapM_fields?_grow sound grows held).trans notObjects)
      ((mapM_elements?_grow sound grows held).trans notLists) (grows.within.members? found)

/-! ### Joins of objects -/

theorem flatten_subset_of_objects
    (objects : ∀ candidate ∈ candidates, (registry.fields? candidate).isSome) :
    ∀ id ∈ registry.flatten candidates, id ∈ candidates := by
  intro id member
  rcases mem_candidates_of_mem_flatten member with inside | ⟨union, inside, members, found, _⟩
  · exact inside
  · rw [members?_eq_none_of_fields? (objects union inside)] at found
    simp at found

theorem null_notMem_of_objects {ids : List ShapeId}
    (objects : ∀ id ∈ ids, (registry.fields? id).isSome) : .null ∉ ids :=
  fun null => Bool.false_ne_true (objects .null null)

/-- Nothing is set aside among objects. -/
theorem filter_solid_of_objects {ids : List ShapeId}
    (objects : ∀ id ∈ ids, (registry.fields? id).isSome) : ids.filter (· ≠ .null) = ids := by
  refine List.filter_eq_self.mpr fun id member => decide_eq_true ?_
  rintro rfl
  exact null_notMem_of_objects objects member

/-- Objects join to one of them, or to an object that unites some of them. -/
theorem Joins.of_objects (joins : registry.Joins candidates joined) (nonempty : candidates ≠ [])
    (objects : ∀ candidate ∈ candidates, (registry.fields? candidate).isSome) :
    joined ∈ candidates ∨ ∃ objects fields, registry.fields? joined = some fields ∧
      Unites objects fields ∧ objects ≠ [] ∧
        ∀ object ∈ objects, ∃ id ∈ candidates, registry.fields? id = some object := by
  -- No candidate is a union, so that flat candidates are candidates, and none of them is null.
  have flatObjects := flatten_subset_of_objects objects
  have among : ∀ id ∈ registry.flatten candidates, (registry.fields? id).isSome :=
    fun id member => objects id (flatObjects id member)
  have noNull := null_notMem_of_objects among
  have solid := filter_solid_of_objects among
  cases joins with
  | nothing flat found =>
    obtain ⟨candidate, member⟩ := List.exists_mem_of_ne_nil candidates nonempty
    rcases mem_flatten_of_mem_candidates registry member with inside | ⟨_, union, _⟩
    · rw [flat] at inside
      exact absurd inside List.not_mem_nil
    · rw [members?_eq_none_of_fields? (objects candidate member)] at union
      simp at union
  | alone flat =>
    refine .inl (flatObjects joined ?_)
    rw [flat]
    exact List.mem_singleton_self joined
  | @objects _ _ _ tables fields several all found unites each nullable =>
    rw [IsNullable, if_neg noNull] at nullable
    rw [nullable]
    refine .inr ⟨tables, fields, found, unites, ?_, fun object member => ?_⟩
    · rintro rfl
      rw [solid, Lists.mapM_eq_some_iff] at all
      rw [List.forall₂_nil_right_iff.mp all] at several
      exact absurd several (by decide)
    · obtain ⟨id, inside, here⟩ := exists_fields?_of_mem all member
      exact ⟨id, flatObjects id inside, here⟩
  | lists several all found each nullable =>
    obtain ⟨first, member⟩ := List.exists_mem_of_length_pos (Nat.lt_of_lt_of_le Nat.two_pos several)
    rw [solid, Lists.mapM_eq_some_iff] at all
    obtain ⟨list, _, clash⟩ := Lists.exists_mem_of_forall₂ all member
    rw [elements?_eq_none_of_fields? (objects first (flatObjects first member))] at clash
    simp at clash
  | mixed several notObjects notLists found =>
    rw [solid] at notObjects
    obtain ⟨found, all⟩ := Lists.exists_mapM_eq_some among
    rw [all] at notObjects
    simp at notObjects

/-- **The join of objects is an object.** -/
theorem Joins.object (joins : registry.Joins candidates joined) (nonempty : candidates ≠ [])
    (objects : ∀ candidate ∈ candidates, (registry.fields? candidate).isSome) :
    (registry.fields? joined).isSome := by
  rcases joins.of_objects nonempty objects with member | ⟨_, fields, found, _⟩
  · exact objects joined member
  · exact Option.isSome_of_eq_some found

/-- The identity is that of an object with a field. -/
def HasFields (registry : Registry) (id : ShapeId) : Prop :=
  ∃ fields, registry.fields? id = some fields ∧ fields.isEmpty = false

theorem HasFields.isSome_fields? (object : registry.HasFields id) :
    (registry.fields? id).isSome := by
  obtain ⟨fields, found, _⟩ := object
  exact Option.isSome_of_eq_some found

theorem HasFields.holds (object : registry.HasFields id) : registry.Holds id :=
  holds_of_fields? object.isSome_fields?

/-- There is one object without fields at most. -/
theorem Sound.eq_of_isEmpty (sound : registry.Sound) {index other : Nat}
    {fields others : Table String Field} (found : registry.fields? (.node index) = some fields)
    (empty : fields.isEmpty) (found' : registry.fields? (.node other) = some others)
    (empty' : others.isEmpty) : index = other := by
  rw [Table.isEmpty_iff.mp empty] at found
  rw [Table.isEmpty_iff.mp empty'] at found'
  exact ShapeId.node.inj (sound.eq_of_shape? (fields?_eq_some_iff.mp found)
    (fields?_eq_some_iff.mp found'))

theorem Sound.eq_of_not_hasFields (sound : registry.Sound) {index other : Nat}
    (object : (registry.fields? (.node index)).isSome)
    (object' : (registry.fields? (.node other)).isSome) (none : ¬ registry.HasFields (.node index))
    (none' : ¬ registry.HasFields (.node other)) : index = other := by
  have empty : ∀ {id fields}, registry.fields? id = some fields → ¬ registry.HasFields id →
      fields.isEmpty = true := fun found without =>
    Bool.of_not_eq_false fun notEmpty => without ⟨_, found, notEmpty⟩
  obtain ⟨fields, found⟩ := Option.isSome_iff_exists.mp object
  obtain ⟨others, found'⟩ := Option.isSome_iff_exists.mp object'
  exact sound.eq_of_isEmpty found (empty found none) found' (empty found' none')

theorem HasFields.grow (object : registry.HasFields id) (within : registry.Within later) :
    later.HasFields id := by
  obtain ⟨fields, found, notEmpty⟩ := object
  exact ⟨fields, within.fields? found, notEmpty⟩

/-- **The join of objects with fields is an object with a field.** -/
theorem Joins.hasFields (joins : registry.Joins candidates joined) (nonempty : candidates ≠ [])
    (objects : ∀ candidate ∈ candidates, registry.HasFields candidate) :
    registry.HasFields joined := by
  rcases joins.of_objects nonempty fun id member => (objects id member).isSome_fields? with
    member | ⟨tables, fields, found, unites, notNone, among⟩
  · exact objects joined member
  · obtain ⟨object, inside⟩ := List.exists_mem_of_ne_nil tables notNone
    obtain ⟨id, member, here⟩ := among object inside
    obtain ⟨fields', found', notEmpty⟩ := objects id member
    obtain rfl := Option.some.inj (here.symm.trans found')
    obtain ⟨raw, key⟩ : ∃ raw, raw ∈ object.keys := by
      rw [Table.isEmpty, List.isEmpty_eq_false_iff] at notEmpty
      obtain ⟨entry, first⟩ := List.exists_mem_of_ne_nil _ notEmpty
      exact ⟨entry.1, List.mem_map.mpr ⟨entry, first, rfl⟩⟩
    obtain ⟨field, under⟩ :=
      Table.exists_get?_of_mem_keys ((unites.keys raw).mpr ⟨object, inside, key⟩)
    exact ⟨fields, found, Table.isEmpty_eq_false_of_get? under⟩

end SampleShapes.Registry
