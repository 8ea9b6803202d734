/-
**The same join in two registries.**

Registries that came about differently hand out different identities, and list fields in different
orders. What candidates join to depends on none of this: candidates that unfold alike join to what
unfolds alike, whatever their order and however often each is there.

* `exists_fields?`, `exists_elements?`, `exists_members?`: what unfolds alike is of one kind;
* `Matches.flatten`: candidates that match are flat candidates that match;
* `Joins.unfolding_eq`: **a join depends on what its candidates unfold to**, and on nothing else;
* `Joins.unique`: so there is one join of candidates in a registry, whatever their order.
-/

import SampleShapes.Proofs.Registry.Unfolding

namespace SampleShapes.Registry

variable {registry later : Registry} {id other : ShapeId} {ids others : List ShapeId}

/-! ### What unfolds alike -/

section Across

variable (sound : registry.Sound) (soundLater : later.Sound)
  (same : registry.unfolding id = later.unfolding other)
include sound soundLater same

/-- **What unfolds like an object is one,** and says the same under every raw key. -/
theorem exists_fields? {fields : Table String Field} (found : registry.fields? id = some fields) :
    ∃ fields', later.fields? other = some fields' ∧
      ∀ raw, registry.entriesAt fields raw = later.entriesAt fields' raw := by
  obtain ⟨shape', found', trees⟩ :=
    exists_shape? sound soundLater same (fields?_eq_some_iff.mp found)
  cases shape' with
  | object fields' =>
    exact ⟨fields', fields?_eq_some_iff.mpr found', same_objectTree_iff.mp trees⟩
  | list => exact trees.elim
  | union => exact trees.elim

/-- **What unfolds like a list is one,** and its elements unfold alike. -/
theorem exists_elements? {elements : IdSet} (found : registry.elements? id = some elements) :
    ∃ elements', later.elements? other = some elements' ∧
      registry.unfoldings elements = later.unfoldings elements' := by
  obtain ⟨shape', found', trees⟩ :=
    exists_shape? sound soundLater same (elements?_eq_some_iff.mp found)
  cases shape' with
  | object => exact trees.elim
  | list elements' =>
    exact ⟨elements', elements?_eq_some_iff.mpr found', (same_setTree_iff.mp trees).2⟩
  | union => exact absurd (same_setTree_iff.mp trees).1 (by decide)

/-- **What unfolds like a union is one,** and its members unfold alike. -/
theorem exists_members? {members : IdSet} (found : registry.members? id = some members) :
    ∃ members', later.members? other = some members' ∧
      registry.unfoldings members = later.unfoldings members' := by
  obtain ⟨shape', found', trees⟩ :=
    exists_shape? sound soundLater same (members?_eq_some_iff.mp found)
  cases shape' with
  | object => exact trees.elim
  | list => exact absurd (same_setTree_iff.mp trees).1 (by decide)
  | union members' =>
    exact ⟨members', members?_eq_some_iff.mpr found', (same_setTree_iff.mp trees).2⟩

end Across

/-! ### Identities that match -/

/-- The identities unfold to the same, in whatever order and however often. -/
structure Matches (registry later : Registry) (ids others : List ShapeId) : Prop where
  forth : ∀ id ∈ ids, ∃ other ∈ others, registry.unfolding id = later.unfolding other
  back : ∀ other ∈ others, ∃ id ∈ ids, registry.unfolding id = later.unfolding other

namespace Matches

theorem symm (matching : registry.Matches later ids others) :
    later.Matches registry others ids where
  forth other member := by
    obtain ⟨id, inside, same⟩ := matching.back other member
    exact ⟨id, inside, same.symm⟩
  back id member := by
    obtain ⟨other, inside, same⟩ := matching.forth id member
    exact ⟨other, inside, same.symm⟩

theorem nil : registry.Matches later [] [] :=
  ⟨fun _ member => absurd member List.not_mem_nil, fun _ member => absurd member List.not_mem_nil⟩

theorem singletons_iff :
    registry.Matches later [id] [other] ↔ registry.unfolding id = later.unfolding other := by
  refine ⟨fun matching => ?_, fun same => ⟨?_, ?_⟩⟩
  · simpa using matching.forth
  · simpa using same
  · simpa using same

/-- In one registry, the same members match. -/
theorem of_mem_iff (same : ∀ id, id ∈ ids ↔ id ∈ others) : registry.Matches registry ids others :=
  ⟨fun id member => ⟨id, (same id).mp member, rfl⟩,
    fun id member => ⟨id, (same id).mpr member, rfl⟩⟩

theorem eraseDups (matching : registry.Matches later ids others) :
    registry.Matches later ids.eraseDups others.eraseDups where
  forth id member := by
    obtain ⟨other, inside, same⟩ := matching.forth id (List.mem_eraseDups.mp member)
    exact ⟨other, List.mem_eraseDups.mpr inside, same⟩
  back other member := by
    obtain ⟨id, inside, same⟩ := matching.back other (List.mem_eraseDups.mp member)
    exact ⟨id, List.mem_eraseDups.mpr inside, same⟩

/-- What matching identities are made into matches, if it does one by one. -/
theorem flatMap {expand expand' : ShapeId → List ShapeId}
    (matching : registry.Matches later ids others)
    (one : ∀ id other, registry.unfolding id = later.unfolding other →
      registry.Matches later (expand id) (expand' other)) :
    registry.Matches later (ids.flatMap expand) (others.flatMap expand') where
  forth part member := by
    obtain ⟨id, inside, made⟩ := List.mem_flatMap.mp member
    obtain ⟨other, inside', same⟩ := matching.forth id inside
    obtain ⟨part', made', same⟩ := (one id other same).forth part made
    exact ⟨part', List.mem_flatMap.mpr ⟨other, inside', made'⟩, same⟩
  back part member := by
    obtain ⟨other, inside, made⟩ := List.mem_flatMap.mp member
    obtain ⟨id, inside', same⟩ := matching.back other inside
    obtain ⟨part', made', same⟩ := (one id other same).back part made
    exact ⟨part', List.mem_flatMap.mpr ⟨id, inside', made'⟩, same⟩

theorem eq_nil (matching : registry.Matches later ids others) (empty : ids = []) : others = [] := by
  refine List.eq_nil_iff_forall_not_mem.mpr fun other member => ?_
  obtain ⟨id, inside, _⟩ := matching.back other member
  rw [empty] at inside
  exact List.not_mem_nil inside

/-- **Sets match if their unfoldings are the same.** -/
theorem toList_iff {set set' : IdSet} :
    registry.Matches later set.toList set'.toList ↔
      registry.unfoldings set = later.unfoldings set' := by
  constructor
  · intro matching
    refine Set.Subset.antisymm ?_ ?_
    · rintro _ ⟨id, member, rfl⟩
      obtain ⟨other, inside, same⟩ := matching.forth id member
      exact ⟨other, inside, same.symm⟩
    · rintro _ ⟨other, member, rfl⟩
      obtain ⟨id, inside, same⟩ := matching.back other member
      exact ⟨id, inside, same⟩
  · intro same
    refine ⟨fun id member => ?_, fun other member => ?_⟩
    · have image : registry.unfolding id ∈ later.unfoldings set' := by
        rw [← same]
        exact ⟨id, member, rfl⟩
      obtain ⟨other, inside, equal⟩ := image
      exact ⟨other, inside, equal.symm⟩
    · have image : later.unfolding other ∈ registry.unfoldings set := by
        rw [same]
        exact ⟨other, member, rfl⟩
      obtain ⟨id, inside, equal⟩ := image
      exact ⟨id, inside, equal⟩

/-- Sets of identities that match have the same unfoldings. -/
theorem unfoldings_ofList (matching : registry.Matches later ids others) :
    registry.unfoldings (.ofList ids) = later.unfoldings (.ofList others) :=
  toList_iff.mp
    { forth := fun id member => by
        obtain ⟨other, inside, same⟩ := matching.forth id (IdSet.mem_ofList.mp member)
        exact ⟨other, IdSet.mem_ofList.mpr inside, same⟩
      back := fun other member => by
        obtain ⟨id, inside, same⟩ := matching.back other (IdSet.mem_ofList.mp member)
        exact ⟨id, IdSet.mem_ofList.mpr inside, same⟩ }

section Sound

variable (sound : registry.Sound) (soundLater : later.Sound)
  (matching : registry.Matches later ids others)
include sound soundLater matching

/-- As many identities match as many, if each is there once. -/
theorem length_eq (once : ids.Nodup) (once' : others.Nodup) : ids.length = others.length := by
  have distinct : (ids.map registry.unfolding).Nodup :=
    once.map fun _ _ same => eq_of_unfolding_eq sound same
  have distinct' : (others.map later.unfolding).Nodup :=
    once'.map fun _ _ same => eq_of_unfolding_eq soundLater same
  have listed := (List.perm_ext_iff_of_nodup distinct distinct').mpr fun unfolding => by
    rw [List.mem_map, List.mem_map]
    constructor
    · rintro ⟨id, member, rfl⟩
      obtain ⟨other, inside, same⟩ := matching.forth id member
      exact ⟨other, inside, same.symm⟩
    · rintro ⟨other, member, rfl⟩
      obtain ⟨id, inside, same⟩ := matching.back other member
      exact ⟨id, inside, same⟩
  simpa using listed.length_eq

theorem null_mem_iff : .null ∈ ids ↔ .null ∈ others := by
  constructor
  · intro member
    obtain ⟨other, inside, same⟩ := matching.forth _ member
    rw [← eq_of_shape?_eq_none soundLater same rfl]
    exact inside
  · intro member
    obtain ⟨id, inside, same⟩ := matching.back _ member
    rw [← eq_of_shape?_eq_none sound same.symm rfl]
    exact inside

end Sound

end Matches

/-! ### Flat candidates that match -/

section Sound

variable (sound : registry.Sound) (soundLater : later.Sound)
include sound soundLater

/-- What unfolds alike counts as candidates that match. -/
theorem matches_alternatives (same : registry.unfolding id = later.unfolding other) :
    registry.Matches later (registry.alternatives id) (later.alternatives other) := by
  unfold alternatives
  cases found : registry.members? id with
  | some members =>
    obtain ⟨members', found', equal⟩ := exists_members? sound soundLater same found
    rw [found']
    exact Matches.toList_iff.mpr equal
  | none =>
    cases found' : later.members? other with
    | some members' =>
      obtain ⟨members, union, _⟩ := exists_members? soundLater sound same.symm found'
      rw [found] at union
      cases union
    | none => exact ⟨by simpa using same, by simpa using same⟩

/-- **Candidates that match are flat candidates that match.** -/
theorem Matches.flatten (matching : registry.Matches later ids others) :
    registry.Matches later (registry.flatten ids) (later.flatten others) := by
  have once := matching.eraseDups
  have spread : registry.Matches later (ids.eraseDups.flatMap registry.alternatives).eraseDups
      (others.eraseDups.flatMap later.alternatives).eraseDups :=
    (once.flatMap fun _ _ same => matches_alternatives sound soundLater same).eraseDups
  have count := once.length_eq sound soundLater (Lists.nodup_eraseDups ids)
    (Lists.nodup_eraseDups others)
  unfold Registry.flatten
  generalize ids.eraseDups = ids at *
  generalize others.eraseDups = others at *
  -- A candidate is alone on the one side exactly if one is on the other.
  match ids, others with
  | [], [] => exact spread
  | [only], [only'] => exact once
  | _ :: _ :: _, _ :: _ :: _ => exact spread

/-- What is not null matches. -/
theorem Matches.solid (matching : registry.Matches later ids others) :
    registry.Matches later (ids.filter (· ≠ .null)) (others.filter (· ≠ .null)) where
  forth id member := by
    obtain ⟨inside, solid⟩ := List.mem_filter.mp member
    obtain ⟨other, inside', same⟩ := matching.forth id inside
    refine ⟨other, List.mem_filter.mpr ⟨inside', decide_eq_true ?_⟩, same⟩
    rintro rfl
    exact of_decide_eq_true solid (eq_of_shape?_eq_none sound same.symm rfl)
  back other member := by
    obtain ⟨inside, solid⟩ := List.mem_filter.mp member
    obtain ⟨id, inside', same⟩ := matching.back other inside
    refine ⟨id, List.mem_filter.mpr ⟨inside', decide_eq_true ?_⟩, same⟩
    rintro rfl
    exact of_decide_eq_true solid (eq_of_shape?_eq_none soundLater same rfl)

/-- **Identities that match objects are objects.** -/
theorem Matches.exists_objects (matching : registry.Matches later ids others)
    {objects : List (Table String Field)} (all : ids.mapM registry.fields? = some objects) :
    ∃ objects', others.mapM later.fields? = some objects' := by
  refine Lists.exists_mapM_eq_some fun other member => ?_
  obtain ⟨id, inside, same⟩ := matching.back other member
  obtain ⟨fields, _, found⟩ := Lists.exists_mem_of_mapM all inside
  obtain ⟨fields', found', _⟩ := exists_fields? sound soundLater same found
  exact Option.isSome_of_eq_some found'

/-- **Identities that match lists are lists.** -/
theorem Matches.exists_lists (matching : registry.Matches later ids others) {lists : List IdSet}
    (all : ids.mapM registry.elements? = some lists) :
    ∃ lists', others.mapM later.elements? = some lists' := by
  refine Lists.exists_mapM_eq_some fun other member => ?_
  obtain ⟨id, inside, same⟩ := matching.back other member
  obtain ⟨elements, _, found⟩ := Lists.exists_mem_of_mapM all inside
  obtain ⟨elements', found', _⟩ := exists_elements? sound soundLater same found
  exact Option.isSome_of_eq_some found'

theorem elementsWithin (matching : registry.Matches later ids others)
    {lists lists' : List IdSet} (all : ids.mapM registry.elements? = some lists)
    (all' : others.mapM later.elements? = some lists') :
    ∀ id ∈ lists.flatMap IdSet.toList, ∃ other ∈ lists'.flatMap IdSet.toList,
      registry.unfolding id = later.unfolding other := by
  intro id member
  obtain ⟨list, inside, element⟩ := List.mem_flatMap.mp member
  obtain ⟨holder, among, found⟩ := Lists.exists_mem_of_mapM_right all inside
  obtain ⟨holder', among', same⟩ := matching.forth holder among
  obtain ⟨list', found', equal⟩ := exists_elements? sound soundLater same found
  obtain ⟨other, listed, unfolded⟩ := (Matches.toList_iff.mpr equal).forth id element
  have inside' := Lists.mem_of_mapM all' among' found'
  exact ⟨other, List.mem_flatMap.mpr ⟨list', inside', listed⟩, unfolded⟩

/-- The elements of lists that match do so, too. -/
theorem Matches.elements (matching : registry.Matches later ids others)
    {lists lists' : List IdSet} (all : ids.mapM registry.elements? = some lists)
    (all' : others.mapM later.elements? = some lists') :
    registry.Matches later (lists.flatMap IdSet.toList) (lists'.flatMap IdSet.toList) := by
  have within := elementsWithin sound soundLater matching all all'
  have within' := elementsWithin soundLater sound matching.symm all' all
  refine ⟨within, fun other member => ?_⟩
  obtain ⟨id, inside, same⟩ := within' other member
  exact ⟨id, inside, same.symm⟩

end Sound

/-! ### Objects that match -/

/-- Every object of the first registry says under every raw key what one of the second says. -/
def ObjectsWithin (registry later : Registry) (objects objects' : List (Table String Field)) :
    Prop :=
  ∀ object ∈ objects, ∃ object' ∈ objects',
    ∀ raw, registry.entriesAt object raw = later.entriesAt object' raw

section Objects

variable {objects objects' : List (Table String Field)} {raw : String}

/-- Objects are those of the other registry if their identities match. -/
theorem Matches.objectsWithin (matching : registry.Matches later ids others)
    (sound : registry.Sound) (soundLater : later.Sound)
    (all : ids.mapM registry.fields? = some objects)
    (all' : others.mapM later.fields? = some objects') :
    registry.ObjectsWithin later objects objects' := by
  intro object member
  obtain ⟨id, inside, found⟩ := Lists.exists_mem_of_mapM_right all member
  obtain ⟨other, inside', same⟩ := matching.forth id inside
  obtain ⟨object', found', equal⟩ := exists_fields? sound soundLater same found
  exact ⟨object', Lists.mem_of_mapM all' inside' found', equal⟩

theorem exists_get?_of_entriesAt_eq {fields others : Table String Field}
    (same : registry.entriesAt fields raw = later.entriesAt others raw) {field : Field}
    (found : fields.get? raw = some field) :
    ∃ other, others.get? raw = some other ∧ field.optional = other.optional ∧
      registry.unfolding field.shape = later.unfolding other.shape := by
  have here := same.symm.trans (Option.map_eq_some_iff.mpr ⟨field, found, rfl⟩)
  obtain ⟨other, found', equal⟩ := Option.map_eq_some_iff.mp here
  obtain ⟨marked, inside⟩ := Prod.mk.inj equal
  exact ⟨other, found', marked.symm, inside.symm⟩

/-- What matching objects have under a raw key matches. -/
theorem matches_shapesUnder (within : registry.ObjectsWithin later objects objects')
    (within' : later.ObjectsWithin registry objects' objects) (raw : String) :
    registry.Matches later (shapesUnder objects raw) (shapesUnder objects' raw) where
  forth id member := by
    obtain ⟨object, inside, field, found, rfl⟩ := mem_shapesUnder_iff.mp member
    obtain ⟨object', inside', same⟩ := within object inside
    obtain ⟨field', found', _, equal⟩ := exists_get?_of_entriesAt_eq (same raw) found
    exact ⟨field'.shape, mem_shapesUnder_iff.mpr ⟨object', inside', field', found', rfl⟩, equal⟩
  back other member := by
    obtain ⟨object', inside', field', found', rfl⟩ := mem_shapesUnder_iff.mp member
    obtain ⟨object, inside, same⟩ := within' object' inside'
    obtain ⟨field, found, _, equal⟩ := exists_get?_of_entriesAt_eq (same raw) found'
    exact ⟨field.shape, mem_shapesUnder_iff.mpr ⟨object, inside, field, found, rfl⟩, equal.symm⟩

/-- What all of the objects require is required by all that they match. -/
theorem ObjectsWithin.required (within : later.ObjectsWithin registry objects' objects)
    (required : ∀ object ∈ objects, ∃ found, object.get? raw = some found ∧
      found.optional = false) :
    ∀ object' ∈ objects', ∃ found, object'.get? raw = some found ∧ found.optional = false := by
  intro object' member
  obtain ⟨object, inside, same⟩ := within object' member
  obtain ⟨field, found, notOptional⟩ := required object inside
  obtain ⟨field', found', marked, _⟩ := exists_get?_of_entriesAt_eq (same raw).symm found
  exact ⟨field', found', marked ▸ notOptional⟩

/-- A key of a join of objects is one of the join of objects that match. -/
theorem ObjectsWithin.exists_get? {fields fields' : Table String Field}
    (within : registry.ObjectsWithin later objects objects') (unites : Unites objects fields)
    (unites' : Unites objects' fields') {field : Field} (found : fields.get? raw = some field) :
    ∃ field', fields'.get? raw = some field' := by
  obtain ⟨object, inside, key⟩ := (unites.keys raw).mp (Table.mem_keys_of_get? found)
  obtain ⟨own, under⟩ := Table.exists_get?_of_mem_keys key
  obtain ⟨object', inside', same⟩ := within object inside
  obtain ⟨own', under', _⟩ := exists_get?_of_entriesAt_eq (same raw) under
  exact Table.exists_get?_of_mem_keys
    ((unites'.keys raw).mpr ⟨object', inside', Table.mem_keys_of_get? under'⟩)

/-- Objects say the same under a key that both have or none, if the fields there do. -/
theorem entriesAt_eq_of_get? {fields fields' : Table String Field}
    (keys : raw ∈ fields.keys ↔ raw ∈ fields'.keys)
    (each : ∀ field field', fields.get? raw = some field → fields'.get? raw = some field' →
      field.optional = field'.optional ∧
        registry.unfolding field.shape = later.unfolding field'.shape) :
    registry.entriesAt fields raw = later.entriesAt fields' raw := by
  unfold entriesAt
  cases found : fields.get? raw with
  | none =>
    cases found' : fields'.get? raw with
    | none => rfl
    | some field' =>
      obtain ⟨field, here⟩ := Table.exists_get?_of_mem_keys
        (keys.mpr (Table.mem_keys_of_get? found'))
      rw [found] at here
      cases here
  | some field =>
    obtain ⟨field', found'⟩ := Table.exists_get?_of_mem_keys
      (keys.mp (Table.mem_keys_of_get? found))
    obtain ⟨marked, inside⟩ := each field field' found found'
    rw [found']
    exact congrArg some (Prod.ext marked inside)

/-- Fields of joins of objects are optional both or none, if all of the one objects require them
exactly if all of the others do. -/
theorem optional_eq_of_unites {fields fields' : Table String Field} (unites : Unites objects fields)
    (unites' : Unites objects' fields') {field field' : Field}
    (found : fields.get? raw = some field) (found' : fields'.get? raw = some field')
    (required : (∀ object ∈ objects, ∃ found, object.get? raw = some found ∧
        found.optional = false) ↔
      ∀ object ∈ objects', ∃ found, object.get? raw = some found ∧ found.optional = false) :
    field.optional = field'.optional := by
  rw [Bool.eq_iff_iff, ← Bool.not_eq_false, ← Bool.not_eq_false, not_iff_not,
    unites.required raw field found, unites'.required raw field' found']
  exact required

/-- **Joins of objects that match say the same,** if what they have under each key does. -/
theorem entriesAt_eq_of_unites {fields fields' : Table String Field}
    (within : registry.ObjectsWithin later objects objects')
    (within' : later.ObjectsWithin registry objects' objects) (unites : Unites objects fields)
    (unites' : Unites objects' fields')
    (each : ∀ field field', fields.get? raw = some field → fields'.get? raw = some field' →
      registry.unfolding field.shape = later.unfolding field'.shape) :
    registry.entriesAt fields raw = later.entriesAt fields' raw := by
  refine entriesAt_eq_of_get? ⟨fun key => ?_, fun key => ?_⟩ fun field field' found found' =>
    ⟨optional_eq_of_unites unites unites' found found' ⟨within'.required, within.required⟩,
      each field field' found found'⟩
  · obtain ⟨field, found⟩ := Table.exists_get?_of_mem_keys key
    obtain ⟨field', found'⟩ := within.exists_get? unites unites' found
    exact Table.mem_keys_of_get? found'
  · obtain ⟨field', found'⟩ := Table.exists_get?_of_mem_keys key
    obtain ⟨field, found⟩ := within'.exists_get? unites' unites found'
    exact Table.mem_keys_of_get? found

end Objects

/-! ### The join -/

variable {candidates candidates' : List ShapeId} {joined joined' : ShapeId}

theorem IsNullable.unfolding_eq {solid solid' : ShapeId} (sound : registry.Sound)
    (soundLater : later.Sound) (matching : registry.Matches later ids others)
    (nullable : registry.IsNullable ids solid joined)
    (nullable' : later.IsNullable others solid' joined')
    (same : registry.unfolding solid = later.unfolding solid') :
    registry.unfolding joined = later.unfolding joined' := by
  unfold IsNullable at nullable nullable'
  by_cases null : .null ∈ ids
  · rw [if_pos null] at nullable
    rw [if_pos ((matching.null_mem_iff sound soundLater).mp null)] at nullable'
    refine (unfolding_eq_iff_of_unions sound soundLater nullable nullable').mpr ?_
    have nulls : registry.unfolding .null = later.unfolding .null := rfl
    refine Matches.unfoldings_ofList ⟨?_, ?_⟩ <;> simp [same, nulls]
  · rw [if_neg null] at nullable
    rw [if_neg fun null' => null ((matching.null_mem_iff sound soundLater).mpr null')] at nullable'
    rw [nullable, nullable', same]

/-- **A join depends on what its candidates unfold to,** and on nothing else. -/
theorem Joins.unfolding_eq (sound : registry.Sound) (soundLater : later.Sound)
    (joins : registry.Joins candidates joined) (joins' : later.Joins candidates' joined')
    (matching : registry.Matches later candidates candidates') :
    registry.unfolding joined = later.unfolding joined' := by
  induction joins generalizing candidates' joined' with
  | @nothing candidates joined flat found =>
    have flat' := (matching.flatten sound soundLater).eq_nil flat
    exact (unfolding_eq_iff_of_unions sound soundLater found (joins'.of_nil flat')).mpr
      (Matches.unfoldings_ofList .nil)
  | @alone candidates joined flat =>
    have flatMatching := matching.flatten sound soundLater
    have count := flatMatching.length_eq sound soundLater (nodup_flatten _ _) (nodup_flatten _ _)
    rw [flat] at flatMatching count
    obtain ⟨only, flat'⟩ := List.length_eq_one_iff.mp count.symm
    rw [joins'.of_singleton flat']
    rw [flat'] at flatMatching
    exact Matches.singletons_iff.mp flatMatching
  | @objects candidates joined solid objects fields several all found unites each nullable step =>
    have flatMatching := matching.flatten sound soundLater
    have count := flatMatching.length_eq sound soundLater (nodup_flatten _ _) (nodup_flatten _ _)
    have solidMatching := flatMatching.solid sound soundLater
    obtain ⟨objects', all'⟩ := solidMatching.exists_objects sound soundLater all
    obtain ⟨solid', fields', found', unites', each', nullable'⟩ :=
      joins'.of_several_objects (count ▸ several) all'
    have within := solidMatching.objectsWithin sound soundLater all all'
    have within' := solidMatching.symm.objectsWithin soundLater sound all' all
    refine nullable.unfolding_eq sound soundLater flatMatching nullable' ?_
    refine (unfolding_eq_iff_of_objects sound soundLater found found').mpr fun raw => ?_
    refine entriesAt_eq_of_unites within within' unites unites' fun field field' under under' => ?_
    exact step raw field under (each' raw field' under') (matches_shapesUnder within within' raw)
  | @lists candidates joined solid element lists several all found each nullable step =>
    have flatMatching := matching.flatten sound soundLater
    have count := flatMatching.length_eq sound soundLater (nodup_flatten _ _) (nodup_flatten _ _)
    have solidMatching := flatMatching.solid sound soundLater
    obtain ⟨lists', all'⟩ := solidMatching.exists_lists sound soundLater all
    obtain ⟨solid', element', found', each', nullable'⟩ :=
      joins'.of_several_lists (count ▸ several) all'
    refine nullable.unfolding_eq sound soundLater flatMatching nullable' ?_
    refine (unfolding_eq_iff_of_lists sound soundLater found found').mpr ?_
    have elements := step each' (solidMatching.elements sound soundLater all all')
    exact Matches.toList_iff.mp (Matches.singletons_iff.mpr elements)
  | @mixed candidates joined several notObjects notLists found =>
    have flatMatching := matching.flatten sound soundLater
    have count := flatMatching.length_eq sound soundLater (nodup_flatten _ _) (nodup_flatten _ _)
    have solidMatching := (flatMatching.solid sound soundLater).symm
    have notObjects' := Option.eq_none_iff_forall_ne_some.mpr fun objects' all' => by
      obtain ⟨objects, all⟩ := solidMatching.exists_objects soundLater sound all'
      rw [notObjects] at all
      cases all
    have notLists' := Option.eq_none_iff_forall_ne_some.mpr fun lists' all' => by
      obtain ⟨lists, all⟩ := solidMatching.exists_lists soundLater sound all'
      rw [notLists] at all
      cases all
    have found' := joins'.of_several_mix (count ▸ several) notObjects' notLists'
    exact (unfolding_eq_iff_of_unions sound soundLater found found').mpr
      flatMatching.unfoldings_ofList

/-- **There is one join of candidates in a registry,** whatever their order. -/
theorem Joins.unique (sound : registry.Sound) (joins : registry.Joins candidates joined)
    (joins' : registry.Joins candidates' joined')
    (same : ∀ id, id ∈ candidates ↔ id ∈ candidates') : joined = joined' :=
  eq_of_unfolding_eq sound (joins.unfolding_eq sound sound joins' (.of_mem_iff same))

end SampleShapes.Registry
