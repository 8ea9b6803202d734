/-
**Joins in groups.**

Candidates may be joined in groups first. What the groups join to has every candidate in it, and it
is made of parts of one kind each: candidates that stay what they are, objects that became one, and
lists that did. If the candidates are objects only, or lists only, what lies inside of them is
grouped in the same way.

* `Joins.groupedByKind`: a join has its candidates in it, by parts of one kind;
* `Grouped.spread`: **so have joins of groups**;
* `GroupedByKind.exists_objects`, `ObjectsGrouped.shapesUnder`: objects in groups, and what they
  have under a raw key;
* `ObjectsGrouped.entriesAt_eq`: joins of joins of groups say what the join of all objects says;
* `GroupedByKind.exists_lists`: lists in groups, and their elements.
-/

import SampleShapes.Proofs.Registry.Matching
import SampleShapes.Proofs.Registry.Spreading

namespace SampleShapes.Registry

variable {registry later : Registry} {candidates part fine coarse : List ShapeId}
  {id joined : ShapeId}

/-! ### Parts of one kind -/

/-- `joined` joins a part of the candidates that is of one kind: a candidate itself, objects or
lists. -/
inductive JoinsPart (registry : Registry) : List ShapeId → ShapeId → Prop where
  /-- A candidate is its own join. -/
  | itself (id : ShapeId) : JoinsPart registry [id] id
  /-- Objects join to an object. -/
  | objects {part : List ShapeId} {joined : ShapeId} {objects : List (Table String Field)}
      {fields : Table String Field} (all : part.mapM registry.fields? = some objects)
      (found : registry.fields? joined = some fields)
      (composes : registry.Composes objects fields) : JoinsPart registry part joined
  /-- Lists join to a list. -/
  | lists {part : List ShapeId} {joined element : ShapeId} {lists : List IdSet}
      (all : part.mapM registry.elements? = some lists)
      (found : registry.elements? joined = some (.singleton element))
      (joins : registry.Joins (lists.flatMap IdSet.toList) element) : JoinsPart registry part joined

theorem JoinsPart.of_null (joins : registry.JoinsPart part .null) : part = [.null] := by
  cases joins with
  | itself => rfl
  | objects _ found => cases found
  | lists _ found => cases found

/-- Only null joins to null. -/
theorem JoinsPart.ne_null (joins : registry.JoinsPart part joined) (member : id ∈ part)
    (solid : id ≠ .null) : joined ≠ .null := by
  rintro rfl
  rw [joins.of_null] at member
  exact solid (List.mem_singleton.mp member)

/-- The parts of objects, null aside, are objects. -/
theorem JoinsPart.exists_composes (joins : registry.JoinsPart part joined) (within : part ⊆ fine)
    (nonempty : part ≠ []) {objects : List (Table String Field)}
    (all : (fine.filter (· ≠ .null)).mapM registry.fields? = some objects)
    (solid : joined ≠ .null) :
    ∃ among ⊆ objects, ∃ fields, among ≠ [] ∧ registry.fields? joined = some fields ∧
      registry.Composes among fields ∧
      ∀ id ∈ part, ∀ object, registry.fields? id = some object → object ∈ among := by
  have inside : ∀ id ∈ part, id ≠ .null → id ∈ fine.filter (· ≠ .null) := fun id member notNull =>
    List.mem_filter.mpr ⟨within member, decide_eq_true notNull⟩
  cases joins with
  | itself =>
    obtain ⟨object, listed, found⟩ :=
      Lists.exists_mem_of_mapM all (inside joined (List.mem_singleton_self joined) solid)
    refine ⟨[object], Lists.singleton_subset listed, object, List.cons_ne_nil _ _, found,
      composes_self registry object, fun id member other here => ?_⟩
    rw [List.mem_singleton.mp member] at here
    rw [Option.some.inj (here.symm.trans found)]
    exact List.mem_singleton_self object
  | @objects _ _ among fields all' found composes =>
    refine ⟨among, fun object member => ?_, fields, ?_, found, composes,
      fun id member object here => Lists.mem_of_mapM all' member here⟩
    · obtain ⟨id, inPart, here⟩ := Lists.exists_mem_of_mapM_right all' member
      have notNull : id ≠ .null := ne_primitive_of_shape? (fields?_eq_some_iff.mp here)
      exact Lists.mem_of_mapM all (inside id inPart notNull) here
    · rintro rfl
      rw [Lists.mapM_eq_some_iff] at all'
      exact nonempty (List.forall₂_nil_right_iff.mp all')
  | lists all' found =>
    -- A list is no object, and not null.
    obtain ⟨id, member⟩ := List.exists_mem_of_ne_nil part nonempty
    obtain ⟨elements, _, list⟩ := Lists.exists_mem_of_mapM all' member
    have notNull : id ≠ .null := ne_primitive_of_shape? (elements?_eq_some_iff.mp list)
    obtain ⟨object, _, here⟩ := Lists.exists_mem_of_mapM all (inside id member notNull)
    rw [elements?_eq_none_of_fields? (Option.isSome_of_eq_some here)] at list
    cases list

/-- The parts of lists, null aside, are lists. -/
theorem JoinsPart.exists_element (normal : registry.Normal) (joins : registry.JoinsPart part joined)
    (within : part ⊆ fine) (nonempty : part ≠ []) {lists : List IdSet}
    (all : (fine.filter (· ≠ .null)).mapM registry.elements? = some lists)
    (solid : joined ≠ .null) :
    ∃ among ⊆ lists, ∃ element, registry.elements? joined = some (.singleton element) ∧
      registry.Joins (among.flatMap IdSet.toList) element ∧
      ∀ id ∈ part, ∀ list, registry.elements? id = some list → list ∈ among := by
  have inside : ∀ id ∈ part, id ≠ .null → id ∈ fine.filter (· ≠ .null) := fun id member notNull =>
    List.mem_filter.mpr ⟨within member, decide_eq_true notNull⟩
  cases joins with
  | itself =>
    obtain ⟨list, listed, found⟩ :=
      Lists.exists_mem_of_mapM all (inside joined (List.mem_singleton_self joined) solid)
    obtain ⟨element, rfl⟩ := normal.singleton found
    refine ⟨[.singleton element], Lists.singleton_subset listed, element, found,
      joins_self element, fun id member other here => ?_⟩
    rw [List.mem_singleton.mp member] at here
    rw [Option.some.inj (here.symm.trans found)]
    exact List.mem_singleton_self _
  | @lists _ _ element among all' found joins =>
    refine ⟨among, fun list member => ?_, element, found, joins,
      fun id member list here => Lists.mem_of_mapM all' member here⟩
    obtain ⟨id, inPart, here⟩ := Lists.exists_mem_of_mapM_right all' member
    have notNull : id ≠ .null := ne_primitive_of_shape? (elements?_eq_some_iff.mp here)
    exact Lists.mem_of_mapM all (inside id inPart notNull) here
  | objects all' found =>
    obtain ⟨id, member⟩ := List.exists_mem_of_ne_nil part nonempty
    obtain ⟨object, _, here⟩ := Lists.exists_mem_of_mapM all' member
    have notNull : id ≠ .null := ne_primitive_of_shape? (fields?_eq_some_iff.mp here)
    obtain ⟨list, _, found⟩ := Lists.exists_mem_of_mapM all (inside id member notNull)
    rw [elements?_eq_none_of_fields? (Option.isSome_of_eq_some here)] at found
    cases found

/-! ### Groups -/

/-- `coarse` is made of joins of groups of `fine`, and no candidate is left out. -/
structure Grouped (registry : Registry) (fine coarse : List ShapeId) : Prop where
  /-- Every candidate is in a group whose join is there. -/
  forth : ∀ id ∈ fine, ∃ joined ∈ coarse, ∃ part ⊆ fine, id ∈ part ∧ registry.Joins part joined
  /-- What is there is the join of a group. -/
  back : ∀ joined ∈ coarse, ∃ part ⊆ fine, registry.Joins part joined

/-- The same with groups that are of one kind each. -/
structure GroupedByKind (registry : Registry) (fine coarse : List ShapeId) : Prop where
  /-- Every candidate is in a group whose join is there. -/
  forth : ∀ id ∈ fine, ∃ joined ∈ coarse, ∃ part ⊆ fine, id ∈ part ∧ registry.JoinsPart part joined
  /-- What is there is the join of a group that is not empty. -/
  back : ∀ joined ∈ coarse, ∃ part ⊆ fine, part ≠ [] ∧ registry.JoinsPart part joined

/-- What is solid joins to what may have become nullable. -/
theorem groupedByKind_of_solid {solid : ShapeId}
    (several : 2 ≤ (registry.flatten candidates).length) (flat : registry.Flat candidates)
    (joins : registry.JoinsPart ((registry.flatten candidates).filter (· ≠ .null)) solid)
    (notUnion : registry.members? solid = none)
    (nullable : registry.IsNullable (registry.flatten candidates) solid joined) :
    registry.GroupedByKind candidates (registry.alternatives joined) := by
  have among : ∀ id, id ∈ registry.flatten candidates ↔ id ∈ candidates := by
    intro id
    rw [flatten_of_flat flat, List.mem_eraseDups]
  have within : (registry.flatten candidates).filter (· ≠ .null) ⊆ candidates := fun id member =>
    (among id).mp (List.mem_of_mem_filter member)
  refine ⟨fun id member => ?_, fun id member => ?_⟩
  · by_cases null : id = .null
    · subst null
      have there := (nullable.mem_alternatives_iff notUnion).mpr (.inr ⟨rfl, (among _).mpr member⟩)
      exact ⟨.null, there, [.null], Lists.singleton_subset member, List.mem_singleton_self _,
        .itself _⟩
    · exact ⟨solid, (nullable.mem_alternatives_iff notUnion).mpr (.inl rfl), _, within,
        List.mem_filter.mpr ⟨(among id).mpr member, decide_eq_true null⟩, joins⟩
  · rcases (nullable.mem_alternatives_iff notUnion).mp member with rfl | ⟨rfl, null⟩
    · obtain ⟨other, inside, notNull⟩ :=
        Lists.exists_ne_of_nodup (nodup_flatten _ _) several .null
      refine ⟨_, within, List.ne_nil_of_mem (a := other) ?_, joins⟩
      exact List.mem_filter.mpr ⟨inside, decide_eq_true notNull⟩
    · exact ⟨[.null], Lists.singleton_subset ((among _).mp null), List.cons_ne_nil _ _, .itself _⟩

/-- **A join has its candidates in it,** by groups of one kind, if none of them is a union. -/
theorem Joins.groupedByKind (flat : registry.Flat candidates)
    (joins : registry.Joins candidates joined) :
    registry.GroupedByKind candidates (registry.alternatives joined) := by
  have among : ∀ id, id ∈ registry.flatten candidates ↔ id ∈ candidates := by
    intro id
    rw [flatten_of_flat flat, List.mem_eraseDups]
  -- Candidates that stay what they are are their own groups.
  have itself : (∀ id, id ∈ registry.alternatives joined ↔ id ∈ registry.flatten candidates) →
      registry.GroupedByKind candidates (registry.alternatives joined) := by
    intro same
    refine ⟨fun id member => ⟨id, (same id).mpr ((among id).mpr member), [id], ?_,
      List.mem_singleton_self id, .itself id⟩, fun id member => ⟨[id], ?_, List.cons_ne_nil _ _,
      .itself id⟩⟩
    · exact Lists.singleton_subset member
    · exact Lists.singleton_subset ((among id).mp ((same id).mp member))
  cases joins with
  | nothing flattened found =>
    refine itself fun id => ?_
    rw [alternatives_of_members? found, flattened]
    exact Iff.rfl
  | alone flattened =>
    have member : joined ∈ candidates := by
      rw [← among, flattened]
      exact List.mem_singleton_self joined
    refine itself fun id => ?_
    rw [alternatives_of_flat (flat joined member), flattened]
  | objects several all found unites each nullable =>
    refine groupedByKind_of_solid several flat (.objects all found ⟨unites, each⟩) ?_ nullable
    exact members?_eq_none_of_fields? (Option.isSome_of_eq_some found)
  | lists several all found each nullable =>
    refine groupedByKind_of_solid several flat (.lists all found each) ?_ nullable
    exact members?_eq_none_of_elements? (Option.isSome_of_eq_some found)
  | mixed several notObjects notLists found =>
    refine itself fun id => ?_
    rw [alternatives_of_members? found]
    exact IdSet.mem_ofList

/-- **Joins of groups have all candidates in them,** by groups of one kind. -/
theorem Grouped.spread (grouped : registry.Grouped fine coarse) (normal : registry.Normal) :
    registry.GroupedByKind (registry.spread fine) (registry.spread coarse) := by
  have wider : ∀ part, part ⊆ fine → registry.spread part ⊆ registry.spread fine := by
    intro part within id member
    obtain ⟨candidate, inside, alternative⟩ := mem_spread_iff.mp member
    exact mem_spread_iff.mpr ⟨candidate, within inside, alternative⟩
  refine ⟨fun id member => ?_, fun id member => ?_⟩
  · obtain ⟨candidate, inside, alternative⟩ := mem_spread_iff.mp member
    obtain ⟨joined, there, part, within, among, joins⟩ := grouped.forth candidate inside
    have byKind := (joins.spread normal).groupedByKind (flat_spread normal part)
    obtain ⟨other, member', sub, subset, inside', joins⟩ :=
      byKind.forth id (mem_spread_iff.mpr ⟨candidate, among, alternative⟩)
    exact ⟨other, mem_spread_iff.mpr ⟨joined, there, member'⟩, sub,
      List.Subset.trans subset (wider part within), inside', joins⟩
  · obtain ⟨joined, there, alternative⟩ := mem_spread_iff.mp member
    obtain ⟨part, within, joins⟩ := grouped.back joined there
    have byKind := (joins.spread normal).groupedByKind (flat_spread normal part)
    obtain ⟨sub, subset, nonempty, joins⟩ := byKind.back id alternative
    exact ⟨sub, List.Subset.trans subset (wider part within), nonempty, joins⟩

theorem Grouped.grow (grouped : registry.Grouped fine coarse) (sound : registry.Sound)
    (grows : registry.Grows later) (held : ∀ id ∈ fine, registry.Holds id) :
    later.Grouped fine coarse where
  forth id member := by
    obtain ⟨joined, there, part, within, inside, joins⟩ := grouped.forth id member
    exact ⟨joined, there, part, within, inside,
      joins.grow sound grows fun other inPart => held other (within inPart)⟩
  back joined there := by
    obtain ⟨part, within, joins⟩ := grouped.back joined there
    exact ⟨part, within, joins.grow sound grows fun other inPart => held other (within inPart)⟩

namespace GroupedByKind

theorem null_mem_iff (byKind : registry.GroupedByKind fine coarse) :
    .null ∈ fine ↔ .null ∈ coarse := by
  constructor
  · intro null
    obtain ⟨joined, there, part, _, member, joins⟩ := byKind.forth .null null
    cases joins with
    | itself => rwa [List.mem_singleton.mp member]
    | objects all =>
      obtain ⟨_, _, found⟩ := Lists.exists_mem_of_mapM all member
      cases found
    | lists all =>
      obtain ⟨_, _, found⟩ := Lists.exists_mem_of_mapM all member
      cases found
  · intro null
    obtain ⟨part, within, _, joins⟩ := byKind.back .null null
    rw [joins.of_null] at within
    exact within (List.mem_singleton_self _)

/-- Where not everything is null, the joins of groups are not either. -/
theorem solid_ne_nil (byKind : registry.GroupedByKind fine coarse)
    (solid : fine.filter (· ≠ .null) ≠ []) : coarse.filter (· ≠ .null) ≠ [] := by
  obtain ⟨id, member⟩ := List.exists_mem_of_ne_nil _ solid
  obtain ⟨inside, notNull⟩ := List.mem_filter.mp member
  obtain ⟨joined, there, part, _, inPart, joins⟩ := byKind.forth id inside
  exact List.ne_nil_of_mem (List.mem_filter.mpr
    ⟨there, decide_eq_true (joins.ne_null inPart (of_decide_eq_true notNull))⟩)

end GroupedByKind
/-! ### Objects in groups -/

/-- `wholes` are joins of groups of objects, and no object is left out. -/
structure ObjectsGrouped (registry : Registry) (objects wholes : List (Table String Field)) :
    Prop where
  /-- Every object is in a group whose join is there. -/
  forth : ∀ object ∈ objects, ∃ whole ∈ wholes, ∃ among ⊆ objects, object ∈ among ∧
    registry.Composes among whole
  /-- What is there is the join of a group that is not empty. -/
  back : ∀ whole ∈ wholes, ∃ among ⊆ objects, among ≠ [] ∧ registry.Composes among whole

/-- **Joins of groups of objects are objects,** null aside. -/
theorem GroupedByKind.exists_objects (byKind : registry.GroupedByKind fine coarse)
    {objects : List (Table String Field)}
    (all : (fine.filter (· ≠ .null)).mapM registry.fields? = some objects) :
    ∃ wholes, (coarse.filter (· ≠ .null)).mapM registry.fields? = some wholes ∧
      registry.ObjectsGrouped objects wholes := by
  have grouped : ∀ joined ∈ coarse, joined ≠ .null → ∃ among ⊆ objects, among ≠ [] ∧
      ∃ fields, registry.fields? joined = some fields ∧ registry.Composes among fields := by
    intro joined there solid
    obtain ⟨part, within, nonempty, joins⟩ := byKind.back joined there
    obtain ⟨among, subset, fields, some, found, composes, _⟩ :=
      joins.exists_composes within nonempty all solid
    exact ⟨among, subset, some, fields, found, composes⟩
  obtain ⟨wholes, all'⟩ : ∃ wholes,
      (coarse.filter (· ≠ .null)).mapM registry.fields? = some wholes := by
    refine Lists.exists_mapM_eq_some fun joined member => ?_
    obtain ⟨there, solid⟩ := List.mem_filter.mp member
    obtain ⟨_, _, _, fields, found, _⟩ := grouped joined there (of_decide_eq_true solid)
    exact Option.isSome_of_eq_some found
  refine ⟨wholes, all', fun object member => ?_, fun whole member => ?_⟩
  · obtain ⟨id, inside, here⟩ := Lists.exists_mem_of_mapM_right all member
    obtain ⟨inside, notNull⟩ := List.mem_filter.mp inside
    obtain ⟨joined, there, part, within, inPart, joins⟩ := byKind.forth id inside
    have solid : joined ≠ .null := joins.ne_null inPart (of_decide_eq_true notNull)
    obtain ⟨among, subset, fields, _, found, composes, listed⟩ :=
      joins.exists_composes within (List.ne_nil_of_mem inPart) all solid
    have member' := Lists.mem_of_mapM all' (List.mem_filter.mpr ⟨there, decide_eq_true solid⟩) found
    exact ⟨fields, member', among, subset, listed id inPart object here, composes⟩
  · obtain ⟨joined, inside, here⟩ := Lists.exists_mem_of_mapM_right all' member
    obtain ⟨there, solid⟩ := List.mem_filter.mp inside
    obtain ⟨among, subset, some, fields, found, composes⟩ :=
      grouped joined there (of_decide_eq_true solid)
    obtain rfl := Option.some.inj (here.symm.trans found)
    exact ⟨among, subset, some, composes⟩

theorem shapesUnder_subset {objects among : List (Table String Field)} (subset : among ⊆ objects)
    (raw : String) : shapesUnder among raw ⊆ shapesUnder objects raw := by
  intro id member
  obtain ⟨object, inside, under⟩ := mem_shapesUnder_iff.mp member
  exact mem_shapesUnder_iff.mpr ⟨object, subset inside, under⟩

namespace ObjectsGrouped

variable {objects wholes : List (Table String Field)}

/-- **What grouped objects have under a raw key is grouped as well.** -/
theorem shapesUnder (grouped : registry.ObjectsGrouped objects wholes) (raw : String) :
    registry.Grouped (Registry.shapesUnder objects raw) (Registry.shapesUnder wholes raw) := by
  refine ⟨fun id member => ?_, fun id member => ?_⟩
  · obtain ⟨object, inside, own, here, rfl⟩ := mem_shapesUnder_iff.mp member
    obtain ⟨whole, there, among, subset, listed, unites, joins⟩ := grouped.forth object inside
    obtain ⟨field, under⟩ := Table.exists_get?_of_mem_keys
      ((unites.keys raw).mpr ⟨object, listed, Table.mem_keys_of_get? here⟩)
    exact ⟨field.shape, mem_shapesUnder_iff.mpr ⟨whole, there, field, under, rfl⟩, _,
      shapesUnder_subset subset raw, mem_shapesUnder_iff.mpr ⟨object, listed, own, here, rfl⟩,
      joins raw field under⟩
  · obtain ⟨whole, there, field, under, rfl⟩ := mem_shapesUnder_iff.mp member
    obtain ⟨among, subset, _, _, joins⟩ := grouped.back whole there
    exact ⟨_, shapesUnder_subset subset raw, joins raw field under⟩

/-- What some object has, the join of its group has. -/
theorem exists_key_iff (grouped : registry.ObjectsGrouped objects wholes) (raw : String) :
    (∃ object ∈ objects, raw ∈ object.keys) ↔ ∃ whole ∈ wholes, raw ∈ whole.keys := by
  constructor
  · rintro ⟨object, inside, key⟩
    obtain ⟨whole, there, among, _, listed, unites, _⟩ := grouped.forth object inside
    exact ⟨whole, there, (unites.keys raw).mpr ⟨object, listed, key⟩⟩
  · rintro ⟨whole, there, key⟩
    obtain ⟨among, subset, _, unites, _⟩ := grouped.back whole there
    obtain ⟨object, listed, key⟩ := (unites.keys raw).mp key
    exact ⟨object, subset listed, key⟩

/-- What all objects require, the joins of their groups do. -/
theorem required_iff (grouped : registry.ObjectsGrouped objects wholes) (raw : String) :
    (∀ object ∈ objects, ∃ found, object.get? raw = some found ∧ found.optional = false) ↔
      ∀ whole ∈ wholes, ∃ found, whole.get? raw = some found ∧ found.optional = false := by
  constructor
  · intro all whole there
    obtain ⟨among, subset, nonempty, unites, _⟩ := grouped.back whole there
    obtain ⟨object, listed⟩ := List.exists_mem_of_ne_nil among nonempty
    obtain ⟨found, here, _⟩ := all object (subset listed)
    obtain ⟨field, under⟩ := Table.exists_get?_of_mem_keys
      ((unites.keys raw).mpr ⟨object, listed, Table.mem_keys_of_get? here⟩)
    exact ⟨field, under, (unites.required raw field under).mpr fun object listed =>
      all object (subset listed)⟩
  · intro all object inside
    obtain ⟨whole, there, among, _, listed, unites, _⟩ := grouped.forth object inside
    obtain ⟨field, under, required⟩ := all whole there
    exact (unites.required raw field under).mp required object listed

/-- **Joins of joins of groups say what the join of all objects says.** -/
theorem entriesAt_eq (grouped : registry.ObjectsGrouped objects wholes)
    {fields fields' : Table String Field} {raw : String} (unites : Unites objects fields)
    (unites' : Unites wholes fields')
    (each : ∀ field field', fields.get? raw = some field → fields'.get? raw = some field' →
      field.shape = field'.shape) :
    registry.entriesAt fields raw = registry.entriesAt fields' raw := by
  refine entriesAt_eq_of_get? ?_ fun field field' found found' =>
    ⟨optional_eq_of_unites unites unites' found found' (grouped.required_iff raw), ?_⟩
  · rw [unites.keys, unites'.keys]
    exact grouped.exists_key_iff raw
  · rw [each field field' found found']

end ObjectsGrouped

/-! ### Lists in groups -/

/-- **Joins of groups of lists are lists,** null aside, and their elements are grouped as well. -/
theorem GroupedByKind.exists_lists (byKind : registry.GroupedByKind fine coarse)
    (normal : registry.Normal) {lists : List IdSet}
    (all : (fine.filter (· ≠ .null)).mapM registry.elements? = some lists) :
    ∃ wholes, (coarse.filter (· ≠ .null)).mapM registry.elements? = some wholes ∧
      registry.Grouped (lists.flatMap IdSet.toList) (wholes.flatMap IdSet.toList) := by
  have grouped : ∀ joined ∈ coarse, joined ≠ .null → ∃ among ⊆ lists, ∃ element,
      registry.elements? joined = some (.singleton element) ∧
      registry.Joins (among.flatMap IdSet.toList) element := by
    intro joined there solid
    obtain ⟨part, within, nonempty, joins⟩ := byKind.back joined there
    obtain ⟨among, subset, element, found, joins, _⟩ :=
      joins.exists_element normal within nonempty all solid
    exact ⟨among, subset, element, found, joins⟩
  have wider : ∀ among ⊆ lists, among.flatMap IdSet.toList ⊆ lists.flatMap IdSet.toList := by
    intro among subset id member
    obtain ⟨list, inside, element⟩ := List.mem_flatMap.mp member
    exact List.mem_flatMap.mpr ⟨list, subset inside, element⟩
  obtain ⟨wholes, all'⟩ : ∃ wholes,
      (coarse.filter (· ≠ .null)).mapM registry.elements? = some wholes := by
    refine Lists.exists_mapM_eq_some fun joined member => ?_
    obtain ⟨there, solid⟩ := List.mem_filter.mp member
    obtain ⟨_, _, element, found, _⟩ := grouped joined there (of_decide_eq_true solid)
    exact Option.isSome_of_eq_some found
  refine ⟨wholes, all', fun id member => ?_, fun id member => ?_⟩
  · obtain ⟨list, listed, member⟩ := List.mem_flatMap.mp member
    obtain ⟨holder, inside, here⟩ := Lists.exists_mem_of_mapM_right all listed
    obtain ⟨inside, notNull⟩ := List.mem_filter.mp inside
    obtain ⟨joined, there, part, within, inPart, joins⟩ := byKind.forth holder inside
    have solid : joined ≠ .null := joins.ne_null inPart (of_decide_eq_true notNull)
    obtain ⟨among, subset, element, found, joins, among'⟩ :=
      joins.exists_element normal within (List.ne_nil_of_mem inPart) all solid
    have member' := Lists.mem_of_mapM all' (List.mem_filter.mpr ⟨there, decide_eq_true solid⟩) found
    exact ⟨element, List.mem_flatMap.mpr ⟨_, member', List.mem_singleton_self element⟩, _,
      wider among subset, List.mem_flatMap.mpr ⟨list, among' holder inPart list here, member⟩,
      joins⟩
  · obtain ⟨whole, listed, member⟩ := List.mem_flatMap.mp member
    obtain ⟨joined, inside, here⟩ := Lists.exists_mem_of_mapM_right all' listed
    obtain ⟨there, solid⟩ := List.mem_filter.mp inside
    obtain ⟨among, subset, element, found, joins⟩ :=
      grouped joined there (of_decide_eq_true solid)
    obtain rfl := Option.some.inj (here.symm.trans found)
    rw [List.mem_singleton.mp member]
    exact ⟨_, wider among subset, joins⟩

end SampleShapes.Registry
