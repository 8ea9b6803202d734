/-
**The fields of the root are exact.**

For an array of objects without references, the first declaration says of each key what the objects
say. The elements are merged once for each shape and not once for each element, but a shape has the
keys of every element that it mirrors, so that nothing is lost by this: some element goes without a
key exactly if some of the shapes does. Null is a shape of its own until it is merged, and a merge
keeps it, as what it comes to or as one of the alternatives, where the type finds it again.

* `Joins.null_or_hasNull_iff`: **a join holds null exactly if null is joined;**
* `Joins.exists_tables`: objects join field by field, one table for each shape;
* `Joins.exists_exact_fields`: the join of objects has their keys, and lacks what one of them lacks;
* `Resolution.root_fields_exact`: **a field of the root is optional exactly if some element goes
  without it or has null there.**
-/

import SampleShapes.Proofs.Registry.Spreading
import SampleShapes.Proofs.Reordering
import SampleShapes.Proofs.Resolution.Acceptance
import SampleShapes.Proofs.Resolution.Keys
import SampleShapes.Proofs.Resolution.Optionality

namespace SampleShapes

namespace Registry

variable {registry : Registry} {detectDates : Bool} {sample : Json}
  {candidates ids : List ShapeId} {id joined solid : ShapeId}

/-! ### Null in joins -/

theorem IsNullable.null_or_hasNull_iff (nullable : registry.IsNullable ids solid joined)
    (notNull : solid ≠ .null) (notUnion : registry.members? solid = none) :
    joined = .null ∨ registry.HasNull joined ↔ .null ∈ ids := by
  unfold IsNullable at nullable
  split at nullable
  · next null =>
    exact iff_of_true (.inr ⟨_, nullable, IdSet.mem_ofList.mpr (by simp)⟩) null
  · next absent =>
    rw [nullable]
    refine iff_of_false ?_ absent
    rintro (same | ⟨_, found, _⟩)
    · exact notNull same
    · cases notUnion.symm.trans found

/-- **A join holds null exactly if null is joined,** where no candidate is a union. -/
theorem Joins.null_or_hasNull_iff (flat : registry.Flat candidates)
    (joins : registry.Joins candidates joined) :
    joined = .null ∨ registry.HasNull joined ↔ .null ∈ candidates := by
  have once := flatten_of_flat flat
  rw [← List.mem_eraseDups, ← once]
  cases joins with
  | nothing none found =>
    rw [none]
    refine iff_of_false ?_ List.not_mem_nil
    rintro (rfl | ⟨members, found', member⟩)
    · cases found
    · obtain rfl := Option.some.inj (found.symm.trans found')
      exact List.not_mem_nil member
  | alone only =>
    have inside : joined ∈ candidates := by
      rw [← List.mem_eraseDups, ← once, only]
      exact List.mem_singleton_self joined
    rw [only, List.mem_singleton]
    refine ⟨?_, fun same => .inl same.symm⟩
    rintro (rfl | ⟨members, found, _⟩)
    · rfl
    · cases (flat joined inside).symm.trans found
  | objects _ _ found _ _ nullable =>
    exact nullable.null_or_hasNull_iff (ne_primitive_of_shape? (fields?_eq_some_iff.mp found))
      (members?_eq_none_of_fields? (Option.isSome_of_eq_some found))
  | lists _ _ found _ nullable =>
    exact nullable.null_or_hasNull_iff (ne_primitive_of_shape? (elements?_eq_some_iff.mp found))
      (members?_eq_none_of_elements? (Option.isSome_of_eq_some found))
  | mixed _ _ _ found =>
    have notNull : joined ≠ .null := ne_primitive_of_shape? (members?_eq_some_iff.mp found)
    rw [or_iff_right notNull]
    constructor
    · rintro ⟨members, found', member⟩
      obtain rfl := Option.some.inj (found.symm.trans found')
      exact IdSet.mem_ofList.mp member
    · exact fun null => ⟨_, found, IdSet.mem_ofList.mpr null⟩

/-! ### Joins of objects -/

/-- **Objects join field by field,** one table for each shape among them. -/
theorem Joins.exists_tables (joins : registry.Joins candidates joined) (nonempty : candidates ≠ [])
    (objects : ∀ candidate ∈ candidates, (registry.fields? candidate).isSome) :
    ∃ tables fields, candidates.eraseDups.mapM registry.fields? = some tables ∧
      registry.fields? joined = some fields ∧ Unites tables fields ∧
      ∀ raw field, fields.get? raw = some field →
        registry.Joins (shapesUnder tables raw) field.shape := by
  have once : registry.flatten candidates = candidates.eraseDups :=
    flatten_of_flat fun id member => members?_eq_none_of_fields? (objects id member)
  have among : ∀ id ∈ registry.flatten candidates, (registry.fields? id).isSome := by
    rw [once]
    exact fun id member => objects id (List.mem_eraseDups.mp member)
  have noNull := null_notMem_of_objects among
  have solid := (filter_solid_of_objects among).trans once
  rcases Nat.lt_or_ge (registry.flatten candidates).length 2 with few | several
  · obtain ⟨candidate, member⟩ := List.exists_mem_of_ne_nil candidates nonempty
    have inside : candidate ∈ registry.flatten candidates := by
      rwa [once, List.mem_eraseDups]
    have alone := Lists.eq_singleton_of_length_lt_two inside few
    obtain ⟨fields, found⟩ := Option.isSome_iff_exists.mp (objects candidate member)
    rw [joins.of_singleton alone]
    obtain ⟨unites, each⟩ := composes_self registry fields
    refine ⟨[fields], fields, ?_, found, unites, each⟩
    rw [← once, alone, List.mapM_cons, found]
    rfl
  · obtain ⟨tables, all⟩ := Lists.exists_mapM_eq_some fun id member =>
      objects id (List.mem_eraseDups.mp member)
    obtain ⟨_, fields, found, unites, each, nullable⟩ :=
      joins.of_several_objects several (by rwa [solid])
    rw [IsNullable, if_neg noNull] at nullable
    exact ⟨tables, fields, all, nullable ▸ found, unites, each⟩

/-! ### What mirrors a value -/

/-- What mirrors a value is no union. -/
theorem Mirrors.members?_eq_none (mirrors : registry.Mirrors detectDates sample id) :
    registry.members? id = none := by
  cases mirrors with
  | scalar => rw [members?, shape?_scalarId, Option.bind_none]
  | list _ _ found => exact members?_eq_none_of_elements? (Option.isSome_of_eq_some found)
  | object found => exact members?_eq_none_of_fields? (Option.isSome_of_eq_some found)

/-- **Nothing but null is mirrored by null.** -/
theorem Mirrors.eq_null_iff (mirrors : registry.Mirrors detectDates sample id) :
    id = .null ↔ sample = .null := by
  cases mirrors with
  | list _ _ found =>
    exact iff_of_false (ne_primitive_of_shape? (elements?_eq_some_iff.mp found)) nofun
  | object found =>
    exact iff_of_false (ne_primitive_of_shape? (fields?_eq_some_iff.mp found)) nofun
  | scalar notArray notObject =>
    cases sample with
    | null => exact iff_of_true rfl rfl
    | string text =>
      refine iff_of_false ?_ nofun
      unfold Json.scalarId
      split <;> nofun
    | bool value => exact iff_of_false nofun nofun
    | number literal => exact iff_of_false nofun nofun
    | array elements => exact absurd rfl (notArray elements)
    | object members => exact absurd rfl (notObject members)

/-- The fields mirror an object key by key. -/
structure MirrorsKeys (registry : Registry) (detectDates : Bool) (sample : Json)
    (fields : Table String Field) : Prop where
  /-- They lack what the object lacks. -/
  lacks : ∀ raw, fields.get? raw = none ↔ sample.member? raw = none
  /-- They require what it has, and mirror it. -/
  has : ∀ raw value field, sample.member? raw = some value → fields.get? raw = some field →
    field.optional = false ∧ registry.Mirrors detectDates value field.shape

theorem MirrorsKeys.exists_member {fields : Table String Field} {raw : String} {field : Field}
    (mirrors : registry.MirrorsKeys detectDates sample fields)
    (under : fields.get? raw = some field) :
    ∃ value, sample.member? raw = some value ∧ field.optional = false ∧
      registry.Mirrors detectDates value field.shape := by
  have there : sample.member? raw ≠ none := fun missing => by
    rw [(mirrors.lacks raw).mpr missing] at under
    cases under
  obtain ⟨value, member⟩ := Option.ne_none_iff_exists'.mp there
  exact ⟨value, member, mirrors.has raw value field member under⟩

theorem MirrorsKeys.exists_field {fields : Table String Field} {raw : String} {value : Json}
    (mirrors : registry.MirrorsKeys detectDates sample fields)
    (member : sample.member? raw = some value) :
    ∃ field, fields.get? raw = some field ∧ registry.Mirrors detectDates value field.shape := by
  have there : fields.get? raw ≠ none := fun missing => by
    rw [(mirrors.lacks raw).mp missing] at member
    cases member
  obtain ⟨field, under⟩ := Option.ne_none_iff_exists'.mp there
  exact ⟨field, under, (mirrors.has raw value field member under).2⟩

/-- **What mirrors an object does so key by key.** -/
theorem Mirrors.exists_mirrorsKeys (mirrors : registry.Mirrors detectDates sample id)
    (distinct : sample.KeysDistinct) (object : ∃ members, sample = .object members) :
    ∃ fields, registry.fields? id = some fields ∧
      registry.MirrorsKeys detectDates sample fields := by
  obtain ⟨members, rfl⟩ := object
  obtain ⟨once, _⟩ := Json.keysDistinct_object.mp distinct
  obtain ⟨fields, found, keys, each⟩ := mirrors.exists_fields
  refine ⟨fields, found, fun raw => ?_, fun raw value field member under => ?_⟩
  · rw [← Option.not_isSome_iff_eq_none, ← Option.not_isSome_iff_eq_none, Table.isSome_get?_iff,
      keys, Json.member?, Lists.lookup_isSome_iff_mem]
  · exact each raw value field ((Lists.lookup_eq_some_iff_mem once).mp member) under

/-- The tables are those of the objects that mirror the elements. -/
structure MirrorsAll (registry : Registry) (detectDates : Bool) (elements : List Json)
    (tables : List (Table String Field)) : Prop where
  forth : ∀ element ∈ elements, ∃ table ∈ tables, registry.MirrorsKeys detectDates element table
  back : ∀ table ∈ tables, ∃ element ∈ elements, registry.MirrorsKeys detectDates element table

section Exact

variable {elements : List Json} {tables : List (Table String Field)} {raw : String}

theorem mirrorsAll_of_mapM (each : List.Forall₂ (registry.Mirrors detectDates) elements ids)
    (distinct : ∀ element ∈ elements, element.KeysDistinct)
    (objects : ∀ element ∈ elements, ∃ members, element = .object members)
    (all : ids.eraseDups.mapM registry.fields? = some tables) :
    registry.MirrorsAll detectDates elements tables where
  forth element listed := by
    obtain ⟨id, member, mirrors⟩ := Lists.exists_mem_of_forall₂ each listed
    obtain ⟨fields, found, keys⟩ :=
      mirrors.exists_mirrorsKeys (distinct element listed) (objects element listed)
    exact ⟨fields, Lists.mem_of_mapM all (List.mem_eraseDups.mpr member) found, keys⟩
  back table member := by
    obtain ⟨id, inside, found⟩ := Lists.exists_mem_of_mapM_right all member
    obtain ⟨element, listed, mirrors⟩ :=
      Lists.exists_mem_of_forall₂_right each (List.mem_eraseDups.mp inside)
    obtain ⟨fields, found', keys⟩ :=
      mirrors.exists_mirrorsKeys (distinct element listed) (objects element listed)
    obtain rfl := Option.some.inj (found.symm.trans found')
    exact ⟨element, listed, keys⟩

namespace MirrorsAll

variable (mirrors : registry.MirrorsAll detectDates elements tables)
include mirrors

theorem exists_key_iff :
    (∃ table ∈ tables, raw ∈ table.keys) ↔
      ∃ element ∈ elements, (element.member? raw).isSome := by
  constructor
  · rintro ⟨table, member, key⟩
    obtain ⟨element, listed, keys⟩ := mirrors.back table member
    obtain ⟨field, under⟩ := Table.exists_get?_of_mem_keys key
    obtain ⟨value, there, _⟩ := keys.exists_member under
    exact ⟨element, listed, Option.isSome_of_eq_some there⟩
  · rintro ⟨element, listed, there⟩
    obtain ⟨value, there⟩ := Option.isSome_iff_exists.mp there
    obtain ⟨table, member, keys⟩ := mirrors.forth element listed
    obtain ⟨field, under, _⟩ := keys.exists_field there
    exact ⟨table, member, Table.mem_keys_of_get? under⟩

/-- All tables require what no element goes without. -/
theorem required_iff :
    (∀ table ∈ tables, ∃ found, table.get? raw = some found ∧ found.optional = false) ↔
      ∀ element ∈ elements, element.member? raw ≠ none := by
  constructor
  · intro required element listed missing
    obtain ⟨table, member, keys⟩ := mirrors.forth element listed
    obtain ⟨field, under, _⟩ := required table member
    rw [(keys.lacks raw).mpr missing] at under
    cases under
  · intro there table member
    obtain ⟨element, listed, keys⟩ := mirrors.back table member
    obtain ⟨value, here⟩ := Option.ne_none_iff_exists'.mp (there element listed)
    obtain ⟨field, under, _⟩ := keys.exists_field here
    exact ⟨field, under, (keys.has raw value field here under).1⟩

theorem exists_mirrors_of_mem (member : id ∈ shapesUnder tables raw) :
    ∃ element ∈ elements, ∃ value, element.member? raw = some value ∧
      registry.Mirrors detectDates value id := by
  obtain ⟨table, inside, field, under, rfl⟩ := mem_shapesUnder_iff.mp member
  obtain ⟨element, listed, keys⟩ := mirrors.back table inside
  obtain ⟨value, there, _, same⟩ := keys.exists_member under
  exact ⟨element, listed, value, there, same⟩

theorem null_mem_iff :
    .null ∈ shapesUnder tables raw ↔ ∃ element ∈ elements, element.member? raw = some .null := by
  constructor
  · intro null
    obtain ⟨element, listed, value, there, same⟩ := mirrors.exists_mirrors_of_mem null
    rw [same.eq_null_iff.mp rfl] at there
    exact ⟨element, listed, there⟩
  · rintro ⟨element, listed, there⟩
    obtain ⟨table, member, keys⟩ := mirrors.forth element listed
    obtain ⟨field, under, same⟩ := keys.exists_field there
    exact mem_shapesUnder_iff.mpr ⟨table, member, field, under, same.eq_null_iff.mpr rfl⟩

end MirrorsAll

/-- **The join of objects has their keys, and lacks what one of them lacks** or has null for. -/
theorem Joins.exists_exact_fields (joins : registry.Joins ids joined)
    (each : List.Forall₂ (registry.Mirrors detectDates) elements ids) (nonempty : elements ≠ [])
    (distinct : ∀ element ∈ elements, element.KeysDistinct)
    (objects : ∀ element ∈ elements, ∃ members, element = .object members) :
    ∃ fields, registry.fields? joined = some fields ∧
      (∀ raw, raw ∈ fields.keys ↔ ∃ element ∈ elements, (element.member? raw).isSome) ∧
      ∀ raw field, fields.get? raw = some field → (registry.MayLack field ↔
        ∃ element ∈ elements, element.member? raw = none ∨ element.member? raw = some .null) := by
  have idsNonempty : ids ≠ [] := by
    rintro rfl
    exact nonempty (List.forall₂_nil_right_iff.mp each)
  obtain ⟨tables, fields, all, found, unites, under⟩ := joins.exists_tables idsNonempty
    fun id member => by
      obtain ⟨element, listed, mirrors⟩ := Lists.exists_mem_of_forall₂_right each member
      obtain ⟨fields, found, _⟩ :=
        mirrors.exists_mirrorsKeys (distinct element listed) (objects element listed)
      exact Option.isSome_of_eq_some found
  have mirrors := mirrorsAll_of_mapM each distinct objects all
  refine ⟨fields, found, fun raw => (unites.keys raw).trans mirrors.exists_key_iff,
    fun raw field here => ?_⟩
  have optional : field.optional = true ↔ ∃ element ∈ elements, element.member? raw = none := by
    rw [← Bool.not_eq_false, unites.required raw field here, mirrors.required_iff]
    push Not
    rfl
  have flat : registry.Flat (shapesUnder tables raw) := fun id member => by
    obtain ⟨_, _, _, _, same⟩ := mirrors.exists_mirrors_of_mem member
    exact same.members?_eq_none
  rw [MayLack, optional, (under raw field here).null_or_hasNull_iff flat, mirrors.null_mem_iff,
    ← exists_or]
  exact exists_congr fun element => and_or_left.symm

end Exact

end Registry

/-! ### The first declaration -/

namespace Resolution

open Registry

variable {resolution : Resolution} {options : Options} {graph : ShapeGraph}
  {all : List Declaration} {findings : Findings} {elements : List Json}

/-- The first declaration is that of the object of the root. -/
theorem MadeFrom.exists_first_declaredAs (made : resolution.MadeFrom options graph all findings) :
    ∃ first rest index, resolution.declarations = first :: rest ∧ graph.IsRootObject index ∧
      (Naming.ofGraph graph options.rootName).DeclaredAs graph.registry options.references
        findings.warnings (index, options.rootName) first := by
  obtain ⟨first, rest, others, split, front, _⟩ := made.exists_first
  obtain ⟨index, entries, isRoot, _, names⟩ := made.declares.named.root
  have each := made.declares.each
  rw [names, front] at each
  cases each with
  | cons declaredAs _ => exact ⟨first, rest, index, split, isRoot, declaredAs⟩

/-- What an object that is made plain is declared as: its keys as they are, and optional is what may
be lacking. -/
theorem exact_of_declaredAs {naming : Naming} {registry : Registry} {policy : ReferencePolicy}
    {warnings : List Warning} {index : Nat} {name : String} {declaration : Declaration}
    {fields : Table String Field} (sound : registry.Sound) (normal : registry.Normal)
    (found : registry.fields? (.node index) = some fields)
    (plain : ∀ raw field, fields.get? raw = some field → (Key.parse raw).mark = .plain)
    (declared : naming.DeclaredAs registry policy warnings (index, name) declaration) :
    declaration.fields.map DeclaredField.key = fields.keys ∧
      ∀ field ∈ declaration.fields, ∃ source, fields.get? field.key = some source ∧
        (field.optional = true ↔ registry.MayLack source) := by
  have keyed := sound.keyed found
  have named : ∀ entry ∈ fields.entries,
      (naming.settingOf registry policy name fields).declaredKey entry.1 entry.2 = entry.1 := by
    intro entry member
    have under := Table.get?_eq_some_iff.mpr member
    refine Declaring.declaredKey_of_name ?_
    rw [keyed _ _ under, Key.name_parse (plain _ _ under)]
  refine ⟨?_, fun field member => ?_⟩
  · rw [declared.keys_eq found]
    exact List.map_congr_left named
  · obtain ⟨_, own, here, each⟩ := declared
    obtain rfl := Option.some.inj (found.symm.trans here)
    obtain ⟨entry, listed, resolves⟩ := Lists.exists_mem_of_forall₂_right each member
    have under := Table.get?_eq_some_iff.mpr listed
    have key : field.key = entry.1 := by
      obtain ⟨_, _, rfl, _⟩ := id resolves
      exact named entry listed
    have free : ∀ target, ¬ naming.Binds registry policy entry.2 target := by
      intro target binds
      have clash := binds.named
      rw [keyed _ _ under, Key.target?, plain _ _ under] at clash
      cases clash
    refine ⟨entry.2, key ▸ under, ?_⟩
    rw [Declaring.optional_iff_of_resolves sound normal resolves]
    exact or_congr_right (or_congr_right (and_iff_left free))

/-- What may be lacking is the same in a registry that was pruned. -/
theorem mayLack_prune_iff {registry : Registry} {roots : List ShapeId} {field : Field}
    (held : (registry.prune roots).Holds field.shape) :
    (registry.prune roots).MayLack field ↔ registry.MayLack field := by
  unfold MayLack HasNull
  rw [members?_prune_of_holds held]

/-- **A field of the root is there exactly if some element has it, and optional exactly if some
element goes without it or has null there.** -/
theorem root_fields_exact (distinct : (Json.array elements).KeysDistinct)
    (unmarked : (Json.array elements).Unmarked)
    (declared : SampleShapes.declarations options (.array elements) = .ok resolution) :
    ∃ first rest, resolution.declarations = first :: rest ∧
      (∀ key, key ∈ first.fields.map DeclaredField.key ↔
        ∃ element ∈ elements, (element.member? key).isSome) ∧
      ∀ field ∈ first.fields, (field.optional = true ↔ ∃ element ∈ elements,
        element.member? field.key = none ∨ element.member? field.key = some .null) := by
  obtain ⟨graph, all, findings, inferred, _, made⟩ := exists_run declared
  obtain ⟨first, rest, index, split, isRoot, declaredAs⟩ := made.exists_first_declaredAs
  have accepted := (ShapeGraph.infer_eq_ok_iff.mp inferred).1
  have normal := (ShapeGraph.produced_of_infer inferred).normal
  obtain ⟨registry, sound, mirrors, same⟩ :=
    ShapeGraph.exists_mirrors_of_infer distinct unmarked inferred
  obtain ⟨ids, element, each, joins, list⟩ := mirrors.exists_element
  obtain ⟨nonempty, objects⟩ := of_refusedRoot?_array accepted
  obtain ⟨fields, found, keys, exactly⟩ := joins.exists_exact_fields each nonempty
    (Json.keysDistinct_array.mp distinct) objects
  have plainList := (everyField_iff_of_elements? list).mp (mirrors.isPlain unmarked)
  have plain := (everyField_iff_of_fields? found).mp (plainList element (List.mem_singleton_self _))
  have held := holds_prune_root mirrors.holds (List.mem_singleton_self graph.root)
  generalize graph.root = root at *
  subst same
  -- The object of the root is what the elements join to.
  have atRoot : (registry.prune [root]).fields? (.node index) = some fields := by
    obtain ⟨id, isRoot, object, canonical⟩ := isRoot
    obtain rfl : id = .node index := by cases id <;> exact canonical
    have list' := (elements?_prune_of_holds held).trans list
    rcases isRoot with rfl | isRoot
    · cases (elements?_eq_none_of_fields? object).symm.trans list'
    · have single := Option.some.inj (isRoot.symm.trans list')
      obtain rfl := List.singleton_injective (congrArg IdSet.toList single)
      rw [← found]
      exact fields?_prune_of_holds (holds_of_fields? object)
  obtain ⟨declaredKeys, declaredFields⟩ := exact_of_declaredAs (sound.prune _) normal atRoot
    (fun raw field under => (plain raw field under).1) declaredAs
  refine ⟨first, rest, split, fun key => ?_, fun field member => ?_⟩
  · rw [declaredKeys, keys]
  · obtain ⟨source, under, optional⟩ := declaredFields field member
    have heldShape := ((sound.prune [root]).field atRoot under).1
    rw [optional, mayLack_prune_iff heldShape, exactly _ _ under]

/-- Two of three objects have one shape: the third one lacks `a`, and another one has null for
`b`. -/
theorem root_fields_exact_of_three_elements :
    ∃ elements resolution, elements = [.object [("a", .bool true), ("b", .number "1")],
        .object [("a", .bool false), ("b", .number "2")], .object [("b", .null)]] ∧
      SampleShapes.declarations {} (.array elements) = .ok resolution ∧
      ∃ first rest, resolution.declarations = first :: rest ∧
        first.fields.map (fun field => (field.key, field.optional)) = [("a", true), ("b", true)] ∧
        (∀ key, key ∈ first.fields.map DeclaredField.key ↔
          ∃ element ∈ elements, (element.member? key).isSome) ∧
        ∀ field ∈ first.fields, (field.optional = true ↔ ∃ element ∈ elements,
          element.member? field.key = none ∨ element.member? field.key = some .null) := by
  have declared : SampleShapes.declarations {} (.array
      [.object [("a", .bool true), ("b", .number "1")],
        .object [("a", .bool false), ("b", .number "2")], .object [("b", .null)]]) = .ok
        { declarations := [⟨"RootObject", [⟨"a", .primitive .boolean, true, .plain⟩,
            ⟨"b", .primitive .number, true, .plain⟩]⟩]
          parents := ∅
          warnings := [] } := by
    decide +kernel
  obtain ⟨first, rest, split, keys, optional⟩ :=
    root_fields_exact (by decide +kernel) (by decide +kernel) declared
  refine ⟨_, _, rfl, declared, first, rest, split, ?_, keys, optional⟩
  obtain ⟨rfl, rfl⟩ := List.cons.inj split
  rfl

end Resolution

end SampleShapes
