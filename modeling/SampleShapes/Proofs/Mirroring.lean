/-
**What is observed in a value.**

Where no key says more than a name, the shape that is observed in a value is told by the value
alone: an object has the keys of its members and requires them all, and a list is one of the join
of its elements. Registries that observe the same value, up to order, come to shapes that unfold to
the same.

* `Mirrors.grow`: a shape goes on to mirror a value while the registry grows;
* `value_mirrors`: **the shape that is observed in a value mirrors it**;
* `Mirrors.unfolding_eq`: **what mirrors a value unfolds to the same in any registry**, and so does
  what mirrors the value in another order;
* `succeeds_value_iff`: a value is observed exactly if it does not nest too deep.
-/

import SampleShapes.Proofs.Json.Reordering
import SampleShapes.Proofs.Registry.Matching

namespace SampleShapes

namespace Registry

/-- The shape says what the value says: of an array with the join of its elements, and of an object
with its keys. -/
inductive Mirrors (registry : Registry) (detectDates : Bool) : Json → ShapeId → Prop where
  /-- A value without structure has its kind, or is a date. -/
  | scalar {value : Json} (notArray : ∀ elements, value ≠ .array elements)
      (notObject : ∀ members, value ≠ .object members) :
      Mirrors registry detectDates value (value.scalarId detectDates)
  /-- The list of an array has the join of the elements. -/
  | list {elements : List Json} {ids : List ShapeId} {id element : ShapeId}
      (each : List.Forall₂ (Mirrors registry detectDates) elements ids)
      (joins : registry.Joins ids element)
      (found : registry.elements? id = some (.singleton element)) :
      Mirrors registry detectDates (.array elements) id
  /-- The object has the keys of the members, and requires them. -/
  | object {members : List (String × Json)} {fields : Table String Field} {id : ShapeId}
      (found : registry.fields? id = some fields)
      (keys : ∀ raw, raw ∈ fields.keys ↔ raw ∈ members.map Prod.fst)
      (required : ∀ raw field, fields.get? raw = some field → field.optional = false)
      (each : ∀ raw value field, (raw, value) ∈ members → fields.get? raw = some field →
        Mirrors registry detectDates value field.shape) :
      Mirrors registry detectDates (.object members) id

variable {registry later : Registry} {detectDates : Bool} {sample other : Json} {id id' : ShapeId}

/-! ### Growth -/

theorem Mirrors.holds (mirrors : registry.Mirrors detectDates sample id) : registry.Holds id := by
  cases mirrors with
  | scalar =>
    unfold Json.scalarId
    split <;> trivial
  | list _ _ found => exact holds_of_shape? (elements?_eq_some_iff.mp found)
  | object found => exact holds_of_shape? (fields?_eq_some_iff.mp found)

/-- **A shape goes on to mirror a value while the registry grows.** -/
theorem Mirrors.grow (sound : registry.Sound) (grows : registry.Grows later)
    (mirrors : registry.Mirrors detectDates sample id) : later.Mirrors detectDates sample id := by
  induction sample using Json.induct generalizing id with
  | step sample parts =>
    cases mirrors with
    | scalar notArray notObject => exact .scalar notArray notObject
    | list each joins found =>
      have held : ∀ candidate ∈ _, registry.Holds candidate := fun candidate member => by
        obtain ⟨_, _, mirrors⟩ := Lists.exists_mem_of_forall₂_right each member
        exact mirrors.holds
      refine .list ?_ (joins.grow sound grows held) (grows.within.elements? found)
      have inside := (List.forall₂_and_left _ _).mpr ⟨parts, each⟩
      exact inside.imp fun element id ⟨grown, mirrors⟩ => grown mirrors
    | object found keys required each =>
      refine .object (grows.within.fields? found) keys required
        fun raw value field listed under => ?_
      exact parts value (Json.parts_inside listed) (each raw value field listed under)

/-- The object over the fields that mirror the members mirrors an object. -/
theorem mirrors_object {members : List (String × Json)} {entries : List (String × Field)}
    {fields : Table String Field}
    (reads : List.Forall₂ (Observing.ReadsMember (registry.Mirrors detectDates)) members entries)
    (once : (members.map Prod.fst).Nodup) (found : registry.fields? id = some fields)
    (same : ∀ raw, fields.get? raw = (Table.ofList entries).get? raw) :
    registry.Mirrors detectDates (.object members) id := by
  have keys : entries.map Prod.fst = members.map Prod.fst := by
    clear once same found
    induction reads with
    | nil => rfl
    | cons first _ step => rw [List.map_cons, List.map_cons, step, first.raw]
  -- What is found under a key was read from the one member that has it.
  have source : ∀ raw field, fields.get? raw = some field →
      ∃ member ∈ members, Observing.ReadsMember (registry.Mirrors detectDates) member
        (raw, field) := by
    intro raw field under
    rw [same] at under
    exact Lists.exists_mem_of_forall₂_right reads (Table.mem_of_get?_ofList under)
  refine .object found (fun raw => ?_) (fun raw field under => ?_)
    fun raw value field listed under => ?_
  · rw [← Table.isSome_get?_iff, same, Table.isSome_get?_iff, Table.mem_keys_ofList, keys]
  · obtain ⟨_, _, own⟩ := source raw field under
    exact own.required
  · obtain ⟨member, inside, own⟩ := source raw field under
    have here : member = (raw, value) := List.inj_on_of_nodup_map once inside listed own.raw.symm
    have mirrors := own.good
    rw [here] at mirrors
    exact mirrors

end Registry

/-! ### Observation -/

namespace Observing

open Registry

variable {observer : Observer} {options : Options} {sample : Json}

theorem mirrors_lasts (detectDates : Bool) :
    Lasts fun registry => registry.Mirrors detectDates :=
  fun _ _ _ _ sound grows mirrors => mirrors.grow sound grows

/-- Where no target is named, a field has the shape of its value. -/
theorem bindList_of_plain {key : Key} (plain : key.mark = .plain) (value : Json)
    (observe : Observing ShapeId) : bindList key.target? value observe = observe := by
  rw [Key.target?, plain]
  rfl

/-- **The shape that is observed in a value mirrors it.** -/
theorem value_mirrors (options : Options) (depth : Nat) (sample : Json)
    (distinct : sample.KeysDistinct) (unmarked : sample.Unmarked) (sound : observer.Sound) :
    Yields observer (value options depth sample) fun registry =>
      registry.Mirrors options.detectDates sample := by
  induction sample using Json.induct generalizing depth observer with
  | step sample parts =>
    unfold value
    split
    · next elements =>
      have distinct := Json.keysDistinct_array.mp distinct
      have unmarked := Json.unmarked_array.mp unmarked
      refine yields_check sound ?_
      refine (elements_yields (mirrors_lasts options.detectDates) elements
        (fun element listed observer sound => parts element listed (depth + 1)
          (distinct element listed) (unmarked element listed) sound) sound).bind
            fun ids later sound _ each => ?_
      have held : ∀ id ∈ ids, later.registry.Holds id := fun id member => by
        obtain ⟨_, _, mirrors⟩ := Lists.exists_mem_of_forall₂_right each member
        exact mirrors.holds
      refine (merge_yields sound held).bind fun element last soundLast grows ⟨holds, joins⟩ => ?_
      refine intern_yields soundLast (carries_list holds) ?_
      have growsLast := grows_intern (.list (.singleton element)) last.registry
      refine .list (each.imp fun _ _ mirrors => ?_)
        (joins.grow soundLast.registry growsLast fun id member => grows.holds (held id member))
        (soundLast.registry.elements?_intern _)
      exact mirrors.grow sound.registry (grows.trans growsLast)
    · next members =>
      obtain ⟨once, distinct⟩ := Json.keysDistinct_object.mp distinct
      have unmarked := Json.unmarked_object.mp unmarked
      refine yields_check sound ?_
      refine (members_yields (mirrors_lasts options.detectDates) members
        (fun member listed observer sound => ?_) sound).bind fun entries later sound _ reads => ?_
      · rw [bindList_of_plain (unmarked member listed).1]
        exact parts member.2 (Json.parts_inside listed) (depth + 1) (distinct member listed)
          (unmarked member listed).2 sound
      have carries : later.registry.Carries (.object (.ofList entries)) :=
        carries_ofList fun entry listed => by
          obtain ⟨_, _, own⟩ := Lists.exists_mem_of_forall₂_right reads listed
          exact ⟨own.key, own.good.holds⟩
      refine intern_yields sound carries ?_
      have grows := grows_intern (.object (.ofList entries)) later.registry
      obtain ⟨fields, found, same⟩ := sound.registry.fields?_intern carries
      refine mirrors_object (reads.imp fun _ _ own => ?_) once found same
      exact { own with good := own.good.grow sound.registry grows }
    · next notArray notObject =>
      exact yields_check sound (yields_pure sound (.scalar notArray notObject))

/-! ### Success -/

/-- The step does not fail from `observer`. -/
def Succeeds {α : Type} (observer : Observer) (step : Observing α) : Prop :=
  ∃ result, (step.run.run observer).1 = .ok result

theorem succeeds_pure {α : Type} (observer : Observer) (result : α) :
    Succeeds observer (pure result) := ⟨result, rfl⟩

/-- Steps that follow each other succeed if all of them do. -/
theorem succeeds_bind_iff {α β : Type} {first : Observing α} {next : α → Observing β}
    {condition : Prop} (onward : ∀ result later, Succeeds later (next result) ↔ condition) :
    Succeeds observer (first >>= next) ↔ Succeeds observer first ∧ condition := by
  unfold Succeeds at onward ⊢
  rw [run_bind]
  rcases first.run.run observer with ⟨failure | result, later⟩
  · refine ⟨fun ⟨_, same⟩ => (by cases same), fun ⟨⟨_, same⟩, _⟩ => (by cases same)⟩
  · show (∃ last, ((next result).run.run later).1 = .ok last) ↔ _
    rw [onward]
    exact ⟨fun holds => ⟨⟨result, rfl⟩, holds⟩, fun ⟨_, holds⟩ => holds⟩

/-- A check succeeds if what it refuses is not there. -/
theorem succeeds_check_iff {α : Type} {exceeded : Prop} [Decidable exceeded] {failure : Failure}
    {next : Unit → Observing α} :
    Succeeds observer (if exceeded then throw failure >>= next else next ()) ↔
      ¬ exceeded ∧ Succeeds observer (next ()) := by
  split
  · next holds =>
    refine ⟨fun ⟨_, same⟩ => ?_, fun ⟨never, _⟩ => absurd holds never⟩
    rw [run_bind] at same
    cases same
  · next fine => exact (and_iff_right fine).symm

theorem succeeds_elements_iff {depth : Nat} {good : Json → Prop} (elements : List Json)
    (each : ∀ element ∈ elements, ∀ observer,
      Succeeds observer (value options depth element) ↔ good element) :
    Succeeds observer (Observing.elements options depth elements) ↔
      ∀ element ∈ elements, good element := by
  induction elements generalizing observer with
  | nil => exact iff_of_true (succeeds_pure observer []) (by simp)
  | cons element rest step =>
    rw [List.forall_mem_cons] at each ⊢
    rw [Observing.elements, ← each.1 observer]
    refine succeeds_bind_iff fun id later => ?_
    rw [succeeds_bind_iff fun ids last => iff_true_intro (succeeds_pure last _), and_true]
    exact step each.2

theorem succeeds_members_iff {depth : Nat} {good : Json → Prop} (members : List (String × Json))
    (each : ∀ member ∈ members, ∀ observer,
      Succeeds observer
        (bindList (Key.parse member.1).target? member.2 (value options depth member.2)) ↔
          good member.2) :
    Succeeds observer (Observing.members options depth members) ↔
      ∀ member ∈ members, good member.2 := by
  induction members generalizing observer with
  | nil => exact iff_of_true (succeeds_pure observer []) (by simp)
  | cons member rest step =>
    obtain ⟨raw, sample⟩ := member
    rw [List.forall_mem_cons] at each ⊢
    rw [Observing.members, ← each.1 observer]
    refine succeeds_bind_iff fun id later => ?_
    rw [succeeds_bind_iff fun fields last => iff_true_intro (succeeds_pure last _), and_true]
    exact step each.2

/-- **A value is observed exactly if it does not nest too deep.** -/
theorem succeeds_value_iff (options : Options) (depth : Nat) (sample : Json)
    (unmarked : sample.Unmarked) :
    Succeeds observer (value options depth sample) ↔ sample.Shallow options.maxDepth depth := by
  induction sample using Json.induct generalizing depth observer with
  | step sample parts =>
    rw [Json.shallow_iff]
    unfold value
    split
    · next elements =>
      have unmarked := Json.unmarked_array.mp unmarked
      refine succeeds_check_iff.trans (and_congr Nat.not_lt ?_)
      rw [succeeds_bind_iff fun ids later => iff_true_intro ⟨_, rfl⟩, and_true]
      exact succeeds_elements_iff elements fun element listed observer =>
        parts element listed (depth + 1) (unmarked element listed)
    · next members =>
      have unmarked := Json.unmarked_object.mp unmarked
      refine succeeds_check_iff.trans (and_congr Nat.not_lt ?_)
      rw [succeeds_bind_iff fun fields later => iff_true_intro ⟨_, rfl⟩, and_true]
      refine (succeeds_members_iff members fun member listed observer => ?_).trans
        List.forall_mem_map.symm
      rw [bindList_of_plain (unmarked member listed).1]
      exact parts member.2 (Json.parts_inside listed) (depth + 1) (unmarked member listed).2
    · next notArray notObject =>
      refine succeeds_check_iff.trans (and_congr Nat.not_lt ?_)
      refine iff_of_true (succeeds_pure observer _) fun part member => ?_
      cases sample with
      | array elements => exact absurd rfl (notArray elements)
      | object members => exact absurd rfl (notObject members)
      | _ => exact absurd member List.not_mem_nil

end Observing

/-! ### One unfolding -/

namespace Registry

variable {registry later : Registry} {detectDates : Bool} {sample other : Json} {id id' : ShapeId}

/-- What mirrors the elements of an array matches what mirrors them in another order, if each of
them unfolds to the same. -/
theorem matches_of_reordered {elements between others : List Json} {ids ids' : List ShapeId}
    (inside : List.Forall₂ Json.Reordered elements between) (moved : between.Perm others)
    (each : List.Forall₂ (registry.Mirrors detectDates) elements ids)
    (each' : List.Forall₂ (later.Mirrors detectDates) others ids')
    (parts : ∀ element ∈ elements, ∀ {other id id'}, element.Reordered other →
      registry.Mirrors detectDates element id → later.Mirrors detectDates other id' →
        registry.unfolding id = later.unfolding id') : registry.Matches later ids ids' where
  forth id member := by
    obtain ⟨element, listed, mirrors⟩ := Lists.exists_mem_of_forall₂_right each member
    obtain ⟨element', listed', same⟩ := Json.Reordered.exists_element inside moved listed
    obtain ⟨id', member', mirrors'⟩ := Lists.exists_mem_of_forall₂ each' listed'
    exact ⟨id', member', parts element listed same mirrors mirrors'⟩
  back id' member := by
    obtain ⟨element', listed', mirrors'⟩ := Lists.exists_mem_of_forall₂_right each' member
    obtain ⟨element, listed, same⟩ := Json.Reordered.exists_element_back inside moved listed'
    obtain ⟨id, member, mirrors⟩ := Lists.exists_mem_of_forall₂ each listed
    exact ⟨id, member, parts element listed same mirrors mirrors'⟩

theorem Mirrors.unfolding_eq_of_scalar (notArray : ∀ elements, sample ≠ .array elements)
    (notObject : ∀ members, sample ≠ .object members)
    (mirrors : registry.Mirrors detectDates sample id)
    (mirrors' : later.Mirrors detectDates sample id') :
    registry.unfolding id = later.unfolding id' := by
  cases mirrors with
  | list => exact absurd rfl (notArray _)
  | object => exact absurd rfl (notObject _)
  | scalar =>
    cases mirrors' with
    | list => exact absurd rfl (notArray _)
    | object => exact absurd rfl (notObject _)
    | scalar => exact unfolding_eq_of_shape?_eq_none (shape?_scalarId _) (shape?_scalarId _)

/-- What mirrors an object has its keys, and requires what is under them. -/
theorem Mirrors.exists_fields {members : List (String × Json)}
    (mirrors : registry.Mirrors detectDates (.object members) id) :
    ∃ fields, registry.fields? id = some fields ∧
      (∀ raw, raw ∈ fields.keys ↔ raw ∈ members.map Prod.fst) ∧
      ∀ raw value field, (raw, value) ∈ members → fields.get? raw = some field →
        field.optional = false ∧ registry.Mirrors detectDates value field.shape := by
  cases mirrors with
  | scalar _ notObject => exact absurd rfl (notObject members)
  | object found keys required each =>
    exact ⟨_, found, keys, fun raw value field listed under =>
      ⟨required raw field under, each raw value field listed under⟩⟩

/-- What mirrors an array is the list of a join of what mirrors its elements. -/
theorem Mirrors.exists_element {elements : List Json}
    (mirrors : registry.Mirrors detectDates (.array elements) id) :
    ∃ ids element, List.Forall₂ (registry.Mirrors detectDates) elements ids ∧
      registry.Joins ids element ∧ registry.elements? id = some (.singleton element) := by
  cases mirrors with
  | scalar notArray => exact absurd rfl (notArray elements)
  | list each joins found => exact ⟨_, _, each, joins, found⟩

/-- **What mirrors a value unfolds to the same in any registry,** and so does what mirrors it in
another order. -/
theorem Mirrors.unfolding_eq (sound : registry.Sound) (soundLater : later.Sound)
    (reordered : sample.Reordered other) (mirrors : registry.Mirrors detectDates sample id)
    (mirrors' : later.Mirrors detectDates other id') :
    registry.unfolding id = later.unfolding id' := by
  induction sample using Json.induct generalizing other id id' with
  | step sample parts =>
    cases reordered with
    | scalar notArray notObject => exact mirrors.unfolding_eq_of_scalar notArray notObject mirrors'
    | array inside moved =>
      obtain ⟨ids, element, each, joins, found⟩ := mirrors.exists_element
      obtain ⟨ids', element', each', joins', found'⟩ := mirrors'.exists_element
      have elements := matches_of_reordered inside moved each each' parts
      have joined := joins.unfolding_eq sound soundLater joins' elements
      refine (unfolding_eq_iff_of_lists sound soundLater found found').mpr ?_
      exact Matches.toList_iff.mp (Matches.singletons_iff.mpr joined)
    | object inside moved =>
      obtain ⟨fields, found, keys, each⟩ := mirrors.exists_fields
      obtain ⟨fields', found', keys', each'⟩ := mirrors'.exists_fields
      refine (unfolding_eq_iff_of_objects sound soundLater found found').mpr fun raw => ?_
      have listing : raw ∈ fields.keys ↔ raw ∈ fields'.keys := by
        rw [keys, keys', (Json.Reordered.keys_perm inside moved).mem_iff]
      unfold entriesAt
      by_cases key : raw ∈ fields.keys
      · obtain ⟨field, under⟩ := Table.exists_get?_of_mem_keys key
        obtain ⟨field', under'⟩ := Table.exists_get?_of_mem_keys (listing.mp key)
        obtain ⟨⟨_, value⟩, listed, rfl⟩ := List.mem_map.mp ((keys raw).mp key)
        obtain ⟨⟨_, value'⟩, listed', ⟨same⟩⟩ := Json.Reordered.exists_member inside moved listed
        obtain ⟨required, mirrors⟩ := each _ value field listed under
        obtain ⟨required', mirrors'⟩ := each' _ value' field' listed' under'
        have inside := parts value (Json.parts_inside listed) same mirrors mirrors'
        rw [under, under', Option.map_some, Option.map_some, required, required', inside]
      · have missing := Table.get?_eq_none_of_not_mem_keys key
        have missing' := Table.get?_eq_none_of_not_mem_keys (mt listing.mpr key)
        rw [missing, missing', Option.map_none, Option.map_none]

end Registry

end SampleShapes
