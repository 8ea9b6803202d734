/-
**What observing leaves behind.**

An observation keeps the registry sound and makes it only grow, whether it fails or not, and lists
stay bound to lists. If it succeeds, the value conforms to the shape that comes back.

* `Yields.bind`: steps that follow each other;
* `bindList_yields`: an empty array may take over the list that its target is bound to;
* `value_yields`: **what observing a value leaves behind**;
* `Observer.observe_sound`, `Observer.observe_sees`: the same of a whole observation.
-/

import SampleShapes.Proofs.Registry.Conformance
import SampleShapes.Proofs.Registry.Merging

namespace SampleShapes

/-- The registry is sound, and references are bound to lists. -/
structure Observer.Sound (observer : Observer) : Prop where
  registry : observer.registry.Sound
  bound : ∀ target id, observer.bindings.get? target = some id →
    (observer.registry.elements? id).isSome

theorem Observer.sound_empty : (∅ : Observer).Sound where
  registry := Registry.sound_empty
  bound target id found := by
    have none : (∅ : Observer).bindings.get? target = none := rfl
    rw [none] at found
    simp at found

namespace Observer.Sound

variable {observer : Observer} {registry : Registry}

/-- A target is bound to a shape that is kept. -/
theorem holds_bound (sound : observer.Sound) {target : String} {id : ShapeId}
    (found : observer.bindings.get? target = some id) : observer.registry.Holds id := by
  obtain ⟨elements, list⟩ := Option.isSome_iff_exists.mp (sound.bound target id found)
  exact Registry.holds_of_shape? (Registry.elements?_eq_some_iff.mp list)

/-- An observer stays sound while its registry grows. -/
theorem grow (sound : observer.Sound) (sound' : registry.Sound)
    (grows : observer.registry.Grows registry) : ({ observer with registry } : Observer).Sound :=
  ⟨sound', fun target id found => grows.within.isSome_elements? (sound.bound target id found)⟩

/-- An observer stays sound when it binds a target to a list. -/
theorem bind (sound : observer.Sound) {target : String} {id : ShapeId}
    (list : (observer.registry.elements? id).isSome) :
    ({ observer with bindings := observer.bindings.putNew target id } : Observer).Sound where
  registry := sound.registry
  bound other bound found := by
    rcases Table.of_get?_putNew found with old | ⟨_, rfl⟩
    · exact sound.bound other bound old
    · exact list

end Observer.Sound

/-! ### What is seen in a value -/

namespace Registry

/-- The shape of a sample: an object, or a list of objects of one shape. -/
def IsRoot (registry : Registry) (id : ShapeId) : Prop :=
  (registry.fields? id).isSome ∨
    ∃ element, registry.elements? id = some (.singleton element) ∧
      (registry.fields? element).isSome

/-- What the shape of an observed value is to the value. -/
structure Sees (registry : Registry) (sample : Json) (id : ShapeId) : Prop where
  /-- The shape is kept. -/
  holds : registry.Holds id
  /-- The value conforms to it. -/
  fits : sample.KeysDistinct → registry.Fits sample id
  /-- That of an array is a list. -/
  list : ∀ elements, sample = .array elements → (registry.elements? id).isSome
  /-- That of an object is an object. -/
  object : ∀ members, sample = .object members → (registry.fields? id).isSome
  /-- That of a sample is one of a sample. -/
  root : refusedRoot? sample = none → registry.IsRoot id

variable {registry later : Registry} {sample : Json} {id : ShapeId}

theorem IsRoot.within (within : registry.Within later) (root : registry.IsRoot id) :
    later.IsRoot id := by
  rcases root with object | ⟨element, list, object⟩
  · exact .inl (within.isSome_fields? object)
  · exact .inr ⟨element, within.elements? list, within.isSome_fields? object⟩

theorem IsRoot.holds (root : registry.IsRoot id) : registry.Holds id := by
  rcases root with object | ⟨element, list, _⟩
  · exact holds_of_fields? object
  · exact holds_of_shape? (elements?_eq_some_iff.mp list)

theorem Sees.grow (sees : registry.Sees sample id) (grows : registry.Grows later) :
    later.Sees sample id where
  holds := grows.holds sees.holds
  fits distinct := (sees.fits distinct).within grows.within
  list elements same := grows.within.isSome_elements? (sees.list elements same)
  object members same := grows.within.isSome_fields? (sees.object members same)
  root accepted := (sees.root accepted).within grows.within

/-- **What is seen in a value says something.** -/
theorem Sees.ne_any (sees : registry.Sees sample id) : id ≠ .any := by
  rintro rfl
  -- No scalar conforms to what says nothing, and it is neither a list nor an object.
  have known : sample.KeysDistinct → False := fun distinct =>
    (conforms_primitive_iff.mp (sees.fits distinct)).2 rfl
  cases sample with
  | null => exact known rfl
  | bool value => exact known rfl
  | number literal => exact known rfl
  | string text => exact known rfl
  | array elements => cases sees.list elements rfl
  | object members => cases sees.object members rfl

/-- What a field says of the member that it was seen in. -/
structure SeesMember (registry : Registry) (member : String × Json) (entry : String × Field) :
    Prop where
  /-- It has the same raw key. -/
  raw : entry.1 = member.1
  /-- Its key is read from it. -/
  key : entry.2.key = Key.parse entry.1
  /-- No object goes without it so far. -/
  required : entry.2.optional = false
  /-- Its shape is that of the member. -/
  sees : registry.Sees member.2 entry.2.shape

theorem SeesMember.grow {member : String × Json} {entry : String × Field}
    (sees : registry.SeesMember member entry) (grows : registry.Grows later) :
    later.SeesMember member entry :=
  { sees with sees := sees.sees.grow grows }

/-- **An empty array conforms to every list.** -/
theorem sees_nil (found : (registry.elements? id).isSome) : registry.Sees (.array []) id := by
  obtain ⟨elements, list⟩ := Option.isSome_iff_exists.mp found
  refine ⟨holds_of_shape? (elements?_eq_some_iff.mp list), fun _ => ?_, fun _ _ => found, ?_, ?_⟩
  · exact (conforms_list_iff list).mpr ⟨[], rfl, by simp⟩
  · intro members same
    cases same
  · intro accepted
    cases accepted

theorem shape?_scalarId {detectDates : Bool} (registry : Registry) :
    registry.shape? (sample.scalarId detectDates) = none := by
  unfold Json.scalarId
  split <;> rfl

theorem sees_scalar {detectDates : Bool} (notArray : ∀ elements, sample ≠ .array elements)
    (notObject : ∀ members, sample ≠ .object members) :
    registry.Sees sample (sample.scalarId detectDates) := by
  refine ⟨?_, fun _ => ?_, fun elements same => absurd same (notArray elements),
    fun members same => absurd same (notObject members), fun accepted => ?_⟩
  · unfold Json.scalarId
    split <;> trivial
  · unfold Json.scalarId
    split
    · next dated =>
      cases sample with
      | string text =>
        simp only [Json.group] at dated
        split at dated
        · next looks => exact .date (Bool.and_eq_true_iff.mp looks).2
        · simp at dated
      | array elements => exact absurd rfl (notArray elements)
      | object members => exact absurd rfl (notObject members)
      | null => simp [Json.group] at dated
      | bool value => simp [Json.group] at dated
      | number literal => simp [Json.group] at dated
    · refine .kind rfl ?_
      cases sample with
      | array elements => exact absurd rfl (notArray elements)
      | object members => exact absurd rfl (notObject members)
      | null => exact Primitive.noConfusion
      | bool value => exact Primitive.noConfusion
      | number literal => exact Primitive.noConfusion
      | string text => exact Primitive.noConfusion
  · cases sample with
    | array elements => exact absurd rfl (notArray elements)
    | object members => exact absurd rfl (notObject members)
    | null => cases accepted
    | bool value => cases accepted
    | number literal => cases accepted
    | string text => cases accepted

/-- An array that is a sample has elements, and they are objects. -/
theorem of_refusedRoot?_array {elements : List Json}
    (accepted : refusedRoot? (.array elements) = none) :
    elements ≠ [] ∧ ∀ element ∈ elements, ∃ members, element = .object members := by
  cases elements with
  | nil => cases accepted
  | cons first rest =>
    refine ⟨List.cons_ne_nil first rest, fun element listed => ?_⟩
    change (if (first :: rest).all Json.isObject then none else some RefusedRoot.mixedArray) =
      none at accepted
    split at accepted
    · next all =>
      have object := List.all_eq_true.mp all element listed
      cases element with
      | object members => exact ⟨members, rfl⟩
      | null => cases object
      | bool value => cases object
      | number literal => cases object
      | string text => cases object
      | array elements => cases object
    · cases accepted

theorem holds_of_sees {samples : List Json} {ids : List ShapeId}
    (seen : List.Forall₂ registry.Sees samples ids) : ∀ id ∈ ids, registry.Holds id := by
  intro id member
  obtain ⟨sample, _, sees⟩ := Lists.exists_mem_of_forall₂_right seen member
  exact sees.holds

/-- The list over the join of the elements is seen in an array. -/
theorem sees_list {elements : List Json} {ids : List ShapeId} {element : ShapeId}
    (seen : List.Forall₂ registry.Sees elements ids) (joins : registry.Joins ids element)
    (list : registry.elements? id = some (.singleton element)) :
    registry.Sees (.array elements) id := by
  refine ⟨holds_of_shape? (elements?_eq_some_iff.mp list), fun distinct => ?_, fun _ _ => ?_, ?_,
    fun accepted => .inr ⟨element, list, ?_⟩⟩
  · rw [Json.keysDistinct_array] at distinct
    refine (conforms_list_iff list).mpr ⟨elements, rfl, fun value listed => ?_⟩
    obtain ⟨own, member, sees⟩ := Lists.exists_mem_of_forall₂ seen listed
    have fits := sees.fits (distinct value listed)
    exact ⟨element, List.mem_singleton_self _, joins.fits member fits⟩
  · exact Option.isSome_of_eq_some list
  · intro members same
    cases same
  · obtain ⟨notEmpty, objects⟩ := of_refusedRoot?_array accepted
    refine joins.object ?_ fun id member => ?_
    · rintro rfl
      exact notEmpty (List.forall₂_nil_right_iff.mp seen)
    · obtain ⟨value, listed, sees⟩ := Lists.exists_mem_of_forall₂_right seen member
      obtain ⟨members, same⟩ := objects value listed
      exact sees.object members same

theorem keys_of_seesMember {members : List (String × Json)} {entries : List (String × Field)}
    (seen : List.Forall₂ registry.SeesMember members entries) :
    entries.map Prod.fst = members.map Prod.fst := by
  induction seen with
  | nil => rfl
  | cons first _ step => rw [List.map_cons, List.map_cons, step, first.raw]

/-- What an object over listed fields points at are their shapes. -/
theorem exists_field_of_mem_children {entries : List (String × Field)} {child : ShapeId}
    (member : child ∈ (Shape.object (.ofList entries)).children) :
    ∃ entry ∈ entries, entry.2.shape = child := by
  obtain ⟨field, listed, same⟩ := List.mem_map.mp member
  obtain ⟨raw, found⟩ := Table.mem_values_iff.mp listed
  exact ⟨(raw, field), Table.mem_of_get?_ofList found, same⟩

/-- An object over fields of kept shapes may be interned if their keys are read from raw keys. -/
theorem carries_ofList {entries : List (String × Field)}
    (all : ∀ entry ∈ entries, entry.2.key = Key.parse entry.1 ∧ registry.Holds entry.2.shape) :
    registry.Carries (.object (.ofList entries)) where
  holds child member := by
    obtain ⟨entry, listed, rfl⟩ := exists_field_of_mem_children member
    exact (all entry listed).2
  keyed fields object raw field found := by
    obtain rfl := Shape.object.inj object
    exact (all _ (Table.mem_of_get?_ofList found)).1

theorem carries_object {members : List (String × Json)} {entries : List (String × Field)}
    (seen : List.Forall₂ registry.SeesMember members entries) :
    registry.Carries (.object (.ofList entries)) := by
  refine carries_ofList fun entry listed => ?_
  obtain ⟨_, _, own⟩ := Lists.exists_mem_of_forall₂_right seen listed
  exact ⟨own.key, own.sees.holds⟩

/-- The shapes of the members of an observed object say something. -/
theorem ne_any_of_mem_children {members : List (String × Json)} {entries : List (String × Field)}
    (seen : List.Forall₂ registry.SeesMember members entries) :
    ∀ child ∈ (Shape.object (.ofList entries)).children, child ≠ .any := by
  intro child member
  obtain ⟨entry, listed, rfl⟩ := exists_field_of_mem_children member
  obtain ⟨_, _, own⟩ := Lists.exists_mem_of_forall₂_right seen listed
  exact own.sees.ne_any

/-- The object over the fields of the members is seen in an object. -/
theorem sees_object {members : List (String × Json)} {entries : List (String × Field)}
    {fields : Table String Field} (seen : List.Forall₂ registry.SeesMember members entries)
    (object : registry.fields? id = some fields)
    (same : ∀ raw, fields.get? raw = (Table.ofList entries).get? raw) :
    registry.Sees (.object members) id := by
  have isObject : (registry.fields? id).isSome := Option.isSome_of_eq_some object
  refine ⟨holds_of_shape? (fields?_eq_some_iff.mp object), fun distinct => ?_, by simp,
    fun _ _ => isObject, fun _ => .inl isObject⟩
  obtain ⟨once, distinct⟩ := Json.keysDistinct_object.mp distinct
  have keys := keys_of_seesMember seen
  refine .object isObject object (fun member listed => ?_)
    (fun raw field found _ => ?_) fun member listed field found => ?_
  · rw [same, Table.isSome_get?_iff, Table.mem_keys_ofList, keys]
    exact List.mem_map_of_mem listed
  · rw [same] at found
    rw [← keys]
    exact Table.mem_keys_ofList.mp (Table.mem_keys_of_get? found)
  · rw [same] at found
    obtain ⟨other, inside, own⟩ :=
      Lists.exists_mem_of_forall₂_right seen (Table.mem_of_get?_ofList found)
    have here : other = member := List.inj_on_of_nodup_map once inside listed own.raw.symm
    rw [← here]
    exact own.sees.fits (distinct other inside)

end Registry

/-! ### Steps of an observation -/

namespace Observing

open Registry

variable {α β : Type} {observer : Observer}

/-- From `observer` the step leaves a sound observer whose registry has only grown, even if it
fails; and what it comes back with, if it does not fail, is `good` there. -/
structure Yields (observer : Observer) (step : Observing α) (good : Registry → α → Prop) :
    Prop where
  sound : (step.run.run observer).2.Sound
  grows : observer.registry.Grows (step.run.run observer).2.registry
  good : ∀ result, (step.run.run observer).1 = .ok result →
    good (step.run.run observer).2.registry result

theorem yields_pure {good : Registry → α → Prop} {result : α} (sound : observer.Sound)
    (isGood : good observer.registry result) : Yields observer (pure result) good where
  sound := sound
  grows := .refl _
  good other same := by
    obtain rfl := Except.ok.inj same
    exact isGood

theorem yields_throw {good : Registry → α → Prop} {failure : Failure} (sound : observer.Sound) :
    Yields observer (throw failure : Observing α) good where
  sound := sound
  grows := .refl _
  good other same := by cases same

theorem run_bind (first : Observing α) (next : α → Observing β) (observer : Observer) :
    (first >>= next).run.run observer =
      match first.run.run observer with
      | (.ok result, later) => (next result).run.run later
      | (.error failure, later) => (.error failure, later) := by
  rw [ExceptT.run_bind, StateT.run_bind]
  show (let (ran, later) := first.run.run observer; _) = _
  rcases first.run.run observer with ⟨failure | result, later⟩ <;> rfl

/-- **Steps that follow each other.** -/
theorem Yields.bind {first : Observing α} {next : α → Observing β} {good : Registry → α → Prop}
    {best : Registry → β → Prop} (yields : Yields observer first good)
    (onward : ∀ result later, later.Sound → observer.registry.Grows later.registry →
      good later.registry result → Yields later (next result) best) :
    Yields observer (first >>= next) best := by
  obtain ⟨sound, grows, isGood⟩ := yields
  have run := run_bind first next observer
  rcases ran : first.run.run observer with ⟨failure | result, later⟩
  · rw [ran] at run sound grows
    dsimp only at run sound grows
    refine ⟨by rw [run]; exact sound, by rw [run]; exact grows, fun result same => ?_⟩
    rw [run] at same
    cases same
  · rw [ran] at run sound grows isGood
    dsimp only at run sound grows
    obtain ⟨soundLast, growsLast, isBest⟩ := onward result later sound grows (isGood result rfl)
    refine ⟨by rw [run]; exact soundLast, by rw [run]; exact grows.trans growsLast, ?_⟩
    rw [run]
    exact isBest

/-- Nothing follows a check that fails. -/
theorem yields_check {exceeded : Prop} [Decidable exceeded] {failure : Failure}
    {next : Unit → Observing α} {good : Registry → α → Prop} (sound : observer.Sound)
    (yields : Yields observer (next ()) good) :
    Yields observer (if exceeded then throw failure >>= next else next ()) good := by
  split
  · have throws : Yields observer (throw failure : Observing Unit) fun _ _ => False :=
      yields_throw sound
    exact throws.bind fun _ _ _ _ never => never.elim
  · exact yields

theorem yields_get {next : Observer → Observing α} {good : Registry → α → Prop}
    (yields : Yields observer (next observer) good) : Yields observer (get >>= next) good :=
  ⟨yields.sound, yields.grows, yields.good⟩

/-- A step that works on the registry alone. -/
theorem yields_safe {good : Registry → ShapeId → Prop} {result : ShapeId × Registry}
    (sound : observer.Sound) (safe : observer.registry.Safe result)
    (isGood : good result.2 result.1) {step : Observing ShapeId}
    (run : step.run.run observer = (.ok result.1, { observer with registry := result.2 })) :
    Yields observer step good where
  sound := by
    rw [run]
    exact sound.grow safe.sound safe.grows
  grows := by
    rw [run]
    exact safe.grows
  good other same := by
    rw [run] at same ⊢
    obtain rfl := Except.ok.inj same
    exact isGood

theorem intern_yields {shape : Shape} {good : Registry → ShapeId → Prop} (sound : observer.Sound)
    (carries : observer.registry.Carries shape)
    (isGood : good (observer.registry.intern shape).2 (observer.registry.intern shape).1) :
    Yields observer (intern shape) good :=
  yields_safe sound (safe_intern sound.registry carries) isGood rfl

/-- What merging comes back with is the join of the candidates. -/
theorem merge_yields {candidates : List ShapeId} (sound : observer.Sound)
    (held : ∀ candidate ∈ candidates, observer.registry.Holds candidate) :
    Yields observer (merge candidates) fun registry joined =>
      registry.Holds joined ∧ registry.Joins candidates joined :=
  have merged := merge_merged sound.registry held
  yields_safe sound merged.toSafe ⟨merged.holds, merged.joins⟩ rfl

/-- **An empty array may take over the list that its target is bound to,** and any other array
binds a target to its own. -/
theorem bindList_yields {target : Option String} {sample : Json} {observe : Observing ShapeId}
    (sound : observer.Sound)
    (yields : Yields observer observe fun registry => registry.Sees sample) :
    Yields observer (bindList target sample observe) fun registry => registry.Sees sample := by
  unfold bindList
  split
  · next target =>
    refine yields_get ?_
    split
    · next bound found => exact yields_pure sound (sees_nil (sound.bound target bound found))
    · exact yields
  · next target first rest =>
    refine yields.bind fun id later sound grows sees => ?_
    exact ⟨sound.bind (sees.list _ rfl), .refl _, fun result same => by
      obtain rfl := Except.ok.inj same
      exact sees⟩
  · exact yields

/-! ### Values -/

/-- What holds of a value and its shape goes on to hold while the registry grows. -/
def Lasts (good : Registry → Json → ShapeId → Prop) : Prop :=
  ∀ registry later sample id, registry.Sound → registry.Grows later → good registry sample id →
    good later sample id

theorem elements_yields {options : Options} {depth : Nat} {good : Registry → Json → ShapeId → Prop}
    (lasts : Lasts good) (elements : List Json)
    (each : ∀ element ∈ elements, ∀ observer : Observer, observer.Sound →
      Yields observer (value options depth element) fun registry => good registry element)
    (sound : observer.Sound) :
    Yields observer (Observing.elements options depth elements) fun registry =>
      List.Forall₂ (good registry) elements := by
  induction elements generalizing observer with
  | nil => exact yields_pure sound .nil
  | cons element rest step =>
    rw [List.forall_mem_cons] at each
    rw [Observing.elements]
    refine (each.1 observer sound).bind fun id later sound grows first => ?_
    refine (step each.2 sound).bind fun ids last soundLast grows others => ?_
    exact yields_pure soundLast (.cons (lasts _ _ _ _ sound.registry grows first) others)

/-- What a field is made of: the raw key of a member, read, and a shape that is good for its
value. -/
structure ReadsMember (good : Json → ShapeId → Prop) (member : String × Json)
    (entry : String × Field) : Prop where
  /-- It has the same raw key. -/
  raw : entry.1 = member.1
  /-- Its key is read from it. -/
  key : entry.2.key = Key.parse entry.1
  /-- No object goes without it so far. -/
  required : entry.2.optional = false
  /-- Its shape is good for the value. -/
  good : good member.2 entry.2.shape

theorem members_yields {options : Options} {depth : Nat} {good : Registry → Json → ShapeId → Prop}
    (lasts : Lasts good) (members : List (String × Json))
    (each : ∀ member ∈ members, ∀ observer : Observer, observer.Sound →
      Yields observer
        (bindList (Key.parse member.1).target? member.2 (value options depth member.2))
        fun registry => good registry member.2)
    (sound : observer.Sound) :
    Yields observer (Observing.members options depth members) fun registry =>
      List.Forall₂ (ReadsMember (good registry)) members := by
  induction members generalizing observer with
  | nil => exact yields_pure sound .nil
  | cons member rest step =>
    obtain ⟨raw, sample⟩ := member
    rw [List.forall_mem_cons] at each
    rw [Observing.members]
    refine (each.1 observer sound).bind fun id later sound grows first => ?_
    refine (step each.2 sound).bind fun fields last soundLast grows others => ?_
    exact yields_pure soundLast
      (.cons ⟨rfl, rfl, rfl, lasts _ _ _ _ sound.registry grows first⟩ others)

theorem sees_lasts : Lasts Registry.Sees := fun _ _ _ _ _ grows sees => sees.grow grows

theorem ReadsMember.sees {registry : Registry} {member : String × Json} {entry : String × Field}
    (reads : ReadsMember registry.Sees member entry) : registry.SeesMember member entry :=
  ⟨reads.raw, reads.key, reads.required, reads.good⟩

/-- **What observing a value leaves behind.** -/
theorem value_yields (options : Options) (depth : Nat) (sample : Json) (sound : observer.Sound) :
    Yields observer (value options depth sample) fun registry => registry.Sees sample := by
  induction sample using Json.induct generalizing depth observer with
  | step sample parts =>
    unfold value
    split
    · next elements =>
      refine yields_check sound ?_
      refine (elements_yields sees_lasts elements (fun element listed observer =>
        parts element listed (depth + 1)) sound).bind fun ids later sound _ seen => ?_
      refine (merge_yields sound (holds_of_sees seen)).bind
        fun element last sound grows ⟨holds, joins⟩ => ?_
      -- What is seen in the elements stays seen while the registry grows.
      have seen : List.Forall₂ last.registry.Sees elements ids :=
        seen.imp fun _ _ sees => sees.grow grows
      refine intern_yields sound (carries_list holds) ?_
      have grows := grows_intern (.list (.singleton element)) last.registry
      exact sees_list (seen.imp fun _ _ sees => sees.grow grows)
        (joins.grow sound.registry grows (holds_of_sees seen)) (sound.registry.elements?_intern _)
    · next members =>
      refine yields_check sound ?_
      refine (members_yields sees_lasts members (fun member listed observer sound =>
        bindList_yields sound (parts member.2 (Json.parts_inside listed) (depth + 1) sound))
          sound).bind fun entries later sound _ reads => ?_
      have seen := reads.imp fun _ _ reads => reads.sees
      refine intern_yields sound (carries_object seen) ?_
      have grows := grows_intern (.object (.ofList entries)) later.registry
      obtain ⟨fields, found, same⟩ := sound.registry.fields?_intern (carries_object seen)
      exact sees_object (seen.imp fun _ _ sees => sees.grow grows) found same
    · next notArray notObject =>
      exact yields_check sound (yields_pure sound (sees_scalar notArray notObject))

end Observing

/-! ### Observations -/

namespace Observer

variable {options : Options} {sample : Json} {observer : Observer}

/-- **An observation leaves a sound observer behind,** even if it fails. -/
theorem observe_sound (sound : observer.Sound) (options : Options) (sample : Json) :
    (observer.observe options sample).2.Sound :=
  (Observing.value_yields options 0 sample sound).sound

/-- **An observation that succeeds sees the value.** -/
theorem observe_sees (sound : observer.Sound) {id : ShapeId}
    (observed : (observer.observe options sample).1 = .ok id) :
    (observer.observe options sample).2.registry.Sees sample id :=
  (Observing.value_yields options 0 sample sound).good id observed

end Observer

end SampleShapes
