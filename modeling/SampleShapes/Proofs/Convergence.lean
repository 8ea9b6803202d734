/-
**When rounds come to rest.**

Rounds follow each other while they change a merge, and are broken off after the sixteenth. That
they came to rest until then is asked wherever what is bound on reading has to be collected. They do
if references are not nested: no key says more than a name inside of what stands under one that
does. Then merges bind nothing, and the second round collects what the first did.

Inside of a reference another one may be bound to what only a merge has made, so that it is
collected a round later, and its own merge may change what a third one binds. References that are
nested deeply enough need more rounds than are run.

* `value_seesUnnested`: **no reference is nested in the shape of a value if none is in the value**;
* `rests_iff`: **rounds come to rest exactly if one that is run changes no merge**;
* `rests_of_unnested`: **they do if references are not nested**;
* `exists_merge_in_second_round`: otherwise one may take a round more.
-/

import SampleShapes.Proofs.Binding
import SampleShapes.Proofs.Registry.Resting

namespace SampleShapes

/-! ### What is seen of references -/

namespace Registry

/-- What is seen in a value nests no references, and names no target if the value does not. -/
structure SeesUnnested (registry : Registry) (sample : Json) (id : ShapeId) : Prop where
  /-- It is the shape of the value. -/
  sees : registry.Sees sample id
  /-- It nests no references. -/
  unnested : registry.IsUnnested id
  /-- It names no target if the value does not. -/
  plain : sample.Unmarked → registry.IsPlain id

variable {registry later : Registry} {sample : Json} {id : ShapeId}

theorem SeesUnnested.grow (own : registry.SeesUnnested sample id) (sound : registry.Sound)
    (grows : registry.Grows later) : later.SeesUnnested sample id where
  sees := own.sees.grow grows
  unnested := own.unnested.grow sound grows.within own.sees.holds
  plain unmarked := (own.plain unmarked).grow sound grows.within own.sees.holds

theorem seesUnnested_of_isPlain (sees : registry.Sees sample id) (plain : registry.IsPlain id) :
    registry.SeesUnnested sample id :=
  ⟨sees, plain.isUnnested, fun _ => plain⟩

/-- The list over the join of the elements is seen in an array. -/
theorem seesUnnested_list {elements : List Json} {ids : List ShapeId} {element : ShapeId}
    (seen : List.Forall₂ registry.SeesUnnested elements ids) (joins : registry.Joins ids element)
    (list : registry.elements? id = some (.singleton element)) :
    registry.SeesUnnested (.array elements) id where
  sees := sees_list (seen.imp fun _ _ own => own.sees) joins list
  unnested := by
    refine everyField_of_singleton list (joins.isUnnested fun candidate inside => ?_)
    obtain ⟨_, _, own⟩ := Lists.exists_mem_of_forall₂_right seen inside
    exact own.unnested
  plain unmarked := by
    refine everyField_of_singleton list (joins.isPlain fun candidate inside => ?_)
    obtain ⟨value, listed, own⟩ := Lists.exists_mem_of_forall₂_right seen inside
    exact own.plain (Json.unmarked_array.mp unmarked value listed)

/-- The object over the fields of the members is seen in an object. -/
theorem seesUnnested_object {members : List (String × Json)} {entries : List (String × Field)}
    {fields : Table String Field} (unnested : (Json.object members).Unnested)
    (reads : List.Forall₂ (Observing.ReadsMember registry.SeesUnnested) members entries)
    (object : registry.fields? id = some fields)
    (same : ∀ raw, fields.get? raw = (Table.ofList entries).get? raw) :
    registry.SeesUnnested (.object members) id := by
  have source : ∀ raw field, fields.get? raw = some field →
      ∃ member ∈ members, raw = member.1 ∧ registry.SeesUnnested member.2 field.shape := by
    intro raw field under
    rw [same] at under
    obtain ⟨member, inside, own⟩ :=
      Lists.exists_mem_of_forall₂_right reads (Table.mem_of_get?_ofList under)
    exact ⟨member, inside, own.raw, own.good⟩
  refine ⟨?_, ?_, fun unmarked => ?_⟩
  · refine sees_object (reads.imp fun _ _ own => ?_) object same
    exact ⟨own.raw, own.key, own.required, own.good.sees⟩
  · refine (everyField_iff_of_fields? object).mpr fun raw field under => ?_
    obtain ⟨member, inside, rfl, own⟩ := source raw field under
    have either := (Json.unnested_object.mp unnested member inside).1
    exact ⟨either.imp_right own.plain, own.unnested⟩
  · refine (everyField_iff_of_fields? object).mpr fun raw field under => ?_
    obtain ⟨member, inside, rfl, own⟩ := source raw field under
    have unmarked := Json.unmarked_object.mp unmarked member inside
    exact ⟨unmarked.1, own.plain unmarked.2⟩

end Registry

/-! ### Steps of an observation -/

/-- Targets are bound to lists that name no target. -/
def Observer.BindsPlain (observer : Observer) : Prop :=
  ∀ target id, observer.bindings.get? target = some id → observer.registry.IsPlain id

theorem Observer.bindsPlain_empty : (∅ : Observer).BindsPlain := fun target id found => by
  have none : (∅ : Observer).bindings.get? target = none := rfl
  rw [none] at found
  cases found

namespace Observing

open Registry

variable {α β : Type} {observer : Observer} {options : Options}

/-- The step yields what is good, and targets stay bound to lists that name none. An empty array has
the shape that its target is bound to, so that the second part is needed for the first. -/
structure KeepsPlain (observer : Observer) (step : Observing α) (good : Registry → α → Prop) : Prop
    extends Yields observer step good where
  binds : (step.run.run observer).2.BindsPlain

/-- A step that binds no target keeps what is bound. -/
theorem Yields.keepsPlain {step : Observing α} {good : Registry → α → Prop}
    (yields : Yields observer step good) (sound : observer.Sound) (binds : observer.BindsPlain)
    (same : (step.run.run observer).2.bindings = observer.bindings) :
    KeepsPlain observer step good where
  toYields := yields
  binds target id found := by
    rw [same] at found
    exact (binds target id found).grow sound.registry yields.grows.within
      (sound.holds_bound found)

/-- **Steps that follow each other.** -/
theorem KeepsPlain.bind {first : Observing α} {next : α → Observing β} {good : Registry → α → Prop}
    {best : Registry → β → Prop} (keeps : KeepsPlain observer first good)
    (onward : ∀ result later, later.Sound → later.BindsPlain →
      observer.registry.Grows later.registry → good later.registry result →
        KeepsPlain later (next result) best) :
    KeepsPlain observer (first >>= next) best := by
  obtain ⟨⟨sound, grows, isGood⟩, binds⟩ := keeps
  have run := run_bind first next observer
  rcases ran : first.run.run observer with ⟨failure | result, later⟩
  · rw [ran] at run sound grows binds
    refine ⟨⟨by rw [run]; exact sound, by rw [run]; exact grows, fun result same => ?_⟩, ?_⟩
    · rw [run] at same
      cases same
    · rw [run]
      exact binds
  · rw [ran] at run sound grows isGood binds
    obtain ⟨⟨soundLast, growsLast, isBest⟩, bindsLast⟩ :=
      onward result later sound binds grows (isGood result rfl)
    refine ⟨⟨by rw [run]; exact soundLast, by rw [run]; exact grows.trans growsLast, ?_⟩, ?_⟩
    · rw [run]
      exact isBest
    · rw [run]
      exact bindsLast

/-- Nothing follows a check that fails. -/
theorem keepsPlain_check {exceeded : Prop} [Decidable exceeded] {failure : Failure}
    {next : Unit → Observing α} {good : Registry → α → Prop} (sound : observer.Sound)
    (binds : observer.BindsPlain) (keeps : KeepsPlain observer (next ()) good) :
    KeepsPlain observer (if exceeded then throw failure >>= next else next ()) good where
  toYields := yields_check sound keeps.toYields
  binds := by
    split
    · exact binds
    · exact keeps.binds

theorem keepsPlain_get {next : Observer → Observing α} {good : Registry → α → Prop}
    (keeps : KeepsPlain observer (next observer) good) : KeepsPlain observer (get >>= next) good :=
  ⟨yields_get keeps.toYields, keeps.binds⟩

/-- **A target is bound to a list that names none,** and so is what an empty array takes over. -/
theorem bindList_keepsPlain {target : Option String} {sample : Json} {observe : Observing ShapeId}
    (sound : observer.Sound) (binds : observer.BindsPlain)
    (unmarked : target = none ∨ sample.Unmarked)
    (keeps : KeepsPlain observer observe fun registry => registry.SeesUnnested sample) :
    KeepsPlain observer (bindList target sample observe) fun registry =>
      registry.SeesUnnested sample := by
  unfold bindList
  split
  · next target =>
    refine keepsPlain_get ?_
    split
    · next bound found =>
      refine (yields_pure sound ?_).keepsPlain sound binds rfl
      have sees := sees_nil (sound.bound target bound found)
      exact seesUnnested_of_isPlain sees (binds target bound found)
    · exact keeps
  · next target first rest =>
    refine keeps.bind fun id later sound binds grows own => ?_
    have plain := own.plain (unmarked.resolve_left nofun)
    refine ⟨⟨sound.bind (own.sees.list _ rfl), .refl _, fun result same => ?_⟩,
      fun other bound found => ?_⟩
    · obtain rfl := Except.ok.inj same
      exact own
    · rcases Table.of_get?_putNew found with old | ⟨_, rfl⟩
      · exact binds other bound old
      · exact plain
  · exact keeps

/-! ### Values -/

theorem elements_keepPlain {depth : Nat} (elements : List Json)
    (each : ∀ element ∈ elements, ∀ observer : Observer, observer.Sound → observer.BindsPlain →
      KeepsPlain observer (value options depth element) fun registry =>
        registry.SeesUnnested element)
    (sound : observer.Sound) (binds : observer.BindsPlain) :
    KeepsPlain observer (Observing.elements options depth elements) fun registry =>
      List.Forall₂ registry.SeesUnnested elements := by
  induction elements generalizing observer with
  | nil => exact (yields_pure sound .nil).keepsPlain sound binds rfl
  | cons element rest step =>
    rw [List.forall_mem_cons] at each
    rw [Observing.elements]
    refine (each.1 observer sound binds).bind fun id later sound binds grows first => ?_
    refine (step each.2 sound binds).bind fun ids last soundLast binds grows others => ?_
    exact (yields_pure soundLast (.cons (first.grow sound.registry grows) others)).keepsPlain
      soundLast binds rfl

theorem members_keepPlain {depth : Nat} (members : List (String × Json))
    (each : ∀ member ∈ members, ∀ observer : Observer, observer.Sound → observer.BindsPlain →
      KeepsPlain observer
        (bindList (Key.parse member.1).target? member.2 (value options depth member.2))
        fun registry => registry.SeesUnnested member.2)
    (sound : observer.Sound) (binds : observer.BindsPlain) :
    KeepsPlain observer (Observing.members options depth members) fun registry =>
      List.Forall₂ (ReadsMember registry.SeesUnnested) members := by
  induction members generalizing observer with
  | nil => exact (yields_pure sound .nil).keepsPlain sound binds rfl
  | cons member rest step =>
    obtain ⟨raw, sample⟩ := member
    rw [List.forall_mem_cons] at each
    rw [Observing.members]
    refine (each.1 observer sound binds).bind fun id later sound binds grows first => ?_
    refine (step each.2 sound binds).bind fun fields last soundLast binds grows others => ?_
    have read : ReadsMember last.registry.SeesUnnested (raw, sample)
        (raw, ⟨Key.parse raw, id, false⟩) :=
      ⟨rfl, rfl, rfl, first.grow sound.registry grows⟩
    exact (yields_pure soundLast (.cons read others)).keepsPlain soundLast binds rfl

/-- **The shape of a value nests no references if the value does not.** -/
theorem value_seesUnnested (options : Options) (depth : Nat) (sample : Json)
    (unnested : sample.Unnested) (sound : observer.Sound) (binds : observer.BindsPlain) :
    KeepsPlain observer (value options depth sample) fun registry =>
      registry.SeesUnnested sample := by
  induction sample using Json.induct generalizing depth observer with
  | step sample parts =>
    unfold value
    split
    · next elements =>
      have each := Json.unnested_array.mp unnested
      refine keepsPlain_check sound binds ?_
      refine (elements_keepPlain elements (fun element listed observer =>
        parts element listed (depth + 1) (each element listed)) sound binds).bind
          fun ids later sound binds _ seen => ?_
      have held := holds_of_sees (seen.imp fun _ _ own => own.sees)
      refine ((merge_yields sound held).keepsPlain sound binds rfl).bind
        fun element last soundLast binds grows ⟨holds, joins⟩ => ?_
      have growsLast := grows_intern (.list (.singleton element)) last.registry
      refine (intern_yields soundLast (carries_list holds) ?_).keepsPlain soundLast binds rfl
      refine seesUnnested_list (seen.imp fun _ _ own => ?_)
        (joins.grow soundLast.registry growsLast fun id member => grows.holds (held id member))
        (soundLast.registry.elements?_intern _)
      exact own.grow sound.registry (grows.trans growsLast)
    · next members =>
      have each := Json.unnested_object.mp unnested
      refine keepsPlain_check sound binds ?_
      refine (members_keepPlain members (fun member listed observer sound binds => ?_) sound
        binds).bind fun entries later sound binds _ reads => ?_
      · have named : (Key.parse member.1).target? = none ∨ member.2.Unmarked :=
          (each member listed).1.imp_left fun mark => by rw [Key.target?, mark]; rfl
        exact bindList_keepsPlain sound binds named
          (parts member.2 (Json.parts_inside listed) (depth + 1) (each member listed).2 sound binds)
      have carries : later.registry.Carries (.object (.ofList entries)) :=
        carries_ofList fun entry listed => by
          obtain ⟨_, _, own⟩ := Lists.exists_mem_of_forall₂_right reads listed
          exact ⟨own.key, own.good.sees.holds⟩
      refine (intern_yields sound carries ?_).keepsPlain sound binds rfl
      have grows := grows_intern (.object (.ofList entries)) later.registry
      obtain ⟨fields, found, same⟩ := sound.registry.fields?_intern carries
      refine seesUnnested_object unnested (reads.imp fun _ _ own => ?_) found same
      exact { own with good := own.good.grow sound.registry grows }
    · next notArray notObject =>
      refine keepsPlain_check sound binds ?_
      refine (yields_pure sound ?_).keepsPlain sound binds rfl
      exact seesUnnested_of_isPlain (sees_scalar notArray notObject)
        (everyField_of_shape?_eq_none (shape?_scalarId _))

end Observing

/-! ### Rounds -/

namespace ShapeGraph

open Registry Unification

variable {options : Options} {sample : Json}

/-- **Rounds come to rest exactly if one that is run changes no merge.** -/
theorem rests_iff :
    Rests options sample ↔ ∃ rounds < maxRounds,
      (roundsOf options sample (rounds + 1)).map (·.2.merged) =
        (roundsOf options sample rounds).map (·.2.merged) := by
  refine ⟨fun rests => ⟨maxRounds - 1, by decide, rests⟩, ?_⟩
  rintro ⟨rounds, run, still⟩
  unfold Rests
  cases observed : (Observer.empty.observe options sample).1 with
  | error failure => rw [roundsOf_eq_none observed, roundsOf_eq_none observed]
  | ok root =>
    rw [roundsOf_eq observed, roundsOf_eq observed] at *
    have still := Option.some.inj still
    exact congrArg some ((merged_unifyRounds_of_le (Nat.le_of_lt run) still).trans
      (merged_unifyRounds_of_le (Nat.le_sub_one_of_lt run) still).symm)

/-- **Rounds come to rest if references are not nested.** -/
theorem rests_of_unnested (options : Options) (unnested : sample.Unnested) :
    Rests options sample := by
  refine rests_iff.mpr ⟨1, by decide, ?_⟩
  cases observed : (Observer.empty.observe options sample).1 with
  | error failure => rw [roundsOf_eq_none observed, roundsOf_eq_none observed]
  | ok root =>
    have seen := (Observing.value_seesUnnested options 0 sample unnested Observer.sound_empty
      Observer.bindsPlain_empty).good root observed
    have sound := Observer.observe_sound Observer.sound_empty options sample
    have normal := Observer.observe_leaves lasting_normal options sample Observer.sound_empty
      normal_empty
    rw [roundsOf_eq observed, roundsOf_eq observed]
    exact congrArg some
      (merged_unifyRounds_of_isUnnested sound.registry normal seen.sees.holds seen.unnested)

/-- **A merge may change in the second round** where references are nested: what `t` refers to in
the merge of the objects under `T` is there only after the first. -/
theorem exists_merge_in_second_round :
    ∃ sample : Json,
      (roundsOf {} sample 2).map (·.2.merged) ≠ (roundsOf {} sample 1).map (·.2.merged) := by
  refine ⟨.object [("t[T]", .object [
    ("t[T]", .object [
      ("t[T]", .object [("p", .object [("q", .object [("x", .null)])])]),
      ("p", .object [("q", .object [("y", .null)])])]),
    ("p", .string "s")])], ?_⟩
  decide +kernel

end ShapeGraph

end SampleShapes
