/-
**Properties that last.**

Whatever changes a registry interns the object or the list of an observed value, merges candidates
that are kept, or drops shapes. A property that each of these keeps holds of every registry that
arises, also of one that an observation leaves behind when it fails.

* `Leaves.bind`: steps of an observation that follow each other;
* `value_leaves_of`: an observation leaves alone what the objects of its own sample keep;
* `value_leaves`, `observe_leaves`: an observation leaves alone what every object keeps;
* `unifyTargets_lasts`: unifying explicit references leaves alone what merging keeps;
* `Produced.of_lasting`: **what lasts holds of every registry that arises**;
* `Produced.normal`: **in it every shape is normal.**
-/

import SampleShapes.Proofs.Registry.Normality
import SampleShapes.Proofs.Registry.Rounds
import SampleShapes.Proofs.Registry.Unfolding

namespace SampleShapes

namespace Registry

/-- A property of registries that every change keeps. -/
structure Lasting (good : Registry → Prop) : Prop where
  /-- It holds to begin with. -/
  empty : good ∅
  /-- The object of an observed value may be interned. -/
  object : ∀ registry fields, registry.Sound → good registry → registry.Carries (.object fields) →
    (∀ child ∈ (Shape.object fields).children, child ≠ .any) →
      good (registry.intern (.object fields)).2
  /-- What is kept may be merged. -/
  merge : ∀ registry candidates, registry.Sound → good registry →
    (∀ candidate ∈ candidates, registry.Holds candidate ∧ candidate ≠ .any) →
      good (registry.merge candidates).2
  /-- The list of an observed value, over the merge of its elements, may be interned. -/
  list : ∀ registry elements, registry.Sound → good registry →
    (∀ element ∈ elements, registry.Holds element ∧ element ≠ .any) →
      good ((registry.merge elements).2.intern (.list (.singleton (registry.merge elements).1))).2
  /-- Shapes may be dropped. -/
  prune : ∀ registry roots, registry.Sound → good registry → good (registry.prune roots)

end Registry

/-! ### Observations -/

namespace Observing

open Registry

variable {α β : Type} {good : Registry → Prop} {observer : Observer}

/-- From `observer` the step leaves a good registry behind, even if it fails. -/
def Leaves (good : Registry → Prop) (observer : Observer) (step : Observing α) : Prop :=
  good (step.run.run observer).2.registry

/-- **Steps that follow each other.** -/
theorem Leaves.bind {first : Observing α} {next : α → Observing β} {ready : Registry → α → Prop}
    (leaves : Leaves good observer first) (yields : Yields observer first ready)
    (onward : ∀ result later, later.Sound → good later.registry → ready later.registry result →
      Leaves good later (next result)) : Leaves good observer (first >>= next) := by
  obtain ⟨sound, _, isReady⟩ := yields
  unfold Leaves at leaves ⊢
  have run := run_bind first next observer
  rcases ran : first.run.run observer with ⟨failure | result, later⟩
  · rw [ran] at run leaves
    rw [run]
    exact leaves
  · rw [ran] at run sound isReady leaves
    rw [run]
    exact onward result later sound leaves (isReady result rfl)

/-- Nothing follows a check that fails. -/
theorem leaves_check {exceeded : Prop} [Decidable exceeded] {failure : Failure}
    {next : Unit → Observing α} (isGood : good observer.registry)
    (leaves : Leaves good observer (next ())) :
    Leaves good observer (if exceeded then throw failure >>= next else next ()) := by
  split
  · exact isGood
  · exact leaves

theorem leaves_get {next : Observer → Observing α} (leaves : Leaves good observer (next observer)) :
    Leaves good observer (get >>= next) := leaves

theorem bindList_leaves {target : Option String} {sample : Json} {observe : Observing ShapeId}
    (isGood : good observer.registry) (leaves : Leaves good observer observe)
    (yields : Yields observer observe fun registry => registry.Sees sample) :
    Leaves good observer (bindList target sample observe) := by
  unfold bindList
  split
  · next target =>
    refine leaves_get ?_
    split
    · exact isGood
    · exact leaves
  · exact leaves.bind yields fun _ _ _ isGood _ => isGood
  · exact leaves

theorem elements_leaves {options : Options} {depth : Nat} (elements : List Json)
    (each : ∀ element ∈ elements, ∀ observer : Observer, observer.Sound → good observer.registry →
      Leaves good observer (value options depth element))
    (sound : observer.Sound) (isGood : good observer.registry) :
    Leaves good observer (Observing.elements options depth elements) := by
  induction elements generalizing observer with
  | nil => exact isGood
  | cons element rest step =>
    rw [List.forall_mem_cons] at each
    rw [Observing.elements]
    refine (each.1 observer sound isGood).bind (value_yields options depth element sound)
      fun id later sound isGood _ => ?_
    have yields := elements_yields sees_lasts rest
      (fun element _ observer sound => value_yields options depth element sound) sound
    exact (step each.2 sound isGood).bind yields fun _ _ _ isGood _ => isGood

theorem members_leaves {options : Options} {depth : Nat} (members : List (String × Json))
    (each : ∀ member ∈ members, ∀ observer : Observer, observer.Sound → good observer.registry →
      Leaves good observer (value options depth member.2))
    (sound : observer.Sound) (isGood : good observer.registry) :
    Leaves good observer (Observing.members options depth members) := by
  induction members generalizing observer with
  | nil => exact isGood
  | cons member rest step =>
    obtain ⟨raw, sample⟩ := member
    rw [List.forall_mem_cons] at each
    rw [Observing.members]
    have yields := value_yields options depth sample sound
    refine (bindList_leaves isGood (each.1 observer sound isGood) yields).bind
      (bindList_yields sound yields) fun shape later sound isGood _ => ?_
    have yields := members_yields sees_lasts rest
      (fun member _ observer sound =>
        bindList_yields sound (value_yields options depth member.2 sound)) sound
    exact (step each.2 sound isGood).bind yields fun _ _ _ isGood _ => isGood

/-- **Observing a value leaves a property alone** that the objects of its members may be interned
under, and the list of any merge. -/
theorem value_leaves_of {test : List (String × Json) → Bool}
    (object : ∀ registry members entries, test members → registry.Sound → good registry →
      List.Forall₂ registry.SeesMember members entries →
        good (registry.intern (.object (.ofList entries))).2)
    (list : ∀ registry elements, registry.Sound → good registry →
      (∀ element ∈ elements, registry.Holds element ∧ element ≠ .any) →
        good ((registry.merge elements).2.intern
          (.list (.singleton (registry.merge elements).1))).2)
    (options : Options) (depth : Nat) (sample : Json) (every : sample.everyObject test)
    (sound : observer.Sound) (isGood : good observer.registry) :
    Leaves good observer (value options depth sample) := by
  induction sample using Json.induct generalizing depth observer with
  | step sample parts =>
    unfold value
    split
    · next elements =>
      refine leaves_check isGood ?_
      have every := Json.everyObject_array.mp every
      have yields := elements_yields sees_lasts elements
        (fun element _ observer sound => value_yields options (depth + 1) element sound) sound
      refine (elements_leaves elements (fun element listed observer => parts element listed
        (depth + 1) (every element listed)) sound isGood).bind yields
          fun ids later sound isGood seen => ?_
      refine list _ ids sound.registry isGood fun id member => ?_
      obtain ⟨_, _, sees⟩ := Lists.exists_mem_of_forall₂_right seen member
      exact ⟨sees.holds, sees.ne_any⟩
    · next members =>
      refine leaves_check isGood ?_
      have every := Json.everyObject_object.mp every
      have yields := members_yields sees_lasts members
        (fun member _ observer sound =>
          bindList_yields sound (value_yields options (depth + 1) member.2 sound)) sound
      refine (members_leaves members (fun member listed observer =>
        parts member.2 (Json.parts_inside listed) (depth + 1) (every.2 member listed)) sound
          isGood).bind yields fun entries later sound isGood reads => ?_
      exact object _ members entries every.1 sound.registry isGood
        (reads.imp fun _ _ reads => reads.sees)
    · exact leaves_check isGood isGood

/-- **Observing a value leaves what lasts alone.** -/
theorem value_leaves (lasting : Lasting good) (options : Options) (depth : Nat) (sample : Json)
    (sound : observer.Sound) (isGood : good observer.registry) :
    Leaves good observer (value options depth sample) :=
  value_leaves_of
    (fun registry _ _ _ sound isGood seen => lasting.object registry _ sound isGood
      (carries_object seen) (ne_any_of_mem_children seen))
    lasting.list options depth sample (Json.everyObject_true sample) sound isGood

end Observing

/-- **An observation leaves what lasts alone,** even if it fails. -/
theorem Observer.observe_leaves {good : Registry → Prop} {observer : Observer}
    (lasting : Registry.Lasting good) (options : Options) (sample : Json) (sound : observer.Sound)
    (isGood : good observer.registry) : good (observer.observe options sample).2.registry :=
  Observing.value_leaves lasting options 0 sample sound isGood

/-! ### Unification -/

namespace Registry

variable {good : Registry → Prop} {registry : Registry} {options : Options}

/-- Merging what is kept keeps the property. -/
def KeptByMerging (good : Registry → Prop) : Prop :=
  ∀ registry candidates, registry.Sound → good registry →
    (∀ candidate ∈ candidates, registry.Holds candidate ∧ candidate ≠ .any) →
      good (registry.merge candidates).2

section

variable (merging : KeptByMerging good)
include merging

theorem absorb_lasts {state : Unification} {group : IdSet} (target : String) (sound : state.Sound)
    (objects : ∀ id ∈ group, state.registry.HasFields id) (isGood : good state.registry) :
    good (state.absorb target group).registry := by
  by_cases alone : (state.candidates target group).length < 2
  · rw [Unification.absorb_of_lt_two alone]
    exact isGood
  · have held : ∀ id ∈ state.candidates target group, state.registry.Holds id ∧ id ≠ .any := by
      intro id member
      have object := Unification.hasFields_of_mem_candidates sound objects id member
      obtain ⟨fields, found⟩ := Option.isSome_iff_exists.mp object.isSome_fields?
      exact ⟨object.holds, ne_primitive_of_shape? (fields?_eq_some_iff.mp found)⟩
    rw [Unification.registry_absorb alone]
    exact merging _ _ sound.registry isGood held

theorem foldl_absorb_lasts (entries : List (String × IdSet)) (state : Unification)
    (sound : state.Sound) (objects : ∀ entry ∈ entries, ∀ id ∈ entry.2, state.registry.HasFields id)
    (isGood : good state.registry) :
    good (entries.foldl (fun state entry => state.absorb entry.1 entry.2) state).registry := by
  induction entries generalizing state with
  | nil => exact isGood
  | cons entry rest step =>
    rw [List.forall_mem_cons] at objects
    obtain ⟨soundNext, grows, _⟩ := Unification.absorb_spec entry.1 sound objects.1
    exact step _ soundNext
      (fun other member id inside => (objects.2 other member id inside).grow grows.within)
      (absorb_lasts merging entry.1 sound objects.1 isGood)

theorem unifyRounds_lasts (root : ShapeId) (rounds : Nat) (groups : Table String IdSet)
    (state : Unification) (sound : state.Sound) (isGood : good state.registry) :
    good (unifyRounds root rounds groups state).2.registry := by
  induction rounds generalizing groups state with
  | zero => exact isGood
  | succ rounds step =>
    have isGood :=
      foldl_absorb_lasts merging _ state sound (Unification.hasFields_of_round root state) isGood
    rw [Unification.unifyRounds_succ]
    split
    · exact isGood
    · exact step _ _ (Unification.round_sound sound root).1 isGood

/-- **Unifying explicit references leaves alone what merging does.** -/
theorem unifyTargets_lasts (sound : registry.Sound) (isGood : good registry) (root : ShapeId) :
    good (registry.unifyTargets root).2 :=
  unifyRounds_lasts merging root maxRounds ∅ ⟨∅, registry⟩
    ⟨sound, fun target index found => by simp at found⟩ isGood

end

/-! ### The registries that arise -/

/-- **What lasts holds of every registry that arises.** -/
theorem Produced.of_lasting (lasting : Lasting good) (produced : Produced options registry) :
    good registry := by
  induction produced with
  | observed samples =>
    have both : (Observer.after options samples).Sound ∧
        good (Observer.after options samples).registry := by
      unfold Observer.after
      refine List.foldlRecOn (motive := fun observer : Observer =>
        observer.Sound ∧ good observer.registry) samples _ ⟨Observer.sound_empty, lasting.empty⟩ ?_
      rintro observer ⟨sound, isGood⟩ sample _
      exact ⟨Observer.observe_sound sound options sample,
        Observer.observe_leaves lasting options sample sound isGood⟩
    exact both.2
  | unified before root isGood => exact unifyTargets_lasts lasting.merge before.sound isGood root
  | pruned before roots isGood => exact lasting.prune _ roots before.sound isGood

theorem lasting_normal : Lasting Normal where
  empty := normal_empty
  object _ _ sound normal _ _ := normal.intern sound trivial
  merge _ _ sound normal held := merge_normal sound normal fun id member => (held id member).1
  list registry elements sound normal held := by
    have holds : ∀ id ∈ elements, registry.Holds id := fun id member => (held id member).1
    exact (merge_normal sound normal holds).intern (merge_merged sound holds).sound ⟨_, rfl⟩
  prune _ roots sound normal := normal.prune sound roots

/-- **In every registry that arises every shape is normal.** -/
theorem Produced.normal (produced : Produced options registry) : registry.Normal :=
  produced.of_lasting lasting_normal

end Registry

end SampleShapes
