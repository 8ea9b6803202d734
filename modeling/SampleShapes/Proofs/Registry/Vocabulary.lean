/-
**Where keys come from.**

No step makes a key up: the object of an observed value has the keys of the value, and a merge of
objects has theirs. So every key of a graph stands somewhere in its sample, however often objects
were merged, and what is asked of the keys of a sample holds of the keys of its graph.

* `KeysKnown.intern`, `KeysKnown.prune`: shapes whose keys are known may be interned, and any shape
  dropped;
* `merge_known`: **merging makes no key up,** whatever it merges;
* `ShapeGraph.mem_keys_of_infer`: **every key of a graph is a key of its sample.**
-/

import SampleShapes.Proofs.Inference
import SampleShapes.Proofs.Registry.Lasting

namespace SampleShapes

namespace Registry

variable {registry : Registry} {candidates : List ShapeId} {known : String → Prop}

/-- Every key of every object that is kept is known. -/
def KeysKnown (known : String → Prop) (registry : Registry) : Prop :=
  ∀ id fields, registry.fields? id = some fields → ∀ raw ∈ fields.keys, known raw

theorem keysKnown_empty : (∅ : Registry).KeysKnown known := by
  intro id fields found
  cases (shape?_empty id).symm.trans (fields?_eq_some_iff.mp found)

/-- A shape whose keys are known may be interned. -/
theorem KeysKnown.intern {shape : Shape} (keysKnown : registry.KeysKnown known)
    (own : ∀ fields, shape = .object fields → ∀ raw ∈ fields.keys, known raw) :
    (registry.intern shape).2.KeysKnown known := by
  intro id fields found
  obtain ⟨index, rfl, slot⟩ := shape?_eq_some_iff.mp (fields?_eq_some_iff.mp found)
  rcases shapeAt?_intern_cases slot with old | ⟨_, rfl⟩
  · exact keysKnown (.node index) fields (fields?_eq_some_iff.mpr old)
  · exact own fields rfl

/-- **Dropping shapes makes no key up.** -/
theorem KeysKnown.prune (keysKnown : registry.KeysKnown known) (roots : List ShapeId) :
    (registry.prune roots).KeysKnown known :=
  fun id fields found => keysKnown id fields ((within_prune roots registry).fields? found)

/-! ### Merging -/

/-- The merger makes no key up. -/
def KeepsKnown (known : String → Prop) (merger : Merger) : Prop :=
  ∀ candidates registry, registry.KeysKnown known → (merger candidates registry).2.KeysKnown known

theorem orNull_known (ids : List ShapeId) {merged : ShapeId × Registry}
    (keysKnown : merged.2.KeysKnown known) : (orNull ids merged).2.KeysKnown known := by
  unfold orNull
  split
  · exact keysKnown.intern nofun
  · exact keysKnown

section Step

variable {deeper : Merger} (keeps : KeepsKnown known deeper) (keysKnown : registry.KeysKnown known)
include keeps keysKnown

theorem mergeObjects_known {objects : List (Table String Field)}
    (own : ∀ object ∈ objects, ∀ raw ∈ object.keys, known raw) :
    (mergeObjects deeper objects registry).2.KeysKnown known := by
  rw [mergeObjects_eq]
  have one : ∀ entry ∈ (Evidence.gather objects).entries, ∀ between : Registry, True →
      between.KeysKnown known →
        (settle deeper objects.length entry.2 between).2.KeysKnown known ∧ True ∧ True :=
    fun entry _ between _ keysKnown =>
      ⟨keeps entry.2.shapes between keysKnown, trivial, trivial⟩
  obtain ⟨keysKnown, _, _⟩ := Table.forall₂_threadEntries (fun _ => trivial)
    (fun _ _ _ _ _ => trivial) (fun _ _ _ _ _ _ _ => trivial) _ registry keysKnown one
  refine keysKnown.intern fun fields same raw member => ?_
  obtain rfl := Shape.object.inj same
  have gathered : raw ∈ (Evidence.gather objects).keys := by
    rw [Table.keys, ← Table.map_fst_threadEntries]
    exact member
  obtain ⟨object, inside, key⟩ := Evidence.mem_keys_gather_iff.mp gathered
  exact own object inside raw key

theorem mergeLists_known (lists : List IdSet) :
    (mergeLists deeper lists registry).2.KeysKnown known :=
  (keeps _ registry keysKnown).intern nofun

end Step

/-- **One step down makes no key up if deeper merges do not.** -/
theorem mergeStep_known {deeper : Merger} (keeps : KeepsKnown known deeper) :
    KeepsKnown known (mergeStep deeper) := by
  intro candidates registry keysKnown
  cases registry.kinds candidates with
  | nothing flat =>
    rw [mergeStep_of_nil flat]
    exact keysKnown.intern nofun
  | alone flat =>
    rw [mergeStep_of_singleton flat]
    exact keysKnown
  | objects several all =>
    rw [mergeStep_of_objects several all]
    refine orNull_known _ (mergeObjects_known keeps keysKnown fun object member => ?_)
    obtain ⟨id, _, found⟩ := exists_fields?_of_mem all member
    exact keysKnown id object found
  | lists several all =>
    rw [mergeStep_of_lists several all]
    exact orNull_known _ (mergeLists_known keeps keysKnown _)
  | mixed several notObjects notLists =>
    rw [mergeStep_of_mix several notObjects notLists]
    exact keysKnown.intern nofun

theorem mergeBelow_known (level : Nat) : KeepsKnown known (mergeBelow level) := by
  induction level with
  | zero => exact fun candidates registry keysKnown => keysKnown.intern nofun
  | succ level step => exact mergeStep_known step

/-- **Merging makes no key up.** -/
theorem merge_known (keysKnown : registry.KeysKnown known) (candidates : List ShapeId) :
    (registry.merge candidates).2.KeysKnown known :=
  mergeBelow_known _ candidates registry keysKnown

end Registry

/-! ### Observations -/

/-- **An observation makes no key up:** it leaves the keys that were there before, and those of its
sample. -/
theorem Observer.observe_known {known : String → Prop} [DecidablePred known] {observer : Observer}
    (options : Options) (sample : Json) (own : ∀ raw ∈ sample.keys, known raw)
    (sound : observer.Sound) (keysKnown : observer.registry.KeysKnown known) :
    (observer.observe options sample).2.registry.KeysKnown known := by
  have every : sample.everyObject fun members => members.all fun member => known member.1 :=
    Json.everyObject_of_keys fun raw member => decide_eq_true (own raw member)
  refine Observing.value_leaves_of ?_ ?_ options 0 sample every sound keysKnown
  · intro registry members entries all _ keysKnown seen
    refine keysKnown.intern fun fields same raw member => ?_
    obtain rfl := Shape.object.inj same
    obtain ⟨entry, listed, rfl⟩ := List.mem_map.mp (Table.mem_keys_ofList.mp member)
    obtain ⟨value, inside, sees⟩ := Lists.exists_mem_of_forall₂_right seen listed
    rw [sees.raw]
    exact of_decide_eq_true (List.all_eq_true.mp all value inside)
  · intro registry elements _ keysKnown _
    exact (Registry.merge_known keysKnown elements).intern nofun

/-! ### Graphs -/

namespace ShapeGraph

variable {graph : ShapeGraph} {options : Options} {sample : Json}

/-- **Every key of a graph is a key of its sample.** -/
theorem mem_keys_of_infer (inferred : infer options sample = .ok graph) {id : ShapeId}
    {fields : Table String Field} (found : graph.registry.fields? id = some fields) {raw : String}
    (member : raw ∈ fields.keys) : raw ∈ sample.keys := by
  obtain ⟨_, root, _, rfl⟩ := infer_eq_ok_iff.mp inferred
  have observed := Observer.observe_known options sample (fun _ member => member)
    Observer.sound_empty Registry.keysKnown_empty
  have merging : Registry.KeptByMerging (Registry.KeysKnown (· ∈ sample.keys)) :=
    fun _ candidates _ keysKnown _ => Registry.merge_known keysKnown candidates
  have unified := Registry.unifyTargets_lasts merging
    (Observer.observe_sound Observer.sound_empty options sample).registry observed root
  exact unified.prune _ id fields found raw member

end ShapeGraph

end SampleShapes
