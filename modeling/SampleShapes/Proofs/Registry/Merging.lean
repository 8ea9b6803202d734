/-
**Merging gives a join.**

A merge works its way down through the fields and elements of its candidates, and the registry
grows while it does so. What it comes back with is the join of the candidates in the registry that
it leaves behind, which is sound and has only grown.

* `mergeObjects_joins`, `mergeLists_joins`: what merging objects and merging lists leads to;
* `merged_of_objects`, `merged_of_lists`, `merged_of_mix`: the cases of a step down;
* `mergeStep_merged`: one step down keeps what deeper merges promise;
* `merge_merged`: **merging gives a join.**
-/

import SampleShapes.Proofs.Registry.Evidence
import SampleShapes.Proofs.Registry.Joins

namespace SampleShapes.Registry

variable {registry later : Registry} {candidates : List ShapeId} {id : ShapeId}

/-! ### Safe results -/

/-- A result of working on `registry`: a sound registry that has grown from it, and the identity of
something that is kept there. -/
structure Safe (registry : Registry) (result : ShapeId × Registry) : Prop where
  sound : result.2.Sound
  grows : registry.Grows result.2
  holds : result.2.Holds result.1

theorem safe_intern {shape : Shape} (sound : registry.Sound) (carries : registry.Carries shape) :
    registry.Safe (registry.intern shape) :=
  ⟨sound.intern carries, grows_intern shape registry, sound.holds_intern shape⟩

theorem Safe.after {result : ShapeId × Registry} (safe : later.Safe result)
    (grows : registry.Grows later) : registry.Safe result :=
  ⟨safe.sound, grows.trans safe.grows, safe.holds⟩

theorem carries_list {element : ShapeId} (held : registry.Holds element) :
    registry.Carries (.list (.singleton element)) where
  holds child member := by
    rw [List.mem_singleton.mp member]
    exact held
  keyed fields object := by cases object

theorem carries_union {ids : List ShapeId} (held : ∀ id ∈ ids, registry.Holds id) :
    registry.Carries (.union (.ofList ids)) where
  holds child member := held child (IdSet.mem_ofList.mp member)
  keyed fields object := by cases object

/-- A merge of `candidates` in `registry` that gives their join. -/
structure Merged (registry : Registry) (candidates : List ShapeId) (result : ShapeId × Registry) :
    Prop extends Safe registry result where
  joins : result.2.Joins candidates result.1

/-- The merger gives the join of candidates that are kept below `level`. -/
def MergesBelow (level : Nat) (merger : Merger) : Prop :=
  ∀ candidates registry, registry.Sound →
    registry.HoldsBelow level candidates → Merged registry candidates (merger candidates registry)

theorem holds_nil (registry : Registry) : ∀ id ∈ ([] : List ShapeId), registry.Holds id :=
  fun _ member => absurd member List.not_mem_nil

/-! ### One step down -/

/-- Nothing is merged to the union of nothing. -/
theorem mergeStep_of_nil (flat : registry.flatten candidates = []) (deeper : Merger) :
    mergeStep deeper candidates registry = registry.intern (.union ∅) := by
  unfold mergeStep
  rw [flat]

/-- A candidate that is alone is what it is merged to. -/
theorem mergeStep_of_singleton (flat : registry.flatten candidates = [id]) (deeper : Merger) :
    mergeStep deeper candidates registry = (id, registry) := by
  unfold mergeStep
  rw [flat]

section Several

variable (several : 2 ≤ (registry.flatten candidates).length)
include several

/-- What several flat candidates are merged to: all objects, or all lists, or any other mix. -/
theorem mergeStep_of_several (deeper : Merger) :
    mergeStep deeper candidates registry =
      (((registry.flatten candidates).filter (· ≠ .null)).mapM registry.fields?).elim
        ((((registry.flatten candidates).filter (· ≠ .null)).mapM registry.elements?).elim
          (registry.intern (.union (.ofList (registry.flatten candidates))))
          fun lists => orNull (registry.flatten candidates) (mergeLists deeper lists registry))
        fun objects =>
          orNull (registry.flatten candidates) (mergeObjects deeper objects registry) := by
  unfold mergeStep
  split
  · next flat =>
    rw [flat] at several
    exact absurd several (by decide)
  · next flat =>
    rw [flat] at several
    exact absurd several (Nat.not_succ_le_self 1)
  · dsimp only
    cases ((registry.flatten candidates).filter (· ≠ .null)).mapM registry.fields? with
    | some objects => rfl
    | none =>
      cases ((registry.flatten candidates).filter (· ≠ .null)).mapM registry.elements? <;> rfl

theorem mergeStep_of_objects {objects : List (Table String Field)}
    (all : ((registry.flatten candidates).filter (· ≠ .null)).mapM registry.fields? = some objects)
    (deeper : Merger) :
    mergeStep deeper candidates registry =
      orNull (registry.flatten candidates) (mergeObjects deeper objects registry) := by
  rw [mergeStep_of_several several, all, Option.elim_some]

theorem mergeStep_of_lists {lists : List IdSet}
    (all : ((registry.flatten candidates).filter (· ≠ .null)).mapM registry.elements? = some lists)
    (deeper : Merger) :
    mergeStep deeper candidates registry =
      orNull (registry.flatten candidates) (mergeLists deeper lists registry) := by
  rw [mergeStep_of_several several, not_objects_of_lists several all, Option.elim_none, all,
    Option.elim_some]

theorem mergeStep_of_mix
    (notObjects : ((registry.flatten candidates).filter (· ≠ .null)).mapM registry.fields? = none)
    (notLists : ((registry.flatten candidates).filter (· ≠ .null)).mapM registry.elements? = none)
    (deeper : Merger) :
    mergeStep deeper candidates registry =
      registry.intern (.union (.ofList (registry.flatten candidates))) := by
  rw [mergeStep_of_several several, notObjects, Option.elim_none, notLists, Option.elim_none]

end Several

/-! ### Nullable results -/

theorem isNullable_orNull (ids : List ShapeId) {merged : ShapeId × Registry}
    (indexed : merged.2.Indexed) :
    (orNull ids merged).2.IsNullable ids merged.1 (orNull ids merged).1 := by
  unfold orNull IsNullable
  split
  · exact indexed.members?_intern _
  · rfl

theorem grows_orNull (ids : List ShapeId) (merged : ShapeId × Registry) :
    merged.2.Grows (orNull ids merged).2 := by
  unfold orNull
  split
  · exact grows_intern _ _
  · exact .refl _

theorem orNull_safe (ids : List ShapeId) {merged : ShapeId × Registry}
    (safe : registry.Safe merged) :
    registry.Safe (orNull ids merged) ∧ merged.2.Grows (orNull ids merged).2 ∧
      (orNull ids merged).2.IsNullable ids merged.1 (orNull ids merged).1 := by
  refine ⟨?_, grows_orNull ids merged, isNullable_orNull ids safe.sound.toIndexed⟩
  unfold orNull
  split
  · have held : ∀ id ∈ [merged.1, .null], merged.2.Holds id :=
      List.forall_mem_cons.mpr ⟨safe.holds, List.forall_mem_singleton.mpr trivial⟩
    exact (safe_intern safe.sound (carries_union held)).after safe.grows
  · exact safe

/-! ### Objects -/

/-- What the evidence under a raw key becomes in the end. -/
structure Settles (count : Nat) (evidence : Evidence) (field : Field) (registry : Registry) :
    Prop where
  key : field.key = evidence.key
  optional : field.optional = (evidence.optional || decide (evidence.holders < count))
  holds : registry.Holds field.shape
  held : ∀ shape ∈ evidence.shapes, registry.Holds shape
  joins : registry.Joins evidence.shapes field.shape

theorem Settles.grow {count : Nat} {evidence : Evidence} {field : Field} (sound : registry.Sound)
    (settles : Settles count evidence field registry) (grows : registry.Grows later) :
    Settles count evidence field later where
  key := settles.key
  optional := settles.optional
  holds := grows.holds settles.holds
  held shape member := grows.holds (settles.held shape member)
  joins := settles.joins.grow sound grows settles.held

/-- The evidence of all objects requires a field exactly if each of them does. -/
theorem required_iff {objects : List (Table String Field)} {raw : String} :
    ((objects.filterMap (·.get? raw)).any Field.optional ||
        decide ((objects.filterMap (·.get? raw)).length < objects.length)) = false ↔
      ∀ object ∈ objects, ∃ found, object.get? raw = some found ∧ found.optional = false := by
  rw [Bool.or_eq_false_iff, decide_eq_false_iff_not, List.length_filterMap_lt_length_iff_exists]
  constructor
  · rintro ⟨never, everywhere⟩ object member
    cases here : object.get? raw with
    | none => exact absurd ⟨object, member, here⟩ everywhere
    | some found =>
      refine ⟨found, rfl, ?_⟩
      rw [List.any_eq_false] at never
      simpa using never found (List.mem_filterMap.mpr ⟨object, member, here⟩)
  · intro all
    refine ⟨List.any_eq_false.mpr fun field member => ?_, ?_⟩
    · obtain ⟨object, inside, here⟩ := List.mem_filterMap.mp member
      obtain ⟨found, here', required⟩ := all object inside
      rw [here] at here'
      rw [Option.some.inj here', required]
      exact Bool.false_ne_true
    · rintro ⟨object, member, missing⟩
      obtain ⟨found, here, _⟩ := all object member
      rw [missing] at here
      simp at here

/-- Make a field of the evidence under a raw key, where `count` objects are merged. -/
def settle (deeper : Merger) (count : Nat) (evidence : Evidence) (registry : Registry) :
    Field × Registry :=
  let (shape, registry) := deeper evidence.shapes registry
  (⟨evidence.key, shape, evidence.optional || evidence.holders < count⟩, registry)

theorem mergeObjects_eq (deeper : Merger) (objects : List (Table String Field))
    (registry : Registry) :
    mergeObjects deeper objects registry =
      ((Evidence.gather objects).thread (settle deeper objects.length) registry).2.intern
        (.object ((Evidence.gather objects).thread (settle deeper objects.length) registry).1) :=
  rfl

/-- The shapes of the evidence under a raw key are kept where those of the objects are. -/
theorem holdsBelow_of_gather {level : Nat} {objects : List (Table String Field)} {raw : String}
    {evidence : Evidence} (held : ∀ raw, registry.HoldsBelow level (shapesUnder objects raw))
    (gathered : (Evidence.gather objects).get? raw = some evidence) :
    registry.HoldsBelow level evidence.shapes := by
  intro id member
  rw [(Evidence.eq_of_get?_gather gathered).2.1, List.mem_eraseDups] at member
  exact held raw id member

/-- Every field is settled by the merge of the shapes under its raw key. -/
theorem thread_settle {level : Nat} {deeper : Merger} (merges : MergesBelow level deeper)
    (sound : registry.Sound) {objects : List (Table String Field)}
    (held : ∀ raw, registry.HoldsBelow level (shapesUnder objects raw))
    {fields : Table String Field}
    (threaded : (Evidence.gather objects).thread (settle deeper objects.length) registry =
      (fields, later)) :
    later.Sound ∧ registry.Grows later ∧ fields.keys = (Evidence.gather objects).keys ∧
      ∀ raw field, fields.get? raw = some field → ∃ evidence,
        (Evidence.gather objects).get? raw = some evidence ∧
          Settles objects.length evidence field later := by
  -- Each merge starts in the registry that the merges before it have grown.
  have one : ∀ entry ∈ (Evidence.gather objects).entries, ∀ between, registry.Grows between →
      between.Sound →
        (settle deeper objects.length entry.2 between).2.Sound ∧
          between.Grows (settle deeper objects.length entry.2 between).2 ∧
          Settles objects.length entry.2 (settle deeper objects.length entry.2 between).1
            (settle deeper objects.length entry.2 between).2 := by
    rintro ⟨raw, evidence⟩ member between grows soundBetween
    have heldHere := (holdsBelow_of_gather held (Table.get?_eq_some_iff.mpr member)).grow grows
    have merged := merges evidence.shapes between soundBetween heldHere
    exact ⟨merged.sound, merged.grows,
      ⟨rfl, rfl, merged.holds, fun id inside => merged.grows.holds (heldHere id inside).1,
        merged.joins⟩⟩
  have all := Table.forall₂_threadEntries Grows.refl (fun _ _ _ => Grows.trans)
    (fun _ _ _ _ sound settles grows => settles.grow sound grows) _ registry sound one
  obtain ⟨rfl, rfl⟩ := Prod.mk.inj threaded
  refine ⟨all.1, all.2.1, Table.map_fst_threadEntries _ _ _, fun raw field found => ?_⟩
  obtain ⟨⟨_, evidence⟩, member, rfl, settles⟩ :=
    Lists.exists_mem_of_forall₂_right all.2.2 (Table.get?_eq_some_iff.mp found)
  exact ⟨evidence, Table.get?_eq_some_iff.mpr member, settles⟩

/-- Fields with the keys and the optionality of the evidence unite the objects. -/
theorem unites_of_gather {objects : List (Table String Field)} {fields : Table String Field}
    (keys : fields.keys = (Evidence.gather objects).keys)
    (settled : ∀ raw field, fields.get? raw = some field → ∃ evidence,
      (Evidence.gather objects).get? raw = some evidence ∧
        field.optional = (evidence.optional || decide (evidence.holders < objects.length))) :
    Unites objects fields where
  keys raw := by rw [keys, Evidence.mem_keys_gather_iff]
  required raw field found := by
    obtain ⟨evidence, gathered, same⟩ := settled raw field found
    obtain ⟨_, _, holders, optional⟩ := Evidence.eq_of_get?_gather gathered
    rw [same, holders, optional]
    exact required_iff

/-- Neither the order of the objects, nor that of the fields, nor what their keys are read as counts
when objects are united. -/
theorem Unites.congr {objects objects' : List (Table String Field)}
    {fields others : Table String Field} (unites : Unites objects fields)
    (members : ∀ object, object ∈ objects' ↔ object ∈ objects)
    (same : ∀ raw, (others.get? raw).map Field.outline = (fields.get? raw).map Field.outline) :
    Unites objects' others where
  keys raw := by
    rw [← Table.isSome_get?_iff, ← Option.isSome_map, same raw, Option.isSome_map,
      Table.isSome_get?_iff, unites.keys]
    simp only [members]
  required raw field found := by
    obtain ⟨field', found', outline⟩ :=
      Option.map_eq_some_iff.mp ((same raw).symm.trans (congrArg _ found))
    have optional : field'.optional = field.optional := congrArg Prod.fst outline
    rw [← optional, unites.required raw field' found']
    simp only [members]

/-- Settled fields rest on what is kept. They keep the keys of the objects, so that these are read
from raw keys still. -/
theorem carries_of_settles {objects : List (Table String Field)} {fields : Table String Field}
    (keyed : ∀ object ∈ objects, Shape.Keyed object)
    (settled : ∀ raw field, fields.get? raw = some field → ∃ evidence,
      (Evidence.gather objects).get? raw = some evidence ∧
        Settles objects.length evidence field registry) : registry.Carries (.object fields) := by
  refine ⟨fun child member => ?_, fun others same raw field found => ?_⟩
  · obtain ⟨field, inside, rfl⟩ := List.mem_map.mp member
    obtain ⟨raw, found⟩ := Table.mem_values_iff.mp inside
    obtain ⟨evidence, _, settles⟩ := settled raw field found
    exact settles.holds
  · obtain rfl := Shape.object.inj same
    obtain ⟨evidence, gathered, settles⟩ := settled raw field found
    obtain ⟨⟨first, member, key⟩, _⟩ := Evidence.eq_of_get?_gather gathered
    obtain ⟨object, inside, under⟩ := List.mem_filterMap.mp member
    rw [settles.key, key, keyed object inside raw first under]

/-- **What merging objects leads to:** an object that unites them, whose fields join theirs. -/
theorem mergeObjects_joins {level : Nat} {deeper : Merger} (merges : MergesBelow level deeper)
    (sound : registry.Sound) {objects : List (Table String Field)}
    (held : ∀ raw, registry.HoldsBelow level (shapesUnder objects raw))
    (keyed : ∀ object ∈ objects, Shape.Keyed object) :
    registry.Safe (mergeObjects deeper objects registry) ∧
      ∃ fields, (mergeObjects deeper objects registry).2.fields?
          (mergeObjects deeper objects registry).1 = some fields ∧
        Unites objects fields ∧
        ∀ raw field, fields.get? raw = some field →
          (mergeObjects deeper objects registry).2.Joins (shapesUnder objects raw) field.shape := by
  rw [mergeObjects_eq]
  obtain ⟨⟨fields, later⟩, threaded⟩ :
      ∃ result, (Evidence.gather objects).thread (settle deeper objects.length) registry = result :=
    ⟨_, rfl⟩
  rw [threaded]
  obtain ⟨soundLater, grows, keys, settled⟩ := thread_settle merges sound held threaded
  have carries := carries_of_settles keyed settled
  have safe := safe_intern soundLater carries
  obtain ⟨kept, found, same⟩ := soundLater.fields?_intern carries
  have unites := unites_of_gather keys fun raw field under =>
    have ⟨evidence, gathered, settles⟩ := settled raw field under
    ⟨evidence, gathered, settles.optional⟩
  refine ⟨safe.after grows, kept, found,
    unites.congr (fun _ => Iff.rfl) fun raw => congrArg _ (same raw), ?_⟩
  intro raw field under
  rw [same raw] at under
  obtain ⟨evidence, gathered, settles⟩ := settled raw field under
  obtain ⟨_, shapes, _⟩ := Evidence.eq_of_get?_gather gathered
  -- Evidence counts every shape once, and flat candidates do so anyway.
  have joins := settles.joins.grow soundLater safe.grows settles.held
  refine joins.congr ?_
  rw [shapes]
  exact (flatten_eraseDups _ _).symm

/-! ### Lists -/

/-- **What merging lists leads to:** a list whose element joins theirs. -/
theorem mergeLists_joins {level : Nat} {deeper : Merger} (merges : MergesBelow level deeper)
    (sound : registry.Sound) {lists : List IdSet}
    (held : registry.HoldsBelow level (lists.flatMap IdSet.toList)) :
    registry.Safe (mergeLists deeper lists registry) ∧
      ∃ element, (mergeLists deeper lists registry).2.elements?
          (mergeLists deeper lists registry).1 = some (.singleton element) ∧
        (mergeLists deeper lists registry).2.Joins (lists.flatMap IdSet.toList) element := by
  have heldOnce : registry.HoldsBelow level (lists.flatMap IdSet.toList).eraseDups :=
    fun id member => held id (List.mem_eraseDups.mp member)
  have merged := merges _ registry sound heldOnce
  unfold mergeLists
  obtain ⟨⟨element, later⟩, threaded⟩ :
      ∃ result, deeper (lists.flatMap IdSet.toList).eraseDups registry = result := ⟨_, rfl⟩
  rw [threaded] at merged ⊢
  have safe := safe_intern merged.sound (carries_list merged.holds)
  refine ⟨safe.after merged.grows, element, merged.sound.elements?_intern _, ?_⟩
  have joins := merged.joins.grow merged.sound safe.grows
    fun id member => merged.grows.holds (heldOnce id member).1
  exact joins.congr (flatten_eraseDups _ _).symm

/-! ### The merge -/

section Several

variable {level : Nat} {deeper : Merger} (merges : MergesBelow level deeper)
  (sound : registry.Sound) (held : registry.HoldsBelow (level + 1) candidates)
  (several : 2 ≤ (registry.flatten candidates).length)
include merges sound held several

/-- Objects among several flat candidates merge to their join. -/
theorem merged_of_objects {objects : List (Table String Field)}
    (all : ((registry.flatten candidates).filter (· ≠ .null)).mapM registry.fields? =
      some objects) :
    Merged registry candidates
      (orNull (registry.flatten candidates) (mergeObjects deeper objects registry)) := by
  have heldUnder := (held.flatten sound).shapesUnder sound all
  have keyed : ∀ object ∈ objects, Shape.Keyed object := by
    intro object member
    obtain ⟨id, _, found⟩ := exists_fields?_of_mem all member
    exact sound.keyed found
  obtain ⟨safe, fields, found, unites, each⟩ := mergeObjects_joins merges sound heldUnder keyed
  obtain ⟨safeLast, grows, nullable⟩ := orNull_safe (registry.flatten candidates) safe
  have holds := fun candidate member => (held candidate member).1
  have flat := flatten_grow safeLast.grows holds
  refine ⟨safeLast, .objects (by rw [flat]; exact several)
    ((mapM_fields?_grow sound safeLast.grows holds).trans all) (grows.within.fields? found) unites
    (fun raw field under => ?_) (by rw [flat]; exact nullable)⟩
  exact (each raw field under).grow safe.sound grows fun id member =>
    safe.grows.holds (heldUnder raw id member).1

/-- Lists among several flat candidates merge to their join. -/
theorem merged_of_lists {lists : List IdSet}
    (all : ((registry.flatten candidates).filter (· ≠ .null)).mapM registry.elements? =
      some lists) :
    Merged registry candidates
      (orNull (registry.flatten candidates) (mergeLists deeper lists registry)) := by
  have heldElements := (held.flatten sound).elements sound all
  obtain ⟨safe, element, found, each⟩ := mergeLists_joins merges sound heldElements
  obtain ⟨safeLast, grows, nullable⟩ := orNull_safe (registry.flatten candidates) safe
  have holds := fun candidate member => (held candidate member).1
  have flat := flatten_grow safeLast.grows holds
  refine ⟨safeLast, .lists (by rw [flat]; exact several)
    ((mapM_elements?_grow sound safeLast.grows holds).trans all) (grows.within.elements? found) ?_
    (by rw [flat]; exact nullable)⟩
  exact each.grow safe.sound grows fun id member => safe.grows.holds (heldElements id member).1

omit merges in
/-- Every other mix of several flat candidates merges to a union. -/
theorem merged_of_mix
    (notObjects : ((registry.flatten candidates).filter (· ≠ .null)).mapM registry.fields? = none)
    (notLists : ((registry.flatten candidates).filter (· ≠ .null)).mapM registry.elements? =
      none) :
    Merged registry candidates
      (registry.intern (.union (.ofList (registry.flatten candidates)))) := by
  have safe := safe_intern sound (carries_union fun id member => (held.flatten sound id member).1)
  have holds := fun candidate member => (held candidate member).1
  have flat := flatten_grow safe.grows holds
  refine ⟨safe, .mixed (by rw [flat]; exact several)
    ((mapM_fields?_grow sound safe.grows holds).trans notObjects)
    ((mapM_elements?_grow sound safe.grows holds).trans notLists) ?_⟩
  rw [flat]
  exact sound.members?_intern _

end Several

/-- **One step down keeps what deeper merges promise.** -/
theorem mergeStep_merged {level : Nat} {deeper : Merger} (merges : MergesBelow level deeper) :
    MergesBelow (level + 1) (mergeStep deeper) := by
  intro candidates registry sound held
  cases registry.kinds candidates with
  | nothing flat =>
    have safe := safe_intern sound (carries_union (holds_nil registry))
    have flatLater := flatten_grow safe.grows fun candidate member => (held candidate member).1
    rw [mergeStep_of_nil flat]
    exact ⟨safe, .nothing (flatLater.trans flat) (sound.members?_intern _)⟩
  | @alone only flat =>
    have inside : only ∈ registry.flatten candidates := by
      rw [flat]
      exact List.mem_singleton_self only
    rw [mergeStep_of_singleton flat]
    exact ⟨⟨sound, .refl _, (held.flatten sound only inside).1⟩, .alone flat⟩
  | objects several all =>
    rw [mergeStep_of_objects several all]
    exact merged_of_objects merges sound held several all
  | lists several all =>
    rw [mergeStep_of_lists several all]
    exact merged_of_lists merges sound held several all
  | mixed several notObjects notLists =>
    rw [mergeStep_of_mix several notObjects notLists]
    exact merged_of_mix sound held several notObjects notLists

theorem mergesBelow_mergeBelow (level : Nat) : MergesBelow level (mergeBelow level) := by
  induction level with
  | zero =>
    -- Nothing lies below the ground, so that there is nothing to merge here.
    intro candidates registry sound held
    have nothing : candidates = [] :=
      List.eq_nil_iff_forall_not_mem.mpr fun candidate member =>
        Nat.not_lt_zero _ (held candidate member).2
    subst nothing
    have safe := safe_intern sound (carries_union (holds_nil registry))
    exact ⟨safe, .nothing rfl (sound.members?_intern _)⟩
  | succ level step => exact mergeStep_merged step

theorem ceiling_le_iff {level : Nat} : ceiling candidates ≤ level ↔
    ∀ candidate ∈ candidates, candidate.ceiling ≤ level := by
  induction candidates with
  | nil => exact iff_of_true (Nat.zero_le _) fun _ member => absurd member List.not_mem_nil
  | cons first rest step =>
    show max first.ceiling (ceiling rest) ≤ level ↔ _
    rw [Nat.max_le, step, List.forall_mem_cons]

theorem ceiling_le_of_mem (member : id ∈ candidates) : id.ceiling ≤ ceiling candidates :=
  ceiling_le_iff.mp (Nat.le_refl _) id member

/-- The bound depends on which identities there are. -/
theorem ceiling_eq_of_mem_iff {others : List ShapeId}
    (same : ∀ id, id ∈ candidates ↔ id ∈ others) : ceiling candidates = ceiling others := by
  refine Nat.le_antisymm (ceiling_le_iff.mpr fun id member => ?_)
    (ceiling_le_iff.mpr fun id member => ?_)
  · exact ceiling_le_of_mem ((same id).mp member)
  · exact ceiling_le_of_mem ((same id).mpr member)

/-- **Merging gives a join,** in a sound registry that has only grown. -/
theorem merge_merged (sound : registry.Sound)
    (held : ∀ candidate ∈ candidates, registry.Holds candidate) :
    Merged registry candidates (registry.merge candidates) :=
  mergesBelow_mergeBelow _ candidates registry sound fun candidate member =>
    ⟨held candidate member, Nat.lt_succ_of_le (ceiling_le_of_mem member)⟩

end SampleShapes.Registry
