/-
**Merging again.**

A merge that is made a second time finds every shape that it interned the first time, whatever was
interned in between, in whatever order its candidates come and however often each of them: flat
candidates come in another order then, fields are gathered in another order, and the merges that
lead down are made in another order, but each of them is a merge that was made before. Nothing that
the registry points at need be kept for this, since what was dropped stays dropped.

* `Interns.ordered`: interning what points at identities that were handed out keeps a registry
  ordered;
* `flatten_perm`: candidates are flat alike in any order;
* `mergeObjects_repeats`, `mergeLists_repeats`: objects and lists are merged again as before;
* `mergeStep_repeats`: one step down is repeated if deeper merges are;
* `merge_eq_of_same_candidates`: **merging the same candidates again changes nothing.**
-/

import SampleShapes.Proofs.Registry.Interning
import SampleShapes.Proofs.Registry.Stillness

namespace SampleShapes.Registry

variable {registry later : Registry} {candidates others ids : List ShapeId}
  {id joined : ShapeId} {level : Nat} {deeper : Merger}

/-! ### Identities that were handed out -/

/-- The identity is no node that is still to come; what it denotes may have been dropped. -/
def Issued (registry : Registry) (id : ShapeId) : Prop := id.ceiling ≤ registry.capacity

theorem heritable_issued : Heritable Issued where
  grow grows issued := Nat.le_trans issued grows.capacity_le
  kept found := ceiling_le_capacity (holds_of_shape? found)
  null _ := Nat.zero_le _

theorem Ordered.pointsAt (ordered : registry.Ordered) : registry.PointsAt Issued :=
  fun _ _ found _ member => Nat.le_of_lt <|
    Nat.lt_of_lt_of_le (ordered.child found member) (ceiling_le_capacity (holds_of_shape? found))

/-- Interning what points at identities that were handed out keeps a registry ordered. -/
theorem Interns.ordered (interns : registry.Interns Issued later) (ordered : registry.Ordered) :
    later.Ordered := by
  induction interns with
  | nothing => exact ordered
  | next _ children kept =>
    refine ⟨kept.toIndexed.intern _, fun index shape found child member => ?_⟩
    rcases shapeAt?_intern_cases found with old | ⟨rfl, rfl⟩
    · exact kept.descends index shape old child member
    · exact children child member

/-- A shape may be interned if nothing that it points at is still to come. -/
theorem Ordered.intern (ordered : registry.Ordered) (shape : Shape)
    (issued : ∀ child ∈ shape.children, child.ceiling ≤ registry.capacity) :
    (registry.intern shape).2.Ordered :=
  (Interns.next .nothing issued).ordered ordered

/-- Any shape may be dropped. -/
theorem Ordered.retain (ordered : registry.Ordered) (kept : List Nat) :
    (registry.retain kept).Ordered where
  toIndexed := ordered.toIndexed.retain kept
  descends index shape found := by
    rw [shapeAt?_retain] at found
    split at found
    · exact ordered.descends index shape found
    · cases found

/-! ### Repeated merges -/

/-- From `registry` on, whatever is interned in between, the merger makes of the candidates what it
made of them before, in whatever order they come, and changes nothing. -/
def Repeats (merger : Merger) (registry : Registry) (candidates : List ShapeId) (id : ShapeId) :
    Prop :=
  ∀ later, registry.Grows later → later.Indexed → ∀ others,
    (∀ other, other ∈ others ↔ other ∈ candidates) → merger others later = (id, later)

theorem Repeats.grow (repeats : Repeats deeper registry candidates id)
    (grows : registry.Grows later) : Repeats deeper later candidates id :=
  fun last further => repeats last (grows.trans further)

/-- The merger repeats every merge of candidates that were handed out and lie below `level`. -/
def RepeatsBelow (level : Nat) (merger : Merger) : Prop :=
  ∀ candidates registry, registry.Ordered → Below level candidates →
    (∀ candidate ∈ candidates, registry.Issued candidate) →
      Repeats merger (merger candidates registry).2 candidates (merger candidates registry).1

/-! ### Parts of a merge -/

/-- What was interned is found again. -/
theorem intern_repeats {shape : Shape} (ordered : registry.Indexed)
    (grows : (registry.intern shape).2.Grows later) (indexed : later.Indexed) :
    later.intern shape = ((registry.intern shape).1, later) := by
  obtain ⟨kept, found, same⟩ := ordered.exists_shape?_intern shape
  exact indexed.intern_of_fingerprint_eq (grows.within.shape? found) same

/-- Candidates are flat alike in any order. -/
theorem flatten_perm (same : ∀ id, id ∈ others ↔ id ∈ candidates)
    (stays : ∀ candidate ∈ candidates, later.shape? candidate = registry.shape? candidate) :
    (later.flatten others).Perm (registry.flatten candidates) := by
  have once := Lists.eraseDups_perm same
  have spread : (later.spread others).Perm (registry.spread candidates) := by
    refine Lists.eraseDups_perm fun id => ?_
    rw [List.mem_flatMap, List.mem_flatMap]
    refine exists_congr fun candidate => ?_
    rw [once.mem_iff]
    refine and_congr_right fun member => ?_
    unfold alternatives
    rw [members?_congr (stays candidate (List.mem_eraseDups.mp member))]
  rw [flatten_eq, flatten_eq, once.length_eq]
  split
  · exact once
  · exact spread

theorem flatten_perm_of_mem_iff (registry : Registry) (same : ∀ id, id ∈ others ↔ id ∈ candidates) :
    (registry.flatten others).Perm (registry.flatten candidates) :=
  flatten_perm same fun _ _ => rfl

/-- A join is one of the same candidates in any order. -/
theorem Joins.of_mem_iff (joins : registry.Joins candidates joined)
    (same : ∀ id, id ∈ others ↔ id ∈ candidates) : registry.Joins others joined := by
  induction joins generalizing others with
  | nothing flat found =>
    have perm := flatten_perm_of_mem_iff registry same
    rw [flat] at perm
    exact .nothing perm.eq_nil found
  | alone flat =>
    have perm := flatten_perm_of_mem_iff registry same
    rw [flat] at perm
    exact .alone (List.perm_singleton.mp perm)
  | objects several all found unites each nullable step =>
    have perm := flatten_perm_of_mem_iff registry same
    obtain ⟨objects', all', permObjects⟩ :=
      Lists.exists_mapM_of_perm (perm.filter (· ≠ .null)) all
    refine .objects (by rwa [perm.length_eq]) all' found
      (unites.congr (fun _ => permObjects.mem_iff) fun _ => rfl) (fun raw field under => ?_)
      (nullable.congr perm.mem_iff)
    exact step raw field under fun _ => ((permObjects.filterMap _).map _).mem_iff
  | lists several all found each nullable step =>
    have perm := flatten_perm_of_mem_iff registry same
    obtain ⟨lists', all', permLists⟩ :=
      Lists.exists_mapM_of_perm (perm.filter (· ≠ .null)) all
    exact .lists (by rwa [perm.length_eq]) all' found
      (step fun _ => (permLists.flatMap_right _).mem_iff) (nullable.congr perm.mem_iff)
  | mixed several notObjects notLists found =>
    have perm := flatten_perm_of_mem_iff registry same
    have solid := perm.filter (· ≠ .null)
    refine .mixed (by rwa [perm.length_eq]) (Lists.mapM_eq_none_of_perm solid notObjects)
      (Lists.mapM_eq_none_of_perm solid notLists) ?_
    rw [found, IdSet.ofList_congr fun _ => perm.mem_iff]

/-- What the evidence under a raw key was made of is made of it again. -/
structure Resettles (deeper : Merger) (count : Nat) (evidence : Evidence) (field : Field)
    (registry : Registry) : Prop where
  optional : field.optional = (evidence.optional || decide (evidence.holders < count))
  repeats : Repeats deeper registry evidence.shapes field.shape

theorem Resettles.grow {count : Nat} {evidence : Evidence} {field : Field}
    (resettles : Resettles deeper count evidence field registry) (grows : registry.Grows later) :
    Resettles deeper count evidence field later :=
  ⟨resettles.optional, resettles.repeats.grow grows⟩

section Parts

variable (merges : MergesFine Issued deeper) (repeats : RepeatsBelow level deeper)
  (ordered : registry.Ordered)
include merges repeats ordered

section Objects

variable {objects : List (Table String Field)}
  (below : ∀ raw, Below level (shapesUnder objects raw))
  (issued : ∀ raw, ∀ id ∈ shapesUnder objects raw, registry.Issued id)
include below issued

/-- Every field is made again of what it was made of. -/
theorem thread_resettles {fields : Table String Field}
    (threaded : (Evidence.gather objects).thread (settle deeper objects.length) registry =
      (fields, later)) :
    registry.Interns Issued later ∧ fields.keys = (Evidence.gather objects).keys ∧
      ∀ raw field, fields.get? raw = some field → ∃ evidence,
        (Evidence.gather objects).get? raw = some evidence ∧
          Resettles deeper objects.length evidence field later := by
  -- Each merge starts in the registry that the merges before it have grown.
  have one : ∀ entry ∈ (Evidence.gather objects).entries, ∀ between,
      registry.Interns Issued between → True → True ∧
        between.Interns Issued (settle deeper objects.length entry.2 between).2 ∧
        Resettles deeper objects.length entry.2 (settle deeper objects.length entry.2 between).1
          (settle deeper objects.length entry.2 between).2 := by
    rintro ⟨raw, evidence⟩ member between interns _
    obtain ⟨_, shapes, _⟩ := Evidence.eq_of_get?_gather (Table.get?_eq_some_iff.mpr member)
    have under : ∀ id ∈ evidence.shapes, id ∈ shapesUnder objects raw := fun id inside => by
      rwa [shapes, List.mem_eraseDups] at inside
    have ordered := interns.ordered ordered
    have issued : ∀ id ∈ evidence.shapes, between.Issued id := fun id inside =>
      heritable_issued.grow interns.grows (issued raw id (under id inside))
    exact ⟨trivial, (merges _ between ordered.toIndexed ordered.pointsAt issued).interns, rfl,
      repeats _ between ordered (fun id inside => below raw id (under id inside)) issued⟩
  obtain ⟨_, interns, all⟩ := Table.forall₂_threadEntries (fun _ => Interns.nothing)
    (fun _ _ _ => Interns.trans) (fun _ _ _ _ _ resettles interns => resettles.grow interns.grows)
    _ registry trivial one
  obtain ⟨rfl, rfl⟩ := Prod.mk.inj threaded
  refine ⟨interns, Table.map_fst_threadEntries _ _ _, fun raw field found => ?_⟩
  obtain ⟨⟨_, evidence⟩, member, rfl, resettles⟩ :=
    Lists.exists_mem_of_forall₂_right all (Table.get?_eq_some_iff.mp found)
  exact ⟨evidence, Table.get?_eq_some_iff.mpr member, resettles⟩

/-- **Objects are merged again as before,** in any order. -/
theorem mergeObjects_repeats {objects' : List (Table String Field)} (perm : objects'.Perm objects)
    (grows : (mergeObjects deeper objects registry).2.Grows later) (indexed : later.Indexed) :
    mergeObjects deeper objects' later = ((mergeObjects deeper objects registry).1, later) := by
  rw [mergeObjects_eq deeper objects registry] at grows ⊢
  obtain ⟨⟨fields, between⟩, threaded⟩ :
      ∃ result, (Evidence.gather objects).thread (settle deeper objects.length) registry = result :=
    ⟨_, rfl⟩
  obtain ⟨interns, keys, settled⟩ :=
    thread_resettles merges repeats ordered below issued threaded
  rw [threaded] at grows ⊢
  dsimp only at grows ⊢
  have unites := unites_of_gather keys fun raw field found =>
    have ⟨evidence, gathered, resettles⟩ := settled raw field found
    ⟨evidence, gathered, resettles.optional⟩
  -- What was interned may be an object with the same fields that was there before.
  obtain ⟨shape, found, same⟩ :=
    (interns.indexed ordered.toIndexed).exists_shape?_intern (.object fields)
  obtain ⟨kept, rfl, outlines⟩ := Shape.exists_object_of_fingerprint same
  refine mergeObjects_of_unites indexed (fields?_eq_some_iff.mpr (grows.within.shape? found))
    (unites.congr (fun _ => perm.mem_iff) outlines) fun raw field under => ?_
  obtain ⟨field', found', outline⟩ :=
    Option.map_eq_some_iff.mp ((outlines raw).symm.trans (congrArg _ under))
  obtain ⟨evidence, gathered, resettles⟩ := settled raw field' found'
  obtain ⟨_, shapes, _⟩ := Evidence.eq_of_get?_gather gathered
  have shape : field'.shape = field.shape := congrArg Prod.snd outline
  rw [← shape]
  refine resettles.repeats later ((grows_intern _ _).trans grows) indexed _ fun id => ?_
  rw [shapes, List.mem_eraseDups, List.mem_eraseDups]
  exact ((perm.filterMap _).map _).mem_iff

end Objects

/-- **Lists are merged again as before,** in any order. -/
theorem mergeLists_repeats {lists lists' : List IdSet}
    (below : Below level (lists.flatMap IdSet.toList))
    (issued : ∀ id ∈ lists.flatMap IdSet.toList, registry.Issued id) (perm : lists'.Perm lists)
    (grows : (mergeLists deeper lists registry).2.Grows later) (indexed : later.Indexed) :
    mergeLists deeper lists' later = ((mergeLists deeper lists registry).1, later) := by
  have once : ∀ id, id ∈ (lists.flatMap IdSet.toList).eraseDups ↔ id ∈ lists.flatMap IdSet.toList :=
    fun id => List.mem_eraseDups
  have issued : ∀ id ∈ (lists.flatMap IdSet.toList).eraseDups, registry.Issued id :=
    fun id member => issued id ((once id).mp member)
  have again := repeats _ registry ordered (fun id member => below id ((once id).mp member)) issued
  have interns := (merges _ registry ordered.toIndexed ordered.pointsAt issued).interns
  unfold mergeLists at grows
  have found := (interns.indexed ordered.toIndexed).elements?_intern
    (.singleton (deeper (lists.flatMap IdSet.toList).eraseDups registry).1)
  refine mergeLists_of_elements indexed (grows.within.elements? found) ?_
  refine again later ((grows_intern _ _).trans grows) indexed _ fun id => ?_
  rw [List.mem_eraseDups, once]
  exact (perm.flatMap_right _).mem_iff

end Parts

/-- **A merge is made nullable again as before.** -/
theorem orNull_repeats {merged : ShapeId × Registry} {ids' : List ShapeId}
    (null : .null ∈ ids' ↔ .null ∈ ids) (indexedMerged : merged.2.Indexed)
    (grows : (orNull ids merged).2.Grows later) (indexed : later.Indexed) :
    orNull ids' (merged.1, later) = ((orNull ids merged).1, later) :=
  orNull_of_isNullable indexed (((isNullable_orNull ids indexedMerged).grow grows).congr null)

/-! ### The merge -/

/-- **One step down is repeated if deeper merges are.** -/
theorem mergeStep_repeats (merges : MergesFine Issued deeper)
    (repeats : RepeatsBelow level deeper) : RepeatsBelow (level + 1) (mergeStep deeper) := by
  intro candidates registry ordered below issued later grows indexed others same
  have points := ordered.pointsAt
  have handsOn := mergeStep_handsOn heritable_issued merges candidates registry ordered.toIndexed
    points issued
  have stays : ∀ id, registry.Issued id → later.shape? id = registry.shape? id :=
    fun id issued => (handsOn.interns.grows.trans grows).shape?_eq_of_le issued
  have flat := flatten_perm same fun candidate member => stays candidate (issued candidate member)
  have issuedFlat := fine_of_mem_flatten points issued
  have belowFlat := below.flatten ordered
  have solid := flat.filter (· ≠ .null)
  have sameFields : ((registry.flatten candidates).filter (· ≠ .null)).mapM later.fields? =
      ((registry.flatten candidates).filter (· ≠ .null)).mapM registry.fields? :=
    Lists.mapM_congr fun id member =>
      fields?_congr (stays id (issuedFlat id (List.mem_of_mem_filter member)))
  have sameElements : ((registry.flatten candidates).filter (· ≠ .null)).mapM later.elements? =
      ((registry.flatten candidates).filter (· ≠ .null)).mapM registry.elements? :=
    Lists.mapM_congr fun id member =>
      elements?_congr (stays id (issuedFlat id (List.mem_of_mem_filter member)))
  cases registry.kinds candidates with
  | nothing none =>
    rw [none] at flat
    rw [mergeStep_of_nil none] at grows ⊢
    rw [mergeStep_of_nil flat.eq_nil]
    exact intern_repeats ordered.toIndexed grows indexed
  | alone one =>
    rw [one] at flat
    rw [mergeStep_of_singleton one, mergeStep_of_singleton (List.perm_singleton.mp flat)]
  | objects several all =>
    obtain ⟨objects', all', perm⟩ := Lists.exists_mapM_of_perm solid (sameFields.trans all)
    rw [mergeStep_of_objects several all] at grows ⊢
    have under := fine_of_mem_shapesUnder points all
    have interns := (mergeObjects_handsOn heritable_issued merges ordered.toIndexed points
      under).interns
    have again := mergeObjects_repeats merges repeats ordered (belowFlat.shapesUnder ordered all)
      under perm ((grows_orNull _ _).trans grows) indexed
    rw [mergeStep_of_objects (by rwa [flat.length_eq]) all', again]
    exact orNull_repeats flat.mem_iff (interns.indexed ordered.toIndexed) grows indexed
  | lists several all =>
    obtain ⟨lists', all', perm⟩ := Lists.exists_mapM_of_perm solid (sameElements.trans all)
    rw [mergeStep_of_lists several all] at grows ⊢
    have elements := fine_of_mem_elements points all
    have interns := (mergeLists_handsOn heritable_issued merges ordered.toIndexed points
      elements).interns
    have again := mergeLists_repeats merges repeats ordered (belowFlat.elements ordered all)
      elements perm ((grows_orNull _ _).trans grows) indexed
    rw [mergeStep_of_lists (by rwa [flat.length_eq]) all', again]
    exact orNull_repeats flat.mem_iff (interns.indexed ordered.toIndexed) grows indexed
  | mixed several notObjects notLists =>
    rw [mergeStep_of_mix several notObjects notLists] at grows ⊢
    rw [mergeStep_of_mix (by rwa [flat.length_eq])
      (Lists.mapM_eq_none_of_perm solid (sameFields.trans notObjects))
      (Lists.mapM_eq_none_of_perm solid (sameElements.trans notLists)),
      IdSet.ofList_congr fun _ => flat.mem_iff]
    exact intern_repeats ordered.toIndexed grows indexed

theorem mergeBelow_repeats (level : Nat) : RepeatsBelow level (mergeBelow level) := by
  induction level with
  | zero =>
    -- Nothing lies below the ground, so that there is nothing to merge here.
    intro candidates registry ordered below _ later grows indexed others same
    obtain rfl := below.eq_nil
    obtain rfl : others = [] := List.eq_nil_iff_forall_not_mem.mpr fun other member =>
      absurd ((same other).mp member) List.not_mem_nil
    exact intern_repeats ordered.toIndexed grows indexed
  | succ level deeper => exact mergeStep_repeats (mergeBelow_handsOn heritable_issued level) deeper

/-- **Merging the same candidates again changes nothing,** in whatever order they come and however
often each of them. -/
theorem merge_eq_of_same_candidates (ordered : registry.Ordered)
    (same : ∀ id, id ∈ others ↔ id ∈ candidates)
    (merged : registry.merge candidates = (joined, later)) :
    later.merge others = (joined, later) := by
  by_cases issued : ∀ candidate ∈ candidates, registry.Issued candidate
  · have handsOn := merge_handsOn heritable_issued ordered.toIndexed ordered.pointsAt issued
    have interns := handsOn.interns
    have repeats : Repeats (mergeBelow (ceiling candidates + 1)) (registry.merge candidates).2
        candidates (registry.merge candidates).1 :=
      mergeBelow_repeats _ candidates registry ordered (below_ceiling candidates) issued
    have level : ceiling others = ceiling candidates := by
      refine Nat.le_antisymm (ceiling_le_iff.mpr ?_) (ceiling_le_iff.mpr ?_)
      · exact fun other member => ceiling_le_of_mem ((same other).mp member)
      · exact fun candidate member => ceiling_le_of_mem ((same candidate).mpr member)
    rw [merged] at interns repeats
    rw [merge, level]
    exact repeats later (.refl later) (interns.indexed ordered.toIndexed) others same
  · push Not at issued
    obtain ⟨stranger, member, beyond⟩ := issued
    -- A node that is still to come is not kept.
    obtain ⟨leaf, notNull⟩ := leaf_of_not_holds (mt ceiling_le_capacity beyond)
    exact merge_of_leaf ordered.toIndexed member leaf notNull merged
      (fun other inside => .inr ((same other).mp inside))
      (.inr fun candidate inside => (same candidate).mpr inside)

/-- Two objects without a key in common, whose values point at a list that was dropped, merge to an
object whose fields come in another order the second time. -/
theorem merge_eq_of_two_objects :
    ∃ registry later : Registry, registry.Ordered ∧ registry.shape? (.node 0) = none ∧
      (∀ id : ShapeId, id ∈ [.node 2, .node 1, .node 2] ↔ id ∈ [.node 1, .node 2]) ∧
      registry.merge [.node 1, .node 2] = (.node 3, later) ∧ later.size = 3 ∧
      later.merge [.node 2, .node 1, .node 2] = (.node 3, later) := by
  have list := sound_empty.ordered.intern (.list (.singleton .null)) (by decide)
  have first := list.intern (.object (.ofList [("a", ⟨.parse "a", .node 0, false⟩)]))
    (by decide +kernel)
  have second := first.intern (.object (.ofList [("b", ⟨.parse "b", .node 0, false⟩)]))
    (by decide +kernel)
  have ordered := second.retain [1, 2]
  have same : ∀ id : ShapeId, id ∈ [.node 2, .node 1, .node 2] ↔ id ∈ [.node 1, .node 2] := by
    intro id
    simp only [List.mem_cons, List.not_mem_nil, or_false]
    tauto
  refine ⟨_, _, ordered, by decide +kernel, same, Prod.ext (by decide +kernel) rfl,
    by decide +kernel, ?_⟩
  exact merge_eq_of_same_candidates ordered same (Prod.ext (by decide +kernel) rfl)

end SampleShapes.Registry
