/-
**What merging interns.**

Merging does nothing to a registry but intern shapes, and what these shapes point at are its
candidates, what kept shapes point at, null, or what was interned before. So a property that all of
these have is handed on: whatever a merge interns points at nothing else, and what it comes back
with has the property, too. Nothing is asked of the registry but that its index is in step with the
slots; what its shapes point at need not be kept.

* `Interns.grows`, `Interns.indexed`, `Interns.pointsAt`: what interning leaves of a registry;
* `mergeStep_handsOn`: one step down hands a property on if deeper merges do;
* `merge_handsOn`: **merging does nothing but intern, and hands a property on.**
-/

import SampleShapes.Proofs.Registry.Merging

namespace SampleShapes.Registry

variable {registry later last : Registry} {candidates : List ShapeId} {id : ShapeId}
  {shape : Shape} {fine : Registry → ShapeId → Prop}

/-! ### Properties of identities -/

/-- A property of identities that can be handed on. -/
structure Heritable (fine : Registry → ShapeId → Prop) : Prop where
  /-- It lasts while the registry grows. -/
  grow : ∀ {registry later : Registry} {id : ShapeId}, registry.Grows later → fine registry id →
    fine later id
  /-- What is kept has it. -/
  kept : ∀ {registry : Registry} {id : ShapeId} {shape : Shape}, registry.shape? id = some shape →
    fine registry id
  /-- Null has it. -/
  null : ∀ registry, fine registry .null

/-- What kept shapes point at has the property. -/
def PointsAt (fine : Registry → ShapeId → Prop) (registry : Registry) : Prop :=
  ∀ id shape, registry.shape? id = some shape → ∀ child ∈ shape.children, fine registry child

/-- `later` comes from `registry` by interning shapes, one after the other, that point at nothing
without the property. -/
inductive Interns (fine : Registry → ShapeId → Prop) (registry : Registry) : Registry → Prop where
  /-- Without a shape nothing changes. -/
  | nothing : Interns fine registry registry
  /-- One more shape is interned. -/
  | next {later : Registry} {shape : Shape} (before : Interns fine registry later)
      (children : ∀ child ∈ shape.children, fine later child) :
      Interns fine registry (later.intern shape).2

namespace Interns

theorem trans (first : registry.Interns fine later) (second : later.Interns fine last) :
    registry.Interns fine last := by
  induction second with
  | nothing => exact first
  | next _ children before => exact before.next children

/-- No slot is lost, and none changes. -/
theorem grows (interns : registry.Interns fine later) : registry.Grows later := by
  induction interns with
  | nothing => exact .refl registry
  | next _ _ grown => exact grown.trans (grows_intern _ _)

/-- The index stays in step with the slots. -/
theorem indexed (interns : registry.Interns fine later) (indexed : registry.Indexed) :
    later.Indexed := by
  induction interns with
  | nothing => exact indexed
  | next _ _ kept => exact kept.intern _

/-- What kept shapes point at goes on having the property. -/
theorem pointsAt (heritable : Heritable fine) (interns : registry.Interns fine later)
    (points : registry.PointsAt fine) : later.PointsAt fine := by
  induction interns with
  | nothing => exact points
  | @next between shape before children kept =>
    intro id other found child member
    have grows := grows_intern shape between
    obtain ⟨index, rfl, slot⟩ := shape?_eq_some_iff.mp found
    rcases shapeAt?_intern_cases slot with old | ⟨_, rfl⟩
    · exact heritable.grow grows (kept (.node index) other old child member)
    · exact heritable.grow grows (children child member)

end Interns

/-! ### Handing on -/

/-- A result of working on `registry` that hands the property on. -/
structure HandsOn (fine : Registry → ShapeId → Prop) (registry : Registry)
    (result : ShapeId × Registry) : Prop where
  /-- Nothing but shapes that point at what has the property is interned. -/
  interns : registry.Interns fine result.2
  /-- What comes back has the property. -/
  result : fine result.2 result.1

/-- The merger hands the property on if all candidates have it. -/
def MergesFine (fine : Registry → ShapeId → Prop) (merger : Merger) : Prop :=
  ∀ candidates registry, registry.Indexed → registry.PointsAt fine →
    (∀ candidate ∈ candidates, fine registry candidate) →
      HandsOn fine registry (merger candidates registry)

section

variable (heritable : Heritable fine)
include heritable

/-- What is interned is kept. -/
theorem HandsOn.intern (indexed : registry.Indexed) (interns : registry.Interns fine later)
    (children : ∀ child ∈ shape.children, fine later child) :
    HandsOn fine registry (later.intern shape) := by
  obtain ⟨kept, found, _⟩ := (interns.indexed indexed).exists_shape?_intern shape
  exact ⟨interns.next children, heritable.kept found⟩

theorem orNull_handsOn (ids : List ShapeId) (indexed : registry.Indexed)
    {merged : ShapeId × Registry} (handsOn : HandsOn fine registry merged) :
    HandsOn fine registry (orNull ids merged) := by
  unfold orNull
  split
  · refine .intern heritable indexed handsOn.interns fun child member => ?_
    rcases List.mem_cons.mp (IdSet.mem_ofList.mp member) with rfl | null
    · exact handsOn.result
    · rw [List.mem_singleton.mp null]
      exact heritable.null _
  · exact handsOn

omit heritable in
/-- Flat candidates are candidates, or what kept unions point at. -/
theorem fine_of_mem_flatten (points : registry.PointsAt fine)
    (isFine : ∀ candidate ∈ candidates, fine registry candidate) :
    ∀ id ∈ registry.flatten candidates, fine registry id := by
  intro id member
  rcases mem_candidates_of_mem_flatten member with inside | ⟨union, _, members, found, part⟩
  · exact isFine id inside
  · exact points union _ (members?_eq_some_iff.mp found) id part

omit heritable in
/-- What objects have under a raw key is what kept objects point at. -/
theorem fine_of_mem_shapesUnder (points : registry.PointsAt fine) {ids : List ShapeId}
    {objects : List (Table String Field)}
    (all : (ids.filter (· ≠ .null)).mapM registry.fields? = some objects) (raw : String) :
    ∀ id ∈ shapesUnder objects raw, fine registry id := by
  intro id member
  obtain ⟨parent, _, shape, found, child⟩ := exists_parent_of_mem_shapesUnder all member
  exact points parent shape found id child

omit heritable in
/-- Elements of lists are what kept lists point at. -/
theorem fine_of_mem_elements (points : registry.PointsAt fine) {ids : List ShapeId}
    {lists : List IdSet}
    (all : (ids.filter (· ≠ .null)).mapM registry.elements? = some lists) :
    ∀ id ∈ lists.flatMap IdSet.toList, fine registry id := by
  intro id member
  obtain ⟨parent, _, shape, found, child⟩ := exists_parent_of_mem_elements all member
  exact points parent shape found id child

section Step

variable {deeper : Merger} (merges : MergesFine fine deeper) (indexed : registry.Indexed)
  (points : registry.PointsAt fine)
include merges indexed points

theorem mergeObjects_handsOn {objects : List (Table String Field)}
    (isFine : ∀ raw, ∀ id ∈ shapesUnder objects raw, fine registry id) :
    HandsOn fine registry (mergeObjects deeper objects registry) := by
  rw [mergeObjects_eq]
  -- Each merge starts in the registry that the merges before it have grown.
  have one : ∀ entry ∈ (Evidence.gather objects).entries, ∀ between, registry.Interns fine between →
      True → True ∧ between.Interns fine (settle deeper objects.length entry.2 between).2 ∧
        fine (settle deeper objects.length entry.2 between).2
          (settle deeper objects.length entry.2 between).1.shape := by
    rintro ⟨raw, evidence⟩ member between interns _
    obtain ⟨_, shapes, _⟩ := Evidence.eq_of_get?_gather (Table.get?_eq_some_iff.mpr member)
    have handsOn := merges evidence.shapes between (interns.indexed indexed)
      (interns.pointsAt heritable points) fun id inside => by
        rw [shapes, List.mem_eraseDups] at inside
        exact heritable.grow interns.grows (isFine raw id inside)
    exact ⟨trivial, handsOn.interns, handsOn.result⟩
  have stays : ∀ (_ : Evidence) (field : Field) (between later : Registry), True →
      fine between field.shape → between.Interns fine later → fine later field.shape :=
    fun _ _ _ _ _ isFine interns => heritable.grow interns.grows isFine
  obtain ⟨_, interns, all⟩ := Table.forall₂_threadEntries (fun _ => Interns.nothing)
    (fun _ _ _ => Interns.trans) stays _ registry trivial one
  refine .intern heritable indexed interns fun child member => ?_
  obtain ⟨field, inside, rfl⟩ := List.mem_map.mp member
  obtain ⟨entry, listed, rfl⟩ := List.mem_map.mp inside
  obtain ⟨_, _, _, isFine⟩ := Lists.exists_mem_of_forall₂_right all listed
  exact isFine

theorem mergeLists_handsOn {lists : List IdSet}
    (isFine : ∀ id ∈ lists.flatMap IdSet.toList, fine registry id) :
    HandsOn fine registry (mergeLists deeper lists registry) := by
  have handsOn := merges (lists.flatMap IdSet.toList).eraseDups registry indexed points
    fun id member => isFine id (List.mem_eraseDups.mp member)
  refine .intern heritable indexed handsOn.interns fun child member => ?_
  rw [List.mem_singleton.mp member]
  exact handsOn.result

end Step

/-- **One step down hands a property on if deeper merges do.** -/
theorem mergeStep_handsOn {deeper : Merger} (merges : MergesFine fine deeper) :
    MergesFine fine (mergeStep deeper) := by
  intro candidates registry indexed points isFine
  have flatFine := fine_of_mem_flatten points isFine
  cases registry.kinds candidates with
  | nothing flat =>
    rw [mergeStep_of_nil flat]
    exact .intern heritable indexed .nothing fun child member => absurd member List.not_mem_nil
  | @alone only flat =>
    rw [mergeStep_of_singleton flat]
    refine ⟨.nothing, flatFine only ?_⟩
    rw [flat]
    exact List.mem_singleton_self only
  | objects several all =>
    rw [mergeStep_of_objects several all]
    exact orNull_handsOn heritable _ indexed
      (mergeObjects_handsOn heritable merges indexed points (fine_of_mem_shapesUnder points all))
  | lists several all =>
    rw [mergeStep_of_lists several all]
    exact orNull_handsOn heritable _ indexed
      (mergeLists_handsOn heritable merges indexed points (fine_of_mem_elements points all))
  | mixed several notObjects notLists =>
    rw [mergeStep_of_mix several notObjects notLists]
    exact .intern heritable indexed .nothing fun child member =>
      flatFine child (IdSet.mem_ofList.mp member)

theorem mergeBelow_handsOn (level : Nat) : MergesFine fine (mergeBelow level) := by
  induction level with
  | zero =>
    intro candidates registry indexed _ isFine
    exact .intern heritable indexed .nothing fun child member =>
      isFine child (IdSet.mem_ofList.mp member)
  | succ level deeper => exact mergeStep_handsOn heritable deeper

/-- **Merging does nothing but intern, and hands a property on.** -/
theorem merge_handsOn (indexed : registry.Indexed) (points : registry.PointsAt fine)
    (isFine : ∀ candidate ∈ candidates, fine registry candidate) :
    HandsOn fine registry (registry.merge candidates) :=
  mergeBelow_handsOn heritable _ candidates registry indexed points isFine

end

end SampleShapes.Registry
