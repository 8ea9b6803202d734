/-
**Merges that ask for merges.**

Merging objects or lists asks for merges of what these point at, one after the other, each in the
registry that the one before it leaves behind. The registry grows all the while, but what is new in
it is never merged again: whatever is asked for was pointed at before the first merge, and lies
further down than what asks for it. No more is needed for this than that shapes point downwards.

* `calls`: the merges that one step down asks for;
* `Returns`, `Asks`: a merge comes back, and asks for others, without a bound on how deep it goes;
* `Returns.unique`, `Returns.grows`: there is one way to come back, which only adds to the registry;
* `InRun.of_asks`: **what a merge asks for was there before all of them, and lies further down;**
* `merge_returns`: **every merge comes back,** with what the bounded merge comes back with.
-/

import Mathlib.Logic.Relation
import SampleShapes.Proofs.Registry.Merging

namespace SampleShapes.Registry

/-- Some candidates to merge, and the registry to merge them in. -/
structure Call where
  /-- The candidates. -/
  candidates : List ShapeId
  /-- The registry at this point. -/
  registry : Registry

/-- What a merger makes of a call. -/
def Call.answer (call : Call) (merger : Merger) : ShapeId × Registry :=
  merger call.candidates call.registry

variable {registry origin : Registry} {candidates : List ShapeId} {deeper other : Merger}
  {call outer inner : Call} {result : ShapeId × Registry} {id : ShapeId}

/-! ### What one step down asks for -/

/-- The merges that settling evidence asks for, each in the registry that the one before it
leaves. -/
def evidenceCalls (deeper : Merger) : List (String × Evidence) → Registry → List Call
  | [], _ => []
  | (_, evidence) :: rest, registry =>
    ⟨evidence.shapes, registry⟩ :: evidenceCalls deeper rest (deeper evidence.shapes registry).2

/-- The merges that merging candidates asks for, in order, if `deeper` answers them. -/
def calls (deeper : Merger) (candidates : List ShapeId) (registry : Registry) : List Call :=
  let solid := (registry.flatten candidates).filter (· ≠ .null)
  if (registry.flatten candidates).length < 2 then []
  else
    match solid.mapM registry.fields?, solid.mapM registry.elements? with
    | some objects, _ => evidenceCalls deeper (Evidence.gather objects).entries registry
    | none, some lists => [⟨(lists.flatMap IdSet.toList).eraseDups, registry⟩]
    | none, none => []

theorem calls_of_few (few : (registry.flatten candidates).length < 2) :
    calls deeper candidates registry = [] := if_pos few

section Several

variable (several : 2 ≤ (registry.flatten candidates).length)
include several

theorem calls_of_objects {objects : List (Table String Field)}
    (all : ((registry.flatten candidates).filter (· ≠ .null)).mapM registry.fields? =
      some objects) :
    calls deeper candidates registry =
      evidenceCalls deeper (Evidence.gather objects).entries registry := by
  unfold calls
  rw [if_neg (Nat.not_lt.mpr several), all]

theorem calls_of_lists {lists : List IdSet}
    (all : ((registry.flatten candidates).filter (· ≠ .null)).mapM registry.elements? =
      some lists) :
    calls deeper candidates registry = [⟨(lists.flatMap IdSet.toList).eraseDups, registry⟩] := by
  unfold calls
  rw [if_neg (Nat.not_lt.mpr several), not_objects_of_lists several all, all]

theorem calls_of_mix
    (notObjects : ((registry.flatten candidates).filter (· ≠ .null)).mapM registry.fields? = none)
    (notLists : ((registry.flatten candidates).filter (· ≠ .null)).mapM registry.elements? =
      none) :
    calls deeper candidates registry = [] := by
  unfold calls
  rw [if_neg (Nat.not_lt.mpr several), notObjects, notLists]

end Several

/-! ### Nothing else counts -/

theorem threadEntries_settle_congr {count : Nat} {entries : List (String × Evidence)}
    (same : ∀ call ∈ evidenceCalls deeper entries registry,
      call ∈ evidenceCalls other entries registry → call.answer deeper = call.answer other) :
    Table.threadEntries (settle deeper count) entries registry =
      Table.threadEntries (settle other count) entries registry := by
  induction entries generalizing registry with
  | nil => rfl
  | cons entry rest step =>
    have first : deeper entry.2.shapes registry = other entry.2.shapes registry :=
      same ⟨entry.2.shapes, registry⟩ List.mem_cons_self List.mem_cons_self
    have settled : settle other count entry.2 registry = settle deeper count entry.2 registry := by
      unfold settle
      rw [first]
    unfold evidenceCalls at same
    rw [← first] at same
    have others : Table.threadEntries (settle deeper count) rest
          (settle deeper count entry.2 registry).2 =
        Table.threadEntries (settle other count) rest (settle deeper count entry.2 registry).2 :=
      step fun call made made' =>
        same call (List.mem_cons_of_mem _ made) (List.mem_cons_of_mem _ made')
    rw [Table.threadEntries_cons, Table.threadEntries_cons, settled, others]

/-- **A step down depends on nothing but the answers to what it asks for.** -/
theorem mergeStep_congr
    (same : ∀ call ∈ calls deeper candidates registry,
      call ∈ calls other candidates registry → call.answer deeper = call.answer other) :
    mergeStep deeper candidates registry = mergeStep other candidates registry := by
  cases registry.kinds candidates with
  | nothing flat => rw [mergeStep_of_nil flat, mergeStep_of_nil flat]
  | alone flat => rw [mergeStep_of_singleton flat, mergeStep_of_singleton flat]
  | objects several all =>
    rw [calls_of_objects several all, calls_of_objects several all] at same
    rw [mergeStep_of_objects several all, mergeStep_of_objects several all, mergeObjects_eq,
      mergeObjects_eq, Table.thread_congr (threadEntries_settle_congr same)]
  | lists several all =>
    rw [calls_of_lists several all, calls_of_lists several all] at same
    have answer := same _ List.mem_cons_self List.mem_cons_self
    rw [mergeStep_of_lists several all, mergeStep_of_lists several all]
    unfold Call.answer at answer
    unfold mergeLists
    rw [answer]
  | mixed several notObjects notLists =>
    rw [mergeStep_of_mix several notObjects notLists, mergeStep_of_mix several notObjects notLists]

/-- What the merges under raw keys add to the registry, the fields add. -/
theorem grows_threadEntries {count : Nat} {entries : List (String × Evidence)}
    (each : ∀ call ∈ evidenceCalls deeper entries registry,
      call.registry.Grows (call.answer deeper).2) :
    registry.Grows (Table.threadEntries (settle deeper count) entries registry).2 := by
  induction entries generalizing registry with
  | nil => exact .refl registry
  | cons entry rest step =>
    unfold evidenceCalls at each
    rw [List.forall_mem_cons] at each
    rw [Table.threadEntries_cons]
    exact each.1.trans (step each.2)

/-- **A step down only adds to the registry,** if the answers to what it asks for do. -/
theorem grows_mergeStep
    (each : ∀ call ∈ calls deeper candidates registry,
      call.registry.Grows (call.answer deeper).2) :
    registry.Grows (mergeStep deeper candidates registry).2 := by
  cases registry.kinds candidates with
  | nothing flat =>
    rw [mergeStep_of_nil flat]
    exact grows_intern _ _
  | alone flat =>
    rw [mergeStep_of_singleton flat]
    exact .refl registry
  | objects several all =>
    rw [calls_of_objects several all] at each
    rw [mergeStep_of_objects several all, mergeObjects_eq]
    exact (grows_threadEntries each).trans ((grows_intern _ _).trans (grows_orNull _ _))
  | lists several all =>
    rw [calls_of_lists several all] at each
    rw [mergeStep_of_lists several all]
    exact (each _ List.mem_cons_self).trans ((grows_intern _ _).trans (grows_orNull _ _))
  | mixed several notObjects notLists =>
    rw [mergeStep_of_mix several notObjects notLists]
    exact grows_intern _ _

/-! ### Coming back -/

/-- A merge comes back once every merge that it asks for has come back. -/
inductive Returns : Call → ShapeId × Registry → Prop where
  /-- With the answers of `deeper`, which have come back, one step down is done. -/
  | down (deeper : Merger) {call : Call}
      (answers : ∀ inner ∈ calls deeper call.candidates call.registry,
        Returns inner (inner.answer deeper)) :
      Returns call (mergeStep deeper call.candidates call.registry)

/-- A merge asks for another one, once those that it asks for before have come back. -/
def Asks (outer inner : Call) : Prop :=
  ∃ deeper before after,
    calls deeper outer.candidates outer.registry = before ++ inner :: after ∧
      ∀ call ∈ before, Returns call (call.answer deeper)

/-- **There is one way to come back.** -/
theorem Returns.unique {result' : ShapeId × Registry} (returns : Returns call result)
    (returns' : Returns call result') : result = result' := by
  induction returns generalizing result' with
  | down deeper answers step =>
    cases returns' with
    | down other answers' =>
      exact mergeStep_congr fun inner made made' => step inner made (answers' inner made')

/-- **A merge that comes back has only added to the registry.** -/
theorem Returns.grows (returns : Returns call result) : call.registry.Grows result.2 := by
  induction returns with
  | down deeper answers step => exact grows_mergeStep step

/-! ### What is asked for -/

/-- Every shape points at nodes further down. -/
def Descends (registry : Registry) : Prop :=
  ∀ index shape, registry.shapeAt? index = some shape →
    ∀ child ∈ shape.children, child.ceiling ≤ index

instance (registry : Registry) : Decidable registry.Descends :=
  decidable_of_iff
    (∀ index < registry.capacity, ∀ shape ∈ registry.shapeAt? index,
      ∀ child ∈ shape.children, child.ceiling ≤ index)
    ⟨fun all index shape found => all index (lt_capacity_of_shapeAt? found) shape found,
      fun descends index _ shape found => descends index shape found⟩

theorem Descends.child (descends : registry.Descends) {shape : Shape}
    (found : registry.shape? id = some shape) {part : ShapeId} (member : part ∈ shape.children) :
    part.ceiling < id.ceiling ∧ id.ceiling ≤ registry.capacity := by
  obtain ⟨index, rfl, kept⟩ := shape?_eq_some_iff.mp found
  exact ⟨Nat.lt_succ_of_le (descends index shape kept part member), lt_capacity_of_shapeAt? kept⟩

/-- What settling evidence asks for are the shapes of some evidence, in a registry that has only
grown if the answers so far have only added to it. -/
theorem exists_evidence_of_split {entries : List (String × Evidence)} {before after : List Call}
    (split : evidenceCalls deeper entries registry = before ++ inner :: after)
    (each : ∀ call ∈ before, call.registry.Grows (call.answer deeper).2) :
    registry.Grows inner.registry ∧ ∃ entry ∈ entries, inner.candidates = entry.2.shapes := by
  induction entries generalizing registry before with
  | nil => exact absurd split (List.append_ne_nil_of_right_ne_nil _ (List.cons_ne_nil _ _)).symm
  | cons entry rest step =>
    cases before with
    | nil =>
      obtain ⟨rfl, _⟩ := List.cons.inj split
      exact ⟨.refl registry, entry, List.mem_cons_self, rfl⟩
    | cons first before =>
      obtain ⟨rfl, others⟩ := List.cons.inj split
      rw [List.forall_mem_cons] at each
      obtain ⟨grows, other, member, same⟩ := step others each.2
      exact ⟨each.1.trans grows, other, List.mem_cons_of_mem _ member, same⟩

/-- Something solid is among several flat candidates. -/
theorem exists_parent_of_several {β : Type} (several : 2 ≤ (registry.flatten candidates).length)
    {look : ShapeId → Option β} {results : List β}
    (all : ((registry.flatten candidates).filter (· ≠ .null)).mapM look = some results) :
    ∃ parent ∈ registry.flatten candidates, (look parent).isSome := by
  obtain ⟨parent, member, notNull⟩ := Lists.exists_ne_of_nodup (nodup_flatten _ _) several .null
  obtain ⟨found, _, here⟩ := exists_result_of_mem all member notNull
  exact ⟨parent, member, Option.isSome_of_eq_some here⟩

/-- Flat candidates point at the candidates of what merging them asks for. -/
theorem exists_parent_of_split {before after : List Call}
    (split : calls deeper candidates registry = before ++ inner :: after)
    (each : ∀ call ∈ before, call.registry.Grows (call.answer deeper).2) :
    registry.Grows inner.registry ∧
      (∃ parent ∈ registry.flatten candidates, (registry.shape? parent).isSome) ∧
      ∀ id ∈ inner.candidates, ∃ parent ∈ registry.flatten candidates,
        ∃ shape, registry.shape? parent = some shape ∧ id ∈ shape.children := by
  have made : [] ≠ before ++ inner :: after :=
    (List.append_ne_nil_of_right_ne_nil _ (List.cons_ne_nil _ _)).symm
  cases registry.kinds candidates with
  | nothing flat =>
    rw [calls_of_few (by rw [flat]; exact Nat.zero_lt_two)] at split
    exact absurd split made
  | alone flat =>
    rw [calls_of_few (by rw [flat]; exact Nat.one_lt_two)] at split
    exact absurd split made
  | objects several all =>
    rw [calls_of_objects several all] at split
    obtain ⟨grows, entry, member, same⟩ := exists_evidence_of_split split each
    obtain ⟨_, shapes, _⟩ := Evidence.eq_of_get?_gather (Table.get?_eq_some_iff.mpr member)
    obtain ⟨parent, among, object⟩ := exists_parent_of_several several all
    obtain ⟨fields, found⟩ := Option.isSome_iff_exists.mp object
    refine ⟨grows, ⟨parent, among, Option.isSome_of_eq_some (fields?_eq_some_iff.mp found)⟩, ?_⟩
    intro id inside
    rw [same, shapes, List.mem_eraseDups] at inside
    exact exists_parent_of_mem_shapesUnder all inside
  | lists several all =>
    rw [calls_of_lists several all] at split
    obtain ⟨parent, among, list⟩ := exists_parent_of_several several all
    obtain ⟨elements, found⟩ := Option.isSome_iff_exists.mp list
    have only : inner ∈ before ++ inner :: after :=
      List.mem_append_right before List.mem_cons_self
    rw [← split, List.mem_singleton] at only
    subst only
    refine ⟨.refl registry,
      ⟨parent, among, Option.isSome_of_eq_some (elements?_eq_some_iff.mp found)⟩, ?_⟩
    intro id inside
    exact exists_parent_of_mem_elements all (List.mem_eraseDups.mp inside)
  | mixed several notObjects notLists =>
    rw [calls_of_mix several notObjects notLists] at split
    exact absurd split made

/-! ### The run of a merge -/

/-- A call in the run of a merge in `origin`: the registry has only grown, and the candidates denote
what they denoted. -/
structure InRun (origin : Registry) (call : Call) : Prop where
  /-- The registry has only grown. -/
  grows : origin.Grows call.registry
  /-- The candidates denote what they denoted. -/
  same : ∀ id ∈ call.candidates, call.registry.shape? id = origin.shape? id

theorem InRun.start (origin : Registry) (candidates : List ShapeId) :
    InRun origin ⟨candidates, origin⟩ := ⟨.refl origin, fun _ _ => rfl⟩

/-- What flat candidates denote they denoted before, and they lie no higher than the candidates. -/
theorem InRun.flat (descends : origin.Descends) (inRun : InRun origin call)
    (member : id ∈ call.registry.flatten call.candidates) :
    call.registry.shape? id = origin.shape? id ∧ id.ceiling ≤ ceiling call.candidates := by
  rcases mem_candidates_of_mem_flatten member with inside | ⟨union, inside, members, found, part⟩
  · exact ⟨inRun.same id inside, ceiling_le_of_mem inside⟩
  · have there : origin.shape? union = some (.union members) :=
      (inRun.same union inside).symm.trans (members?_eq_some_iff.mp found)
    obtain ⟨below, issued⟩ := descends.child there part
    have high := ceiling_le_of_mem inside
    exact ⟨inRun.grows.shape?_eq_of_le (by omega), by omega⟩

/-- What a merge asks for is pointed at from no higher than its candidates, and there is room below
these. -/
theorem InRun.exists_parent (descends : origin.Descends) (inRun : InRun origin outer)
    (asks : Asks outer inner) :
    origin.Grows inner.registry ∧ 0 < ceiling outer.candidates ∧
      ∀ id ∈ inner.candidates, ∃ parent shape, origin.shape? parent = some shape ∧
        id ∈ shape.children ∧ parent.ceiling ≤ ceiling outer.candidates := by
  obtain ⟨deeper, before, after, split, answers⟩ := asks
  obtain ⟨grows, ⟨top, among, solid⟩, pointed⟩ :=
    exists_parent_of_split split fun call made => (answers call made).grows
  refine ⟨inRun.grows.trans grows, ?_, fun id inside => ?_⟩
  · obtain ⟨shape, found⟩ := Option.isSome_iff_exists.mp solid
    obtain ⟨index, rfl, _⟩ := shape?_eq_some_iff.mp found
    exact Nat.lt_of_lt_of_le (Nat.succ_pos index) (inRun.flat descends among).2
  · obtain ⟨parent, among, shape, found, child⟩ := pointed id inside
    obtain ⟨same, low⟩ := inRun.flat descends among
    exact ⟨parent, shape, same.symm.trans found, child, low⟩

/-- **What a merge asks for was there before all of them, and lies further down.** -/
theorem InRun.of_asks (descends : origin.Descends) (inRun : InRun origin outer)
    (asks : Asks outer inner) :
    InRun origin inner ∧
      (∀ id ∈ inner.candidates, ∃ parent shape,
        origin.shape? parent = some shape ∧ id ∈ shape.children) ∧
      ceiling inner.candidates < ceiling outer.candidates := by
  obtain ⟨grows, room, pointed⟩ := inRun.exists_parent descends asks
  refine ⟨⟨grows, fun id inside => ?_⟩, fun id inside => ?_, ?_⟩
  · -- What was pointed at was handed out, so that what is new does not come behind it.
    obtain ⟨parent, shape, found, child, _⟩ := pointed id inside
    obtain ⟨below, issued⟩ := descends.child found child
    exact grows.shape?_eq_of_le (by omega)
  · obtain ⟨parent, shape, found, child, _⟩ := pointed id inside
    exact ⟨parent, shape, found, child⟩
  · have low : ceiling inner.candidates ≤ ceiling outer.candidates - 1 := by
      refine ceiling_le_iff.mpr fun id inside => ?_
      obtain ⟨parent, shape, found, child, low⟩ := pointed id inside
      have below := (descends.child found child).1
      omega
    omega

/-- So it is all through the run of a merge. -/
theorem InRun.of_reached (descends : origin.Descends) (inRun : InRun origin call)
    (reached : Relation.ReflTransGen Asks call outer) : InRun origin outer := by
  induction reached with
  | refl => exact inRun
  | tail _ asks step => exact (step.of_asks descends asks).1

/-- **Every merge in a run comes back,** with what the bounded merge comes back with if its bound is
above the candidates. -/
theorem InRun.returns (descends : origin.Descends) (inRun : InRun origin call) {level : Nat}
    (enough : ceiling call.candidates < level) :
    Returns call (call.answer (mergeBelow level)) := by
  induction level generalizing call with
  | zero => exact absurd enough (Nat.not_lt_zero _)
  | succ level step =>
    refine .down (mergeBelow level) (Lists.forall_mem_of_before ?_)
    intro before inner after split done
    obtain ⟨inRun, _, lower⟩ :=
      inRun.of_asks descends ⟨mergeBelow level, before, after, split, done⟩
    exact step inRun (by omega)

/-- **Merging comes back wherever shapes point downwards,** although the registry grows meanwhile:
what a merge asks for on its way was pointed at before it began, and lies further down than what
asks for it. -/
theorem merge_returns (descends : registry.Descends) (candidates : List ShapeId) :
    (∀ result, Returns ⟨candidates, registry⟩ result ↔ result = registry.merge candidates) ∧
      ∀ outer inner, Relation.ReflTransGen Asks ⟨candidates, registry⟩ outer → Asks outer inner →
        (∀ id ∈ inner.candidates, ∃ parent shape,
          registry.shape? parent = some shape ∧ id ∈ shape.children) ∧
        ceiling inner.candidates < ceiling outer.candidates := by
  have start := InRun.start registry candidates
  have returns : Returns ⟨candidates, registry⟩ (registry.merge candidates) :=
    start.returns descends (Nat.lt_succ_self _)
  refine ⟨fun result => ⟨fun other => other.unique returns, fun same => same ▸ returns⟩, ?_⟩
  intro outer inner reached asks
  exact ((start.of_reached descends reached).of_asks descends asks).2

/-- Two objects with a field `x`, and two others that have these under `a`. -/
def objectsInObjects : Registry :=
  [("x", .primitive .string), ("x", .primitive .number), ("a", .node 0), ("a", .node 1)].foldl
    (fun registry (raw, id) =>
      (registry.intern (.object (.ofList [(raw, ⟨⟨raw, .plain⟩, id, false⟩)]))).2) ∅

/-- Merging the outer objects merges the inner ones and their fields, and adds three shapes. -/
theorem merge_returns_of_objectsInObjects :
    objectsInObjects.Descends ∧
      (objectsInObjects.merge [.node 2, .node 3]).2.capacity = objectsInObjects.capacity + 3 ∧
      (∀ result, Returns ⟨[.node 2, .node 3], objectsInObjects⟩ result ↔
        result = objectsInObjects.merge [.node 2, .node 3]) ∧
      ∀ outer inner, Relation.ReflTransGen Asks ⟨[.node 2, .node 3], objectsInObjects⟩ outer →
        Asks outer inner →
          (∀ id ∈ inner.candidates, ∃ parent shape,
            objectsInObjects.shape? parent = some shape ∧ id ∈ shape.children) ∧
          ceiling inner.candidates < ceiling outer.candidates := by
  have descends : objectsInObjects.Descends := by decide +kernel
  exact ⟨descends, by decide +kernel, merge_returns descends _⟩

end SampleShapes.Registry
