/-
**What a registry goes through.**

Whatever is done to a registry interns some shapes or empties some slots: merging and unifying do
nothing but intern, whatever they are asked to merge. So the index stays in step with the slots
through every sequence of operations, and what an identity denotes may be dropped, but is never
replaced.

* `interns_merge`, `interns_unifyTargets`: merging and unifying do nothing but intern;
* `Indexed.size_eq_length_live`: an index in step with the slots counts what is kept;
* `Operation.indexed`, `Operation.stable`: what one operation leaves of a registry;
* `indexed_runAll`: what any number of them leaves of it;
* `represents_after`: **the index finds exactly what is kept, and no identity comes to denote
  another shape.**
-/

import SampleShapes.Proofs.Registry.Interning
import SampleShapes.Proofs.Registry.Rounds

namespace SampleShapes.Registry

variable {registry later last : Registry} {index : Nat}

/-! ### Doing nothing but intern -/

/-- Every identity has the property that says nothing. -/
def Anything (_ : Registry) (_ : ShapeId) : Prop := True

theorem heritable_anything : Heritable Anything := ⟨fun _ _ => trivial, fun _ => trivial,
  fun _ => trivial⟩

theorem interns_merge (indexed : registry.Indexed) (candidates : List ShapeId) :
    registry.Interns Anything (registry.merge candidates).2 :=
  (merge_handsOn heritable_anything indexed (fun _ _ _ _ _ => trivial) fun _ _ => trivial).interns

theorem interns_absorb {state : Unification} (indexed : state.registry.Indexed) (target : String)
    (group : IdSet) : state.registry.Interns Anything (state.absorb target group).registry := by
  by_cases alone : (state.candidates target group).length < 2
  · rw [Unification.absorb_of_lt_two alone]
    exact .nothing
  · rw [Unification.registry_absorb alone]
    exact interns_merge indexed _

theorem interns_round (root : ShapeId) {state : Unification} (indexed : state.registry.Indexed) :
    state.registry.Interns Anything (Unification.round root state).2.registry := by
  refine List.foldlRecOn (motive := fun later : Unification =>
    state.registry.Interns Anything later.registry) _ _ .nothing fun between interns entry _ => ?_
  exact interns.trans (interns_absorb (interns.indexed indexed) entry.1 entry.2)

theorem interns_unifyRounds (root : ShapeId) (rounds : Nat) (groups : Table String IdSet)
    {state : Unification} (indexed : state.registry.Indexed) :
    state.registry.Interns Anything (unifyRounds root rounds groups state).2.registry := by
  induction rounds generalizing groups state with
  | zero => exact .nothing
  | succ rounds step =>
    have interns := interns_round root indexed
    rw [Unification.unifyRounds_succ]
    split
    · exact interns
    · exact interns.trans (step _ (interns.indexed indexed))

/-- **Unifying explicit references does nothing but intern.** -/
theorem interns_unifyTargets (indexed : registry.Indexed) (root : ShapeId) :
    registry.Interns Anything (registry.unifyTargets root).2 :=
  have indexed : (Unification.mk ∅ registry).registry.Indexed := indexed
  interns_unifyRounds root maxRounds ∅ indexed

/-! ### Counting -/

theorem mem_live_iff {shape : Shape} :
    (index, shape) ∈ registry.live ↔ registry.shapeAt? index = some shape := by
  rw [live, Lists.mem_filterMap_pair_iff, List.mem_range]
  exact and_iff_right_of_imp lt_capacity_of_shapeAt?

theorem nodup_live (registry : Registry) : registry.live.Nodup := by
  refine List.nodup_range.filterMap fun index other entry here there => ?_
  obtain ⟨_, _, rfl⟩ := Option.map_eq_some_iff.mp here
  obtain ⟨_, _, same⟩ := Option.map_eq_some_iff.mp there
  exact (congrArg Prod.fst same).symm

/-- The index has one entry for each shape that is kept. -/
theorem Indexed.perm_live (indexed : registry.Indexed) :
    registry.index.Perm
      (registry.live.map fun entry => (entry.2.fingerprint, entry.1)) := by
  have distinct : (registry.live.map fun entry => (entry.2.fingerprint, entry.1)).Nodup := by
    refine (nodup_live registry).map_on fun entry member other member' same => ?_
    obtain ⟨_, places⟩ := Prod.mk.inj same
    have here := mem_live_iff.mp member
    have there := mem_live_iff.mp member'
    rw [← places, here] at there
    exact Prod.ext places (Option.some.inj there)
  refine (List.perm_ext_iff_of_nodup (.of_map _ indexed.distinct) distinct).mpr ?_
  rintro ⟨mark, index⟩
  rw [indexed.mem_index_iff, List.mem_map]
  constructor
  · rintro ⟨shape, found, rfl⟩
    exact ⟨(index, shape), mem_live_iff.mpr found, rfl⟩
  · rintro ⟨⟨_, shape⟩, member, same⟩
    obtain ⟨rfl, rfl⟩ := Prod.mk.inj same
    exact ⟨shape, mem_live_iff.mp member, rfl⟩

/-- **An index in step with the slots counts what is kept.** -/
theorem Indexed.size_eq_length_live (indexed : registry.Indexed) :
    registry.size = registry.live.length := by
  rw [size, indexed.perm_live.length_eq, List.length_map]

/-! ### Slots that stay or are emptied -/

/-- `later` has the slots of `registry`, some of them emptied. -/
structure Drops (registry later : Registry) : Prop where
  /-- No slot is added or lost. -/
  capacity_eq : later.capacity = registry.capacity
  /-- What is still kept was kept before. -/
  within : later.Within registry

theorem drops_retain (kept : List Nat) (registry : Registry) :
    registry.Drops (registry.retain kept) where
  capacity_eq := capacity_retain kept registry
  within index shape found := by
    rw [shapeAt?_retain] at found
    split at found
    · exact found
    · cases found

/-- Slots may be added, and those that were handed out stay as they are or are emptied. -/
structure Stable (registry later : Registry) : Prop where
  /-- No slot is lost. -/
  capacity_le : registry.capacity ≤ later.capacity
  /-- No shape is replaced. -/
  shapeAt?_cases : ∀ index, index < registry.capacity →
    later.shapeAt? index = registry.shapeAt? index ∨ later.shapeAt? index = none

theorem Grows.stable (grows : registry.Grows later) : registry.Stable later :=
  ⟨grows.capacity_le, fun index inside => .inl (grows.shapeAt?_eq index inside)⟩

theorem Drops.stable (drops : registry.Drops later) : registry.Stable later := by
  refine ⟨Nat.le_of_eq drops.capacity_eq.symm, fun index _ => ?_⟩
  cases found : later.shapeAt? index with
  | none => exact .inr rfl
  | some shape => exact .inl (drops.within index shape found).symm

theorem Stable.trans (first : registry.Stable later) (second : later.Stable last) :
    registry.Stable last where
  capacity_le := Nat.le_trans first.capacity_le second.capacity_le
  shapeAt?_cases index inside := by
    rcases second.shapeAt?_cases index (Nat.lt_of_lt_of_le inside first.capacity_le) with
      same | emptied
    · rw [same]
      exact first.shapeAt?_cases index inside
    · exact .inr emptied

/-! ### Operations -/

/-- What may be done to a registry. -/
inductive Operation where
  /-- A shape is interned. -/
  | intern (shape : Shape)
  /-- Candidates are merged. -/
  | merge (candidates : List ShapeId)
  /-- Explicit references that are reached from a root are unified. -/
  | unify (root : ShapeId)
  /-- Every shape but some is dropped. -/
  | retain (kept : List Nat)
  /-- Every shape that is not reached is dropped. -/
  | prune (roots : List ShapeId)

/-- The registry that an operation leaves behind. -/
def Operation.run : Operation → Registry → Registry
  | intern shape, registry => (registry.intern shape).2
  | merge candidates, registry => (registry.merge candidates).2
  | unify root, registry => (registry.unifyTargets root).2
  | retain kept, registry => registry.retain kept
  | prune roots, registry => registry.prune roots

/-- The registry that operations leave behind, one after the other. -/
def runAll (operations : List Operation) (registry : Registry) : Registry :=
  operations.foldl (fun registry operation => operation.run registry) registry

/-- What operations make of the registry without shapes. -/
def after (operations : List Operation) : Registry := runAll operations ∅

/-- What an operation may do to slots: only retaining and pruning may empty some, and only the
others may add some. -/
def Operation.Allows : Operation → Registry → Registry → Prop
  | intern _ => Grows
  | merge _ => Grows
  | unify _ => Grows
  | retain _ => Drops
  | prune _ => Drops

namespace Operation

theorem allows_run (operation : Operation) (indexed : registry.Indexed) :
    operation.Allows registry (operation.run registry) := by
  cases operation with
  | intern shape => exact grows_intern shape registry
  | merge candidates => exact (interns_merge indexed candidates).grows
  | unify root => exact (interns_unifyTargets indexed root).grows
  | retain kept => exact drops_retain kept registry
  | prune roots => exact drops_retain _ registry

/-- **An operation replaces no shape.** -/
theorem stable (operation : Operation) (indexed : registry.Indexed) :
    registry.Stable (operation.run registry) := by
  have allowed := operation.allows_run indexed
  cases operation with
  | intern shape => exact Grows.stable allowed
  | merge candidates => exact Grows.stable allowed
  | unify root => exact Grows.stable allowed
  | retain kept => exact Drops.stable allowed
  | prune roots => exact Drops.stable allowed

/-- **An operation keeps the index in step with the slots.** -/
theorem indexed (operation : Operation) (indexed : registry.Indexed) :
    (operation.run registry).Indexed := by
  cases operation with
  | intern shape => exact indexed.intern shape
  | merge candidates => exact (interns_merge indexed candidates).indexed indexed
  | unify root => exact (interns_unifyTargets indexed root).indexed indexed
  | retain kept => exact indexed.retain kept
  | prune roots => exact indexed.retain _

end Operation

/-- A dropped shape that comes back gets a slot of its own. -/
example (shape : Shape) : ((after [.intern shape, .retain []]).intern shape).1 = .node 1 := by
  cases shape <;> rfl

/-- **Operations keep the index in step with the slots, and replace no shape.** -/
theorem indexed_runAll (indexed : registry.Indexed) (operations : List Operation) :
    (runAll operations registry).Indexed ∧ registry.Stable (runAll operations registry) := by
  refine List.foldlRecOn (motive := fun later : Registry => later.Indexed ∧ registry.Stable later)
    operations _ ⟨indexed, (Grows.refl registry).stable⟩ ?_
  rintro later ⟨indexed, stable⟩ operation _
  exact ⟨operation.indexed indexed, stable.trans (operation.stable indexed)⟩

theorem after_append (operations more : List Operation) :
    after (operations ++ more) = runAll more (after operations) :=
  List.foldl_append

/-- **The index finds exactly what is kept, and no identity comes to denote another shape,**
whatever is done to a registry from the beginning. -/
theorem represents_after (operations : List Operation) :
    (∀ mark index, (after operations).index.lookup mark = some index ↔
      ∃ shape, (after operations).shapeAt? index = some shape ∧ shape.fingerprint = mark) ∧
    (∀ index other shape shape', (after operations).shapeAt? index = some shape →
      (after operations).shapeAt? other = some shape' →
        shape.fingerprint = shape'.fingerprint → index = other) ∧
    (after operations).size = (after operations).live.length ∧
    (∀ operation : Operation,
      operation.Allows (after operations) (operation.run (after operations))) ∧
    ∀ more index, index < (after operations).capacity →
      (after (operations ++ more)).shapeAt? index = (after operations).shapeAt? index ∨
        (after (operations ++ more)).shapeAt? index = none := by
  have indexed : (after operations).Indexed := (indexed_runAll indexed_empty operations).1
  refine ⟨fun mark index => indexed.lookup_eq_some_iff, fun index other shape shape' found found' =>
    indexed.eq_of_fingerprint_eq found found', indexed.size_eq_length_live,
    fun operation => operation.allows_run indexed, fun more index inside => ?_⟩
  rw [after_append]
  exact (indexed_runAll indexed more).2.shapeAt?_cases index inside

end SampleShapes.Registry
