/-
**Merging in a copy.**

Merging goes the same way in a registry and in its copy, step by step: each merge interns shapes
that are no higher than what it merges, so that the list that the copy keeps more is never asked
for. The levels that bound how deep a merge goes may differ, because nodes have other names in the
copy.

* `Evidence.gather_rename`: objects say the same in terms of renamed nodes;
* `thread_copies`, `mergeObjects_copies`, `mergeLists_copies`: fields and elements are merged alike;
* `mergeStep_follows`: one step down goes the same way if deeper merges do;
* `Copies.merge`: **merging goes the same way in the copy.**
-/

import SampleShapes.Proofs.Registry.Copies
import SampleShapes.Proofs.Registry.Merging

namespace SampleShapes

/-! ### Evidence -/

namespace Evidence

variable {nodes : Nat ↪o Nat}

/-- The evidence in terms of renamed nodes. -/
def rename (nodes : Nat ↪o Nat) (evidence : Evidence) : Evidence :=
  { evidence with shapes := evidence.shapes.map (ShapeId.rename nodes) }

theorem add_rename (field : Field) (evidence : Option Evidence) :
    (Evidence.add field evidence).rename nodes =
      Evidence.add (field.rename nodes) (evidence.map (rename nodes)) := by
  cases evidence with
  | none => rfl
  | some evidence =>
    have same : field.shape.rename nodes ∈ evidence.shapes.map (ShapeId.rename nodes) ↔
        field.shape ∈ evidence.shapes := List.mem_map_of_injective ShapeId.rename_injective
    by_cases known : field.shape ∈ evidence.shapes
    · simp [Evidence.add, rename, known, same]
    · simp [Evidence.add, rename, known, same]

/-- **Objects say the same in terms of renamed nodes.** -/
theorem gather_rename (objects : List (Table String Field)) :
    gather (objects.map (Table.map (Field.rename nodes))) =
      (gather objects).map (rename nodes) := by
  unfold gather
  rw [List.foldl_map]
  -- Both folds start from the empty table, which has nothing to rename.
  show List.foldl _ ((∅ : Table String Evidence).map (rename nodes)) objects = _
  refine List.foldl_hom (Table.map (rename nodes)) fun table fields => ?_
  rw [Table.entries_map, List.foldl_map]
  exact List.foldl_hom (Table.map (rename nodes)) fun table entry =>
    (Table.map_alter (add_rename entry.2) table entry.1).symm

end Evidence

namespace Registry

variable {move : Relocation} {level level' : Nat} {id : ShapeId}
  {registry copy later : Registry} {deeper deeper' : Merger} {candidates : List ShapeId}

/-! ### What may be merged -/

/-- The identity may be merged: it is kept, low enough, and below a level in the registry as well as
in the copy. -/
structure Mergeable (registry : Registry) (move : Relocation) (level level' : Nat)
    (id : ShapeId) : Prop where
  /-- It is kept. -/
  holds : registry.Holds id
  /-- It is low enough. -/
  low : registry.NoHigher move.limit id
  /-- It lies below the level of the registry. -/
  below : id.ceiling < level
  /-- It lies below the level of the copy. -/
  below' : (id.rename move.nodes).ceiling < level'

namespace Mergeable

theorem grow (mergeable : registry.Mergeable move level level' id) (sound : registry.Sound)
    (grows : registry.Grows later) : later.Mergeable move level level' id where
  holds := grows.holds mergeable.holds
  low := (noHigher_grow_iff sound grows mergeable.holds).mpr mergeable.low
  below := mergeable.below
  below' := mergeable.below'

/-- What a shape points at may be merged one level further down. -/
theorem child (mergeable : registry.Mergeable move (level + 1) (level' + 1) id)
    (sound : registry.Sound) {shape : Shape} (found : registry.shape? id = some shape)
    {child : ShapeId} (member : child ∈ shape.children) :
    registry.Mergeable move level level' child := by
  obtain ⟨holds, below⟩ := sound.child found member
  have below' : (child.rename move.nodes).ceiling < (id.rename move.nodes).ceiling :=
    ShapeId.ceiling_rename_lt below
  have room := mergeable.below
  have room' := mergeable.below'
  exact ⟨holds, mergeable.low.child found member, by omega, by omega⟩

variable {ids : List ShapeId}
  (mergeable : ∀ id ∈ ids, registry.Mergeable move level level' id)
include mergeable

theorem holdsBelow : registry.HoldsBelow level ids :=
  fun id member => ⟨(mergeable id member).holds, (mergeable id member).below⟩

theorem flatten (sound : registry.Sound) :
    ∀ id ∈ registry.flatten ids, registry.Mergeable move level level' id := by
  intro id member
  rcases mem_candidates_of_mem_flatten member with inside | ⟨union, inside, members, found, part⟩
  · exact mergeable id inside
  · obtain ⟨holds, below⟩ := sound.member found part
    have below' : (id.rename move.nodes).ceiling < (union.rename move.nodes).ceiling :=
      ShapeId.ceiling_rename_lt below
    have here := mergeable union inside
    exact ⟨holds, here.low.of_union found id part, Nat.lt_trans below here.below,
      Nat.lt_trans below' here.below'⟩

end Mergeable

/-- The mergers go the same way with what may be merged below their levels. -/
def Follows (move : Relocation) (level level' : Nat) (merger merger' : Merger) : Prop :=
  ∀ candidates registry copy, Copies move registry copy →
    (∀ id ∈ candidates, registry.Mergeable move level level' id) →
    Copied move (merger candidates registry)
      (merger' (candidates.map (ShapeId.rename move.nodes)) copy)

/-! ### Objects -/

theorem threadEntries_copies (merges : MergesBelow level deeper)
    (follows : Follows move level level' deeper deeper') (count : Nat)
    {entries : List (String × Evidence)}
    (mergeable : ∀ entry ∈ entries, ∀ id ∈ entry.2.shapes,
      registry.Mergeable move level level' id)
    (copies : Copies move registry copy) :
    (Table.threadEntries (settle deeper' count)
        (entries.map fun entry => (entry.1, entry.2.rename move.nodes)) copy).1 =
      (Table.threadEntries (settle deeper count) entries registry).1.map
        (fun entry => (entry.1, entry.2.rename move.nodes)) ∧
    Copies move (Table.threadEntries (settle deeper count) entries registry).2
      (Table.threadEntries (settle deeper' count)
        (entries.map fun entry => (entry.1, entry.2.rename move.nodes)) copy).2 := by
  induction entries generalizing registry copy with
  | nil => exact ⟨rfl, copies⟩
  | cons entry rest step =>
    rw [List.forall_mem_cons] at mergeable
    have merged := merges entry.2.shapes registry copies.sound (Mergeable.holdsBelow mergeable.1)
    have copied := follows entry.2.shapes registry copy copies mergeable.1
    obtain ⟨fields, last⟩ := step
      (fun other member id inside => (mergeable.2 other member id inside).grow copies.sound
        merged.grows) copied.copies
    refine ⟨?_, last⟩
    have same : (settle deeper' count (entry.2.rename move.nodes) copy).1 =
        (settle deeper count entry.2 registry).1.rename move.nodes :=
      congrArg (fun shape => (⟨entry.2.key, shape, entry.2.optional ||
        decide (entry.2.holders < count)⟩ : Field)) copied.same
    show (entry.1, (settle deeper' count (entry.2.rename move.nodes) copy).1) :: _ = _
    rw [same]
    exact congrArg _ fields

/-- **Fields are settled alike.** -/
theorem thread_copies (merges : MergesBelow level deeper)
    (follows : Follows move level level' deeper deeper') (count : Nat)
    {table : Table String Evidence}
    (mergeable : ∀ entry ∈ table.entries, ∀ id ∈ entry.2.shapes,
      registry.Mergeable move level level' id)
    (copies : Copies move registry copy) :
    ((table.map (Evidence.rename move.nodes)).thread (settle deeper' count) copy).1 =
      (table.thread (settle deeper count) registry).1.map (Field.rename move.nodes) ∧
    Copies move (table.thread (settle deeper count) registry).2
      ((table.map (Evidence.rename move.nodes)).thread (settle deeper' count) copy).2 := by
  obtain ⟨fields, last⟩ := threadEntries_copies merges follows count mergeable copies
  exact ⟨Table.eq_of_entries_eq fields, last⟩

/-- What the objects have under a raw key may be merged one level further down. -/
theorem mergeable_shapesUnder (sound : registry.Sound) {ids : List ShapeId}
    (mergeable : ∀ id ∈ ids, registry.Mergeable move (level + 1) (level' + 1) id)
    {objects : List (Table String Field)}
    (all : (ids.filter (· ≠ .null)).mapM registry.fields? = some objects) (raw : String) :
    ∀ id ∈ shapesUnder objects raw, registry.Mergeable move level level' id := by
  intro id member
  obtain ⟨parent, among, shape, found, child⟩ := exists_parent_of_mem_shapesUnder all member
  exact (mergeable parent among).child sound found child

/-- The elements of the lists may be merged one level further down. -/
theorem mergeable_elements (sound : registry.Sound) {ids : List ShapeId}
    (mergeable : ∀ id ∈ ids, registry.Mergeable move (level + 1) (level' + 1) id)
    {lists : List IdSet}
    (all : (ids.filter (· ≠ .null)).mapM registry.elements? = some lists) :
    ∀ id ∈ lists.flatMap IdSet.toList, registry.Mergeable move level level' id := by
  intro id member
  obtain ⟨parent, among, shape, found, child⟩ := exists_parent_of_mem_elements all member
  exact (mergeable parent among).child sound found child

section Parts

variable (merges : MergesBelow level deeper)
  (follows : Follows move level level' deeper deeper')
  (copies : Copies move registry copy)
include merges follows copies

/-- **Objects are merged alike.** -/
theorem mergeObjects_copies {objects : List (Table String Field)}
    (keyed : ∀ object ∈ objects, Shape.Keyed object)
    (mergeable : ∀ raw, ∀ id ∈ shapesUnder objects raw,
      registry.Mergeable move level level' id) :
    Copied move (mergeObjects deeper objects registry)
      (mergeObjects deeper' (objects.map (Table.map (Field.rename move.nodes))) copy) := by
  have under : ∀ entry ∈ (Evidence.gather objects).entries, ∀ id ∈ entry.2.shapes,
      registry.Mergeable move level level' id := by
    intro entry member id inside
    rw [(Evidence.eq_of_get?_gather (Table.get?_eq_some_iff.mpr member)).2.1,
      List.mem_eraseDups] at inside
    exact mergeable entry.1 id inside
  obtain ⟨same, copiesLater⟩ := thread_copies merges follows objects.length under copies
  rw [mergeObjects_eq, mergeObjects_eq, Evidence.gather_rename, List.length_map, same]
  obtain ⟨⟨fields, later⟩, result⟩ :
      ∃ result, (Evidence.gather objects).thread (settle deeper objects.length) registry = result :=
    ⟨_, rfl⟩
  obtain ⟨sound, grows, _, settled⟩ := thread_settle merges copies.sound
    (fun raw => Mergeable.holdsBelow (mergeable raw)) result
  rw [result] at copiesLater ⊢
  refine copiesLater.intern (carries_of_settles keyed settled) fun child member => ?_
  -- A field joins shapes that are low enough.
  obtain ⟨field, inside, rfl⟩ := List.mem_map.mp member
  obtain ⟨raw, found⟩ := Table.mem_values_iff.mp inside
  obtain ⟨evidence, gathered, settles⟩ := settled raw field found
  refine settles.joins.noHigher fun id shape => ?_
  exact ((under (raw, evidence) (Table.get?_eq_some_iff.mp gathered) id shape).grow copies.sound
    grows).low

/-- **Lists are merged alike.** -/
theorem mergeLists_copies {lists : List IdSet}
    (mergeable : ∀ id ∈ lists.flatMap IdSet.toList,
      registry.Mergeable move level level' id) :
    Copied move (mergeLists deeper lists registry)
      (mergeLists deeper' (lists.map (IdSet.rename move.nodes)) copy) := by
  have once : ∀ id ∈ (lists.flatMap IdSet.toList).eraseDups,
      registry.Mergeable move level level' id :=
    fun id member => mergeable id (List.mem_eraseDups.mp member)
  have merged := merges _ registry copies.sound (Mergeable.holdsBelow once)
  have copied := follows _ registry copy copies once
  have elements : ((lists.map (IdSet.rename move.nodes)).flatMap IdSet.toList).eraseDups =
      (lists.flatMap IdSet.toList).eraseDups.map (ShapeId.rename move.nodes) := by
    rw [← Lists.eraseDups_map ShapeId.rename_injective, List.flatMap_map, List.map_flatMap]
    rfl
  unfold mergeLists
  rw [elements]
  obtain ⟨⟨element, later⟩, result⟩ :
      ∃ result, deeper (lists.flatMap IdSet.toList).eraseDups registry = result := ⟨_, rfl⟩
  obtain ⟨⟨element', later'⟩, result'⟩ : ∃ result,
      deeper' ((lists.flatMap IdSet.toList).eraseDups.map (ShapeId.rename move.nodes)) copy =
        result := ⟨_, rfl⟩
  rw [result] at merged
  rw [result, result'] at copied
  rw [result, result']
  obtain ⟨rfl, copiesLater⟩ := copied
  refine copiesLater.intern (carries_list merged.holds) fun child member => ?_
  rw [List.mem_singleton.mp member]
  refine merged.joins.noHigher fun id inside => ?_
  exact ((once id inside).grow copies.sound merged.grows).low

end Parts

/-! ### One step down -/

/-- **A merge is made nullable alike.** -/
theorem orNull_copies {ids : List ShapeId} {result result' : ShapeId × Registry}
    (copied : Copied move result result') (safe : registry.Safe result)
    (merged : Merged registry candidates (orNull ids result))
    (low : ∀ candidate ∈ candidates, (orNull ids result).2.NoHigher move.limit candidate) :
    Copied move (orNull ids result)
      (orNull (ids.map (ShapeId.rename move.nodes)) result') := by
  obtain ⟨_, grows, nullable⟩ := orNull_safe ids safe
  have solid : result.2.NoHigher move.limit result.1 := by
    rw [← noHigher_grow_iff safe.sound grows safe.holds, ← nullable.noHigher_iff]
    exact merged.joins.noHigher low
  have isNull : ShapeId.null ∈ ids.map (ShapeId.rename move.nodes) ↔ ShapeId.null ∈ ids :=
    List.mem_map_of_injective (a := ShapeId.null) ShapeId.rename_injective
  unfold orNull
  by_cases null : ShapeId.null ∈ ids
  · rw [if_pos null, if_pos (isNull.mpr null), copied.same]
    have held : ∀ id ∈ [result.1, .null], result.2.Holds id :=
      List.forall_mem_cons.mpr ⟨safe.holds, List.forall_mem_singleton.mpr trivial⟩
    have lowBoth : ∀ id ∈ [result.1, .null], result.2.NoHigher move.limit id :=
      List.forall_mem_cons.mpr ⟨solid, List.forall_mem_singleton.mpr (.null _ _)⟩
    have renamed := copied.copies.intern (carries_union held) fun child member =>
      lowBoth child (IdSet.mem_ofList.mp member)
    rw [Shape.rename, IdSet.rename_ofList] at renamed
    exact renamed
  · rw [if_neg null, if_neg (isNull.not.mpr null)]
    exact copied

/-- **One step down goes the same way if deeper merges do.** -/
theorem mergeStep_follows (merges : MergesBelow level deeper)
    (follows : Follows move level level' deeper deeper') :
    Follows move (level + 1) (level' + 1) (mergeStep deeper) (mergeStep deeper') := by
  intro candidates registry copy copies mergeable
  have held := Mergeable.holdsBelow mergeable
  have flat := copies.kept.flatten_rename fun id member => (held id member).1
  have mergeableFlat := Mergeable.flatten mergeable copies.sound
  have heldFlat : ∀ id ∈ registry.flatten candidates, registry.Holds id :=
    fun id member => (mergeableFlat id member).holds
  have low (later : Registry) (grows : registry.Grows later) :
      ∀ candidate ∈ candidates, later.NoHigher move.limit candidate :=
    fun candidate member => ((mergeable candidate member).grow copies.sound grows).low
  have length' : (copy.flatten (candidates.map (ShapeId.rename move.nodes))).length =
      (registry.flatten candidates).length := by
    rw [flat, List.length_map]
  cases registry.kinds candidates with
  | nothing none =>
    rw [mergeStep_of_nil none, mergeStep_of_nil (by rw [flat, none]; rfl)]
    exact copies.intern (carries_union (holds_nil registry)) fun child member =>
      absurd member List.not_mem_nil
  | @alone only one =>
    have one' : copy.flatten (candidates.map (ShapeId.rename move.nodes)) =
        [only.rename move.nodes] := by
      rw [flat, one]
      rfl
    rw [mergeStep_of_singleton one, mergeStep_of_singleton one']
    exact ⟨rfl, copies⟩
  | @objects objects several all =>
    have keyed : ∀ object ∈ objects, Shape.Keyed object := by
      intro object member
      obtain ⟨id, _, found⟩ := exists_fields?_of_mem all member
      exact copies.sound.keyed found
    have all' := copies.kept.mapM_fields?_rename heldFlat
    rw [← flat, all, Option.map_some] at all'
    have under := mergeable_shapesUnder copies.sound mergeableFlat all
    have merged := merged_of_objects merges copies.sound held several all
    have safe := (mergeObjects_joins merges copies.sound
      (fun raw => Mergeable.holdsBelow (under raw)) keyed).1
    rw [mergeStep_of_objects several all, mergeStep_of_objects (by rwa [length']) all', flat]
    exact orNull_copies (mergeObjects_copies merges follows copies keyed under) safe merged
      (low _ merged.grows)
  | lists several all =>
    have all' := copies.kept.mapM_elements?_rename heldFlat
    rw [← flat, all, Option.map_some] at all'
    have elements := mergeable_elements copies.sound mergeableFlat all
    have merged := merged_of_lists merges copies.sound held several all
    have safe := (mergeLists_joins merges copies.sound (Mergeable.holdsBelow elements)).1
    rw [mergeStep_of_lists several all, mergeStep_of_lists (by rwa [length']) all', flat]
    exact orNull_copies (mergeLists_copies merges follows copies elements) safe merged
      (low _ merged.grows)
  | mixed several notObjects notLists =>
    have notObjects' := copies.kept.mapM_fields?_rename heldFlat
    have notLists' := copies.kept.mapM_elements?_rename heldFlat
    rw [← flat, notObjects, Option.map_none] at notObjects'
    rw [← flat, notLists, Option.map_none] at notLists'
    have renamed := copies.intern (carries_union heldFlat) fun child member =>
      (mergeableFlat child (IdSet.mem_ofList.mp member)).low
    rw [Shape.rename, IdSet.rename_ofList] at renamed
    rw [mergeStep_of_mix several notObjects notLists,
      mergeStep_of_mix (by rwa [length']) notObjects' notLists', flat]
    exact renamed

theorem mergeBelow_follows (level level' : Nat) :
    Follows move level level' (mergeBelow level) (mergeBelow level') := by
  have nothing {level level' : Nat} {ids : List ShapeId} {registry : Registry}
      (mergeable : ∀ id ∈ ids, registry.Mergeable move level level' id)
      (ground : level = 0 ∨ level' = 0) : ids = [] := by
    refine List.eq_nil_iff_forall_not_mem.mpr fun id member => ?_
    have below := (mergeable id member).below
    have below' := (mergeable id member).below'
    omega
  have union {registry copy : Registry} (copies : Copies move registry copy) :
      Copied move (registry.intern (.union ∅)) (copy.intern (.union ∅)) :=
    copies.intern (carries_union (holds_nil registry)) fun child member =>
      absurd member List.not_mem_nil
  induction level generalizing level' with
  | zero =>
    -- Nothing lies below the ground, so that there is nothing to merge here.
    intro candidates registry copy copies mergeable
    obtain rfl := nothing mergeable (.inl rfl)
    cases level' <;> exact union copies
  | succ level step =>
    cases level' with
    | zero =>
      intro candidates registry copy copies mergeable
      obtain rfl := nothing mergeable (.inr rfl)
      exact union copies
    | succ level' => exact mergeStep_follows (mergesBelow_mergeBelow level) (step level')

/-- **Merging goes the same way in the copy.** -/
theorem Copies.merge (copies : Copies move registry copy)
    (held : ∀ candidate ∈ candidates, registry.Holds candidate)
    (low : ∀ candidate ∈ candidates, registry.NoHigher move.limit candidate) :
    Copied move (registry.merge candidates)
      (copy.merge (candidates.map (ShapeId.rename move.nodes))) :=
  mergeBelow_follows _ _ candidates registry copy copies fun candidate member =>
    ⟨held candidate member, low candidate member, Nat.lt_succ_of_le (ceiling_le_of_mem member),
      Nat.lt_succ_of_le (ceiling_le_of_mem (List.mem_map_of_mem member))⟩

end Registry

end SampleShapes
