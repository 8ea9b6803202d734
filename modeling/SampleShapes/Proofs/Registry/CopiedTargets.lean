/-
**Unification in a copy.**

From the list of the top, unification goes the same way in the copy as it does from the top in the
registry: the walk comes to the list first and then goes on as from the top, the list binds nothing,
and what is merged stands inside of the top, so that it is low enough. Rounds of merging lead to the
same merges under their names in the copy.

* `Copies.reachable_rename`: **the walk from the list comes to the same nodes as that from the
  top**;
* `Copies.boundObjects_rename`, `Copies.groups_rename`: the groups of a round are the same;
* `Unification.Mirrors.absorb`, `Unification.Mirrors.round`: a round leads to the same merges;
* `Unification.Mirrors.unifyRounds`: **and so do all of them**;
* `sameAliases_aliases`: the same members lead to the same merges;
* `Copies.unifyTargets`: **unification goes the same way in the copy.**
-/

import SampleShapes.Proofs.Reach
import SampleShapes.Proofs.Registry.CopiedMerges
import SampleShapes.Proofs.Registry.Levels

namespace SampleShapes.Registry

variable {move : Relocation} {id : ShapeId} {registry copy : Registry}

/-! ### What is reached -/

theorem bounded_childNodes (registry : Registry) :
    Reach.Bounded registry.childNodes (List.range registry.capacity) registry.capacity where
  covers index leads := by
    rw [List.mem_range]
    unfold childNodes at leads
    split at leads
    · next found => exact lt_capacity_of_shapeAt? found
    · exact absurd rfl leads
  fits := Nat.le_of_eq List.length_range

/-- The identity is kept, and no higher than the top. -/
structure Inside (move : Relocation) (registry : Registry) (id : ShapeId) : Prop where
  /-- It is kept. -/
  holds : registry.Holds id
  /-- It is no higher than the top. -/
  low : registry.NoHigher (move.limit + 1) id

theorem Inside.child (inside : registry.Inside move id) (sound : registry.Sound) {shape : Shape}
    (found : registry.shape? id = some shape) {child : ShapeId} (member : child ∈ shape.children) :
    registry.Inside move child :=
  ⟨(sound.child found member).1, inside.low.child found member⟩

theorem filterMap_index?_rename {nodes : Nat ↪o Nat} (ids : List ShapeId) :
    (ids.map (ShapeId.rename nodes)).filterMap ShapeId.index? =
      (ids.filterMap ShapeId.index?).map nodes := by
  rw [List.filterMap_map, List.map_filterMap]
  exact List.filterMap_congr fun id _ => ShapeId.index?_rename

namespace Copies

variable (copies : Copies move registry copy)
include copies

theorem childNodes_rename {index : Nat} (held : registry.Holds (.node index)) :
    copy.childNodes (move.nodes index) = (registry.childNodes index).map move.nodes := by
  obtain ⟨shape, found⟩ := held
  unfold childNodes
  rw [found, copies.kept index shape found]
  dsimp only
  rw [Shape.children_rename, filterMap_index?_rename]

/-- Inside of the top, nodes lead to the same nodes in the copy. -/
theorem stands : Reach.Stands registry.childNodes copy.childNodes move.nodes
    fun index => registry.Inside move (.node index) where
  injective := move.nodes.injective
  closed index inside other leads := by
    obtain ⟨shape, found, child⟩ := mem_childNodes_iff.mp leads
    exact inside.child copies.sound found child
  leads index inside := copies.childNodes_rename inside.holds

/-- The list of the top is higher than the top. -/
theorem nodes_ne_listed {index : Nat} (inside : registry.Inside move (.node index)) :
    move.nodes index ≠ move.listed := by
  intro same
  obtain ⟨shape, found⟩ := inside.holds
  have kept := copies.kept index shape found
  rw [same, copies.listed, Option.some.injEq] at kept
  cases shape with
  | object fields => cases kept
  | union members => cases kept
  | list elements =>
    have top : elements = .singleton (.node move.top) :=
      IdSet.rename_injective (Shape.list.inj kept).symm
    have list : registry.elements? (.node index) = some (.singleton (.node move.top)) := by
      rw [elements?_eq_some_iff, ← top]
      exact found
    obtain ⟨less, same, each⟩ := inside.low.of_list list
    obtain rfl := Nat.succ.inj same
    exact copies.high (each _ (List.mem_singleton_self _))

/-- What is reached from inside of the top is inside of the top. -/
theorem inside_of_isReached {roots : List ShapeId} {index : Nat}
    (inside : ∀ id ∈ roots, registry.Inside move id) (reached : registry.IsReached roots index) :
    registry.Inside move (.node index) := by
  induction reached with
  | start member =>
    obtain ⟨id, listed, isNode⟩ := List.mem_filterMap.mp member
    rw [← node_of_index? isNode]
    exact inside id listed
  | step _ leads before => exact copies.stands.closed _ before _ leads

/-- **The walk from the list comes to the same nodes as that from the top,** after the list. -/
theorem reachable_rename {roots : List ShapeId} (inside : ∀ id ∈ roots, registry.Inside move id) :
    copy.reachable (.node move.listed :: roots.map (ShapeId.rename move.nodes)) =
      move.listed ::
        (registry.reachable (.node move.top :: roots)).map move.nodes := by
  have leads : copy.childNodes move.listed = [move.nodes move.top] := by
    unfold childNodes
    rw [copies.listed]
    rfl
  have starts : ∀ index ∈ roots.filterMap ShapeId.index?, registry.Inside move (.node index) :=
    fun index member => copies.inside_of_isReached inside (.start member)
  have walk := Reach.explore_cons_map copies.stands (bounded_childNodes registry)
    (bounded_childNodes copy) ⟨copies.holds, copies.least⟩ leads
    (fun index inside => copies.nodes_ne_listed inside) starts
  rw [← filterMap_index?_rename] at walk
  exact walk

/-! ### Groups -/

/-- **A position is built from the same objects,** however deep it is looked at. -/
theorem boundObjects_rename (held : registry.Holds id) (depth depth' : Nat)
    (enough : id.ceiling ≤ depth) (enough' : (id.rename move.nodes).ceiling ≤ depth') :
    copy.boundObjects depth' (id.rename move.nodes) =
      (registry.boundObjects depth id).map (ShapeId.rename move.nodes) := by
  revert depth depth'
  refine copies.sound.induct (fun kind => ?_) ?_ (fun index shape kept step => ?_) held
  · intro depth depth' _ _
    cases depth <;> cases depth' <;> rfl
  · intro depth depth' _ _
    cases depth <;> cases depth' <;> rfl
  · intro depth depth' enough enough'
    obtain _ | depth := depth
    · exact absurd enough (Nat.not_succ_le_zero index)
    obtain _ | depth' := depth'
    · exact absurd enough' (Nat.not_succ_le_zero _)
    have found : registry.shape? (.node index) = some shape := kept
    have found' : copy.shape? (.node (move.nodes index)) = some (shape.rename move.nodes) :=
      copies.kept index shape kept
    -- Children lie further down, in the copy as well, so that one level less is enough for them.
    have deeper : ∀ child ∈ shape.children,
        copy.boundObjects depth' (child.rename move.nodes) =
          (registry.boundObjects depth child).map (ShapeId.rename move.nodes) := by
      intro child member
      obtain ⟨inside, below⟩ := copies.sound.child found member
      have below' : (child.rename move.nodes).ceiling < (ShapeId.node (move.nodes index)).ceiling :=
        ShapeId.ceiling_rename_lt below
      exact step child member inside _ _ (Nat.le_of_lt_succ (Nat.lt_of_lt_of_le below enough))
        (Nat.le_of_lt_succ (Nat.lt_of_lt_of_le below' enough'))
    rw [ShapeId.rename_node]
    unfold boundObjects
    rw [found, found']
    cases shape with
    | object fields =>
      simp only [Shape.rename, Table.isEmpty_map]
      split <;> rfl
    | list elements =>
      simp only [Shape.rename, IdSet.toList_rename, List.flatMap_map, List.map_flatMap]
      exact List.flatMap_congr deeper
    | union members =>
      simp only [Shape.rename, IdSet.toList_rename, List.flatMap_map, List.map_flatMap]
      exact List.flatMap_congr deeper

theorem groupField_rename {field : Field} (held : registry.Holds field.shape)
    (groups : Table String IdSet) :
    copy.groupField (groups.map (IdSet.rename move.nodes)) (field.rename move.nodes) =
      (registry.groupField groups field).map (IdSet.rename move.nodes) := by
  unfold groupField
  rw [Field.key_rename, Field.shape_rename,
    copies.boundObjects_rename held _ _ (Nat.le_refl _) (Nat.le_refl _)]
  cases field.key.target? with
  | none => rfl
  | some target =>
    refine (Table.map_alter (fun group => ?_) groups target).symm
    rw [IdSet.rename_insertAll]
    cases group <;> rfl

end Copies

/-- The groups of the copy are the same, and their members are low enough to be merged. -/
structure SameGroups (move : Relocation) (registry : Registry)
    (groups groups' : Table String IdSet) : Prop where
  /-- The groups are the same. -/
  same : groups' = groups.map (IdSet.rename move.nodes)
  /-- Their members are low enough. -/
  low : ∀ target group, groups.get? target = some group →
    ∀ id ∈ group, registry.NoHigher move.limit id

/-- **The groups of a round are the same in the copy.** -/
theorem Copies.groups_rename (copies : Copies move registry copy) {roots : List ShapeId}
    (inside : ∀ id ∈ roots, registry.Inside move id) :
    SameGroups move registry (registry.groups (.node move.top :: roots))
      (copy.groups (.node move.listed :: roots.map (ShapeId.rename move.nodes))) := by
  unfold groups
  rw [copies.reachable_rename inside, List.foldl_cons, copies.listed, List.foldl_map]
  refine List.foldl_rel ⟨rfl, fun target group found => by cases found⟩ ?_
  intro index reached groups groups' same
  have insideHere : registry.Inside move (.node index) := by
    have starts : ∀ id ∈ ShapeId.node move.top :: roots, registry.Inside move id :=
      List.forall_mem_cons.mpr ⟨⟨copies.holds, copies.least⟩, inside⟩
    exact copies.inside_of_isReached starts (mem_reachable_iff.mp reached)
  obtain ⟨shape, found⟩ := insideHere.holds
  rw [found, copies.kept index shape found]
  cases shape with
  | list elements => exact same
  | union members => exact same
  | object fields =>
    simp only [Shape.rename, Table.values_map, List.foldl_map]
    -- What the fields of an object point at is low enough, as the object is inside of the top.
    have object : registry.fields? (.node index) = some fields := fields?_eq_some_iff.mpr found
    obtain ⟨less, equal, each⟩ := insideHere.low.of_object object
    obtain rfl := Nat.succ.inj equal
    refine List.foldl_rel same ?_
    intro field value groups groups' same
    obtain ⟨raw, under⟩ := Table.mem_values_iff.mp value
    have held : registry.Holds field.shape :=
      (copies.sound.carries index _ found).holds _ (List.mem_map_of_mem value)
    refine ⟨?_, forall_mem_groupField same.low fun _ _ id bound =>
      low_of_mem_boundObjects (each raw field under) bound⟩
    rw [same.same, copies.groupField_rename held]

/-! ### Merging one group -/

namespace Unification

variable {state state' : Unification}

/-- The state is the same in the copy, and its merges are low enough to be merged again. -/
structure Mirrors (move : Relocation) (state state' : Unification) : Prop where
  /-- The state is sound. -/
  sound : state.Sound
  /-- Its registry is copied. -/
  copies : state.registry.Copies move state'.registry
  /-- Targets have the same merges. -/
  same : state'.merged = state.merged.map move.nodes
  /-- The merges are low enough. -/
  low : ∀ target index, state.merged.get? target = some index →
    state.registry.NoHigher move.limit (.node index)

namespace Mirrors

variable (mirrors : Mirrors move state state') {target : String} {group : IdSet}
include mirrors

theorem candidates_rename (target : String) (group : IdSet) :
    state'.candidates target (group.rename move.nodes) =
      (state.candidates target group).map (ShapeId.rename move.nodes) := by
  unfold candidates
  rw [mirrors.same, Table.get?_map, List.map_append]
  refine congrArg _ ?_
  cases state.merged.get? target with
  | none => rfl
  | some index =>
    have same : (ShapeId.node index).rename move.nodes ∈ group.rename move.nodes ↔
        ShapeId.node index ∈ group := IdSet.rename_mem_rename_iff
    rw [ShapeId.rename_node] at same
    by_cases member : ShapeId.node index ∈ group
    · simp [member, same.mpr member]
    · simp [member, same.not.mpr member]

/-- **One group is merged to the same in the copy.** -/
theorem absorb (objects : ∀ id ∈ group, state.registry.HasFields id)
    (low : ∀ id ∈ group, state.registry.NoHigher move.limit id) :
    Mirrors move (state.absorb target group)
      (state'.absorb target (group.rename move.nodes)) := by
  have candidates := mirrors.candidates_rename target group
  by_cases alone : (state.candidates target group).length < 2
  · have alone' : (state'.candidates target (group.rename move.nodes)).length < 2 := by
      rw [candidates, List.length_map]
      exact alone
    rw [absorb_of_lt_two alone, absorb_of_lt_two alone']
    exact mirrors
  · have several' : ¬ (state'.candidates target (group.rename move.nodes)).length < 2 := by
      rw [candidates, List.length_map]
      exact alone
    have lowAll : ∀ id ∈ state.candidates target group, state.registry.NoHigher move.limit id :=
      low_of_mem_candidates mirrors.low low
    have held : ∀ id ∈ state.candidates target group, state.registry.Holds id :=
      fun id member => (hasFields_of_mem_candidates mirrors.sound objects id member).holds
    have soundNext := (absorb_spec target mirrors.sound objects).1
    have lowNext : (state.absorb target group).Low move.limit :=
      absorb_low mirrors.sound mirrors.low objects low
    obtain ⟨index, later, result, merged, _⟩ := exists_merge mirrors.sound objects alone
    have copied := mirrors.copies.merge held lowAll
    obtain ⟨⟨joined', later'⟩, result'⟩ :
        ∃ result, state'.registry.merge (state'.candidates target (group.rename move.nodes)) =
          result := ⟨_, rfl⟩
    rw [← candidates, result, result'] at copied
    obtain ⟨rfl, copiesLater⟩ := copied
    rw [absorb_of_merge alone result] at soundNext lowNext
    rw [absorb_of_merge alone result, absorb_of_merge several' result']
    refine ⟨soundNext, copiesLater, ?_, lowNext⟩
    · have current : (state'.merged.get? target).map ShapeId.node =
            some (.node (move.nodes index)) ↔
          (state.merged.get? target).map ShapeId.node = some (.node index) := by
        rw [mirrors.same, Table.get?_map]
        cases state.merged.get? target <;> simp
      dsimp only
      by_cases known : (state.merged.get? target).map ShapeId.node = some (.node index)
      · rw [if_pos known, if_pos (current.mpr known)]
        exact mirrors.same
      · rw [if_neg known, if_neg (current.not.mpr known), Table.map_put, mirrors.same]

/-! ### Rounds -/

omit mirrors in
theorem foldl_absorb {entries : List (String × IdSet)} (mirrors : Mirrors move state state')
    (objects : ∀ entry ∈ entries, ∀ id ∈ entry.2, state.registry.HasFields id)
    (low : ∀ entry ∈ entries, ∀ id ∈ entry.2, state.registry.NoHigher move.limit id) :
    Mirrors move (entries.foldl (fun state entry => state.absorb entry.1 entry.2) state)
      (entries.foldl (fun state entry => state.absorb entry.1 (entry.2.rename move.nodes))
        state') := by
  induction entries generalizing state state' with
  | nil => exact mirrors
  | cons entry rest step =>
    rw [List.forall_mem_cons] at objects low
    obtain ⟨_, grows, _, _⟩ := absorb_spec entry.1 mirrors.sound objects.1
    refine step (mirrors.absorb objects.1 low.1) (fun other member id inside => ?_)
      fun other member id inside => ?_
    · exact (objects.2 other member id inside).grow grows.within
    · exact (noHigher_grow_iff mirrors.sound.registry grows
        (objects.2 other member id inside).holds).mpr (low.2 other member id inside)

/-- **A round leads to the same merges in the copy.** -/
theorem round :
    (round (.node move.listed) state').1 =
        (round (.node move.top) state).1.map (IdSet.rename move.nodes) ∧
      Mirrors move (round (.node move.top) state).2 (round (.node move.listed) state').2 := by
  have roots : state'.merged.values.map ShapeId.node =
      (state.merged.values.map ShapeId.node).map (ShapeId.rename move.nodes) := by
    rw [mirrors.same, Table.values_map, List.map_map, List.map_map]
    rfl
  have inside : ∀ id ∈ state.merged.values.map ShapeId.node, state.registry.Inside move id := by
    intro id member
    obtain ⟨index, value, rfl⟩ := List.mem_map.mp member
    obtain ⟨target, found⟩ := Table.mem_values_iff.mp value
    exact ⟨(mirrors.sound.merged target index found).holds,
      (mirrors.low target index found).mono (Nat.le_succ _)⟩
  have groups := mirrors.copies.groups_rename inside
  have objects := hasFields_of_round (.node move.top) state
  unfold Unification.round at objects ⊢
  rw [roots, groups.same]
  refine ⟨rfl, ?_⟩
  dsimp only
  rw [Table.entries_map, List.foldl_map]
  exact foldl_absorb mirrors objects fun entry member =>
    groups.low entry.1 entry.2 (Table.get?_eq_some_iff.mpr member)

/-- **All rounds lead to the same merges in the copy.** -/
theorem unifyRounds (rounds : Nat) (groups : Table String IdSet) :
    (unifyRounds (.node move.listed) rounds (groups.map (IdSet.rename move.nodes)) state').1 =
        (unifyRounds (.node move.top) rounds groups state).1.map (IdSet.rename move.nodes) ∧
      Mirrors move (unifyRounds (.node move.top) rounds groups state).2
        (unifyRounds (.node move.listed) rounds (groups.map (IdSet.rename move.nodes))
          state').2 := by
  induction rounds generalizing groups state state' with
  | zero => exact ⟨rfl, mirrors⟩
  | succ rounds step =>
    obtain ⟨same, after⟩ := mirrors.round
    have rests : (Unification.round (.node move.listed) state').2.merged = state'.merged ↔
        (Unification.round (.node move.top) state).2.merged = state.merged := by
      rw [after.same, mirrors.same, (Table.map_injective move.nodes.injective).eq_iff]
    rw [unifyRounds_succ, unifyRounds_succ]
    by_cases rest : (Unification.round (.node move.top) state).2.merged = state.merged
    · rw [if_pos rest, if_pos (rests.mpr rest)]
      exact ⟨same, after⟩
    · rw [if_neg rest, if_neg (rests.not.mpr rest), same]
      exact step after _

end Mirrors

end Unification

/-! ### Aliases -/

/-- The aliases lead to the same under other names. -/
def SameAliases (nodes : Nat ↪o Nat) (aliases aliases' : Table Nat Nat) : Prop :=
  ∀ member, aliases'.get? (nodes member) = (aliases.get? member).map nodes

theorem SameAliases.putNew {nodes : Nat ↪o Nat} {aliases aliases' : Table Nat Nat}
    (same : SameAliases nodes aliases aliases') (member index : Nat) :
    SameAliases nodes (aliases.putNew member index)
      (aliases'.putNew (nodes member) (nodes index)) := by
  intro other
  rw [Table.get?_putNew, Table.get?_putNew, same member, same other]
  by_cases here : other = member
  · rw [if_pos here, if_pos (congrArg nodes here)]
    cases aliases.get? member <;> rfl
  · rw [if_neg here, if_neg fun equal => here (nodes.injective equal)]

/-- **The same members lead to the same merges.** -/
theorem sameAliases_aliases {nodes : Nat ↪o Nat} (groups : Table String IdSet)
    (merged : Table String Nat) :
    SameAliases nodes (aliases groups merged)
      (aliases (groups.map (IdSet.rename nodes)) (merged.map nodes)) := by
  unfold aliases
  rw [Table.entries_map, List.foldl_map]
  refine List.foldl_rel (r := SameAliases nodes) (fun _ => rfl) ?_
  intro entry _ aliases aliases' same
  dsimp only
  rw [Table.get?_map]
  cases merged.get? entry.1 with
  | none => exact same
  | some index =>
    dsimp only [Option.map_some]
    rw [IdSet.toList_rename, filterMap_index?_rename, List.foldl_map]
    refine List.foldl_rel same ?_
    intro member _ aliases aliases' same
    by_cases here : member = index
    · rw [if_pos here, if_pos (congrArg nodes here)]
      exact same
    · rw [if_neg here, if_neg fun equal => here (nodes.injective equal)]
      exact same.putNew member index

/-! ### Unification -/

/-- **Unification goes the same way in the copy.** -/
theorem Copies.unifyTargets (copies : Copies move registry copy) :
    SameAliases move.nodes (registry.unifyTargets (.node move.top)).1
        (copy.unifyTargets (.node move.listed)).1 ∧
      Copies move (registry.unifyTargets (.node move.top)).2
        (copy.unifyTargets (.node move.listed)).2 := by
  have start : Unification.Mirrors move ⟨∅, registry⟩ ⟨∅, copy⟩ :=
    ⟨⟨copies.sound, fun target index found => by cases found⟩, copies, rfl,
      fun target index found => by cases found⟩
  obtain ⟨groups, last⟩ := start.unifyRounds maxRounds ∅
  rw [Table.map_empty] at groups last
  unfold Registry.unifyTargets
  dsimp only
  rw [groups, last.same]
  exact ⟨sameAliases_aliases _ _, last.copies⟩

end SampleShapes.Registry
