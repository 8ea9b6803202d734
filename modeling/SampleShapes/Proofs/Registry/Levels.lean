/-
**How high merges are.**

Unification merges what stands in the fields of objects that are reached from the root or from a
merge. What stands in a field is less high than its object, and a join is no higher than what it
joins, so that every round keeps to the levels below the object of the root. In the end nothing that
was merged, and no merge, is as high as that object.

* `low_of_field`: what stands in a field that is reached from low roots is low;
* `low_groups`: so are the members of every group;
* `Unification.absorb_low`, `Unification.round_low`: merging a group, or all of them, leads no
  higher;
* `unifyTargets_low`: **neither end of an alias is as high as the object of the root.**
-/

import SampleShapes.Proofs.Registry.Height
import SampleShapes.Proofs.Registry.Rounds

namespace SampleShapes.Registry

variable {registry later : Registry} {root id : ShapeId} {roots : List ShapeId} {index limit : Nat}

/-! ### What is reached -/

/-- The root is at most one level higher than `limit`, or it is a list of nothing but such a
shape. -/
def Tops (registry : Registry) (limit : Nat) (root : ShapeId) : Prop :=
  registry.NoHigher (limit + 1) root ∨
    ∃ top, registry.elements? root = some (.singleton top) ∧ registry.NoHigher (limit + 1) top

theorem Tops.grow (tops : registry.Tops limit root) (sound : registry.Sound)
    (grows : registry.Grows later) (held : registry.Holds root) : later.Tops limit root := by
  rcases tops with low | ⟨top, list, low⟩
  · exact .inl ((noHigher_grow_iff sound grows held).mpr low)
  · have inside := (sound.element list (List.mem_singleton_self top)).1
    exact .inr ⟨top, grows.within.elements? list, (noHigher_grow_iff sound grows inside).mpr low⟩

/-- What is reached is low, unless it is the list that the root is. -/
theorem low_of_isReached (tops : registry.Tops limit root)
    (low : ∀ id ∈ roots, registry.NoHigher limit id)
    (reached : registry.IsReached (root :: roots) index) :
    registry.NoHigher (limit + 1) (.node index) ∨
      ∃ top, registry.elements? (.node index) = some (.singleton top) ∧
        registry.NoHigher (limit + 1) top := by
  induction reached with
  | start member =>
    obtain ⟨id, listed, isNode⟩ := List.mem_filterMap.mp member
    cases id with
    | node place =>
      obtain rfl := Option.some.inj isNode
      rcases List.mem_cons.mp listed with same | inside
      · rw [same]
        exact tops
      · exact .inl ((low _ inside).mono (Nat.le_succ limit))
    | primitive kind => cases isNode
    | date => cases isNode
  | step _ leads before =>
    obtain ⟨shape, found, child⟩ := mem_childNodes_iff.mp leads
    refine .inl ?_
    rcases before with high | ⟨top, list, high⟩
    · exact high.child found child
    · obtain rfl := Option.some.inj (found.symm.trans (elements?_eq_some_iff.mp list))
      rw [List.mem_singleton.mp child]
      exact high

/-- **What stands in a field that is reached is low.** -/
theorem low_of_field (tops : registry.Tops limit root)
    (low : ∀ id ∈ roots, registry.NoHigher limit id)
    (reached : registry.IsReached (root :: roots) index) {fields : Table String Field}
    (found : registry.shapeAt? index = some (.object fields)) {field : Field}
    (value : field ∈ fields.values) : registry.NoHigher limit field.shape := by
  have object : registry.fields? (.node index) = some fields := fields?_eq_some_iff.mpr found
  rcases low_of_isReached tops low reached with high | ⟨top, list, _⟩
  · obtain ⟨less, same, each⟩ := high.of_object object
    obtain rfl := Nat.succ.inj same
    obtain ⟨raw, under⟩ := Table.mem_values_iff.mp value
    exact each raw field under
  · cases (elements?_eq_some_iff.mp list).symm.trans found

/-! ### What is merged -/

/-- What is bound in a position is no higher than the position. -/
theorem low_of_mem_boundObjects {depth : Nat} {position : ShapeId}
    (low : registry.NoHigher limit position)
    (member : id ∈ registry.boundObjects depth position) : registry.NoHigher limit id := by
  induction depth generalizing position with
  | zero => exact absurd member List.not_mem_nil
  | succ depth step =>
    unfold boundObjects at member
    split at member
    · split at member
      · exact absurd member List.not_mem_nil
      · rw [List.mem_singleton.mp member]
        exact low
    · next found =>
      obtain ⟨element, listed, inside⟩ := List.mem_flatMap.mp member
      exact step (low.child found listed) inside
    · next found =>
      obtain ⟨alternative, listed, inside⟩ := List.mem_flatMap.mp member
      exact step (low.child found listed) inside
    · exact absurd member List.not_mem_nil

/-- **The members of every group are low.** -/
theorem low_groups (tops : registry.Tops limit root)
    (low : ∀ id ∈ roots, registry.NoHigher limit id) :
    ∀ target group, (registry.groups (root :: roots)).get? target = some group →
      ∀ id ∈ group, registry.NoHigher limit id :=
  forall_mem_groups fun _ _ reached found _ value _ _ _ bound =>
    low_of_mem_boundObjects (low_of_field tops low reached found value) bound

namespace Unification

variable {state : Unification} {target : String} {group : IdSet}

/-- Every merge is low. -/
def Low (state : Unification) (limit : Nat) : Prop :=
  ∀ target index, state.merged.get? target = some index →
    state.registry.NoHigher limit (.node index)

theorem low_of_mem_candidates (lowMerges : state.Low limit)
    (low : ∀ id ∈ group, state.registry.NoHigher limit id) :
    ∀ id ∈ state.candidates target group, state.registry.NoHigher limit id := by
  intro id member
  rcases List.mem_append.mp member with inside | before
  · exact low id inside
  · obtain ⟨index, found, rfl⟩ := Option.map_eq_some_iff.mp
      (Option.mem_toList.mp (List.mem_of_mem_filter before))
    exact lowMerges target index found

/-- **Merging a group leads no higher.** -/
theorem absorb_low (sound : state.Sound) (lowMerges : state.Low limit)
    (objects : ∀ id ∈ group, state.registry.HasFields id)
    (low : ∀ id ∈ group, state.registry.NoHigher limit id) :
    (state.absorb target group).Low limit := by
  by_cases alone : (state.candidates target group).length < 2
  · rw [absorb_of_lt_two alone]
    exact lowMerges
  · obtain ⟨index, merged, _, after⟩ := absorb_of_two_le sound objects alone
    intro other place found
    rw [after] at found
    split at found
    · obtain rfl := Option.some.inj found
      refine merged.joins.noHigher fun id member => ?_
      have held := (hasFields_of_mem_candidates sound objects id member).holds
      exact (noHigher_grow_iff sound.registry merged.grows held).mpr
        (low_of_mem_candidates lowMerges low id member)
    · exact (noHigher_grow_iff sound.registry merged.grows
        (sound.merged other place found).holds).mpr (lowMerges other place found)

theorem foldl_absorb_low {entries : List (String × IdSet)} (sound : state.Sound)
    (lowMerges : state.Low limit)
    (objects : ∀ entry ∈ entries, ∀ id ∈ entry.2, state.registry.HasFields id)
    (low : ∀ entry ∈ entries, ∀ id ∈ entry.2, state.registry.NoHigher limit id) :
    (entries.foldl (fun state entry => state.absorb entry.1 entry.2) state).Low limit := by
  induction entries generalizing state with
  | nil => exact lowMerges
  | cons entry rest step =>
    rw [List.forall_mem_cons] at objects low
    obtain ⟨soundNext, grows, _, _⟩ := absorb_spec entry.1 sound objects.1
    refine step soundNext (absorb_low sound lowMerges objects.1 low.1)
      (fun other member id inside => ?_) fun other member id inside => ?_
    · exact (objects.2 other member id inside).grow grows.within
    · exact (noHigher_grow_iff sound.registry grows
        (objects.2 other member id inside).holds).mpr (low.2 other member id inside)

/-- **A round leads no higher,** and what it merges is low. -/
theorem round_low (sound : state.Sound) (lowMerges : state.Low limit)
    (tops : state.registry.Tops limit root) :
    (round root state).2.Low limit ∧ ∀ target group,
      (round root state).1.get? target = some group →
        ∀ id ∈ group, (round root state).2.registry.NoHigher limit id := by
  have low : ∀ target group, (round root state).1.get? target = some group →
      ∀ id ∈ group, state.registry.NoHigher limit id := by
    refine low_groups tops fun id member => ?_
    obtain ⟨index, value, rfl⟩ := List.mem_map.mp member
    obtain ⟨target, found⟩ := Table.mem_values_iff.mp value
    exact lowMerges target index found
  have objects := hasFields_of_round root state
  refine ⟨foldl_absorb_low sound lowMerges objects fun entry member =>
    low entry.1 entry.2 (Table.get?_eq_some_iff.mpr member), fun target group found id member => ?_⟩
  have held := (objects (target, group) (Table.get?_eq_some_iff.mp found) id member).holds
  exact (noHigher_grow_iff sound.registry (round_sound sound root).2 held).mpr
    (low target group found id member)

/-- **All rounds lead no higher.** -/
theorem unifyRounds_low (rounds : Nat) (groups : Table String IdSet) (sound : state.Sound)
    (lowMerges : state.Low limit) (tops : state.registry.Tops limit root)
    (held : state.registry.Holds root)
    (low : ∀ target group, groups.get? target = some group →
      ∀ id ∈ group, state.registry.NoHigher limit id) :
    (unifyRounds root rounds groups state).2.Low limit ∧ ∀ target group,
      (unifyRounds root rounds groups state).1.get? target = some group →
        ∀ id ∈ group, (unifyRounds root rounds groups state).2.registry.NoHigher limit id := by
  induction rounds generalizing groups state with
  | zero => exact ⟨lowMerges, low⟩
  | succ rounds step =>
    obtain ⟨lowNext, lowGroups⟩ := round_low sound lowMerges tops
    obtain ⟨soundNext, grows⟩ := round_sound sound root
    rw [unifyRounds_succ]
    split
    · exact ⟨lowNext, lowGroups⟩
    · exact step _ soundNext lowNext (tops.grow sound.registry grows held) (grows.holds held)
        lowGroups

end Unification

/-- **Neither end of an alias is as high as the object of the root.** -/
theorem unifyTargets_low (sound : registry.Sound) (held : registry.Holds root)
    (tops : registry.Tops limit root) {member : Nat}
    (leads : (registry.unifyTargets root).1.get? member = some index) :
    (registry.unifyTargets root).2.NoHigher limit (.node member) ∧
      (registry.unifyTargets root).2.NoHigher limit (.node index) := by
  have start : (⟨∅, registry⟩ : Unification).Sound :=
    ⟨sound, fun target index found => by simp at found⟩
  obtain ⟨lowMerges, low⟩ := Unification.unifyRounds_low maxRounds ∅ start
    (fun target index found => by simp at found) tops held
    (fun target group found => by simp at found)
  obtain ⟨target, group, found, merge, inside⟩ := leadsToMerges_aliases _ _ member index leads
  exact ⟨low target group found _ inside, lowMerges target index merge⟩

end SampleShapes.Registry
