/-
**Rounds of merging.**

A round collects the objects under each target and merges them. The groups that come with the result
are those of the last round, whichever round it was: each of several members has its merge, and if
the merges stayed the same in that round, the groups are those of the merges themselves.

* `exists_group_of_bound`: what a field binds is in the group of its target;
* `round_merges`: a group of several members has a merge after the round;
* `exists_last_round`: the result is that of one round, which a further one tells to be the last;
* `isSome_aliases`: a member of a merged group follows some merge.
-/

import SampleShapes.Proofs.Registry.Unification

namespace SampleShapes.Registry

variable {registry later : Registry} {id position : ShapeId} {target : String} {group : IdSet}
  {groups : Table String IdSet} {root : ShapeId}

/-! ### What a position binds -/

theorem mem_boundObjects_of_within (within : registry.Within later) {depth : Nat}
    (member : id ∈ registry.boundObjects depth position) :
    id ∈ later.boundObjects depth position := by
  induction depth generalizing position with
  | zero => exact absurd member List.not_mem_nil
  | succ depth step =>
    unfold boundObjects at member
    cases found : registry.shape? position with
    | none =>
      rw [found] at member
      exact absurd member List.not_mem_nil
    | some shape =>
      rw [found] at member
      unfold boundObjects
      rw [within.shape? found]
      cases shape with
      | object fields => exact member
      | list elements =>
        obtain ⟨element, listed, inside⟩ := List.mem_flatMap.mp member
        exact List.mem_flatMap.mpr ⟨element, listed, step inside⟩
      | union members =>
        obtain ⟨alternative, listed, inside⟩ := List.mem_flatMap.mp member
        exact List.mem_flatMap.mpr ⟨alternative, listed, step inside⟩

/-- A kept position binds the same objects when the registry has grown. -/
theorem boundObjects_grow (sound : registry.Sound) (grows : registry.Grows later) {depth : Nat}
    (held : registry.Holds position) :
    later.boundObjects depth position = registry.boundObjects depth position := by
  induction depth generalizing position with
  | zero => rfl
  | succ depth step =>
    unfold boundObjects
    rw [grows.shape?_eq held]
    cases found : registry.shape? position with
    | none => rfl
    | some shape =>
      cases shape with
      | object fields => rfl
      | list elements =>
        exact List.flatMap_congr fun element member => step (sound.child found member).1
      | union members =>
        exact List.flatMap_congr fun alternative member => step (sound.child found member).1

/-! ### Groups -/

/-- The target has a group, and the identity is in it. -/
def InGroup (groups : Table String IdSet) (target : String) (id : ShapeId) : Prop :=
  ∃ group, groups.get? target = some group ∧ id ∈ group

theorem InGroup.groupField (inside : InGroup groups target id) (field : Field) :
    InGroup (registry.groupField groups field) target id := by
  obtain ⟨group, found, member⟩ := inside
  unfold Registry.groupField
  split
  · next named _ =>
    unfold InGroup
    rw [Table.get?_alter]
    split
    · next same =>
      refine ⟨_, rfl, IdSet.mem_insertAll.mpr (.inr ?_)⟩
      rw [← same, found]
      exact member
    · exact ⟨group, found, member⟩
  · exact ⟨group, found, member⟩

theorem inGroup_groupField (registry : Registry) (groups : Table String IdSet) {field : Field}
    (names : field.key.target? = some target)
    (bound : id ∈ registry.boundObjects field.shape.ceiling field.shape) :
    InGroup (registry.groupField groups field) target id := by
  unfold Registry.groupField
  rw [names]
  refine ⟨_, (Table.get?_alter _ _ _ _).trans (if_pos rfl), ?_⟩
  exact IdSet.mem_insertAll.mpr (.inl bound)

/-- **What a field binds is in the group of its target,** if the object of the field is reached. -/
theorem exists_group_of_bound {roots : List ShapeId} {index : Nat} {fields : Table String Field}
    {field : Field} (reached : registry.IsReached roots index)
    (found : registry.shapeAt? index = some (.object fields)) (value : field ∈ fields.values)
    (names : field.key.target? = some target)
    (bound : id ∈ registry.boundObjects field.shape.ceiling field.shape) :
    InGroup (registry.groups roots) target id := by
  unfold groups
  refine Lists.foldl_of_mem (InGroup · target id) (mem_reachable_iff.mpr reached) ?_ ?_ _
  · intro groups
    rw [found]
    exact Lists.foldl_of_mem (InGroup · target id) value
      (fun groups => inGroup_groupField registry groups names bound)
      (fun groups field inside => inside.groupField field) groups
  · intro groups other inside
    split
    · exact List.foldlRecOn (motive := (InGroup · target id)) _ _ inside
        fun groups inside field _ => inside.groupField field
    · exact inside

/-! ### One round -/

namespace Unification

variable {state : Unification}

/-- The groups of a round, and what merging them leads to. -/
def round (root : ShapeId) (state : Unification) : Table String IdSet × Unification :=
  let groups := state.registry.groups (root :: state.merged.values.map ShapeId.node)
  (groups, groups.entries.foldl (fun state (target, group) => state.absorb target group) state)

theorem unifyRounds_succ (root : ShapeId) (rounds : Nat) (groups : Table String IdSet)
    (state : Unification) :
    unifyRounds root (rounds + 1) groups state =
      if (round root state).2.merged = state.merged then round root state
      else unifyRounds root rounds (round root state).1 (round root state).2 :=
  rfl

/-- A single round is just that. -/
theorem unifyRounds_one (root : ShapeId) (groups : Table String IdSet) (state : Unification) :
    unifyRounds root 1 groups state = round root state := by
  rw [unifyRounds_succ]
  split <;> rfl

/-- The members of the groups of a round are objects with fields. -/
theorem hasFields_of_round (root : ShapeId) (state : Unification) :
    ∀ entry ∈ (round root state).1.entries, ∀ id ∈ entry.2, state.registry.HasFields id :=
  fun entry member => groupsObjects_groups state.registry _ entry.1 entry.2
    (Table.get?_eq_some_iff.mpr member)

/-- **A round leaves a sound state** whose registry has only grown. -/
theorem round_sound (sound : state.Sound) (root : ShapeId) :
    (round root state).2.Sound ∧ state.registry.Grows (round root state).2.registry := by
  obtain ⟨soundNext, grows, _, _⟩ := foldl_absorb_settled _ (round root state).1.distinct state
    sound (hasFields_of_round root state) rfl
  exact ⟨soundNext, grows⟩

/-- A target that has a merge keeps one. -/
theorem isSome_absorb (sound : state.Sound) (objects : ∀ id ∈ group, state.registry.HasFields id)
    {other : String} (merged : (state.merged.get? other).isSome) :
    ((state.absorb target group).merged.get? other).isSome := by
  by_cases alone : (state.candidates target group).length < 2
  · rwa [absorb_of_lt_two alone]
  · obtain ⟨index, _, _, after⟩ := absorb_of_two_le sound objects alone
    rw [after]
    split
    · rfl
    · exact merged

/-- A group of several members gets a merge. -/
theorem isSome_absorb_of_ne (sound : state.Sound)
    (objects : ∀ id ∈ group, state.registry.HasFields id) {first second : ShapeId}
    (member : first ∈ group) (member' : second ∈ group) (apart : first ≠ second) :
    ((state.absorb target group).merged.get? target).isSome := by
  have several : ¬ (state.candidates target group).length < 2 := fun few =>
    apart (eq_of_lt_two few (List.mem_append_left _ member) (List.mem_append_left _ member'))
  obtain ⟨index, _, _, after⟩ := absorb_of_two_le sound objects several
  rw [after, if_pos rfl]
  rfl

theorem foldl_absorb_merges (entries : List (String × IdSet)) (state : Unification)
    (sound : state.Sound) (objects : ∀ entry ∈ entries, ∀ id ∈ entry.2, state.registry.HasFields id)
    {after : Unification}
    (folded : entries.foldl (fun state entry => state.absorb entry.1 entry.2) state = after) :
    (∀ target, (state.merged.get? target).isSome → (after.merged.get? target).isSome) ∧
      ∀ entry ∈ entries, ∀ first ∈ entry.2, ∀ second ∈ entry.2, first ≠ second →
        (after.merged.get? entry.1).isSome := by
  induction entries generalizing state with
  | nil =>
    rw [← folded]
    exact ⟨fun _ merged => merged, fun entry member => absurd member List.not_mem_nil⟩
  | cons entry rest step =>
    rw [List.forall_mem_cons] at objects
    obtain ⟨soundNext, grows, _, _⟩ := absorb_spec entry.1 sound objects.1
    obtain ⟨stays, others⟩ := step _ soundNext
      (fun other member id inside => (objects.2 other member id inside).grow grows.within) folded
    refine ⟨fun target merged => stays target (isSome_absorb sound objects.1 merged), ?_⟩
    refine List.forall_mem_cons.mpr ⟨fun first member second member' apart => ?_, others⟩
    exact stays entry.1 (isSome_absorb_of_ne sound objects.1 member member' apart)

/-- **A group of several members has a merge after the round.** -/
theorem round_merges (sound : state.Sound) {first second : ShapeId}
    (found : (round root state).1.get? target = some group) (member : first ∈ group)
    (member' : second ∈ group) (apart : first ≠ second) :
    ((round root state).2.merged.get? target).isSome :=
  (foldl_absorb_merges _ state sound (hasFields_of_round root state) rfl).2 (target, group)
    (Table.get?_eq_some_iff.mp found) first member second member' apart

/-! ### The last round -/

/-- **The result is that of one round,** the last one. If the round after the others changed no
merge, neither did the last one. -/
theorem exists_last_round (root : ShapeId) (rounds : Nat) (groups : Table String IdSet)
    (state : Unification) (sound : state.Sound) :
    ∃ before : Unification, before.Sound ∧ state.registry.Grows before.registry ∧
      unifyRounds root (rounds + 1) groups state = round root before ∧
      ((unifyRounds root (rounds + 1) groups state).2.merged =
          (unifyRounds root rounds groups state).2.merged →
        (round root before).2.merged = before.merged) := by
  induction rounds generalizing groups state with
  | zero =>
    refine ⟨state, sound, .refl _, unifyRounds_one root groups state, fun rests => ?_⟩
    rw [unifyRounds_one] at rests
    exact rests
  | succ rounds step =>
    obtain ⟨soundNext, grows⟩ := round_sound sound root
    by_cases rests : (round root state).2.merged = state.merged
    · refine ⟨state, sound, .refl _, ?_, fun _ => rests⟩
      rw [unifyRounds_succ, if_pos rests]
    · obtain ⟨before, soundBefore, growsBefore, last, settles⟩ :=
        step (round root state).1 (round root state).2 soundNext
      refine ⟨before, soundBefore, grows.trans growsBefore, ?_, fun still => settles ?_⟩
      · rw [unifyRounds_succ, if_neg rests, last]
      · rw [unifyRounds_succ root (rounds + 1), if_neg rests, unifyRounds_succ root rounds groups,
          if_neg rests] at still
        exact still

end Unification

/-! ### Aliases -/

theorem isSome_putNew {aliases : Table Nat Nat} {member index key : Nat}
    (there : (aliases.get? key).isSome) : ((aliases.putNew member index).get? key).isSome := by
  rw [Table.get?_putNew]
  split
  · rfl
  · exact there

/-- **A member of a merged group follows some merge,** unless it is the merge itself. -/
theorem isSome_aliases {merged : Table String Nat} {member index : Nat}
    (found : groups.get? target = some group) (merge : merged.get? target = some index)
    (inside : .node member ∈ group) (apart : member ≠ index) :
    ((aliases groups merged).get? member).isSome := by
  have keeps : ∀ (aliases : Table Nat Nat) (place : Nat) (members : List Nat),
      (aliases.get? member).isSome →
        ((members.foldl (fun aliases member =>
          if member = place then aliases else aliases.putNew member place) aliases).get?
            member).isSome := by
    intro aliases place members there
    refine List.foldlRecOn (motive := fun aliases : Table Nat Nat => (aliases.get? member).isSome)
      _ _ there ?_
    intro aliases there other _
    split
    · exact there
    · exact isSome_putNew there
  unfold aliases
  refine Lists.foldl_of_mem (fun aliases : Table Nat Nat => (aliases.get? member).isSome)
    (Table.get?_eq_some_iff.mp found) (fun aliases => ?_) (fun aliases entry there => ?_) ∅
  · have listed : member ∈ group.toList.filterMap ShapeId.index? :=
      List.mem_filterMap.mpr ⟨_, inside, rfl⟩
    simp only [merge]
    refine Lists.foldl_of_mem (fun aliases : Table Nat Nat => (aliases.get? member).isSome)
      listed (fun aliases => ?_) (fun aliases other there => ?_) _
    · rw [if_neg apart, Table.get?_putNew, if_pos rfl]
      rfl
    · split
      · exact there
      · exact isSome_putNew there
  · dsimp only
    split
    · exact keeps _ _ _ there
    · exact there

end SampleShapes.Registry
