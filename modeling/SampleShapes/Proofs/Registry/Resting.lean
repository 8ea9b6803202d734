/-
**Rounds that come to rest.**

A merge absorbs what it was made of. So a group whose members were all merged before, or are the
merge itself, is merged to the same again, and nothing is interned for it. A round that collects
nothing but such members changes nothing, and the rounds are at rest: another one would collect the
same.

* `absorb_covers`, `absorb_of_covers`: merging covers a group, and changes nothing if it is covered;
* `round_covers`: a round covers its groups;
* `round_still`: **a round that collects nothing new changes nothing**;
* `MergesPlain.round`, `round_still_of_isPlain`: merges of what is plain bind nothing, so that the
  next round collects nothing new;
* `merged_unifyRounds_of_le`: **once a round changed no merge, no later one does**;
* `merged_unifyRounds_of_isUnnested`: if references are not nested, the second round changes none.
-/

import SampleShapes.Proofs.Registry.Absorption
import SampleShapes.Proofs.Registry.Plainness

namespace SampleShapes.Registry.Unification

variable {state after : Unification} {target : String} {group : IdSet} {root : ShapeId}
  {groups : Table String IdSet}

/-! ### One group -/

/-- The members of the group are what the target was merged from, or its merge; if it has none, they
are one at most. -/
structure Covers (state : Unification) (target : String) (group : IdSet) : Prop where
  /-- The merge joins candidates among which the members are, itself aside. -/
  merged : ∀ index, state.merged.get? target = some index →
    ∃ candidates, (∀ candidate ∈ candidates, state.registry.Holds candidate) ∧
      state.registry.Joins candidates (.node index) ∧
        ∀ id ∈ group, id = .node index ∨ id ∈ candidates
  /-- What has no merge needs none. -/
  alone : state.merged.get? target = none → ∀ first ∈ group, ∀ second ∈ group, first = second

theorem Covers.grow (covers : state.Covers target group) (sound : state.Sound)
    (grows : state.registry.Grows after.registry)
    (same : after.merged.get? target = state.merged.get? target) : after.Covers target group where
  merged index found := by
    rw [same] at found
    obtain ⟨candidates, held, joins, within⟩ := covers.merged index found
    exact ⟨candidates, fun candidate member => grows.holds (held candidate member),
      joins.grow sound.registry grows held, within⟩
  alone none := covers.alone (same ▸ none)

/-- **Merging a group covers it.** -/
theorem absorb_covers (target : String) (sound : state.Sound)
    (objects : ∀ id ∈ group, state.registry.HasFields id) :
    (state.absorb target group).Covers target group := by
  by_cases few : (state.candidates target group).length < 2
  · rw [absorb_of_lt_two few]
    refine ⟨fun index found => ?_, fun _ first member second member' => ?_⟩
    · refine ⟨[.node index], fun candidate only => ?_, .alone rfl, fun id member => .inl ?_⟩
      · rw [List.mem_singleton.mp only]
        exact (sound.merged target index found).holds
      · exact eq_of_lt_two few (List.mem_append_left _ member) (merged_mem_candidates group found)
    · exact eq_of_lt_two few (List.mem_append_left _ member) (List.mem_append_left _ member')
  · obtain ⟨index, merged, _, results⟩ := absorb_of_two_le sound objects few
    have here : (state.absorb target group).merged.get? target = some index := by
      rw [results, if_pos rfl]
    refine ⟨fun other found => ?_, fun none => absurd (here.symm.trans none) nofun⟩
    obtain rfl := Option.some.inj (here.symm.trans found)
    refine ⟨state.candidates target group, fun candidate member => ?_, merged.joins,
      fun id member => .inr (List.mem_append_left _ member)⟩
    exact merged.grows.holds (hasFields_of_mem_candidates sound objects candidate member).holds

/-- **Merging a group that is covered changes nothing.** -/
theorem absorb_of_covers (sound : state.Sound) (normal : state.registry.Normal)
    (covers : state.Covers target group) : state.absorb target group = state := by
  by_cases few : (state.candidates target group).length < 2
  · exact absorb_of_lt_two few
  · cases found : state.merged.get? target with
    | none =>
      -- Several candidates would be several members of the group.
      have same : state.candidates target group = group.toList := by simp [candidates, found]
      rw [same, Nat.not_lt] at few
      obtain ⟨first, member, _⟩ := Lists.exists_ne_of_nodup group.nodup_toList few .null
      obtain ⟨second, member', apart⟩ := Lists.exists_ne_of_nodup group.nodup_toList few first
      exact absurd (covers.alone found second member' first member) apart
    | some index =>
      obtain ⟨candidates, _, joins, within⟩ := covers.merged index found
      have joins : state.registry.Joins (state.candidates target group) (.node index) := by
        refine joins.absorb normal (fun id member => ?_) (merged_mem_candidates group found)
        rcases List.mem_append.mp member with inside | current
        · exact within id inside
        · have current := List.mem_of_mem_filter current
          rw [found] at current
          exact .inl (List.mem_singleton.mp current)
      rw [absorb_of_merge few (joins.merge_eq sound.registry.ordered), found, if_pos (by rfl)]

/-! ### One round -/

/-- **A round covers its groups.** -/
theorem round_covers (sound : state.Sound) (root : ShapeId)
    (found : (round root state).1.get? target = some group) :
    (round root state).2.Covers target group := by
  have covered := (foldl_absorb_spec
    (fun _ target _ sound objects => absorb_covers target sound objects)
    (fun _ _ _ _ covers => covers.grow) _ (round root state).1.distinct state sound
    (hasFields_of_round root state) rfl).2.2.2
  exact covered (target, group) (Table.get?_eq_some_iff.mp found)

theorem round_normal (sound : state.Sound) (normal : state.registry.Normal) (root : ShapeId) :
    (round root state).2.registry.Normal :=
  foldl_absorb_lasts lasting_normal.merge _ state sound (hasFields_of_round root state) normal

theorem foldl_absorb_of_covers (sound : state.Sound) (normal : state.registry.Normal)
    (entries : List (String × IdSet)) (covers : ∀ entry ∈ entries, state.Covers entry.1 entry.2) :
    entries.foldl (fun state entry => state.absorb entry.1 entry.2) state = state := by
  induction entries with
  | nil => rfl
  | cons entry rest step =>
    rw [List.forall_mem_cons] at covers
    rw [List.foldl_cons, absorb_of_covers sound normal covers.1]
    exact step covers.2

/-- A group is covered if its members were in the groups that were merged, or are merges of its
target. -/
theorem covers_of_within (sound : state.Sound)
    (covers : ∀ target group, groups.get? target = some group → state.Covers target group)
    (within : ∀ id ∈ group, InGroup groups target id ∨
      ∃ index, state.merged.get? target = some index ∧ id = .node index) :
    state.Covers target group where
  merged index found := by
    have itself : ∀ id : ShapeId,
        (∃ place, state.merged.get? target = some place ∧ id = .node place) → id = .node index := by
      rintro id ⟨place, found', rfl⟩
      rw [Option.some.inj (found.symm.trans found')]
    cases before : groups.get? target with
    | none =>
      refine ⟨[.node index], fun candidate only => ?_, .alone rfl, fun id member => .inl ?_⟩
      · rw [List.mem_singleton.mp only]
        exact (sound.merged target index found).holds
      · rcases within id member with ⟨old, found', _⟩ | merge
        · cases before.symm.trans found'
        · exact itself id merge
    | some old =>
      obtain ⟨candidates, held, joins, among⟩ := (covers target old before).merged index found
      refine ⟨candidates, held, joins, fun id member => ?_⟩
      rcases within id member with ⟨_, found', inside⟩ | merge
      · obtain rfl := Option.some.inj (before.symm.trans found')
        exact among id inside
      · exact .inl (itself id merge)
  alone none first member second member' := by
    have inside : ∀ id ∈ group, InGroup groups target id := fun id member =>
      (within id member).resolve_right fun ⟨_, found, _⟩ => by cases none.symm.trans found
    obtain ⟨old, before, among⟩ := inside first member
    obtain ⟨_, before', among'⟩ := inside second member'
    obtain rfl := Option.some.inj (before.symm.trans before')
    exact (covers target old before).alone none first among second among'

/-- **A round that collects nothing new changes nothing:** nothing but what the round before merged
under the same target, and the merges. -/
theorem round_still (sound : state.Sound) (normal : state.registry.Normal)
    (within : ∀ target id, InGroup (round root (round root state).2).1 target id →
      InGroup (round root state).1 target id ∨
        ∃ index, (round root state).2.merged.get? target = some index ∧ id = .node index) :
    (round root (round root state).2).2 = (round root state).2 := by
  have soundNext := (round_sound sound root).1
  refine foldl_absorb_of_covers soundNext (round_normal sound normal root) _ fun entry listed => ?_
  exact covers_of_within soundNext (fun _ _ found => round_covers sound root found)
    fun id member => within entry.1 id ⟨entry.2, Table.get?_eq_some_iff.mpr listed, member⟩

/-! ### References that are not nested -/

/-- Nothing that was merged names a target. -/
def MergesPlain (state : Unification) : Prop :=
  ∀ target index, state.merged.get? target = some index → state.registry.IsPlain (.node index)

theorem MergesPlain.absorb (plain : state.MergesPlain) (sound : state.Sound) (target : String)
    (objects : ∀ id ∈ group, state.registry.HasFields id)
    (members : ∀ id ∈ group, state.registry.IsPlain id) :
    (state.absorb target group).MergesPlain := by
  by_cases few : (state.candidates target group).length < 2
  · rw [absorb_of_lt_two few]
    exact plain
  obtain ⟨merge, merged, _, results⟩ := absorb_of_two_le sound objects few
  intro other index found
  rw [results] at found
  split at found
  · obtain rfl := Option.some.inj found
    refine merged.joins.isPlain fun candidate member => ?_
    have held := (hasFields_of_mem_candidates sound objects candidate member).holds
    refine IsPlain.grow ?_ sound.registry merged.grows.within held
    rcases List.mem_append.mp member with inside | current
    · exact members candidate inside
    · obtain ⟨place, found, rfl⟩ :=
        Option.map_eq_some_iff.mp (Option.mem_toList.mp (List.mem_of_mem_filter current))
      exact plain target place found
  · exact (plain other index found).grow sound.registry merged.grows.within
      (sound.merged other index found).holds

/-- **A round that collects what is plain leaves merges plain.** -/
theorem MergesPlain.round (plain : state.MergesPlain) (sound : state.Sound)
    (members : ∀ target id, InGroup (round root state).1 target id → state.registry.IsPlain id) :
    (round root state).2.MergesPlain := by
  have objects := hasFields_of_round root state
  have kept : ∀ entry ∈ (Unification.round root state).1.entries, ∀ id ∈ entry.2,
      state.registry.HasFields id ∧ state.registry.IsPlain id := fun entry listed id member =>
    ⟨objects entry listed id member,
      members entry.1 id ⟨entry.2, Table.get?_eq_some_iff.mpr listed, member⟩⟩
  -- Whatever was merged before in the round, the members are still what they were.
  refine (List.foldlRecOn (motive := fun after : Unification => after.Sound ∧
    state.registry.Grows after.registry ∧ after.MergesPlain) _ _ ⟨sound, .refl _, plain⟩ ?_).2.2
  rintro after ⟨soundAfter, grows, plain⟩ entry listed
  have objects : ∀ id ∈ entry.2, after.registry.HasFields id := fun id member =>
    (kept entry listed id member).1.grow grows.within
  obtain ⟨soundNext, growsNext, _⟩ := absorb_spec entry.1 soundAfter objects
  refine ⟨soundNext, grows.trans growsNext, plain.absorb soundAfter entry.1 objects ?_⟩
  intro id member
  obtain ⟨object, plain⟩ := kept entry listed id member
  exact plain.grow sound.registry grows.within object.holds

/-- **After a round that collects what is plain, the next one changes nothing:** the merges bind
nothing, and what the root binds was collected. -/
theorem round_still_of_isPlain (sound : state.Sound) (normal : state.registry.Normal)
    (held : state.registry.Holds root) (plain : state.MergesPlain)
    (members : ∀ target id, InGroup (round root state).1 target id → state.registry.IsPlain id) :
    (round root (round root state).2).2 = (round root state).2 := by
  obtain ⟨soundNext, grows⟩ := round_sound sound root
  have plain := plain.round sound members
  have collected : ∀ target group, (round root (round root state).2).1.get? target = some group →
      ∀ id ∈ group, InGroup (round root state).1 target id := by
    refine forall_mem_groups fun index fields reached object field value target names id bound => ?_
    obtain ⟨start, rooted, reached⟩ := isReached_iff_exists_root.mp reached
    rcases List.mem_cons.mp rooted with rfl | merge
    · -- What is reached from the root was reached before the round.
      have held : ∀ id ∈ [start], state.registry.Holds id := List.forall_mem_singleton.mpr held
      have before := isReached_of_isReached_later sound.registry grows.within held reached
      have holds := holds_of_isReached sound.registry held before
      have kept := (grows.within.shape?_of_holds holds).trans object
      have position := (sound.registry.child kept (List.mem_map_of_mem value)).1
      rw [boundObjects_grow sound.registry grows position] at bound
      have among : state.registry.IsReached
          (start :: state.merged.values.map ShapeId.node) index :=
        isReached_iff_exists_root.mpr ⟨start, List.mem_cons_self, before⟩
      exact exists_group_of_bound among kept value names bound
    · obtain ⟨place, value', rfl⟩ := List.mem_map.mp merge
      obtain ⟨other, found⟩ := Table.mem_values_iff.mp value'
      have none := (plain other place found).target?_eq_none soundNext.registry reached object value
      exact absurd (names.symm.trans none) nofun
  exact round_still sound normal fun target id ⟨group, found, member⟩ =>
    .inl (collected target group found id member)

/-! ### All rounds -/

/-- **Once a round changed no merge, no later one does.** -/
theorem merged_unifyRounds_of_le {rounds more : Nat} (le : rounds ≤ more)
    (rests : (unifyRounds root (rounds + 1) groups state).2.merged =
      (unifyRounds root rounds groups state).2.merged) :
    (unifyRounds root more groups state).2.merged =
      (unifyRounds root rounds groups state).2.merged := by
  induction rounds generalizing more groups state with
  | zero =>
    obtain _ | more := more
    · rfl
    · rw [unifyRounds_one] at rests
      have rest : (round root state).2.merged = state.merged := rests
      rw [unifyRounds_succ, if_pos rest]
      exact rest
  | succ rounds step =>
    obtain _ | more := more
    · exact absurd le (Nat.not_succ_le_zero rounds)
    rw [unifyRounds_succ root (rounds + 1), unifyRounds_succ root rounds groups] at rests
    rw [unifyRounds_succ root more, unifyRounds_succ root rounds]
    by_cases rest : (round root state).2.merged = state.merged
    · rw [if_pos rest, if_pos rest]
    · rw [if_neg rest, if_neg rest] at rests
      rw [if_neg rest, if_neg rest]
      exact step (Nat.le_of_succ_le_succ le) rests

/-- What the root binds is plain, if references are not nested. -/
theorem isPlain_of_inGroup {registry : Registry} {id : ShapeId} (sound : registry.Sound)
    (unnested : registry.IsUnnested root) (inside : InGroup (registry.groups [root]) target id) :
    registry.IsPlain id := by
  have collected : ∀ target group, (registry.groups [root]).get? target = some group →
      ∀ id ∈ group, registry.IsPlain id := by
    refine forall_mem_groups fun index fields reached object field value target names id bound => ?_
    exact everyField_of_mem_boundObjects (unnested.isPlain sound reached object value names) bound
  obtain ⟨group, found, member⟩ := inside
  exact collected target group found id member

/-- **If references are not nested, the second round changes no merge.** -/
theorem merged_unifyRounds_of_isUnnested {registry : Registry} (sound : registry.Sound)
    (normal : registry.Normal) (held : registry.Holds root) (unnested : registry.IsUnnested root) :
    (unifyRounds root 2 groups ⟨∅, registry⟩).2.merged =
      (unifyRounds root 1 groups ⟨∅, registry⟩).2.merged := by
  have start : (⟨∅, registry⟩ : Unification).Sound :=
    ⟨sound, fun target index found => by simp at found⟩
  have plain : (⟨∅, registry⟩ : Unification).MergesPlain := fun target index found => by
    simp at found
  have still := round_still_of_isPlain start normal held plain fun _ _ inside =>
    isPlain_of_inGroup sound unnested inside
  rw [unifyRounds_one, unifyRounds_succ]
  split
  · rfl
  · rw [unifyRounds_one, still]

end SampleShapes.Registry.Unification
