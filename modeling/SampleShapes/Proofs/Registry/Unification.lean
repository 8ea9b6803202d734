/-
**Unification of explicit references.**

Rounds of merging leave a sound registry that has only grown. An alias leads from an object with
fields to an object with fields that it was merged into, whichever round came last.

* `absorb_spec`: one group is merged, and no other target is touched;
* `foldl_absorb_spec`: what merging makes good of each group is good of all after the round;
* `foldl_absorb_settled`, `unifyRounds_settled`: a round settles its groups, and so does the last;
* `forall_aliases`, `leadsToMerges_aliases`: an alias leads from a member of a group to the merge of
  its target;
* `unifyTargets_sound`: **what unification leaves behind.**
-/

import SampleShapes.Proofs.Registry.Merging
import SampleShapes.Registry.Targets

namespace SampleShapes.Registry

variable {registry later : Registry} {id joined : ShapeId} {target : String} {group : IdSet}

/-! ### Groups -/

/-- What a position is built from are objects with fields. -/
theorem hasFields_of_mem_boundObjects {depth : Nat} {position : ShapeId}
    (member : id ∈ registry.boundObjects depth position) : registry.HasFields id := by
  induction depth generalizing position with
  | zero => simp [boundObjects] at member
  | succ depth step =>
    unfold boundObjects at member
    split at member
    · next fields found =>
      split at member
      · exact absurd member List.not_mem_nil
      · next notEmpty =>
        rw [List.mem_singleton.mp member]
        exact ⟨fields, fields?_eq_some_iff.mpr found, Bool.eq_false_iff.mpr notEmpty⟩
    · obtain ⟨element, _, inside⟩ := List.mem_flatMap.mp member
      exact step inside
    · obtain ⟨alternative, _, inside⟩ := List.mem_flatMap.mp member
      exact step inside
    · exact absurd member List.not_mem_nil

/-- The members of every group are objects with fields. -/
def GroupsObjects (registry : Registry) (groups : Table String IdSet) : Prop :=
  ∀ target group, groups.get? target = some group → ∀ id ∈ group, registry.HasFields id

/-- What is good of all members and of what a field binds under its target is good of all members
afterwards. -/
theorem forall_mem_groupField {good : String → ShapeId → Prop} {groups : Table String IdSet}
    {field : Field}
    (members : ∀ target group, groups.get? target = some group → ∀ id ∈ group, good target id)
    (bound : ∀ target, field.key.target? = some target →
      ∀ id ∈ registry.boundObjects field.shape.ceiling field.shape, good target id) :
    ∀ target group, (registry.groupField groups field).get? target = some group →
      ∀ id ∈ group, good target id := by
  unfold groupField
  split
  · next named names =>
    intro target group found id member
    rw [Table.get?_alter] at found
    split at found
    · next here =>
      subst here
      obtain rfl := Option.some.inj found
      rcases IdSet.mem_insertAll.mp member with inside | old
      · exact bound target names id inside
      · cases before : groups.get? target with
        | none =>
          rw [before] at old
          exact absurd old List.not_mem_nil
        | some group =>
          rw [before] at old
          exact members target group before id old
    · exact members target group found id member
  · exact members

/-- **What is good of all that fields bind under their targets is good of all members.** -/
theorem forall_mem_groups {good : String → ShapeId → Prop} {roots : List ShapeId}
    (bound : ∀ index fields, registry.IsReached roots index →
      registry.shapeAt? index = some (.object fields) → ∀ field ∈ fields.values,
        ∀ target, field.key.target? = some target →
          ∀ id ∈ registry.boundObjects field.shape.ceiling field.shape, good target id) :
    ∀ target group, (registry.groups roots).get? target = some group →
      ∀ id ∈ group, good target id := by
  unfold groups
  refine List.foldlRecOn (motive := fun groups : Table String IdSet => ∀ target group,
    groups.get? target = some group → ∀ id ∈ group, good target id)
    _ _ (fun target group found => by simp at found) ?_
  intro groups members index listed
  split
  · next fields found =>
    have each := bound index fields (mem_reachable_iff.mp listed) found
    exact List.foldlRecOn (motive := fun groups : Table String IdSet => ∀ target group,
      groups.get? target = some group → ∀ id ∈ group, good target id)
      _ _ members fun groups members field value => forall_mem_groupField members (each field value)
  · exact members

theorem groupsObjects_groups (registry : Registry) (roots : List ShapeId) :
    registry.GroupsObjects (registry.groups roots) :=
  forall_mem_groups fun _ _ _ _ _ _ _ _ _ bound => hasFields_of_mem_boundObjects bound

/-! ### Merging one group -/

/-- `id` is one of some objects with fields that `joined` joins. -/
def MergedInto (registry : Registry) (id joined : ShapeId) : Prop :=
  ∃ candidates, id ∈ candidates ∧ (∀ candidate ∈ candidates, registry.HasFields candidate) ∧
    registry.Joins candidates joined

theorem mergedInto_self (object : registry.HasFields id) : registry.MergedInto id id :=
  ⟨[id], by simp, fun candidate member => by rw [List.mem_singleton.mp member]; exact object,
    .alone rfl⟩

theorem MergedInto.grow (merged : registry.MergedInto id joined) (sound : registry.Sound)
    (grows : registry.Grows later) : later.MergedInto id joined := by
  obtain ⟨candidates, member, objects, joins⟩ := merged
  exact ⟨candidates, member, fun candidate inside => (objects candidate inside).grow grows.within,
    joins.grow sound grows fun candidate inside => (objects candidate inside).holds⟩

namespace Unification

variable {state : Unification}

/-- The registry is sound, and every merge is an object with fields. -/
structure Sound (state : Unification) : Prop where
  registry : state.registry.Sound
  merged : ∀ target index, state.merged.get? target = some index →
    state.registry.HasFields (.node index)

/-- What a group is merged with: itself, and what it was merged to before. -/
def candidates (state : Unification) (target : String) (group : IdSet) : List ShapeId :=
  group.toList ++ ((state.merged.get? target).map ShapeId.node).toList.filter (· ∉ group)

theorem hasFields_of_mem_candidates (sound : state.Sound)
    (objects : ∀ id ∈ group, state.registry.HasFields id) :
    ∀ id ∈ state.candidates target group, state.registry.HasFields id := by
  intro id member
  rcases List.mem_append.mp member with inside | before
  · exact objects id inside
  · have before := List.mem_of_mem_filter before
    cases found : state.merged.get? target with
    | none => simp [found] at before
    | some index =>
      simp only [found, Option.map_some, Option.toList_some, List.mem_singleton] at before
      rw [before]
      exact sound.merged target index found

theorem merged_mem_candidates (group : IdSet) {index : Nat}
    (found : state.merged.get? target = some index) :
    .node index ∈ state.candidates target group := by
  unfold candidates
  by_cases member : ShapeId.node index ∈ group
  · exact List.mem_append_left _ member
  · exact List.mem_append_right _ (by simp [found, member])

/-- Fewer candidates than two are no two. -/
theorem eq_of_lt_two (alone : (state.candidates target group).length < 2) {first second : ShapeId}
    (member : first ∈ state.candidates target group)
    (member' : second ∈ state.candidates target group) : first = second := by
  rw [Lists.eq_singleton_of_length_lt_two member' alone] at member
  exact List.mem_singleton.mp member

theorem absorb_of_lt_two (alone : (state.candidates target group).length < 2) :
    state.absorb target group = state := if_pos alone

theorem absorb_of_merge (several : ¬ (state.candidates target group).length < 2) {index : Nat}
    (result : state.registry.merge (state.candidates target group) = (.node index, later)) :
    state.absorb target group =
      { registry := later
        merged :=
          if (state.merged.get? target).map ShapeId.node = some (.node index) then state.merged
          else state.merged.put target index } := by
  unfold candidates at several result
  simp only [absorb, if_neg several, result]

/-- The registry is what a merge leaves behind, whatever it comes back with. -/
theorem registry_absorb (several : ¬ (state.candidates target group).length < 2) :
    (state.absorb target group).registry =
      (state.registry.merge (state.candidates target group)).2 := by
  unfold candidates at several ⊢
  unfold absorb
  dsimp only
  rw [if_neg several]
  split
  · next merged => rw [merged]
  · next merged => rw [merged]

/-- Two candidates or more merge to a node, which is an object with fields itself. -/
theorem exists_merge (sound : state.Sound) (objects : ∀ id ∈ group, state.registry.HasFields id)
    (several : ¬ (state.candidates target group).length < 2) :
    ∃ index later, state.registry.merge (state.candidates target group) = (.node index, later) ∧
      Merged state.registry (state.candidates target group) (.node index, later) ∧
      later.HasFields (.node index) := by
  have objects : ∀ id ∈ state.candidates target group, state.registry.HasFields id :=
    hasFields_of_mem_candidates sound objects
  have merged := merge_merged sound.registry fun id member => (objects id member).holds
  have nonempty : state.candidates target group ≠ [] := by
    intro none
    rw [none] at several
    exact several (by decide)
  have object := merged.joins.hasFields nonempty fun id member =>
    (objects id member).grow merged.grows.within
  obtain ⟨⟨joined, later⟩, result⟩ :
      ∃ result, state.registry.merge (state.candidates target group) = result := ⟨_, rfl⟩
  rw [result] at merged object
  -- Only a node can be an object.
  have isNode : ∃ index, joined = .node index := by
    obtain ⟨fields, found, _⟩ := object
    obtain ⟨index, same, _⟩ := shape?_eq_some_iff.mp (fields?_eq_some_iff.mp found)
    exact ⟨index, same⟩
  obtain ⟨index, rfl⟩ := isNode
  exact ⟨index, later, result, merged, object⟩

/-- A merge of two candidates or more leaves the node that joins them under the target. -/
theorem absorb_of_two_le (sound : state.Sound)
    (objects : ∀ id ∈ group, state.registry.HasFields id)
    (several : ¬ (state.candidates target group).length < 2) :
    ∃ index, Merged state.registry (state.candidates target group)
        (.node index, (state.absorb target group).registry) ∧
      (state.absorb target group).registry.HasFields (.node index) ∧
      ∀ other, (state.absorb target group).merged.get? other =
        if other = target then some index else state.merged.get? other := by
  obtain ⟨index, later, result, merged, object⟩ := exists_merge sound objects several
  rw [absorb_of_merge several result]
  refine ⟨index, merged, object, fun other => ?_⟩
  dsimp only
  split
  · next same =>
    split
    · next here =>
      rw [here]
      cases before : state.merged.get? target with
      | none => simp [before] at same
      | some current => simpa [before] using same
    · rfl
  · exact Table.get?_put _ _ _ _

/-- The target has every member of the group merged into it, if it has a merge at all. -/
def Settled (state : Unification) (target : String) (group : IdSet) : Prop :=
  ∀ index, state.merged.get? target = some index →
    ∀ id ∈ group, state.registry.MergedInto id (.node index)

/-- **One group is merged, and no other target is touched.** -/
theorem absorb_spec (target : String) (sound : state.Sound)
    (objects : ∀ id ∈ group, state.registry.HasFields id) :
    (state.absorb target group).Sound ∧
      state.registry.Grows (state.absorb target group).registry ∧
      (∀ other, other ≠ target →
        (state.absorb target group).merged.get? other = state.merged.get? other) ∧
      (state.absorb target group).Settled target group := by
  by_cases alone : (state.candidates target group).length < 2
  · rw [absorb_of_lt_two alone]
    refine ⟨sound, .refl _, fun _ _ => rfl, fun index found id member => ?_⟩
    -- Nothing but the current merge can be in the group.
    rw [eq_of_lt_two alone (List.mem_append_left _ member) (merged_mem_candidates group found)]
    exact mergedInto_self (sound.merged target index found)
  · obtain ⟨index, merged, object, after⟩ := absorb_of_two_le sound objects alone
    refine ⟨⟨merged.sound, fun other place found => ?_⟩, merged.grows, fun other apart => ?_,
      fun place found id member => ?_⟩
    · rw [after] at found
      split at found
      · obtain rfl := Option.some.inj found
        exact object
      · exact (sound.merged other place found).grow merged.grows.within
    · rw [after, if_neg apart]
    · rw [after, if_pos rfl] at found
      obtain rfl := Option.some.inj found
      refine ⟨state.candidates target group, List.mem_append_left _ member, ?_, merged.joins⟩
      intro candidate inside
      exact (hasFields_of_mem_candidates sound objects candidate inside).grow merged.grows.within

theorem Settled.grow {after : Unification} (settled : state.Settled target group)
    (sound : state.Sound) (grows : state.registry.Grows after.registry)
    (same : after.merged.get? target = state.merged.get? target) : after.Settled target group := by
  intro index found id member
  rw [same] at found
  exact (settled index found id member).grow sound.registry grows

/-! ### Rounds -/

/-- What merging a group makes good of its target is good of every group after the round, provided
that it lasts while other targets are merged. -/
theorem foldl_absorb_spec {good : Unification → String → IdSet → Prop}
    (once : ∀ (state : Unification) target group, state.Sound →
      (∀ id ∈ group, state.registry.HasFields id) → good (state.absorb target group) target group)
    (grow : ∀ (state after : Unification) target group, good state target group → state.Sound →
      state.registry.Grows after.registry →
        after.merged.get? target = state.merged.get? target → good after target group)
    (entries : List (String × IdSet)) (distinct : (entries.map Prod.fst).Nodup)
    (state : Unification) (sound : state.Sound)
    (objects : ∀ entry ∈ entries, ∀ id ∈ entry.2, state.registry.HasFields id)
    {after : Unification}
    (folded : entries.foldl (fun state entry => state.absorb entry.1 entry.2) state = after) :
    after.Sound ∧ state.registry.Grows after.registry ∧
      (∀ target ∉ entries.map Prod.fst, after.merged.get? target = state.merged.get? target) ∧
      ∀ entry ∈ entries, good after entry.1 entry.2 := by
  induction entries generalizing state with
  | nil =>
    rw [← folded]
    exact ⟨sound, .refl _, fun _ _ => rfl, fun entry member => absurd member List.not_mem_nil⟩
  | cons entry rest step =>
    rw [List.map_cons, List.nodup_cons] at distinct
    obtain ⟨soundNext, grows, others, _⟩ :=
      absorb_spec entry.1 sound (objects entry List.mem_cons_self)
    obtain ⟨soundLast, growsLast, untouched, rest'⟩ := step distinct.2 _ soundNext
      (fun other member id inside =>
        (objects other (List.mem_cons_of_mem _ member) id inside).grow grows.within) folded
    -- Targets are distinct, so that later groups leave the merge of the first one alone.
    refine ⟨soundLast, grows.trans growsLast, fun target absent => ?_, fun other member => ?_⟩
    · rw [List.map_cons, List.mem_cons, not_or] at absent
      rw [untouched target absent.2, others target absent.1]
    · rcases List.mem_cons.mp member with rfl | later
      · exact grow _ _ _ _ (once state _ _ sound (objects _ List.mem_cons_self)) soundNext growsLast
          (untouched _ distinct.1)
      · exact rest' other later

/-- **A round settles its groups.** -/
theorem foldl_absorb_settled (entries : List (String × IdSet))
    (distinct : (entries.map Prod.fst).Nodup) (state : Unification) (sound : state.Sound)
    (objects : ∀ entry ∈ entries, ∀ id ∈ entry.2, state.registry.HasFields id)
    {after : Unification}
    (folded : entries.foldl (fun state entry => state.absorb entry.1 entry.2) state = after) :
    after.Sound ∧ state.registry.Grows after.registry ∧
      (∀ target ∉ entries.map Prod.fst, after.merged.get? target = state.merged.get? target) ∧
      ∀ entry ∈ entries, after.Settled entry.1 entry.2 :=
  foldl_absorb_spec (fun _ target _ sound objects => (absorb_spec target sound objects).2.2.2)
    (fun _ _ _ _ settled => settled.grow) entries distinct state sound objects folded

/-- Every group is settled. -/
def AllSettled (state : Unification) (groups : Table String IdSet) : Prop :=
  ∀ target group, groups.get? target = some group → state.Settled target group

/-- **The last round settles its groups.** -/
theorem unifyRounds_settled (root : ShapeId) (rounds : Nat) (groups : Table String IdSet)
    (state : Unification) (sound : state.Sound) (settled : state.AllSettled groups)
    {last : Table String IdSet} {after : Unification}
    (unified : unifyRounds root rounds groups state = (last, after)) :
    after.Sound ∧ state.registry.Grows after.registry ∧ after.AllSettled last := by
  induction rounds generalizing groups state with
  | zero =>
    obtain ⟨rfl, rfl⟩ := Prod.mk.inj unified
    exact ⟨sound, .refl _, settled⟩
  | succ rounds step =>
    have objects := groupsObjects_groups state.registry
      (root :: state.merged.values.map ShapeId.node)
    obtain ⟨soundNext, grows, _, all⟩ := foldl_absorb_settled
      (state.registry.groups (root :: state.merged.values.map ShapeId.node)).entries
      (state.registry.groups (root :: state.merged.values.map ShapeId.node)).distinct state sound
      (fun entry member => objects entry.1 entry.2 (Table.get?_eq_some_iff.mpr member)) rfl
    -- Groups of the round before no longer count: the last round alone has to be settled.
    have settledNext : AllSettled _
        (state.registry.groups (root :: state.merged.values.map ShapeId.node)) :=
      fun target group found => all (target, group) (Table.get?_eq_some_iff.mp found)
    unfold unifyRounds at unified
    dsimp only at unified
    split at unified
    · obtain ⟨rfl, rfl⟩ := Prod.mk.inj unified
      exact ⟨soundNext, grows, settledNext⟩
    · obtain ⟨soundLast, growsLast, settledLast⟩ := step _ _ soundNext settledNext unified
      exact ⟨soundLast, grows.trans growsLast, settledLast⟩

end Unification

/-! ### Aliases -/

/-- What is good of members of groups and of merges of their targets is good of all aliases, which
lead no member to itself. -/
theorem forall_aliases {good : Nat → Nat → Prop} {groups : Table String IdSet}
    {merged : Table String Nat}
    (each : ∀ target group member index, groups.get? target = some group →
      merged.get? target = some index → .node member ∈ group → member ≠ index → good member index) :
    ∀ member index, (aliases groups merged).get? member = some index → good member index := by
  unfold aliases
  refine List.foldlRecOn (motive := fun aliases : Table Nat Nat => ∀ member index,
    aliases.get? member = some index → good member index)
    groups.entries _ (fun member index found => by simp at found) ?_
  rintro aliases before ⟨target, group⟩ entry
  dsimp only
  split
  · next index merge =>
    refine List.foldlRecOn (motive := fun aliases : Table Nat Nat => ∀ member index,
      aliases.get? member = some index → good member index)
      _ _ before fun aliases before other listed => ?_
    split
    · exact before
    · next apart =>
      intro member place found
      rcases Table.of_get?_putNew found with old | ⟨rfl, rfl⟩
      · exact before member place old
      · obtain ⟨id, inside, isNode⟩ := List.mem_filterMap.mp listed
        rw [node_of_index? isNode] at inside
        exact each target group _ _ (Table.get?_eq_some_iff.mpr entry) merge inside apart
  · exact before

/-- Every alias leads from a member of a group to the merge of its target. -/
def LeadsToMerges (groups : Table String IdSet) (merged : Table String Nat)
    (aliases : Table Nat Nat) : Prop :=
  ∀ member index, aliases.get? member = some index →
    ∃ target group, groups.get? target = some group ∧ merged.get? target = some index ∧
      .node member ∈ group

/-- **An alias leads from a member of a group to the merge of its target.** -/
theorem leadsToMerges_aliases (groups : Table String IdSet) (merged : Table String Nat) :
    LeadsToMerges groups merged (aliases groups merged) :=
  forall_aliases fun target group _ _ found merge inside _ => ⟨target, group, found, merge, inside⟩

/-- No alias leads a member to itself. -/
theorem ne_of_aliases {groups : Table String IdSet} {merged : Table String Nat} {member index : Nat}
    (leads : (aliases groups merged).get? member = some index) : member ≠ index :=
  forall_aliases (fun _ _ _ _ _ _ _ apart => apart) member index leads

/-- **Unification leaves a sound registry that has only grown,** and every alias leads to an object
with fields that its member was merged into. -/
theorem unifyTargets_sound (sound : registry.Sound) (root : ShapeId) :
    (registry.unifyTargets root).2.Sound ∧ registry.Grows (registry.unifyTargets root).2 ∧
      ∀ member index, (registry.unifyTargets root).1.get? member = some index →
        (registry.unifyTargets root).2.HasFields (.node index) ∧
          (registry.unifyTargets root).2.MergedInto (.node member) (.node index) := by
  obtain ⟨⟨groups, state⟩, unified⟩ :
      ∃ result, unifyRounds root maxRounds ∅ ⟨∅, registry⟩ = result := ⟨_, rfl⟩
  have result : registry.unifyTargets root = (aliases groups state.merged, state.registry) := by
    unfold unifyTargets
    rw [unified]
  have start : (⟨∅, registry⟩ : Unification).Sound :=
    ⟨sound, fun target index found => by simp at found⟩
  obtain ⟨soundLast, grows, settled⟩ := Unification.unifyRounds_settled root maxRounds ∅ _ start
    (fun target group found => by simp at found) unified
  rw [result]
  refine ⟨soundLast.registry, grows, fun member index leads => ?_⟩
  obtain ⟨target, group, found, merge, inside⟩ := leadsToMerges_aliases _ _ member index leads
  exact ⟨soundLast.merged target index merge, settled target group found index merge _ inside⟩

end SampleShapes.Registry
