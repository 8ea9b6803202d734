/-
**One shape for each target.**

Reading a graph, every object is replaced by what it stands for, and a field that names a target
binds the objects of its position. Objects were collected another way: along the shapes as they are,
from the root and from the merges. An object that was collected under one target alone stands for
the merge of this target, so that all such objects stand for one shape.

Once a round changes no merge, what is bound on reading was collected; that one does before rounds
are broken off is asked for here, and looked into where rounds come to rest. An object may well be
bound under one target alone, and have been collected under another as well, whose merge it follows.

* `canonical_eq_of_collected`: objects collected under one target alone stand for one shape;
* `collected_of_isBound`: what is bound was collected, if the rounds came to rest;
* `canonical_eq_of_isBound`: **what is bound under a target stands for one shape,** unless it was
  collected under another;
* `canonical_ne_of_isBound`: it may stand for another one if it was.
-/

import SampleShapes.Proofs.Inference
import SampleShapes.Proofs.Registry.Rounds

namespace SampleShapes.ShapeGraph

open Registry Unification

variable {graph : ShapeGraph} {options : Options} {sample : Json} {target : String}
  {first second id : ShapeId} {index : Nat}

/-! ### Reading a graph -/

/-- The nodes that a node points at, each replaced by what it stands for. -/
def readNodes (graph : ShapeGraph) (index : Nat) : List Nat :=
  (graph.registry.childNodes index).map graph.canonicalNode

/-- What the node of the root stands for. -/
def readStarts (graph : ShapeGraph) : List Nat :=
  (graph.root.index?.map graph.canonicalNode).toList

/-- The node is reached from the root where every object is replaced by what it stands for. -/
def IsRead (graph : ShapeGraph) (index : Nat) : Prop :=
  Reach.Reached graph.readNodes graph.readStarts index

/-- The objects with fields that a field which names the target is built from, in an object that is
reached on reading. -/
def IsBound (graph : ShapeGraph) (target : String) (id : ShapeId) : Prop :=
  ∃ index fields field, graph.IsRead index ∧
    graph.registry.shapeAt? index = some (.object fields) ∧ field ∈ fields.values ∧
      field.key.target? = some target ∧
        id ∈ graph.registry.boundObjects field.shape.ceiling field.shape

/-- What the fields of an object bind, with their targets. -/
def bindingsOf (graph : ShapeGraph) (index : Nat) : List (String × ShapeId) :=
  match graph.registry.shapeAt? index with
  | some (.object fields) =>
    fields.values.flatMap fun field =>
      match field.key.target? with
      | some target =>
        (graph.registry.boundObjects field.shape.ceiling field.shape).map (target, ·)
      | none => []
  | _ => []

/-- Everything that is bound, with its target. -/
def bindings (graph : ShapeGraph) : List (String × ShapeId) :=
  (Reach.explore graph.readNodes graph.registry.capacity graph.readStarts).flatMap graph.bindingsOf

theorem mem_bindingsOf_iff :
    (target, id) ∈ graph.bindingsOf index ↔
      ∃ fields field, graph.registry.shapeAt? index = some (.object fields) ∧
        field ∈ fields.values ∧ field.key.target? = some target ∧
          id ∈ graph.registry.boundObjects field.shape.ceiling field.shape := by
  unfold bindingsOf
  constructor
  · intro member
    split at member
    · next fields found =>
      obtain ⟨field, value, inside⟩ := List.mem_flatMap.mp member
      split at inside
      · next named names =>
        obtain ⟨other, bound, same⟩ := List.mem_map.mp inside
        obtain ⟨rfl, rfl⟩ := Prod.mk.inj same
        exact ⟨fields, field, found, value, names, bound⟩
      · exact absurd inside List.not_mem_nil
    · exact absurd member List.not_mem_nil
  · rintro ⟨fields, field, found, value, names, bound⟩
    rw [found]
    refine List.mem_flatMap.mpr ⟨field, value, ?_⟩
    rw [names]
    exact List.mem_map_of_mem bound

/-- **What is bound is listed,** and nothing else. -/
theorem isBound_iff_mem_bindings : graph.IsBound target id ↔ (target, id) ∈ graph.bindings := by
  have read : ∀ place, place ∈ Reach.explore graph.readNodes graph.registry.capacity
      graph.readStarts ↔ graph.IsRead place := fun place => by
    refine Reach.mem_explore_iff (List.range graph.registry.capacity) (fun place leads => ?_)
      (by simp)
    rw [List.mem_range]
    unfold readNodes childNodes at leads
    split at leads
    · next found => exact lt_capacity_of_shapeAt? found
    · exact absurd rfl leads
  unfold bindings IsBound
  simp only [List.mem_flatMap, read, mem_bindingsOf_iff]
  constructor
  · rintro ⟨place, fields, field, reached, bound⟩
    exact ⟨place, reached, fields, field, bound⟩
  · rintro ⟨place, reached, fields, field, bound⟩
    exact ⟨place, fields, field, reached, bound⟩

/-! ### Collecting objects -/

/-- What `rounds` rounds of merging lead to after a sample was observed: the groups of the last of
them, and the merges. -/
def roundsOf (options : Options) (sample : Json) (rounds : Nat) :
    Option (Table String IdSet × Unification) :=
  match Observer.empty.observe options sample with
  | (.ok root, observer) => some (unifyRounds root rounds ∅ ⟨∅, observer.registry⟩)
  | (.error _, _) => none

/-- The last round that may be run changes no merge any more. -/
def Rests (options : Options) (sample : Json) : Prop :=
  (roundsOf options sample maxRounds).map (·.2.merged) =
    (roundsOf options sample (maxRounds - 1)).map (·.2.merged)

instance (options : Options) (sample : Json) : Decidable (Rests options sample) :=
  inferInstanceAs (Decidable (_ = _))

/-- The object was collected under the target in the last round. -/
def Collected (options : Options) (sample : Json) (target : String) (id : ShapeId) : Prop :=
  ∃ groups state, roundsOf options sample maxRounds = some (groups, state) ∧
    InGroup groups target id

/-- What is collected is collected under a target that the last round has a group for. -/
theorem Collected.mem_of_keys (collected : Collected options sample target id)
    {targets : List String}
    (keys : (roundsOf options sample maxRounds).map (·.1.keys) = some targets) :
    target ∈ targets := by
  obtain ⟨groups, state, rounds, group, found, _⟩ := collected
  rw [rounds] at keys
  obtain rfl := Option.some.inj keys
  exact Table.mem_keys_of_get? found

theorem roundsOf_eq {root : ShapeId}
    (observed : (Observer.empty.observe options sample).1 = .ok root) (rounds : Nat) :
    roundsOf options sample rounds = some (unifyRounds root rounds ∅
      ⟨∅, (Observer.empty.observe options sample).2.registry⟩) := by
  unfold roundsOf
  rcases ran : Observer.empty.observe options sample with ⟨failure | other, observer⟩
  · rw [ran] at observed
    cases observed
  · rw [ran] at observed
    obtain rfl := Except.ok.inj observed
    rfl

theorem roundsOf_eq_none {failure : Failure}
    (observed : (Observer.empty.observe options sample).1 = .error failure) (rounds : Nat) :
    roundsOf options sample rounds = none := by
  unfold roundsOf
  rcases ran : Observer.empty.observe options sample with ⟨_ | root, observer⟩
  · rfl
  · rw [ran] at observed
    cases observed

/-- Aliases lead to the merges of the last round, and what they lead to is left. -/
theorem ofObserver_eq {root : ShapeId} {observer : Observer} {groups : Table String IdSet}
    {state : Unification}
    (last : unifyRounds root maxRounds ∅ ⟨∅, observer.registry⟩ = (groups, state)) :
    ofObserver root observer =
      { root
        registry := state.registry.prune
          (root :: (Registry.aliases groups state.merged).values.map ShapeId.node)
        aliases := Registry.aliases groups state.merged } := by
  unfold ofObserver unifyTargets
  rw [last]

/-- **The last round tells the graph.** -/
theorem exists_round_of_infer (inferred : infer options sample = .ok graph) :
    ∃ before : Unification, before.Sound ∧ before.registry.Holds graph.root ∧
      roundsOf options sample maxRounds = some (before.round graph.root) ∧
      (Rests options sample → (before.round graph.root).2.merged = before.merged) ∧
      graph.aliases =
        Registry.aliases (before.round graph.root).1 (before.round graph.root).2.merged ∧
      graph.registry = (before.round graph.root).2.registry.prune
        (graph.root :: graph.aliases.values.map ShapeId.node) := by
  obtain ⟨_, root, observed, made⟩ := infer_eq_ok_iff.mp inferred
  have sound := Observer.observe_sound Observer.sound_empty options sample
  have sees := Observer.observe_sees Observer.sound_empty observed
  have start : (⟨∅, (Observer.empty.observe options sample).2.registry⟩ : Unification).Sound :=
    ⟨sound.registry, fun target index found => by simp at found⟩
  obtain ⟨before, soundBefore, grows, last, settles⟩ :=
    exists_last_round root (maxRounds - 1) ∅ _ start
  rw [← made, ofObserver_eq last]
  refine ⟨before, soundBefore, grows.holds sees.holds, ?_, fun rests => settles ?_, rfl, rfl⟩
  · rw [roundsOf_eq observed, ← last]
    rfl
  · unfold Rests at rests
    rw [roundsOf_eq observed, roundsOf_eq observed] at rests
    exact Option.some.inj rests

/-! ### What objects stand for -/

/-- **An object that was collected under one target alone** stands for the merge of the target, or
for itself if there is none. -/
theorem canonical_of_only {groups : Table String IdSet} {merged : Table String Nat}
    (leads : graph.aliases = Registry.aliases groups merged)
    (inside : InGroup groups target (.node index))
    (only : ∀ other, InGroup groups other (.node index) → other = target) :
    graph.canonical (.node index) = .node ((merged.get? target).getD index) := by
  show ShapeId.node ((graph.aliases.get? index).getD index) = _
  have follows : ∀ place, graph.aliases.get? index = some place →
      merged.get? target = some place := by
    intro place found
    rw [leads] at found
    obtain ⟨other, group, grouped, merge, member⟩ := leadsToMerges_aliases _ _ index place found
    rw [← only other ⟨group, grouped, member⟩]
    exact merge
  cases found : graph.aliases.get? index with
  | some place => rw [follows place found]
  | none =>
    cases merge : merged.get? target with
    | none => rfl
    | some place =>
      -- Nothing but the merge itself is without an alias.
      obtain ⟨group, grouped, member⟩ := inside
      by_cases same : index = place
      · rw [same]
        rfl
      · have aliased := isSome_aliases grouped merge member same
        rw [← leads, found] at aliased
        cases aliased

/-- **Objects that were collected under one target alone stand for one shape.** -/
theorem canonical_eq_of_collected (inferred : infer options sample = .ok graph)
    (collected : Collected options sample target first)
    (collected' : Collected options sample target second)
    (only : ∀ other, Collected options sample other first → other = target)
    (only' : ∀ other, Collected options sample other second → other = target) :
    graph.canonical first = graph.canonical second := by
  obtain ⟨before, sound, _, rounds, _, leads, _⟩ := exists_round_of_infer inferred
  have inGroup : ∀ {target id}, Collected options sample target id ↔
      InGroup (before.round graph.root).1 target id := by
    intro target id
    constructor
    · rintro ⟨groups, state, found, inside⟩
      rw [Option.some.inj (rounds.symm.trans found)]
      exact inside
    · exact fun inside => ⟨_, _, rounds, inside⟩
  have node : ∀ {id}, InGroup (before.round graph.root).1 target id →
      ∃ index, id = .node index := by
    rintro id ⟨group, found, member⟩
    have listed := Table.get?_eq_some_iff.mp found
    obtain ⟨fields, object, _⟩ :=
      hasFields_of_round graph.root before (target, group) listed id member
    obtain ⟨index, isNode, _⟩ := shape?_eq_some_iff.mp (fields?_eq_some_iff.mp object)
    exact ⟨index, isNode⟩
  simp only [inGroup] at collected collected' only only'
  obtain ⟨index, rfl⟩ := node collected
  obtain ⟨index', rfl⟩ := node collected'
  by_cases same : index = index'
  · rw [same]
  · rw [canonical_of_only leads collected only, canonical_of_only leads collected' only']
    obtain ⟨group, found, member⟩ := collected
    obtain ⟨group', found', member'⟩ := collected'
    obtain rfl := Option.some.inj (found.symm.trans found')
    have apart : ShapeId.node index ≠ .node index' := fun equal => same (ShapeId.node.inj equal)
    have merged := round_merges sound found member member' apart
    obtain ⟨place, merge⟩ := Option.isSome_iff_exists.mp merged
    rw [merge]
    rfl

/-! ### What was collected -/

/-- What is reached on reading is reached along the shapes as they are, from the root and from the
merges. -/
theorem isReached_of_isRead {before : Unification} {roots : List ShapeId}
    (sound : before.registry.Sound) (held : ∀ id ∈ roots, before.registry.Holds id)
    (root : graph.root ∈ roots) (within : ∀ place, before.registry.Holds (.node place) →
      ∀ shape, graph.registry.shapeAt? place = some shape →
        before.registry.shapeAt? place = some shape)
    (leads : ∀ member place, graph.aliases.get? member = some place → .node place ∈ roots)
    (read : graph.IsRead index) : before.registry.IsReached roots index := by
  have stands : ∀ place, before.registry.IsReached roots place →
      before.registry.IsReached roots (graph.canonicalNode place) := by
    intro place reached
    unfold canonicalNode
    cases found : graph.aliases.get? place with
    | none => exact reached
    | some merge => exact .start (List.mem_filterMap.mpr ⟨_, leads place merge found, rfl⟩)
  induction read with
  | start member =>
    obtain ⟨place, isNode, rfl⟩ := Option.map_eq_some_iff.mp (Option.mem_toList.mp member)
    exact stands place (.start (List.mem_filterMap.mpr ⟨_, root, isNode⟩))
  | step _ next before =>
    obtain ⟨child, points, rfl⟩ := List.mem_map.mp next
    obtain ⟨shape, found, listed⟩ := mem_childNodes_iff.mp points
    have kept := within _ (holds_of_isReached sound held before) shape found
    exact stands child (.step before (mem_childNodes_iff.mpr ⟨shape, kept, listed⟩))

/-- **What is bound was collected,** if the rounds came to rest. -/
theorem collected_of_isBound (inferred : infer options sample = .ok graph)
    (rests : Rests options sample) (bound : graph.IsBound target id) :
    Collected options sample target id := by
  obtain ⟨before, sound, holds, rounds, settles, leads, left⟩ := exists_round_of_infer inferred
  obtain ⟨soundNext, grows⟩ := round_sound sound graph.root
  have still := settles rests
  obtain ⟨roots, rooted⟩ :
      ∃ roots, graph.root :: before.merged.values.map ShapeId.node = roots := ⟨_, rfl⟩
  have held : ∀ id ∈ roots, before.registry.Holds id := by
    rw [← rooted]
    refine List.forall_mem_cons.mpr ⟨holds, fun id member => ?_⟩
    obtain ⟨place, value, rfl⟩ := List.mem_map.mp member
    obtain ⟨other, merge⟩ := Table.mem_values_iff.mp value
    exact (sound.merged other place merge).holds
  have kept : graph.registry.Within (before.round graph.root).2.registry := by
    rw [left]
    exact within_prune _ _
  have within : ∀ place, before.registry.Holds (.node place) →
      ∀ shape, graph.registry.shapeAt? place = some shape →
        before.registry.shapeAt? place = some shape := by
    rintro place ⟨shape', here⟩ shape found
    have there := grows.within place shape' here
    rw [here, ← there, kept place shape found]
  have merges : ∀ member place, graph.aliases.get? member = some place →
      .node place ∈ roots := by
    intro member place found
    rw [leads] at found
    obtain ⟨other, _, _, merge, _⟩ := leadsToMerges_aliases _ _ member place found
    rw [still] at merge
    rw [← rooted]
    exact List.mem_cons_of_mem _ (List.mem_map_of_mem (Table.mem_values_iff.mpr ⟨other, merge⟩))
  obtain ⟨index, fields, field, read, found, value, names, inside⟩ := bound
  have reached := isReached_of_isRead sound.registry held (rooted ▸ List.mem_cons_self) within
    merges read
  have object := within index (holds_of_isReached sound.registry held reached) _ found
  have position : before.registry.Holds field.shape :=
    (sound.registry.carries index _ object).holds _ (List.mem_map_of_mem value)
  have inside := mem_boundObjects_of_within kept inside
  rw [boundObjects_grow sound.registry grows position] at inside
  have grouped := exists_group_of_bound reached object value names inside
  rw [← rooted] at grouped
  exact ⟨_, _, rounds, grouped⟩

/-- **What is bound under a target stands for one shape,** unless it was collected under another. -/
theorem canonical_eq_of_isBound (inferred : infer options sample = .ok graph)
    (rests : Rests options sample) (bound : graph.IsBound target first)
    (bound' : graph.IsBound target second)
    (only : ∀ other, Collected options sample other first → other = target)
    (only' : ∀ other, Collected options sample other second → other = target) :
    graph.canonical first = graph.canonical second :=
  canonical_eq_of_collected inferred (collected_of_isBound inferred rests bound)
    (collected_of_isBound inferred rests bound') only only'

/-- Two objects are bound under one target, and both stand for their merge. -/
theorem canonical_eq_of_two_references :
    ∃ graph, infer {} (.object [("a[T]", .object [("x", .null)]),
        ("b[T]", .object [("y", .null)])]) = .ok graph ∧
      graph.IsBound "T" (.node 0) ∧ graph.IsBound "T" (.node 1) ∧
      graph.canonical (.node 0) = graph.canonical (.node 1) := by
  have targets : (roundsOf {} (.object [("a[T]", .object [("x", .null)]),
      ("b[T]", .object [("y", .null)])]) maxRounds).map (·.1.keys) = some ["T"] := by
    decide +kernel
  have only : ∀ id other, Collected {} (.object [("a[T]", .object [("x", .null)]),
      ("b[T]", .object [("y", .null)])]) other id → other = "T" := by
    rintro id other ⟨groups, state, rounds, group, found, _⟩
    rw [rounds] at targets
    have key := Table.mem_keys_of_get? found
    rw [show groups.keys = ["T"] from Option.some.inj targets] at key
    exact List.mem_singleton.mp key
  have listed : (infer {} (.object [("a[T]", .object [("x", .null)]),
      ("b[T]", .object [("y", .null)])])).toOption.map bindings =
        some [("T", .node 0), ("T", .node 1)] := by
    decide +kernel
  cases inferred : infer {} (.object [("a[T]", .object [("x", .null)]),
      ("b[T]", .object [("y", .null)])]) with
  | error failure =>
    rw [inferred] at listed
    cases listed
  | ok graph =>
    rw [inferred] at listed
    have bound : ∀ id, id = .node 0 ∨ id = .node 1 → graph.IsBound "T" id := by
      intro id either
      rw [isBound_iff_mem_bindings, show graph.bindings = _ from Option.some.inj listed]
      rcases either with rfl | rfl <;> simp
    exact ⟨graph, rfl, bound _ (.inl rfl), bound _ (.inr rfl),
      canonical_eq_of_isBound inferred (by decide +kernel) (bound _ (.inl rfl)) (bound _ (.inr rfl))
        (only _) (only _)⟩

/-- **Two objects may be bound under one target alone and stand for different shapes.** The first
was also collected under `P`, in an object that its merge has replaced since. -/
theorem canonical_ne_of_isBound :
    ∃ graph, infer {} (.object [("z1[Z]", .object [("p[P]", .object [("x", .number "1")])]),
        ("z2[Z]", .object [("p[P]", .object [("y", .number "1")])]),
        ("n", .object [("t[T]", .object [("x", .number "1")]),
          ("u[T]", .object [("w", .number "1")])])]) = .ok graph ∧
      graph.IsBound "T" (.node 0) ∧ graph.IsBound "T" (.node 4) ∧
      (∀ other, graph.IsBound other (.node 0) → other = "T") ∧
      (∀ other, graph.IsBound other (.node 4) → other = "T") ∧
      graph.canonical (.node 0) ≠ graph.canonical (.node 4) := by
  have listed : (infer {} (.object [("z1[Z]", .object [("p[P]", .object [("x", .number "1")])]),
      ("z2[Z]", .object [("p[P]", .object [("y", .number "1")])]),
      ("n", .object [("t[T]", .object [("x", .number "1")]),
        ("u[T]", .object [("w", .number "1")])])])).toOption.map
          (fun graph => (graph.bindings, graph.canonical (.node 0), graph.canonical (.node 4))) =
        some ([("Z", .node 1), ("Z", .node 3), ("P", .node 7), ("T", .node 0), ("T", .node 4)],
          .node 7, .node 9) := by
    decide +kernel
  cases inferred : infer {} (.object [("z1[Z]", .object [("p[P]", .object [("x", .number "1")])]),
      ("z2[Z]", .object [("p[P]", .object [("y", .number "1")])]),
      ("n", .object [("t[T]", .object [("x", .number "1")]),
        ("u[T]", .object [("w", .number "1")])])]) with
  | error failure =>
    rw [inferred] at listed
    cases listed
  | ok graph =>
    rw [inferred] at listed
    obtain ⟨bindings, stands⟩ := Prod.mk.inj (Option.some.inj listed)
    obtain ⟨first, second⟩ := Prod.mk.inj stands
    refine ⟨graph, rfl, ?_⟩
    simp only [isBound_iff_mem_bindings, bindings, first, second]
    simp

end SampleShapes.ShapeGraph
