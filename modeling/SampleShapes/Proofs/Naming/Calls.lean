/-
**The walk, call by call.**

The walk looks at one position at a time. At an object it notes a hint, and it goes on to the
fields unless it was there before; through a list or a union it goes on to what is in it, also where
it was there before. Aliases may lead back to an object that the walk came from, so that neither
depth nor size bounds it: what falls with every call is the number of objects still to be entered,
and where that stays, the ceiling of the position.

* `arrive`: what one call does, and the calls that it makes;
* `Returns`: a list of calls comes back, without a bound on how deep they go;
* `Call.advances`: a call makes no calls, enters another object, or goes further down;
* `weight_lt`: **what a call makes weighs less than the call;**
* `exists_returns`, `Returns.eq_foldl`: every call comes back, with what the bounded walk notes;
* `returns_of_infer`: **the walk over the graph of a sample comes back,** with aliases in circles
  too.
-/

import SampleShapes.Proofs.Naming.Walk

namespace SampleShapes

open Registry

/-- The hint of a field comes through no list. -/
theorem Hint.element_ofField (registry : Registry) (field : Field) :
    (Hint.ofField registry field).element = false := by
  unfold Hint.ofField
  split
  · split <;> rfl
  · rfl

namespace Walk

/-- A position to look at, with the hint for what is there. -/
structure Call where
  /-- The position. -/
  id : ShapeId
  /-- The hint. -/
  hint : Hint

variable {graph : ShapeGraph} {walk between later : Walk} {call inner : Call} {calls : List Call}

/-- What a call does itself, and the calls that it makes after that, in order. -/
def arrive (graph : ShapeGraph) (walk : Walk) (call : Call) : Walk × List Call :=
  match graph.canonical call.id with
  | .node index =>
    match graph.registry.shapeAt? index with
    | some (.object fields) =>
      let hints := (index, call.hint) :: walk.hints
      if index ∈ walk.entered then ({ walk with hints }, [])
      else
        (⟨index :: walk.entered, hints⟩,
          fields.values.map fun field => ⟨field.shape, Hint.ofField graph.registry field⟩)
    | some (.list elements) =>
      (walk, elements.toList.map fun element => ⟨element, { call.hint with element := true }⟩)
    | some (.union members) => (walk, members.toList.map fun member => ⟨member, call.hint⟩)
    | none => (walk, [])
  | _ => (walk, [])

/-- Calls in a row come back: each of them once the calls that it makes have come back. -/
inductive Returns (graph : ShapeGraph) : Walk → List Call → Walk → Prop where
  /-- Without calls nothing happens. -/
  | done (walk : Walk) : Returns graph walk [] walk
  /-- The first call comes back, and the others after it. -/
  | call {walk between later : Walk} {call : Call} {rest : List Call} :
      Returns graph (arrive graph walk call).1 (arrive graph walk call).2 between →
      Returns graph between rest later → Returns graph walk (call :: rest) later

/-! ### What one call does -/

theorem arrive_of_fields? {index : Nat} {fields : Table String Field}
    (same : graph.canonical call.id = .node index)
    (object : graph.registry.fields? (.node index) = some fields) :
    arrive graph walk call =
      if index ∈ walk.entered then (⟨walk.entered, (index, call.hint) :: walk.hints⟩, [])
      else
        (⟨index :: walk.entered, (index, call.hint) :: walk.hints⟩,
          fields.values.map fun field => ⟨field.shape, Hint.ofField graph.registry field⟩) := by
  have shape : graph.registry.shapeAt? index = some (.object fields) :=
    fields?_eq_some_iff.mp object
  unfold arrive
  rw [same]
  dsimp only
  rw [shape]

theorem arrive_of_shape?_eq_none (same : graph.canonical call.id = call.id)
    (missing : graph.registry.shape? call.id = none) : arrive graph walk call = (walk, []) := by
  unfold arrive
  rw [same]
  cases here : call.id with
  | node index =>
    rw [here] at missing
    change graph.registry.shapeAt? index = none at missing
    dsimp only
    rw [missing]
  | primitive kind => rfl
  | date => rfl

section Arrivals

variable (sound : graph.Sound)
include sound

theorem arrive_of_elements? {elements : IdSet}
    (list : graph.registry.elements? call.id = some elements) :
    arrive graph walk call =
      (walk, elements.toList.map fun element => ⟨element, { call.hint with element := true }⟩) := by
  obtain ⟨index, same, shape⟩ := shape?_eq_some_iff.mp (elements?_eq_some_iff.mp list)
  unfold arrive
  rw [sound.canonical_of_elements? list, same]
  dsimp only
  rw [shape]

theorem arrive_of_members? {members : IdSet}
    (union : graph.registry.members? call.id = some members) :
    arrive graph walk call = (walk, members.toList.map fun member => ⟨member, call.hint⟩) := by
  obtain ⟨index, same, shape⟩ := shape?_eq_some_iff.mp (members?_eq_some_iff.mp union)
  unfold arrive
  rw [sound.canonical_of_members? union, same]
  dsimp only
  rw [shape]

end Arrivals

/-- How a call goes on. -/
inductive Call.Advances (graph : ShapeGraph) (walk : Walk) (call : Call) : Prop where
  /-- It makes no calls. -/
  | stops (last : (arrive graph walk call).2 = [])
  /-- It enters the object that stands in its position, which was not entered before. -/
  | enters (index : Nat) (same : graph.canonical call.id = .node index)
      (object : (graph.registry.fields? (.node index)).isSome) (fresh : index ∉ walk.entered)
      (entered : (arrive graph walk call).1.entered = index :: walk.entered)
  /-- It notes nothing and goes on to what is in a list or a union, which is further down. -/
  | descends (ids : IdSet)
      (holder : graph.registry.elements? call.id = some ids ∨
        graph.registry.members? call.id = some ids)
      (still : (arrive graph walk call).1 = walk)
      (onward : (arrive graph walk call).2.map Call.id = ids.toList)
      (below : ∀ id ∈ ids, id.ceiling < call.id.ceiling)

/-- **A call makes no calls, enters another object, or goes further down.** -/
theorem Call.advances (sound : graph.Sound) (walk : Walk) (call : Call) :
    call.Advances graph walk := by
  rcases sound.position_cases call.id with
    ⟨index, fields, same, object⟩ | ⟨elements, list⟩ | ⟨members, union⟩ | ⟨same, missing⟩
  · have arrives : arrive graph walk call = _ := arrive_of_fields? same object
    by_cases known : index ∈ walk.entered
    · rw [if_pos known] at arrives
      exact .stops (congrArg Prod.snd arrives)
    · rw [if_neg known] at arrives
      exact .enters index same (Option.isSome_of_eq_some object) known
        (congrArg (fun result => result.1.entered) arrives)
  · have arrives : arrive graph walk call = _ := arrive_of_elements? sound list
    refine .descends elements (.inl list) (congrArg Prod.fst arrives) ?_
      fun id inside => (sound.registry.element list inside).2
    rw [arrives, List.map_map]
    exact List.map_id _
  · have arrives : arrive graph walk call = _ := arrive_of_members? sound union
    refine .descends members (.inr union) (congrArg Prod.fst arrives) ?_
      fun id inside => (sound.registry.member union inside).2
    rw [arrives, List.map_map]
    exact List.map_id _
  · exact .stops (congrArg Prod.snd (arrive_of_shape?_eq_none same missing))

/-! ### Every call comes back -/

theorem mem_entered_arrive {place : Nat} (member : place ∈ walk.entered) :
    place ∈ (arrive graph walk call).1.entered := by
  unfold arrive
  split
  · split
    · dsimp only
      split
      · exact member
      · exact List.mem_cons_of_mem _ member
    · exact member
    · exact member
    · exact member
  · exact member

/-- What was entered stays entered. -/
theorem Returns.mem_entered (returns : Returns graph walk calls later) {place : Nat}
    (member : place ∈ walk.entered) : place ∈ later.entered := by
  induction returns with
  | done walk => exact member
  | call _ _ nested rest => exact rest (nested (mem_entered_arrive member))

/-- The weight of a call: the objects still to be entered, then the ceiling of its position. -/
def Call.weight (graph : ShapeGraph) (walk : Walk) (call : Call) : Nat × Nat :=
  (walk.ahead graph, call.id.ceiling)

/-- **What a call makes weighs less than the call,** whatever was entered in the meantime. -/
theorem weight_lt (sound : graph.Sound) (made : inner ∈ (arrive graph walk call).2)
    (grows : ∀ place ∈ (arrive graph walk call).1.entered, place ∈ between.entered) :
    Prod.Lex (· < ·) (· < ·) (inner.weight graph between) (call.weight graph walk) := by
  cases call.advances sound walk with
  | stops last => exact absurd (last ▸ made) List.not_mem_nil
  | enters index same object fresh entered =>
    refine .left _ _ (Nat.lt_of_le_of_lt ?_ (ahead_cons_lt walk.hints ?_ fresh))
    · exact Reach.ahead_le fun place member => grows place (entered ▸ member)
    · obtain ⟨fields, found⟩ := Option.isSome_iff_exists.mp object
      exact lt_capacity_of_shapeAt? (fields?_eq_some_iff.mp found)
  | descends ids holder still onward below =>
    refine Prod.Lex.right' _ (Reach.ahead_le fun place member => ?_) (below inner.id ?_)
    · exact grows place (mem_entered_arrive member)
    · exact IdSet.mem_toList.mp (onward ▸ List.mem_map_of_mem made)

/-- Calls come back if each of them does, whatever was entered in the meantime. -/
theorem exists_returns_of_each
    (each : ∀ call ∈ calls, ∀ between : Walk,
      (∀ place ∈ walk.entered, place ∈ between.entered) →
        ∃ later, Returns graph between [call] later) :
    ∃ later, Returns graph walk calls later := by
  induction calls generalizing walk with
  | nil => exact ⟨walk, .done walk⟩
  | cons first rest step =>
    rw [List.forall_mem_cons] at each
    obtain ⟨between, first⟩ := each.1 walk fun _ member => member
    obtain ⟨later, others⟩ := step fun call inside last grows =>
      each.2 call inside last fun place member => grows place (first.mem_entered member)
    cases first with
    | call nested none =>
      cases none
      exact ⟨later, .call nested others⟩

/-- **Every call comes back,** by induction on its weight. -/
theorem exists_returns (sound : graph.Sound) (walk : Walk) (call : Call) :
    ∃ later, Returns graph walk [call] later := by
  obtain ⟨later, nested⟩ :
      ∃ later, Returns graph (arrive graph walk call).1 (arrive graph walk call).2 later :=
    exists_returns_of_each fun inner made between grows => exists_returns sound between inner
  exact ⟨later, .call nested (.done later)⟩
termination_by call.weight graph walk
decreasing_by exact weight_lt sound made grows

/-! ### The bounded walk -/

/-- The objects in the position of a call, each with the hint for it. -/
def Call.entries (graph : ShapeGraph) (call : Call) : List (Nat × Hint) :=
  (graph.objectsAt (graph.registry.capacity + 1) call.hint.element call.id).map
    fun (index, element) => (index, { call.hint with element })

/-- The objects in a list or a union are those in the positions of what is in it. -/
theorem Call.entries_eq_flatMap (sound : graph.Sound) {shape : Shape} (hint : Hint)
    (found : graph.registry.shape? call.id = some shape)
    (same : graph.objectsAt (graph.registry.capacity + 1) call.hint.element call.id =
      shape.children.flatMap (graph.objectsAt graph.registry.capacity hint.element))
    (hinted : ∀ element, { call.hint with element } = { hint with element }) :
    call.entries graph =
      (shape.children.map fun id => ⟨id, hint⟩).flatMap (Call.entries graph) := by
  have inside := ceiling_le_capacity (holds_of_shape? found)
  unfold entries
  rw [same, List.map_flatMap, List.flatMap_map]
  refine List.flatMap_congr fun id member => ?_
  have below : id.ceiling ≤ graph.registry.capacity :=
    Nat.le_trans (Nat.le_of_lt (sound.registry.child found member).2) inside
  rw [← sound.objectsAt_succ below hint.element]
  exact List.map_congr_left fun entry _ => congrArg (entry.1, ·) (hinted entry.2)

/-- An object links to what stands in the positions of its fields. -/
theorem links_eq_flatMap_entries {index : Nat} {fields : Table String Field}
    (object : graph.registry.fields? (.node index) = some fields) :
    graph.links index =
      (fields.values.map fun field => ⟨field.shape, Hint.ofField graph.registry field⟩).flatMap
        (Call.entries graph) := by
  have shape : graph.registry.shapeAt? index = some (.object fields) :=
    fields?_eq_some_iff.mp object
  unfold ShapeGraph.links
  rw [shape, List.flatMap_map]
  refine List.flatMap_congr fun field _ => ?_
  unfold ShapeGraph.hintsAt Call.entries
  rw [Hint.element_ofField]

/-- The objects in the position of a call note what the calls that it makes note, and the call
itself. -/
theorem foldl_visit_entries (sound : graph.Sound) {fuel : Nat} (enough : walk.ahead graph < fuel)
    (nested : ∀ fuel : Nat, (arrive graph walk call).1.ahead graph < fuel →
      between = ((arrive graph walk call).2.flatMap (Call.entries graph)).foldl (visit graph fuel)
        (arrive graph walk call).1) :
    (call.entries graph).foldl (visit graph fuel) walk = between := by
  rcases sound.position_cases call.id with
    ⟨index, fields, same, object⟩ | ⟨elements, list⟩ | ⟨members, union⟩ | ⟨same, missing⟩
  · obtain _ | fuel := fuel
    · exact absurd enough (Nat.not_lt_zero _)
    have only : call.entries graph = [(index, call.hint)] := by
      unfold Call.entries
      rw [ShapeGraph.objectsAt_of_canonical same (Option.isSome_of_eq_some object)]
      rfl
    rw [only, List.foldl_cons, List.foldl_nil]
    rw [arrive_of_fields? same object] at nested
    unfold visit
    dsimp only
    split
    · next known =>
      rw [if_pos known] at nested
      exact (nested (fuel + 1) enough).symm
    · next fresh =>
      -- The object is entered, so that one step less is enough for what comes after it.
      rw [if_neg fresh] at nested
      have inside := lt_capacity_of_shapeAt? (fields?_eq_some_iff.mp object)
      have fewer := ahead_cons_lt ((index, call.hint) :: walk.hints) inside fresh
      rw [links_eq_flatMap_entries object]
      exact (nested fuel (Nat.lt_of_lt_of_le fewer (Nat.le_of_lt_succ enough))).symm
  · rw [arrive_of_elements? sound list] at nested
    rw [Call.entries_eq_flatMap sound { call.hint with element := true }
      (elements?_eq_some_iff.mp list) (ShapeGraph.objectsAt_of_elements? sound _ _ list)
      fun _ => rfl]
    exact (nested fuel enough).symm
  · rw [arrive_of_members? sound union] at nested
    rw [Call.entries_eq_flatMap sound call.hint (members?_eq_some_iff.mp union)
      (ShapeGraph.objectsAt_of_members? sound _ _ union) fun _ => rfl]
    exact (nested fuel enough).symm
  · rw [arrive_of_shape?_eq_none same missing] at nested
    have nothing : call.entries graph = [] := by
      unfold Call.entries
      rw [ShapeGraph.objectsAt_of_shape?_eq_none same missing]
      rfl
    rw [nested fuel enough, nothing]
    rfl

/-- **Calls that come back note what the bounded walk notes,** if that may go deep enough. -/
theorem Returns.eq_foldl (sound : graph.Sound) (returns : Returns graph walk calls later)
    {fuel : Nat} (enough : walk.ahead graph < fuel) :
    later = (calls.flatMap (Call.entries graph)).foldl (visit graph fuel) walk := by
  induction returns generalizing fuel with
  | done walk => rfl
  | @call walk between later call rest nested others stepNested stepOthers =>
    have grows : between.ahead graph ≤ walk.ahead graph :=
      Reach.ahead_le fun place member => nested.mem_entered (mem_entered_arrive member)
    rw [List.flatMap_cons, List.foldl_append,
      foldl_visit_entries sound enough fun fuel enough => stepNested enough]
    exact stepOthers (Nat.lt_of_le_of_lt grows enough)

/-! ### The walk from the root -/

/-- The call for the root, which the walk starts with. -/
def Call.ofRoot (graph : ShapeGraph) (rootName : String) : Call :=
  ⟨graph.root, Hint.ofRoot rootName⟩

/-- **The call for the root comes back with the walk,** and with nothing else. -/
theorem returns_iff (sound : graph.Sound) (rootName : String) :
    Returns graph ⟨[], []⟩ [Call.ofRoot graph rootName] later ↔ later = ofGraph graph rootName := by
  have noted : ∀ later, Returns graph ⟨[], []⟩ [Call.ofRoot graph rootName] later →
      later = ofGraph graph rootName := by
    intro later returns
    rw [returns.eq_foldl sound (ahead_lt graph _), List.flatMap_singleton]
    rfl
  refine ⟨noted later, ?_⟩
  rintro rfl
  obtain ⟨later, returns⟩ := exists_returns sound ⟨[], []⟩ (Call.ofRoot graph rootName)
  exact noted later returns ▸ returns

/-- **The walk over the graph of a sample comes back,** whatever its aliases lead to: a call makes
no calls, or enters an object that was not entered before, or goes from a list or a union to what is
in it, further down. -/
theorem returns_of_infer {options : Options} {sample : Json}
    (inferred : ShapeGraph.infer options sample = .ok graph) (rootName : String) :
    (∀ later, Returns graph ⟨[], []⟩ [Call.ofRoot graph rootName] later ↔
        later = ofGraph graph rootName) ∧
      ∀ (walk : Walk) (call : Call), call.Advances graph walk :=
  have sound := (ShapeGraph.represents_of_infer inferred).toSound
  ⟨fun _ => returns_iff sound rootName, fun walk call => call.advances sound walk⟩

/-- An object under a target leads back to itself through a list, and the walk comes back. -/
theorem returns_of_circle :
    ∃ graph, ShapeGraph.infer {} (.object [("a[T]", .object [("x", .null),
        ("b[T]", .array [.object [("y", .array [])], .bool true])])]) = .ok graph ∧
      7 ∈ successors graph 7 ∧
      (∀ later, Returns graph ⟨[], []⟩ [Call.ofRoot graph "Root"] later ↔
        later = ofGraph graph "Root") ∧
      ∀ (walk : Walk) (call : Call), call.Advances graph walk := by
  obtain ⟨graph, inferred, circle⟩ :
      ∃ graph, ShapeGraph.infer {} (.object [("a[T]", .object [("x", .null),
          ("b[T]", .array [.object [("y", .array [])], .bool true])])]) = .ok graph ∧
        7 ∈ successors graph 7 :=
    ShapeGraph.exists_of_decided (by decide +kernel)
  exact ⟨graph, inferred, circle, returns_of_infer inferred "Root"⟩

end Walk

end SampleShapes
