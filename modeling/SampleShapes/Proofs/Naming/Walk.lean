/-
**What the walk over objects finds.**

Apart from the hints it notes, the walk is a depth-first walk along the links between objects, so
that it enters what is reached from the root and nothing twice. Every object that it enters has a
hint, and the hint for the root goes to the object of the root alone.

* `ShapeGraph.Sound.position_cases`: what stands in a position, with aliases followed;
* `ShapeGraph.Sound.objectsAt_succ`: **no position is deeper than its ceiling;**
* `order_ofGraph`: the walk enters objects in the order of a depth-first walk;
* `ofGraph_noted`: every object that is entered has a hint, and hints come from the root or from
  what is entered;
* `ShapeGraph.Sound.exists_rootObject`: the root leads to one object, which the walk enters first;
* `exists_root`: **the object of the root is entered first**, with the hint for the root;
* `mem_hints_of_best?`, `tier_best?`: the best hint was noted, and the root keeps its own.
-/

import SampleShapes.Naming.Walk
import SampleShapes.Proofs.Inference

namespace SampleShapes

open Registry

/-- Only the root gives a hint of the strongest tier. -/
theorem Hint.tier_ofField_ne_root (registry : Registry) (field : Field) :
    (Hint.ofField registry field).tier ≠ .root := by
  unfold Hint.ofField
  split
  · split <;> exact Tier.noConfusion
  · exact Tier.noConfusion

/-! ### Objects in a position -/

namespace ShapeGraph

variable {graph : ShapeGraph} {id : ShapeId} {index : Nat}

/-- An object stands for an object. -/
theorem Sound.canonical_of_fields? (sound : graph.Sound)
    (object : (graph.registry.fields? id).isSome) :
    ∃ index, graph.canonical id = .node index ∧
      (graph.registry.fields? (.node index)).isSome := by
  rcases graph.canonical_cases id with same | ⟨member, index, rfl, found, same⟩
  · obtain ⟨fields, found⟩ := Option.isSome_iff_exists.mp object
    obtain ⟨index, rfl, _⟩ := shape?_eq_some_iff.mp (fields?_eq_some_iff.mp found)
    exact ⟨index, same, object⟩
  · exact ⟨index, same, (sound.merge member index found).isSome_fields?⟩

theorem Sound.isSome_fields?_canonicalNode (sound : graph.Sound)
    (object : (graph.registry.fields? (.node index)).isSome) :
    (graph.registry.fields? (.node (graph.canonicalNode index))).isSome := by
  obtain ⟨place, same, object⟩ := sound.canonical_of_fields? object
  rwa [← same] at object

/-- An object without fields stands for itself, because an alias leads from one with fields. -/
theorem Sound.canonical_of_isEmpty (sound : graph.Sound) {fields : Table String Field}
    (found : graph.registry.fields? id = some fields) (empty : fields.isEmpty) :
    graph.canonical id = id := by
  rcases graph.canonical_cases id with same | ⟨member, index, rfl, leads, _⟩
  · exact same
  · obtain ⟨others, here, notEmpty⟩ :=
      sound.merged member index leads (holds_of_shape? (fields?_eq_some_iff.mp found))
    rw [Option.some.inj (found.symm.trans here), notEmpty] at empty
    cases empty

/-- What is no object stands for itself. -/
theorem Sound.canonical_of_not_object (sound : graph.Sound) (held : graph.registry.Holds id)
    (notObject : graph.registry.fields? id = none) : graph.canonical id = id := by
  rcases graph.canonical_cases id with same | ⟨member, index, rfl, found, _⟩
  · exact same
  · have object := (sound.merged member index found held).isSome_fields?
    rw [notObject] at object
    cases object

/-- A list stands for itself. -/
theorem Sound.canonical_of_elements? (sound : graph.Sound) {elements : IdSet}
    (found : graph.registry.elements? id = some elements) : graph.canonical id = id := by
  have list := elements?_eq_some_iff.mp found
  refine sound.canonical_of_not_object (holds_of_shape? list) ?_
  unfold fields?
  rw [list]
  rfl

/-- A union stands for itself. -/
theorem Sound.canonical_of_members? (sound : graph.Sound) {members : IdSet}
    (found : graph.registry.members? id = some members) : graph.canonical id = id := by
  have union := members?_eq_some_iff.mp found
  refine sound.canonical_of_not_object (holds_of_shape? union) ?_
  unfold fields?
  rw [union]
  rfl

theorem objectsAt_of_canonical (same : graph.canonical id = .node index)
    (object : (graph.registry.fields? (.node index)).isSome) (depth : Nat) (element : Bool) :
    graph.objectsAt (depth + 1) element id = [(index, element)] := by
  obtain ⟨fields, found⟩ := Option.isSome_iff_exists.mp object
  have shape : graph.registry.shapeAt? index = some (.object fields) := fields?_eq_some_iff.mp found
  unfold objectsAt
  rw [same]
  dsimp only
  rw [shape]

theorem objectsAt_of_shape?_eq_none (same : graph.canonical id = id)
    (missing : graph.registry.shape? id = none) (depth : Nat) (element : Bool) :
    graph.objectsAt depth element id = [] := by
  cases depth with
  | zero => rfl
  | succ depth =>
    unfold objectsAt
    rw [same]
    cases id with
    | node index =>
      change graph.registry.shapeAt? index = none at missing
      dsimp only
      rw [missing]
    | primitive kind => rfl
    | date => rfl

section Positions

variable (sound : graph.Sound) (depth : Nat) (element : Bool)
include sound

theorem objectsAt_of_fields? (object : (graph.registry.fields? id).isSome) :
    ∃ index, graph.canonical id = .node index ∧ (graph.registry.fields? (.node index)).isSome ∧
      graph.objectsAt (depth + 1) element id = [(index, element)] := by
  obtain ⟨index, same, object⟩ := sound.canonical_of_fields? object
  exact ⟨index, same, object, objectsAt_of_canonical same object depth element⟩

theorem objectsAt_of_elements? {elements : IdSet}
    (found : graph.registry.elements? id = some elements) :
    graph.objectsAt (depth + 1) element id =
      elements.toList.flatMap (graph.objectsAt depth true) := by
  unfold objectsAt
  rw [sound.canonical_of_elements? found]
  obtain ⟨index, rfl, shape⟩ := shape?_eq_some_iff.mp (elements?_eq_some_iff.mp found)
  dsimp only
  rw [shape]

theorem objectsAt_of_members? {members : IdSet}
    (found : graph.registry.members? id = some members) :
    graph.objectsAt (depth + 1) element id =
      members.toList.flatMap (graph.objectsAt depth element) := by
  unfold objectsAt
  rw [sound.canonical_of_members? found]
  obtain ⟨index, rfl, shape⟩ := shape?_eq_some_iff.mp (members?_eq_some_iff.mp found)
  dsimp only
  rw [shape]

end Positions

/-- What stands in a position: an object, maybe under another identity, or a list or a union under
its own, or nothing. -/
theorem Sound.position_cases (sound : graph.Sound) (id : ShapeId) :
    (∃ index fields, graph.canonical id = .node index ∧
        graph.registry.fields? (.node index) = some fields) ∨
      (∃ elements, graph.registry.elements? id = some elements) ∨
      (∃ members, graph.registry.members? id = some members) ∨
      graph.canonical id = id ∧ graph.registry.shape? id = none := by
  cases found : graph.registry.shape? id with
  | some shape =>
    cases shape with
    | object fields =>
      have object := Option.isSome_of_eq_some (fields?_eq_some_iff.mpr found)
      obtain ⟨index, same, object⟩ := sound.canonical_of_fields? object
      obtain ⟨own, object⟩ := Option.isSome_iff_exists.mp object
      exact .inl ⟨index, own, same, object⟩
    | list elements => exact .inr (.inl ⟨elements, elements?_eq_some_iff.mpr found⟩)
    | union members => exact .inr (.inr (.inl ⟨members, members?_eq_some_iff.mpr found⟩))
  | none =>
    -- A member of a merge may have been dropped, but then the merge has not.
    rcases graph.canonical_cases id with same | ⟨member, index, rfl, leads, same⟩
    · exact .inr (.inr (.inr ⟨same, rfl⟩))
    · obtain ⟨own, object⟩ :=
        Option.isSome_iff_exists.mp (sound.merge member index leads).isSome_fields?
      exact .inl ⟨index, own, same, object⟩

/-- **No position is deeper than its ceiling,** because lists and unions stand above what is in
them. -/
theorem Sound.objectsAt_succ (sound : graph.Sound) {depth : Nat} (enough : id.ceiling ≤ depth)
    (element : Bool) :
    graph.objectsAt (depth + 1) element id = graph.objectsAt depth element id := by
  induction depth generalizing id element with
  | zero =>
    cases id with
    | node index => exact absurd enough (Nat.not_succ_le_zero index)
    | primitive kind => rfl
    | date => rfl
  | succ depth step =>
    rcases sound.position_cases id with
      ⟨index, fields, same, object⟩ | ⟨elements, list⟩ | ⟨members, union⟩ | ⟨same, missing⟩
    · have object := Option.isSome_of_eq_some object
      rw [objectsAt_of_canonical same object, objectsAt_of_canonical same object]
    · rw [objectsAt_of_elements? sound _ element list, objectsAt_of_elements? sound _ element list]
      refine List.flatMap_congr fun part inside => step ?_ true
      have below := (sound.registry.element list inside).2
      omega
    · rw [objectsAt_of_members? sound _ element union, objectsAt_of_members? sound _ element union]
      refine List.flatMap_congr fun part inside => step ?_ element
      have below := (sound.registry.member union inside).2
      omega
    · rw [objectsAt_of_shape?_eq_none same missing, objectsAt_of_shape?_eq_none same missing]

theorem isObject_of_mem_objectsAt {depth : Nat} {element under : Bool}
    (member : (index, under) ∈ graph.objectsAt depth element id) :
    (graph.registry.fields? (.node index)).isSome := by
  induction depth generalizing element id with
  | zero => exact absurd member List.not_mem_nil
  | succ depth step =>
    unfold objectsAt at member
    split at member
    · split at member
      · next fields found =>
        obtain ⟨rfl, _⟩ := Prod.mk.inj (List.mem_singleton.mp member)
        exact Option.isSome_of_eq_some (fields?_eq_some_iff.mpr found)
      · obtain ⟨part, _, inside⟩ := List.mem_flatMap.mp member
        exact step inside
      · obtain ⟨part, _, inside⟩ := List.mem_flatMap.mp member
        exact step inside
      · exact absurd member List.not_mem_nil
    · exact absurd member List.not_mem_nil

/-- **An object leads to what its fields lead to,** with the hints that they give. -/
theorem mem_links_iff {parent : Nat} {hint : Hint} :
    (index, hint) ∈ graph.links parent ↔
      ∃ fields field under, graph.registry.fields? (.node parent) = some fields ∧
        field ∈ fields.values ∧
        (index, under) ∈ graph.objectsAt (graph.registry.capacity + 1) false field.shape ∧
        hint = { Hint.ofField graph.registry field with element := under } := by
  unfold links
  constructor
  · intro linked
    split at linked
    · next fields shape =>
      obtain ⟨field, value, hinted⟩ := List.mem_flatMap.mp linked
      obtain ⟨⟨place, under⟩, member, same⟩ := List.mem_map.mp hinted
      obtain ⟨rfl, rfl⟩ := Prod.mk.inj same
      exact ⟨fields, field, under, fields?_eq_some_iff.mpr shape, value, member, rfl⟩
    · exact absurd linked List.not_mem_nil
  · rintro ⟨fields, field, under, object, value, member, rfl⟩
    have shape : graph.registry.shapeAt? parent = some (.object fields) :=
      fields?_eq_some_iff.mp object
    rw [shape]
    exact List.mem_flatMap.mpr ⟨field, value, List.mem_map.mpr ⟨(index, under), member, rfl⟩⟩

theorem isObject_of_mem_links {parent : Nat} {entry : Nat × Hint}
    (member : entry ∈ graph.links parent) : (graph.registry.fields? (.node entry.1)).isSome := by
  obtain ⟨_, _, _, _, _, found, _⟩ := mem_links_iff.mp member
  exact isObject_of_mem_objectsAt found

/-- **A placeholder leads to the empty object only,** and then it is the empty object itself. -/
theorem Sound.of_isPlaceholder (sound : graph.Sound) (placeholder : graph.registry.isPlaceholder id)
    {depth : Nat} {element under : Bool}
    (member : (index, under) ∈ graph.objectsAt depth element id) :
    id = .node index ∧ ∃ fields, graph.registry.fields? id = some fields ∧ fields.isEmpty := by
  cases depth with
  | zero => exact absurd member List.not_mem_nil
  | succ depth =>
    unfold isPlaceholder at placeholder
    rcases Bool.or_eq_true_iff.mp placeholder with isNull | loose
    · rw [of_decide_eq_true isNull] at member
      exact absurd member List.not_mem_nil
    · split at loose
      · next own shape =>
        have object := fields?_eq_some_iff.mpr shape
        obtain ⟨place, same, _, only⟩ :=
          objectsAt_of_fields? sound depth element (Option.isSome_of_eq_some object)
        rw [only] at member
        obtain ⟨rfl, _⟩ := Prod.mk.inj (List.mem_singleton.mp member)
        rw [sound.canonical_of_isEmpty object loose] at same
        exact ⟨same, own, object, loose⟩
      · next elements shape =>
        rw [objectsAt_of_elements? sound depth element (elements?_eq_some_iff.mpr shape)] at member
        obtain ⟨part, inside, member⟩ := List.mem_flatMap.mp member
        -- The elements are unions of nothing, and no object stands in these.
        have nothing := List.all_eq_true.mp loose part inside
        obtain ⟨members, union, empty⟩ := (Option.any_eq_true _ _).mp nothing
        cases depth with
        | zero => exact absurd member List.not_mem_nil
        | succ depth =>
          rw [objectsAt_of_members? sound depth true union, List.isEmpty_iff.mp empty] at member
          exact absurd member List.not_mem_nil
      · cases loose

/-- A placeholder leads to objects without fields only. -/
theorem Sound.isEmpty_of_isPlaceholder (sound : graph.Sound)
    (placeholder : graph.registry.isPlaceholder id) {depth : Nat} {element under : Bool}
    (member : (index, under) ∈ graph.objectsAt depth element id) {fields : Table String Field}
    (found : graph.registry.fields? (.node index) = some fields) : fields.isEmpty := by
  obtain ⟨rfl, own, object, empty⟩ := sound.of_isPlaceholder placeholder member
  rw [← Option.some.inj (object.symm.trans found)]
  exact empty

/-- The object of the root: what the root stands for, or what its elements do. -/
def IsRootObject (graph : ShapeGraph) (index : Nat) : Prop :=
  ∃ id, (graph.root = id ∨ graph.registry.elements? graph.root = some (.singleton id)) ∧
    (graph.registry.fields? id).isSome ∧ graph.canonical id = .node index

/-- **The root leads to one object.** -/
theorem Sound.exists_rootObject (sound : graph.Sound) :
    ∃ index element, graph.IsRootObject index ∧
      graph.objectsAt (graph.registry.capacity + 1) false graph.root = [(index, element)] := by
  rcases sound.root with object | ⟨element, list, object⟩
  · obtain ⟨index, same, _, only⟩ :=
      objectsAt_of_fields? sound graph.registry.capacity false object
    exact ⟨index, false, ⟨graph.root, .inl rfl, object, same⟩, only⟩
  · rw [objectsAt_of_elements? sound _ _ list]
    obtain ⟨place, root, shape⟩ := shape?_eq_some_iff.mp (elements?_eq_some_iff.mp list)
    have inside := lt_capacity_of_shapeAt? shape
    obtain ⟨below, more⟩ : ∃ below, graph.registry.capacity = below + 1 :=
      ⟨graph.registry.capacity - 1, by omega⟩
    obtain ⟨index, same, _, only⟩ := objectsAt_of_fields? sound below true object
    refine ⟨index, true, ⟨element, .inr list, object, same⟩, ?_⟩
    rw [more]
    simp [IdSet.singleton, only]

end ShapeGraph

namespace Walk

variable {graph : ShapeGraph} {rootName : String} {walk : Walk} {index : Nat} {hint : Hint}

/-! ### The order of the walk -/

/-- The objects that an object leads to. -/
def successors (graph : ShapeGraph) (index : Nat) : List Nat :=
  (graph.links index).map Prod.fst

/-- The objects that the root leads to. -/
def starts (graph : ShapeGraph) : List Nat :=
  (graph.objectsAt (graph.registry.capacity + 1) false graph.root).map Prod.fst

/-- The hints for the root go to what it leads to. -/
theorem of_mem_hintsAt_root
    (root : (index, hint) ∈ graph.hintsAt (Hint.ofRoot rootName) graph.root) :
    index ∈ starts graph ∧ hint.tier = .root ∧ hint.name = rootName := by
  obtain ⟨⟨place, element⟩, inside, same⟩ := List.mem_map.mp root
  obtain ⟨rfl, rfl⟩ := Prod.mk.inj same
  exact ⟨List.mem_map.mpr ⟨(place, element), inside, rfl⟩, rfl, rfl⟩

theorem lt_capacity_of_links (leads : graph.links index ≠ []) :
    index < graph.registry.capacity := by
  unfold ShapeGraph.links at leads
  split at leads
  · next found => exact lt_capacity_of_shapeAt? found
  · exact absurd rfl leads

theorem entered_foldl {fuel : Nat}
    (one : ∀ walk entry, (visit graph fuel walk entry).entered =
      Reach.visit (successors graph) fuel walk.entered entry.1)
    (entries : List (Nat × Hint)) (walk : Walk) :
    (entries.foldl (visit graph fuel) walk).entered =
      (entries.map Prod.fst).foldl (Reach.visit (successors graph) fuel) walk.entered := by
  induction entries generalizing walk with
  | nil => rfl
  | cons entry rest step => rw [List.foldl_cons, step, one, List.map_cons, List.foldl_cons]

/-- Without its hints the walk is a depth-first walk. -/
theorem entered_visit (fuel : Nat) (walk : Walk) (entry : Nat × Hint) :
    (visit graph fuel walk entry).entered =
      Reach.visit (successors graph) fuel walk.entered entry.1 := by
  induction fuel generalizing walk entry with
  | zero => rfl
  | succ fuel step =>
    obtain ⟨index, hint⟩ := entry
    unfold visit Reach.visit
    dsimp only
    split
    · rfl
    · rw [entered_foldl step]
      rfl

/-- **Objects are entered in the order of a depth-first walk.** -/
theorem order_ofGraph (graph : ShapeGraph) (rootName : String) :
    (ofGraph graph rootName).order =
      Reach.explore (successors graph) graph.registry.capacity (starts graph) := by
  unfold order ofGraph Reach.explore
  rw [entered_foldl (entered_visit _)]
  unfold ShapeGraph.hintsAt starts
  rw [List.map_map]
  rfl

/-- An object is entered exactly if the root leads to it. -/
theorem mem_order_iff :
    index ∈ (ofGraph graph rootName).order ↔
      Reach.Reached (successors graph) (starts graph) index := by
  rw [order_ofGraph]
  refine Reach.mem_explore_iff (List.range graph.registry.capacity) (fun place leads => ?_)
    (by simp)
  exact List.mem_range.mpr (lt_capacity_of_links (mt List.map_eq_nil_iff.mpr leads))

theorem nodup_order (graph : ShapeGraph) (rootName : String) :
    (ofGraph graph rootName).order.Nodup := by
  rw [order_ofGraph]
  exact Reach.nodup_explore

theorem isObject_of_mem_order (member : index ∈ (ofGraph graph rootName).order) :
    (graph.registry.fields? (.node index)).isSome := by
  cases mem_order_iff.mp member with
  | start start =>
    obtain ⟨entry, inside, rfl⟩ := List.mem_map.mp start
    exact ShapeGraph.isObject_of_mem_objectsAt inside
  | step _ leads =>
    obtain ⟨entry, linked, rfl⟩ := List.mem_map.mp leads
    exact ShapeGraph.isObject_of_mem_links linked

/-! ### How far a walk may go -/

/-- The objects still to be entered. -/
def ahead (graph : ShapeGraph) (walk : Walk) : Nat :=
  Reach.ahead (List.range graph.registry.capacity) walk.entered

theorem ahead_lt (graph : ShapeGraph) (walk : Walk) :
    ahead graph walk < graph.registry.capacity + 1 :=
  Nat.lt_succ_of_le (Nat.le_trans List.countP_le_length (Nat.le_of_eq List.length_range))

theorem ahead_cons_lt (hints : List (Nat × Hint)) (inside : index < graph.registry.capacity)
    (fresh : index ∉ walk.entered) :
    ahead graph ⟨index :: walk.entered, hints⟩ < ahead graph walk :=
  Reach.ahead_cons_lt (List.mem_range.mpr inside) fresh

theorem ahead_visit_le {fuel : Nat} (walk : Walk) (entry : Nat × Hint) :
    (visit graph fuel walk entry).ahead graph ≤ walk.ahead graph := by
  refine Reach.ahead_le fun place member => ?_
  rw [entered_visit]
  exact Reach.mem_visit_of_mem member

/-! ### Hints -/

/-- The hint comes from the root, or from a link of one of the `parents`. -/
def Suggests (graph : ShapeGraph) (rootName : String) (parents : List Nat)
    (entry : Nat × Hint) : Prop :=
  entry ∈ graph.hintsAt (Hint.ofRoot rootName) graph.root ∨
    ∃ parent ∈ parents, entry ∈ graph.links parent

theorem Suggests.mono {parents others : List Nat} {entry : Nat × Hint}
    (suggests : Suggests graph rootName parents entry)
    (grows : ∀ place ∈ parents, place ∈ others) : Suggests graph rootName others entry :=
  suggests.imp_right fun ⟨parent, member, linked⟩ => ⟨parent, grows parent member, linked⟩

/-- Hints come from the root or from what was entered, and what was entered has one. -/
structure Noted (graph : ShapeGraph) (rootName : String) (walk : Walk) : Prop where
  suggested : ∀ entry ∈ walk.hints, Suggests graph rootName walk.entered entry
  hinted : ∀ index ∈ walk.entered, ∃ hint, (index, hint) ∈ walk.hints

theorem Noted.addHint (noted : walk.Noted graph rootName) {entry : Nat × Hint}
    (suggests : Suggests graph rootName walk.entered entry) :
    Noted graph rootName { walk with hints := entry :: walk.hints } where
  suggested := List.forall_mem_cons.mpr ⟨suggests, noted.suggested⟩
  hinted index member := by
    obtain ⟨hint, there⟩ := noted.hinted index member
    exact ⟨hint, List.mem_cons_of_mem _ there⟩

/-- An object with a hint may be entered. -/
theorem Noted.enter (noted : walk.Noted graph rootName) (hinted : (index, hint) ∈ walk.hints) :
    Noted graph rootName ⟨index :: walk.entered, walk.hints⟩ where
  suggested entry member :=
    (noted.suggested entry member).mono fun _ => List.mem_cons_of_mem _
  hinted := List.forall_mem_cons.mpr ⟨⟨hint, hinted⟩, noted.hinted⟩

/-- What was entered stays entered. -/
theorem mem_entered_visit {fuel : Nat} {entry : Nat × Hint} {place : Nat}
    (member : place ∈ walk.entered) : place ∈ (visit graph fuel walk entry).entered := by
  rw [entered_visit]
  exact Reach.mem_visit_of_mem member

theorem foldl_visit_noted {fuel : Nat}
    (one : ∀ walk entry, Noted graph rootName walk →
      Suggests graph rootName walk.entered entry →
        (visit graph fuel walk entry).Noted graph rootName)
    (entries : List (Nat × Hint))
    (suggests : ∀ entry ∈ entries, Suggests graph rootName walk.entered entry)
    (noted : walk.Noted graph rootName) :
    (entries.foldl (visit graph fuel) walk).Noted graph rootName := by
  induction entries generalizing walk with
  | nil => exact noted
  | cons entry rest step =>
    rw [List.forall_mem_cons] at suggests
    refine step (fun other member => ?_) (one walk entry noted suggests.1)
    exact (suggests.2 other member).mono fun _ => mem_entered_visit

theorem visit_noted (fuel : Nat) (walk : Walk) (entry : Nat × Hint)
    (noted : walk.Noted graph rootName) (suggests : Suggests graph rootName walk.entered entry) :
    (visit graph fuel walk entry).Noted graph rootName := by
  induction fuel generalizing walk entry with
  | zero => exact noted
  | succ fuel step =>
    have arrived := noted.addHint suggests
    obtain ⟨index, hint⟩ := entry
    unfold visit
    dsimp only
    split
    · exact arrived
    · refine foldl_visit_noted step _ (fun entry linked => .inr ⟨index, ?_, linked⟩)
        (arrived.enter List.mem_cons_self)
      exact List.mem_cons_self

/-- **Every object that is entered has a hint,** and hints come from the root or from links of what
is entered. -/
theorem ofGraph_noted (graph : ShapeGraph) (rootName : String) :
    (ofGraph graph rootName).Noted graph rootName :=
  foldl_visit_noted (visit_noted _) _ (fun _ member => .inl member) ⟨by simp, by simp⟩

theorem mem_hints_foldl {fuel : Nat}
    (one : ∀ walk entry, ∀ noted ∈ walk.hints, noted ∈ (visit graph fuel walk entry).hints)
    (entries : List (Nat × Hint)) {noted : Nat × Hint} (member : noted ∈ walk.hints) :
    noted ∈ (entries.foldl (visit graph fuel) walk).hints := by
  induction entries generalizing walk with
  | nil => exact member
  | cons entry rest step => exact step (one walk entry noted member)

theorem mem_hints_visit_of_mem (fuel : Nat) (walk : Walk) (entry : Nat × Hint) :
    ∀ noted ∈ walk.hints, noted ∈ (visit graph fuel walk entry).hints := by
  induction fuel generalizing walk entry with
  | zero => exact fun _ member => member
  | succ fuel step =>
    intro noted member
    unfold visit
    split
    · exact List.mem_cons_of_mem _ member
    · exact mem_hints_foldl step _ (List.mem_cons_of_mem _ member)

theorem mem_hints_visit_self (fuel : Nat) (walk : Walk) (entry : Nat × Hint) :
    entry ∈ (visit graph (fuel + 1) walk entry).hints := by
  unfold visit
  split
  · exact List.mem_cons_self
  · exact mem_hints_foldl (mem_hints_visit_of_mem fuel) _ List.mem_cons_self

/-- **The object of the root is entered first, and the hint for the root goes to it.** -/
theorem exists_root (sound : graph.Sound) (rootName : String) :
    ∃ index, graph.IsRootObject index ∧ starts graph = [index] ∧
      (∃ rest, (ofGraph graph rootName).order = index :: rest) ∧
      ∃ hint, hint.tier = .root ∧ (index, hint) ∈ (ofGraph graph rootName).hints := by
  obtain ⟨index, element, isRoot, only⟩ := sound.exists_rootObject
  have starts : starts graph = [index] := by
    unfold starts
    rw [only]
    rfl
  refine ⟨index, isRoot, starts, ?_, { Hint.ofRoot rootName with element }, rfl, ?_⟩
  · rw [order_ofGraph, starts]
    exact Reach.explore_singleton index
  · unfold ofGraph ShapeGraph.hintsAt
    rw [only]
    exact mem_hints_visit_self graph.registry.capacity ⟨[], []⟩
      (index, { Hint.ofRoot rootName with element })

/-- A hint of the strongest tier is that for the root. -/
theorem Suggests.of_root {parents : List Nat}
    (suggests : Suggests graph rootName parents (index, hint)) (strongest : hint.tier = .root) :
    index ∈ starts graph ∧ hint.name = rootName := by
  rcases suggests with root | ⟨parent, _, linked⟩
  · obtain ⟨start, _, named⟩ := of_mem_hintsAt_root root
    exact ⟨start, named⟩
  · obtain ⟨_, field, _, _, _, _, rfl⟩ := ShapeGraph.mem_links_iff.mp linked
    exact absurd strongest (Hint.tier_ofField_ne_root graph.registry field)

/-! ### The best hint -/

theorem mem_hintsFor_iff : hint ∈ walk.hintsFor index ↔ (index, hint) ∈ walk.hints := by
  unfold hintsFor
  rw [List.mem_map]
  constructor
  · rintro ⟨⟨place, own⟩, member, rfl⟩
    obtain ⟨inside, same⟩ := List.mem_filter.mp (List.mem_reverse.mp member)
    rw [← of_decide_eq_true same]
    exact inside
  · intro member
    refine ⟨(index, hint), List.mem_reverse.mpr (List.mem_filter.mpr ⟨member, ?_⟩), rfl⟩
    exact decide_eq_true rfl

theorem mem_hints_of_best? (best : walk.best? index = some hint) : (index, hint) ∈ walk.hints := by
  obtain ⟨tier, _, found⟩ := List.exists_of_findSome?_eq_some best
  exact mem_hintsFor_iff.mp (List.mem_of_find?_eq_some found)

theorem isSome_best? (noted : (index, hint) ∈ walk.hints) : (walk.best? index).isSome := by
  unfold best?
  rw [List.findSome?_isSome_iff]
  refine ⟨hint.tier, by cases hint.tier <;> decide, ?_⟩
  rw [List.find?_isSome]
  exact ⟨hint, mem_hintsFor_iff.mpr noted, decide_eq_true rfl⟩

/-- A hint for the root is the best one. -/
theorem tier_best? (noted : (index, hint) ∈ walk.hints) (strongest : hint.tier = .root)
    {best : Hint} (found : walk.best? index = some best) : best.tier = .root := by
  have first : ((walk.hintsFor index).find? (·.tier = .root)).isSome := by
    rw [List.find?_isSome]
    exact ⟨hint, mem_hintsFor_iff.mpr noted, decide_eq_true strongest⟩
  obtain ⟨root, here⟩ := Option.isSome_iff_exists.mp first
  unfold best? Tier.all at found
  dsimp only at found
  rw [List.findSome?_cons, here] at found
  obtain rfl := Option.some.inj found
  have passes := List.find?_some here
  exact of_decide_eq_true passes

end Walk

end SampleShapes
