/-
**What is named.**

A graph is read from its root along fields, lists and unions, every object being replaced by what it
stands for. The walk skips lists and unions, and yet enters exactly the objects that are read: what
lies in a position that is read was looked for in the field that the position belongs to.

The object of the root is higher than everything that is merged, so that no alias leads from it. It
is entered first and gets the name that it is given.

* `isRead_of_liesIn`: what stands for the objects of a position is read, if the position is;
* `exists_reaches_of_isRead`: the walk was in every position that is read;
* `reached_iff_isRead`: **the walk enters exactly the objects that are read**;
* `canonical_top`: the object of the root stands for itself;
* `Naming.covers_of_infer`: **every object that is read has one name of its own,** and no other node
  has one.
-/

import SampleShapes.Proofs.Binding
import SampleShapes.Proofs.Naming.Positions
import SampleShapes.Proofs.Naming.Typing
import SampleShapes.Proofs.Registry.Levels

namespace SampleShapes

namespace ShapeGraph

open Registry

variable {graph : ShapeGraph} {options : Options} {sample : Json} {index member : Nat}
  {position : ShapeId}

/-! ### What is read -/

/-- What a node that is read points at is read. -/
theorem IsRead.child (read : graph.IsRead index) {shape : Shape}
    (found : graph.registry.shapeAt? index = some shape) {below : Nat}
    (member : .node below ∈ shape.children) : graph.IsRead (graph.canonicalNode below) :=
  .step read (List.mem_map_of_mem (mem_childNodes_iff.mpr ⟨shape, found, member⟩))

/-- **What the objects of a position stand for is read,** if the position is. -/
theorem isRead_of_liesIn (sound : graph.Sound)
    (inside : graph.registry.LiesIn (.node member) position)
    (read : ∀ place, position = .node place → graph.IsRead (graph.canonicalNode place)) :
    graph.IsRead (graph.canonicalNode member) := by
  induction inside with
  | here => exact read member rfl
  | element found listed _ step =>
    obtain ⟨place, rfl, shape⟩ := shape?_eq_some_iff.mp (elements?_eq_some_iff.mp found)
    have itself := ShapeId.node.inj (sound.canonical_of_elements? found)
    have here := read place rfl
    rw [itself] at here
    exact step fun below same => here.child shape (same ▸ listed)
  | member found listed _ step =>
    obtain ⟨place, rfl, shape⟩ := shape?_eq_some_iff.mp (members?_eq_some_iff.mp found)
    have itself := ShapeId.node.inj (sound.canonical_of_members? found)
    have here := read place rfl
    rw [itself] at here
    exact step fun below same => here.child shape (same ▸ listed)

/-- A node that stands for a list or a union stands for itself. -/
theorem Sound.canonicalNode_eq_self (sound : graph.Sound) {place : Nat}
    (held : graph.registry.Holds (.node place)) {shape : Shape}
    (found : graph.registry.shapeAt? (graph.canonicalNode place) = some shape)
    (notObject : ∀ fields, shape ≠ .object fields) : graph.canonicalNode place = place := by
  cases object : graph.registry.fields? (.node place) with
  | none => exact ShapeId.node.inj (sound.canonical_of_not_object held object)
  | some fields =>
    obtain ⟨index, same, object⟩ := sound.canonical_of_fields? (Option.isSome_of_eq_some object)
    obtain ⟨others, object⟩ := Option.isSome_iff_exists.mp object
    rw [← same] at object
    exact absurd (Option.some.inj (found.symm.trans (fields?_eq_some_iff.mp object)))
      (notObject others)

/-- The walk comes to what the objects stand for that lie in the position. -/
def Reaches (graph : ShapeGraph) (position : ShapeId) : Prop :=
  ∀ member, graph.registry.LiesIn (.node member) position →
    Reach.Reached (Walk.successors graph) (Walk.starts graph) (graph.canonicalNode member)

/-- An object that a node stands for is come to from the position of the node. -/
theorem Reaches.reached (sound : graph.Sound) {place : Nat}
    (reaches : graph.Reaches (.node place)) (held : graph.registry.Holds (.node place))
    (object : (graph.registry.fields? (.node (graph.canonicalNode place))).isSome) :
    Reach.Reached (Walk.successors graph) (Walk.starts graph) (graph.canonicalNode place) := by
  cases found : graph.registry.fields? (.node place) with
  | some fields => exact reaches place (.here found)
  | none =>
    rw [ShapeId.node.inj (sound.canonical_of_not_object held found), found] at object
    cases object

/-- **What is read is what some node stands for whose position the walk was in.** -/
theorem exists_reaches_of_isRead (sound : graph.Sound) (read : graph.IsRead index) :
    ∃ place, graph.canonicalNode place = index ∧ graph.registry.Holds (.node place) ∧
      graph.Reaches (.node place) := by
  induction read with
  | start member =>
    obtain ⟨place, isNode, rfl⟩ := Option.map_eq_some_iff.mp (Option.mem_toList.mp member)
    have root : graph.root = .node place := node_of_index? isNode
    refine ⟨place, rfl, root ▸ sound.root.holds, fun member inside => .start ?_⟩
    exact (mem_starts_iff sound).mpr ⟨member, root ▸ inside, rfl⟩
  | step _ next before =>
    obtain ⟨place, rfl, held, reaches⟩ := before
    obtain ⟨below, points, rfl⟩ := List.mem_map.mp next
    obtain ⟨shape, found, listed⟩ := mem_childNodes_iff.mp points
    refine ⟨below, rfl, (sound.registry.carries _ shape found).holds _ listed, ?_⟩
    intro member inside
    -- Objects are come to themselves; lists and unions stand for themselves and pass on what
    -- lies in them.
    cases shape with
    | object fields =>
      have object : graph.registry.fields? (.node (graph.canonicalNode place)) = some fields :=
        fields?_eq_some_iff.mpr found
      obtain ⟨field, value, position⟩ := List.mem_map.mp listed
      refine .step (reaches.reached sound held (Option.isSome_of_eq_some object)) ?_
      exact (mem_successors_iff sound).mpr
        ⟨fields, field, member, object, value, position ▸ inside, rfl⟩
    | list elements =>
      have list : graph.registry.elements? (.node (graph.canonicalNode place)) = some elements :=
        elements?_eq_some_iff.mpr found
      rw [sound.canonicalNode_eq_self held found fun fields same => (by cases same)] at list
      exact reaches member (.element list listed inside)
    | union members =>
      have union : graph.registry.members? (.node (graph.canonicalNode place)) = some members :=
        members?_eq_some_iff.mpr found
      rw [sound.canonicalNode_eq_self held found fun fields same => (by cases same)] at union
      exact reaches member (.member union listed inside)

/-- **The walk enters exactly the objects that are read.** -/
theorem reached_iff_isRead (sound : graph.Sound) :
    Reach.Reached (Walk.successors graph) (Walk.starts graph) index ↔
      graph.IsRead index ∧ (graph.registry.fields? (.node index)).isSome := by
  constructor
  · intro reached
    induction reached with
    | start start =>
      obtain ⟨member, inside, rfl⟩ := (mem_starts_iff sound).mp start
      refine ⟨isRead_of_liesIn sound inside fun place root => .start ?_, ?_⟩
      · unfold readStarts
        rw [root]
        exact List.mem_singleton_self _
      · exact sound.isSome_fields?_canonicalNode inside.isSome_fields?
    | step _ leads before =>
      obtain ⟨fields, field, member, object, value, inside, rfl⟩ :=
        (mem_successors_iff sound).mp leads
      refine ⟨isRead_of_liesIn sound inside fun place position => ?_, ?_⟩
      · exact before.1.child (fields?_eq_some_iff.mp object)
          (position ▸ List.mem_map_of_mem value)
      · exact sound.isSome_fields?_canonicalNode inside.isSome_fields?
  · rintro ⟨read, object⟩
    obtain ⟨place, rfl, held, reaches⟩ := exists_reaches_of_isRead sound read
    exact reaches.reached sound held object

end ShapeGraph

/-! ### The object of the root -/

namespace Registry

variable {registry later : Registry} {root top other : ShapeId}

/-- The object of a root: the root itself, or the one element of the list that the root is. -/
def IsTop (registry : Registry) (root top : ShapeId) : Prop :=
  (root = top ∨ registry.elements? root = some (.singleton top)) ∧ (registry.fields? top).isSome

instance (registry : Registry) (root top : ShapeId) : Decidable (registry.IsTop root top) :=
  inferInstanceAs (Decidable (_ ∧ _))

theorem IsTop.within (within : registry.Within later) (isTop : registry.IsTop root top) :
    later.IsTop root top :=
  ⟨isTop.1.imp_right within.elements?, within.isSome_fields? isTop.2⟩

theorem IsRoot.exists_top (isRoot : registry.IsRoot root) : ∃ top, registry.IsTop root top := by
  rcases isRoot with object | ⟨element, list, object⟩
  · exact ⟨root, .inl rfl, object⟩
  · exact ⟨element, .inr list, object⟩

/-- A root has one object. -/
theorem IsTop.unique (isTop : registry.IsTop root top) (isTop' : registry.IsTop root other) :
    top = other := by
  have apart : ∀ {element}, registry.elements? root = some (.singleton element) →
      ¬ (registry.fields? root).isSome := by
    intro element list object
    obtain ⟨fields, object⟩ := Option.isSome_iff_exists.mp object
    cases (elements?_eq_some_iff.mp list).symm.trans (fields?_eq_some_iff.mp object)
  obtain ⟨rfl | list, object⟩ := isTop <;> obtain ⟨rfl | list', object'⟩ := isTop'
  · rfl
  · exact absurd object (apart list')
  · exact absurd object' (apart list)
  · have same := congrArg IdSet.toList (Option.some.inj (list.symm.trans list'))
    exact List.singleton_inj.mp same

end Registry

namespace ShapeGraph

open Registry

variable {graph : ShapeGraph} {options : Options} {sample : Json}

/-- The object of the root is higher than everything that was merged. -/
theorem canonical_top_ofObserver {observer : Observer} {root top : ShapeId}
    (sound : observer.registry.Sound) (isRoot : observer.registry.IsRoot root)
    (isTop : (ofObserver root observer).registry.IsTop root top) :
    (ofObserver root observer).canonical top = top := by
  obtain ⟨_, grows, _⟩ := unifyTargets_sound sound root
  -- The root has the same object from observation on.
  obtain ⟨other, here⟩ := isRoot.exists_top
  have left : (observer.registry.unifyTargets root).2.IsTop root top :=
    isTop.within (within_prune _ _)
  obtain rfl := left.unique (here.within grows.within)
  obtain ⟨fields, object⟩ := Option.isSome_iff_exists.mp here.2
  obtain ⟨limit, high, least⟩ := sound.exists_least_height object
  have tops : observer.registry.Tops limit root := by
    rcases here.1 with rfl | list
    · exact .inl high
    · exact .inr ⟨top, list, high⟩
  rcases (ofObserver root observer).canonical_cases top with
    same | ⟨member, index, rfl, leads, _⟩
  · exact same
  · have low := (unifyTargets_low sound isRoot.holds tops leads).1
    exact absurd ((noHigher_grow_iff sound grows (holds_of_fields? here.2)).mp low) least

/-- **The object of the root stands for itself,** because nothing that was merged is as high. -/
theorem canonical_top (inferred : infer options sample = .ok graph) {top : ShapeId}
    (isTop : graph.registry.IsTop graph.root top) : graph.canonical top = top := by
  obtain ⟨accepted, root, observed, rfl⟩ := infer_eq_ok_iff.mp inferred
  have sees := Observer.observe_sees Observer.sound_empty observed
  exact canonical_top_ofObserver
    (Observer.observe_sound Observer.sound_empty options sample).registry (sees.root accepted) isTop

theorem isTop_of_isRootObject (inferred : infer options sample = .ok graph) {index : Nat}
    (isRoot : graph.IsRootObject index) : graph.registry.IsTop graph.root (.node index) := by
  obtain ⟨top, root, object, same⟩ := isRoot
  have isTop : graph.registry.IsTop graph.root top := ⟨root, object⟩
  rw [canonical_top inferred isTop] at same
  exact same ▸ isTop

end ShapeGraph

/-! ### The naming of a graph -/

namespace Naming

open ShapeGraph

variable {graph : ShapeGraph} {options : Options} {sample : Json}

/-- The naming covers the objects of the graph. -/
structure Covers (naming : Naming) (graph : ShapeGraph) (rootName : String) : Prop where
  /-- No node is named twice. -/
  once : (naming.entries.map Prod.fst).Nodup
  /-- What is named are the objects that are read. -/
  named : ∀ index, index ∈ naming.entries.map Prod.fst ↔
    graph.IsRead index ∧ (graph.registry.fields? (.node index)).isSome
  /-- No name is given twice. -/
  distinct : (naming.entries.map Prod.snd).Nodup
  /-- The object of the root comes first, with the name that it is given. -/
  root : ∃ index rest, graph.registry.IsTop graph.root (.node index) ∧
    naming.entries = (index, rootName) :: rest
  /-- An object in a field of what is named goes by the name of what it stands for. -/
  called : ∀ entry ∈ naming.entries, ∀ fields,
    graph.registry.fields? (.node entry.1) = some fields → ∀ field ∈ fields.values, ∀ member,
      graph.registry.LiesIn (.node member) field.shape →
        ∃ name, naming.nameOf? member = some name ∧
          (graph.canonicalNode member, name) ∈ naming.entries

/-- **Every object that is read has one name of its own,** and no other node has one. -/
theorem covers_of_infer (inferred : infer options sample = .ok graph) (rootName : String) :
    (ofGraph graph rootName).Covers graph rootName := by
  have sound := (represents_of_infer inferred).toSound
  have named := ofGraph_sound sound rootName
  refine ⟨named.once, fun index => ?_, named.distinct, ?_, ?_⟩
  · rw [named.named, reached_iff_isRead sound]
  · obtain ⟨index, rest, isRoot, _, entries⟩ := named.root
    exact ⟨index, rest, isTop_of_isRootObject inferred isRoot, entries⟩
  · intro entry member fields object field value place inside
    have reached := (named.named entry.1).mp (List.mem_map_of_mem member)
    have next := (named.named (graph.canonicalNode place)).mpr <|
      .step reached <| (mem_successors_iff sound).mpr
        ⟨fields, field, place, object, value, inside, rfl⟩
    obtain ⟨⟨_, name⟩, here, rfl⟩ := List.mem_map.mp next
    exact ⟨name, named.nameOf?_eq_some_iff.mpr here, here⟩

/-- Two objects under one target, of which the second lies in a list, have one name. -/
theorem covers_of_two_references :
    ∃ graph, infer {} (.array [.object [("a[T]", .object [("x", .null)]),
        ("b[T]", .array [.object [("y", .object [])]])]]) = .ok graph ∧
      (ofGraph graph "Root").Covers graph "Root" ∧
      (ofGraph graph "Root").entries = [(4, "Root"), (6, "T"), (1, "Y")] := by
  obtain ⟨graph, inferred, entries⟩ : ∃ graph,
      infer {} (.array [.object [("a[T]", .object [("x", .null)]),
        ("b[T]", .array [.object [("y", .object [])]])]]) = .ok graph ∧
      (ofGraph graph "Root").entries = [(4, "Root"), (6, "T"), (1, "Y")] :=
    exists_of_decided (by decide +kernel)
  exact ⟨graph, inferred, covers_of_infer inferred "Root", entries⟩

end Naming

end SampleShapes
