/-
**Shapes that look alike.**

Shapes are kept once each, but different shapes may have one type: objects that stand for the same
object have its name, a list of nothing and one of null say the same of their elements, and what is
built from such shapes in the same way cannot be told apart, either. These are the only shapes with
one type, as long as every object in them has a name.

* `Naming.hasType_typeOf`: the natural type of a shape, one level deep;
* `ShapeGraph.LooksAlike.typeOf_eq`: shapes that look alike have one type;
* `ShapeGraph.looksAlike_of_typeOf_eq`: and shapes with one type look alike;
* `ShapeGraph.looksAlike_iff`: **in fields of named objects one type means looking alike.**
-/

import SampleShapes.Proofs.Naming.Coverage
import SampleShapes.Proofs.Registry.NormalForm
import SampleShapes.Proofs.Resolution.Flatness

namespace SampleShapes

open Registry

variable {graph : ShapeGraph} {naming : Naming} {id other : ShapeId} {name : String}

/-! ### Looking alike -/

/-- Nothing is said of an element that is null, or that no value tells of. -/
def Registry.IsBare (registry : Registry) (id : ShapeId) : Prop :=
  id = .null ∨ registry.members? id = some ∅

/-- Two shapes cannot be told apart once objects go by names and null is no element. -/
inductive ShapeGraph.LooksAlike (graph : ShapeGraph) : ShapeId → ShapeId → Prop where
  /-- A shape looks like itself. -/
  | same (id : ShapeId) : LooksAlike graph id id
  /-- Objects look alike if they stand for one. -/
  | objects {id other : ShapeId} (object : (graph.registry.fields? id).isSome)
      (object' : (graph.registry.fields? other).isSome)
      (stand : graph.canonical id = graph.canonical other) : LooksAlike graph id other
  /-- Lists look alike if their elements do. -/
  | lists {id other element element' : ShapeId}
      (found : graph.registry.elements? id = some (.singleton element))
      (found' : graph.registry.elements? other = some (.singleton element'))
      (elements : LooksAlike graph element element') : LooksAlike graph id other
  /-- Lists look alike if nothing is said of their elements. -/
  | bareLists {id other element element' : ShapeId}
      (found : graph.registry.elements? id = some (.singleton element))
      (found' : graph.registry.elements? other = some (.singleton element'))
      (bare : graph.registry.IsBare element) (bare' : graph.registry.IsBare element') :
      LooksAlike graph id other
  /-- Unions look alike if their alternatives do, one by one. -/
  | unions {id other : ShapeId} {members members' : IdSet}
      (found : graph.registry.members? id = some members)
      (found' : graph.registry.members? other = some members')
      (alternatives : List.Forall₂ (LooksAlike graph) members.toList members'.toList) :
      LooksAlike graph id other

/-- The shape denotes nothing, so that nothing else looks like it. -/
theorem ShapeGraph.LooksAlike.eq_of_leaf (alike : graph.LooksAlike id other)
    (leaf : graph.registry.shape? id = none ∨ graph.registry.shape? other = none) : id = other := by
  have absurd : ∀ {shape shape'}, graph.registry.shape? id = some shape →
      graph.registry.shape? other = some shape' → id = other := by
    intro shape shape' found found'
    rcases leaf with none | none
    · cases none.symm.trans found
    · cases none.symm.trans found'
  cases alike with
  | same => rfl
  | objects object object' =>
    obtain ⟨_, found⟩ := Option.isSome_iff_exists.mp object
    obtain ⟨_, found'⟩ := Option.isSome_iff_exists.mp object'
    exact absurd (fields?_eq_some_iff.mp found) (fields?_eq_some_iff.mp found')
  | lists found found' | bareLists found found' =>
    exact absurd (elements?_eq_some_iff.mp found) (elements?_eq_some_iff.mp found')
  | unions found found' =>
    exact absurd (members?_eq_some_iff.mp found) (members?_eq_some_iff.mp found')

/-! ### Types, one level at a time -/

namespace Naming

/-- Every object that lies in the position has a name. -/
def Called (naming : Naming) (graph : ShapeGraph) (position : ShapeId) : Prop :=
  ∀ member, graph.registry.LiesIn (.node member) position →
    ∃ name, naming.nameOf? member = some name ∧ (graph.canonicalNode member, name) ∈ naming.entries

theorem Called.element (called : naming.Called graph id) {elements : IdSet} {element : ShapeId}
    (found : graph.registry.elements? id = some elements) (member : element ∈ elements) :
    naming.Called graph element :=
  fun place inside => called place (.element found member inside)

theorem Called.member (called : naming.Called graph id) {members : IdSet} {member : ShapeId}
    (found : graph.registry.members? id = some members) (inside : member ∈ members) :
    naming.Called graph member :=
  fun place lies => called place (.member found inside lies)

/-- What a shape is that has a type. -/
inductive HasType (naming : Naming) (graph : ShapeGraph) (id : ShapeId) : TypeRef → Prop where
  /-- A kind without structure has itself. -/
  | primitive {kind : Primitive} (isKind : id = .primitive kind) :
      HasType naming graph id (.primitive kind)
  | date (isDate : id = .date) : HasType naming graph id .date
  /-- An object has the name of what it stands for. -/
  | object {place : Nat} {name : String} (isNode : id = .node place)
      (object : (graph.registry.fields? id).isSome)
      (entry : (graph.canonicalNode place, name) ∈ naming.entries) :
      HasType naming graph id (.named name)
  /-- A list is an array. -/
  | list {element : ShapeId} (found : graph.registry.elements? id = some (.singleton element)) :
      HasType naming graph id (.array (naming.typeOf graph.registry element).ofElement)
  /-- The union of nothing says nothing. -/
  | nothing (found : graph.registry.members? id = some ∅) : HasType naming graph id .any
  /-- Any other union is one. -/
  | union {members : IdSet} (found : graph.registry.members? id = some members)
      (several : 2 ≤ members.toList.length) :
      HasType naming graph id (.union (members.toList.map (naming.typeOf graph.registry)))

/-- **The natural type of a shape,** one level deep. -/
theorem hasType_typeOf (sound : graph.registry.Sound) (normal : graph.registry.Normal)
    (called : naming.Called graph id) (held : graph.registry.Holds id) :
    naming.HasType graph id (naming.typeOf graph.registry id) := by
  cases id with
  | primitive kind =>
    rw [typeOf, typeWithin]
    exact .primitive rfl
  | date =>
    rw [typeOf, typeWithin]
    exact .date rfl
  | node index =>
    obtain ⟨shape, found⟩ := held
    have kept : graph.registry.shape? (.node index) = some shape := found
    cases shape with
    | object fields =>
      have object := fields?_eq_some_iff.mpr kept
      obtain ⟨name, named, entry⟩ := called index (.here object)
      have isSome := Option.isSome_of_eq_some object
      rw [typeOf_of_fields? isSome, named]
      exact .object rfl isSome entry
    | list elements =>
      have list := elements?_eq_some_iff.mpr kept
      obtain ⟨element, rfl⟩ := normal.singleton list
      rw [typeOf_of_elements? sound list]
      exact .list list
    | union members =>
      have union := members?_eq_some_iff.mpr kept
      rw [typeOf_of_members? sound union]
      rcases (normal.union union).empty_or_several with none | several
      · obtain rfl : members = ∅ := IdSet.isEmpty_iff.mp (List.isEmpty_iff.mpr none)
        exact .nothing union
      · rw [TypeRef.ofArms_eq_union (by rwa [List.length_map])]
        exact .union union several

namespace HasType

theorem of_named (hasType : naming.HasType graph id (.named name)) :
    ∃ place, id = .node place ∧ (graph.registry.fields? id).isSome ∧
      (graph.canonicalNode place, name) ∈ naming.entries := by
  cases hasType with
  | object isNode object entry => exact ⟨_, isNode, object, entry⟩

theorem of_array {type : TypeRef} (hasType : naming.HasType graph id (.array type)) :
    ∃ element, graph.registry.elements? id = some (.singleton element) ∧
      type = (naming.typeOf graph.registry element).ofElement := by
  cases hasType with
  | list found => exact ⟨_, found, rfl⟩

theorem of_union {arms : List TypeRef} (hasType : naming.HasType graph id (.union arms)) :
    ∃ members, graph.registry.members? id = some members ∧
      arms = members.toList.map (naming.typeOf graph.registry) := by
  cases hasType with
  | union found several => exact ⟨_, found, rfl⟩

/-- What is of a kind is that kind, or says nothing at all. -/
theorem of_primitive {kind : Primitive} (hasType : naming.HasType graph id (.primitive kind)) :
    id = .primitive kind ∨ kind = .any ∧ graph.registry.members? id = some ∅ := by
  cases hasType with
  | primitive isKind => exact .inl isKind
  | nothing found => exact .inr ⟨rfl, found⟩

theorem of_date (hasType : naming.HasType graph id .date) : id = .date := by
  cases hasType with
  | date isDate => exact isDate

end HasType

end Naming

/-! ### One type -/

/-- What is held rests on its children, whatever it is. -/
@[elab_as_elim]
theorem Registry.Sound.induct_children {registry : Registry} {motive : ShapeId → Prop}
    (sound : registry.Sound)
    (step : ∀ id, registry.Holds id → (∀ shape, registry.shape? id = some shape →
      ∀ child ∈ shape.children, motive child) → motive id)
    (held : registry.Holds id) : motive id := by
  refine sound.induct (fun kind => step _ trivial fun shape found => (by cases found))
    (step _ trivial fun shape found => (by cases found)) (fun index shape found below => ?_) held
  refine step _ ⟨shape, found⟩ fun kept here child member => ?_
  obtain rfl := Option.some.inj (found.symm.trans here)
  exact below child member ((sound.carries index shape found).holds child member)

namespace ShapeGraph

/-- An element of which nothing is said has the type that says nothing. -/
theorem ofElement_typeOf_of_isBare (sound : graph.registry.Sound)
    (bare : graph.registry.IsBare id) :
    (naming.typeOf graph.registry id).ofElement = .any := by
  rcases bare with rfl | nothing
  · rw [Naming.typeOf, Naming.typeWithin]
    rfl
  · rw [Naming.typeOf_of_members? sound nothing]
    rfl

/-- **Shapes that look alike have one type.** -/
theorem LooksAlike.typeOf_eq (sound : graph.registry.Sound)
    (aliases : naming.aliases = graph.aliases) (held : graph.registry.Holds id)
    (alike : graph.LooksAlike id other) :
    naming.typeOf graph.registry id = naming.typeOf graph.registry other := by
  suffices all : ∀ other, graph.LooksAlike id other →
      naming.typeOf graph.registry id = naming.typeOf graph.registry other from all other alike
  refine sound.induct_children (fun id held step other alike => ?_) held
  cases alike with
  | same => rfl
  | objects object object' stand =>
    obtain ⟨fields, found⟩ := Option.isSome_iff_exists.mp object
    obtain ⟨fields', found'⟩ := Option.isSome_iff_exists.mp object'
    obtain ⟨place, rfl, _⟩ := shape?_eq_some_iff.mp (fields?_eq_some_iff.mp found)
    obtain ⟨place', rfl, _⟩ := shape?_eq_some_iff.mp (fields?_eq_some_iff.mp found')
    have stand : graph.canonicalNode place = graph.canonicalNode place' := ShapeId.node.inj stand
    have called : naming.nameOf? place = naming.nameOf? place' := by
      unfold canonicalNode at stand
      unfold Naming.nameOf?
      rw [aliases, stand]
    rw [Naming.typeOf_of_fields? object, Naming.typeOf_of_fields? object', called]
  | @lists _ _ element element' found found' elements =>
    have same := step _ (elements?_eq_some_iff.mp found) element
      (List.mem_singleton_self element) element' elements
    rw [Naming.typeOf_of_elements? sound found, Naming.typeOf_of_elements? sound found']
    simp only [IdSet.singleton, List.map_cons, same]
  | bareLists found found' bare bare' =>
    rw [Naming.typeOf_of_elements? sound found, Naming.typeOf_of_elements? sound found']
    simp only [IdSet.singleton, List.map_cons, ofElement_typeOf_of_isBare sound bare,
      ofElement_typeOf_of_isBare sound bare']
  | @unions _ _ members members' found found' alternatives =>
    have below := step _ (members?_eq_some_iff.mp found)
    have same : members.toList.map (naming.typeOf graph.registry) =
        members'.toList.map (naming.typeOf graph.registry) := by
      refine Lists.map_eq_map_iff_forall₂.mpr (Lists.forall₂_imp_of_mem ?_ alternatives)
      exact fun member inside member' _ => below member inside member'
    rw [Naming.typeOf_of_members? sound found, Naming.typeOf_of_members? sound found', same]

/-! ### Positions -/

/-- The shape may stand in a field of what is named: it is held, it says something, and every object
that lies in it has a name. -/
structure Types (graph : ShapeGraph) (naming : Naming) (id : ShapeId) : Prop where
  held : graph.registry.Holds id
  definite : id ≠ .any
  called : naming.Called graph id

section Types

variable (sound : graph.registry.Sound) (definite : graph.registry.Definite)
  (types : graph.Types naming id)
include sound definite types

theorem Types.element {elements : IdSet} {element : ShapeId}
    (found : graph.registry.elements? id = some elements) (member : element ∈ elements) :
    graph.Types naming element :=
  ⟨(sound.element found member).1, definite id _ (elements?_eq_some_iff.mp found) element member,
    types.called.element found member⟩

theorem Types.member {members : IdSet} {member : ShapeId}
    (found : graph.registry.members? id = some members) (inside : member ∈ members) :
    graph.Types naming member :=
  ⟨(sound.member found inside).1, definite id _ (members?_eq_some_iff.mp found) member inside,
    types.called.member found inside⟩

end Types

section Normal

variable (sound : graph.registry.Sound) (normal : graph.registry.Normal)
include sound normal

theorem Types.hasType (types : graph.Types naming id) :
    naming.HasType graph id (naming.typeOf graph.registry id) :=
  Naming.hasType_typeOf sound normal types.called types.held

/-- **An element has the type that says nothing** exactly if nothing is said of it. -/
theorem Types.isBare_iff (types : graph.Types naming id) :
    (naming.typeOf graph.registry id).ofElement = .any ↔ graph.registry.IsBare id := by
  refine ⟨fun isAny => ?_, ofElement_typeOf_of_isBare sound⟩
  have hasType := types.hasType sound normal
  unfold TypeRef.ofElement at isAny
  split at isAny
  · next isNull =>
    rw [isNull] at hasType
    exact .inl (hasType.of_primitive.resolve_right fun ⟨absurd, _⟩ => (by cases absurd))
  · rw [isAny] at hasType
    exact .inr (hasType.of_primitive.resolve_left types.definite).2

/-- An element of which something is said keeps its type. -/
theorem Types.ofElement_eq (types : graph.Types naming id)
    (told : ¬ graph.registry.IsBare id) :
    (naming.typeOf graph.registry id).ofElement = naming.typeOf graph.registry id := by
  have told := mt (types.isBare_iff sound normal).mp told
  unfold TypeRef.ofElement at told ⊢
  split
  · next isNull => exact absurd (if_pos isNull) told
  · rfl

variable (definite : graph.registry.Definite) (distinct : (naming.entries.map Prod.snd).Nodup)
include definite distinct

/-- **Shapes with one type look alike,** where every object has a name of its own. -/
theorem looksAlike_of_typeOf_eq (types : graph.Types naming id)
    (types' : graph.Types naming other)
    (same : naming.typeOf graph.registry id = naming.typeOf graph.registry other) :
    graph.LooksAlike id other := by
  suffices all : ∀ other, graph.Types naming id → graph.Types naming other →
      naming.typeOf graph.registry id = naming.typeOf graph.registry other →
        graph.LooksAlike id other from all other types types' same
  refine sound.induct_children (fun id held step other types types' same => ?_) types.held
  have hasType := types.hasType sound normal
  have hasType' := types'.hasType sound normal
  rw [← same] at hasType'
  clear same
  generalize naming.typeOf graph.registry id = type at hasType hasType'
  cases hasType with
  | primitive isKind =>
    rcases hasType'.of_primitive with isKind' | ⟨rfl, _⟩
    · rw [isKind, isKind']
      exact .same _
    · exact absurd isKind types.definite
  | date isDate =>
    rw [isDate, hasType'.of_date]
    exact .same _
  | object isNode object entry =>
    obtain ⟨place', isNode', object', entry'⟩ := hasType'.of_named
    have stand := List.inj_on_of_nodup_map distinct entry entry' rfl
    refine .objects object object' ?_
    rw [isNode, isNode']
    exact congrArg ShapeId.node (Prod.mk.inj stand).1
  | @list element found =>
    obtain ⟨element', found', same⟩ := hasType'.of_array
    have inside := types.element sound definite found (List.mem_singleton_self element)
    have inside' := types'.element sound definite found' (List.mem_singleton_self element')
    by_cases bare : graph.registry.IsBare element
    · rw [(inside.isBare_iff sound normal).mpr bare, eq_comm,
        inside'.isBare_iff sound normal] at same
      exact .bareLists found found' bare same
    · have told : ¬ graph.registry.IsBare element' := by
        rwa [← inside'.isBare_iff sound normal, ← same, inside.isBare_iff sound normal]
      rw [inside.ofElement_eq sound normal bare, inside'.ofElement_eq sound normal told] at same
      exact .lists found found' (step _ (elements?_eq_some_iff.mp found) element
        (List.mem_singleton_self element) element' inside inside' same)
  | nothing found =>
    obtain ⟨_, found'⟩ := hasType'.of_primitive.resolve_left types'.definite
    rw [sound.toIndexed.eq_of_shape? (members?_eq_some_iff.mp found)
      (members?_eq_some_iff.mp found')]
    exact .same _
  | union found several =>
    obtain ⟨members', found', same⟩ := hasType'.of_union
    refine .unions found found' (Lists.forall₂_imp_of_mem (fun member inside member' inside' =>
      ?_) (Lists.map_eq_map_iff_forall₂.mp same))
    exact step _ (members?_eq_some_iff.mp found) member inside member'
      (types.member sound definite found inside) (types'.member sound definite found' inside')

end Normal

/-! ### The graph of a sample -/

variable {options : Options} {sample : Json} {rootName : String}

/-- **What stands in a field of a named object** has all of its objects named. -/
theorem types_of_infer (inferred : infer options sample = .ok graph) {entry : Nat × String}
    (member : entry ∈ (Naming.ofGraph graph rootName).entries) {fields : Table String Field}
    (found : graph.registry.fields? (.node entry.1) = some fields) {field : Field}
    (value : field ∈ fields.values) :
    graph.Types (Naming.ofGraph graph rootName) field.shape := by
  have object := fields?_eq_some_iff.mp found
  have child : field.shape ∈ (Shape.object fields).children := List.mem_map_of_mem value
  refine ⟨((represents_of_infer inferred).registry.child object child).1,
    (produced_of_infer inferred).definite _ _ object _ child, ?_⟩
  exact (Naming.covers_of_infer inferred rootName).called entry member fields found field value

/-- **Shapes in fields of named objects have one type exactly if they look alike.** -/
theorem looksAlike_iff (inferred : infer options sample = .ok graph)
    (types : graph.Types (Naming.ofGraph graph rootName) id)
    (types' : graph.Types (Naming.ofGraph graph rootName) other) :
    (Naming.ofGraph graph rootName).typeOf graph.registry id =
        (Naming.ofGraph graph rootName).typeOf graph.registry other ↔
      graph.LooksAlike id other := by
  have sound := (represents_of_infer inferred).toSound
  have produced := produced_of_infer inferred
  have named := Naming.ofGraph_sound sound rootName
  exact ⟨looksAlike_of_typeOf_eq sound.registry produced.normal produced.definite named.distinct
      types types',
    LooksAlike.typeOf_eq sound.registry named.aliases types.held⟩

end ShapeGraph

end SampleShapes
