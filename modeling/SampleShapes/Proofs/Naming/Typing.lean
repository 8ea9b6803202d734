/-
**What types mention.**

The type of a shape mentions names of objects only, and the name of every object in its position.
Neither the bound on the depth nor taking null out of a type changes what is mentioned.

* `mem_references_ofArms_iff`, `mem_references_collapseNull_iff`: what arms and null add;
* `typeOf_of_elements?`, `typeOf_of_members?`: the type of a list and of a union;
* `typeOf_of_fields?`: the type of an object is its name, or that of what it stands for;
* `isName_of_mem_references`: a type mentions names of objects;
* `mem_references_typeOf_iff`: **what a type mentions are the names of what lies in the position.**
-/

import SampleShapes.Proofs.Naming.Assignment
import SampleShapes.Proofs.Naming.Positions
import SampleShapes.Typing

namespace SampleShapes

/-! ### Mentions in types -/

namespace TypeRef

variable {name : String} {type : TypeRef} {arms : List TypeRef}

theorem mem_armReferences_iff :
    name ∈ armReferences arms ↔ ∃ arm ∈ arms, name ∈ arm.references := by
  induction arms with
  | nil => simp [armReferences]
  | cons arm rest step => simp [armReferences, step]

theorem mem_references_ofArms_iff :
    name ∈ (ofArms arms).references ↔ ∃ arm ∈ arms, name ∈ arm.references := by
  unfold ofArms
  split
  · simp [references]
  · simp
  · rw [references, mem_armReferences_iff]

@[simp] theorem references_ofElement (type : TypeRef) :
    type.ofElement.references = type.references := by
  unfold ofElement
  split
  · next isNull =>
    rw [isNull]
    rfl
  · rfl

/-- **Taking null out of a type leaves its mentions.** -/
theorem mem_references_collapseNull_iff :
    name ∈ type.collapseNull.1.references ↔ name ∈ type.references := by
  unfold collapseNull
  split
  · rfl
  · next arms =>
    split
    · rw [mem_references_ofArms_iff, references, mem_armReferences_iff]
      constructor
      · rintro ⟨arm, member, mentioned⟩
        exact ⟨arm, List.mem_of_mem_filter member, mentioned⟩
      · rintro ⟨arm, member, mentioned⟩
        refine ⟨arm, List.mem_filter.mpr ⟨member, decide_eq_true ?_⟩, mentioned⟩
        rintro rfl
        exact absurd mentioned List.not_mem_nil
    · rfl
  · rfl

end TypeRef

namespace Naming

open Registry

variable {naming : Naming} {registry : Registry} {id : ShapeId} {name : String}

/-! ### Types of shapes -/

/-- Levels beyond the index of a node add nothing. -/
theorem typeWithin_eq (sound : registry.Sound) (depth more : Nat) (enough : id.ceiling ≤ depth)
    (enough' : id.ceiling ≤ more) :
    naming.typeWithin registry depth id = naming.typeWithin registry more id := by
  induction depth generalizing id more with
  | zero =>
    cases id with
    | node index => exact absurd enough (Nat.not_succ_le_zero index)
    | primitive kind => rw [typeWithin, typeWithin]
    | date => rw [typeWithin, typeWithin]
  | succ depth step =>
    cases id with
    | primitive kind => rw [typeWithin, typeWithin]
    | date => rw [typeWithin, typeWithin]
    | node index =>
      obtain _ | more := more
      · exact absurd enough' (Nat.not_succ_le_zero index)
      change index + 1 ≤ depth + 1 at enough
      change index + 1 ≤ more + 1 at enough'
      -- Children lie further down, so that one level less is enough for them.
      have deeper : ∀ shape, registry.shapeAt? index = some shape → ∀ child ∈ shape.children,
          naming.typeWithin registry depth child = naming.typeWithin registry more child := by
        intro shape found child member
        have below := sound.descends index shape found child member
        exact step more (by omega) (by omega)
      unfold typeWithin
      cases found : registry.shapeAt? index with
      | none => rfl
      | some shape =>
        cases shape with
        | object fields => rfl
        | list elements =>
          have same : elements.toList.map
                (fun element => (naming.typeWithin registry depth element).ofElement) =
              elements.toList.map fun element =>
                (naming.typeWithin registry more element).ofElement :=
            List.map_congr_left fun element member =>
              congrArg TypeRef.ofElement (deeper _ found element member)
          dsimp only
          rw [same]
        | union members =>
          have same : members.toList.map (naming.typeWithin registry depth) =
              members.toList.map (naming.typeWithin registry more) :=
            List.map_congr_left fun member inside => deeper _ found member inside
          dsimp only
          rw [same]

/-- The type of an object is the name of what it stands for. -/
theorem typeOf_of_fields? {index : Nat} (object : (registry.fields? (.node index)).isSome) :
    naming.typeOf registry (.node index) =
      match naming.nameOf? index with
      | some name => .named name
      | none => .any := by
  obtain ⟨fields, found⟩ := Option.isSome_iff_exists.mp object
  have shape : registry.shapeAt? index = some (.object fields) := fields?_eq_some_iff.mp found
  cases named : naming.nameOf? index with
  | none => simp only [typeOf, ShapeId.ceiling, typeWithin, shape, named]
  | some name => simp only [typeOf, ShapeId.ceiling, typeWithin, shape, named]

section Sound

variable (sound : registry.Sound)
include sound

theorem typeOf_of_elements? {elements : IdSet} (found : registry.elements? id = some elements) :
    naming.typeOf registry id =
      .array (.ofArms (elements.toList.map fun element =>
        (naming.typeOf registry element).ofElement)) := by
  obtain ⟨index, rfl, shape⟩ := shape?_eq_some_iff.mp (elements?_eq_some_iff.mp found)
  have deeper : ∀ element ∈ elements.toList,
      (naming.typeWithin registry index element).ofElement =
        (naming.typeOf registry element).ofElement := fun element member =>
    have below := sound.descends index _ shape element member
    congrArg _ (typeWithin_eq sound _ _ below (Nat.le_refl _))
  show naming.typeWithin registry (index + 1) (.node index) = _
  rw [typeWithin, shape]
  dsimp only
  rw [List.map_congr_left deeper]

theorem typeOf_of_members? {members : IdSet} (found : registry.members? id = some members) :
    naming.typeOf registry id = .ofArms (members.toList.map (naming.typeOf registry)) := by
  obtain ⟨index, rfl, shape⟩ := shape?_eq_some_iff.mp (members?_eq_some_iff.mp found)
  have deeper : ∀ member ∈ members.toList, naming.typeWithin registry index member =
      naming.typeOf registry member := fun member inside =>
    typeWithin_eq sound _ _ (sound.descends index _ shape member inside) (Nat.le_refl _)
  show naming.typeWithin registry (index + 1) (.node index) = _
  rw [typeWithin, shape]
  dsimp only
  rw [List.map_congr_left deeper]

end Sound

/-! ### Names in types -/

/-- The name is given to some object. -/
def IsName (naming : Naming) (name : String) : Prop := name ∈ naming.entries.map Prod.snd

theorem isName_of_nameOf? {index : Nat} (found : naming.nameOf? index = some name) :
    naming.IsName name :=
  List.mem_map.mpr ⟨_, Lists.mem_of_lookup found, rfl⟩

theorem isName_of_mem_references_typeWithin {depth : Nat}
    (mentioned : name ∈ (naming.typeWithin registry depth id).references) : naming.IsName name := by
  induction depth generalizing id with
  | zero => cases id <;> (rw [typeWithin] at mentioned; exact absurd mentioned List.not_mem_nil)
  | succ depth step =>
    cases id with
    | primitive kind =>
      rw [typeWithin] at mentioned
      exact absurd mentioned List.not_mem_nil
    | date =>
      rw [typeWithin] at mentioned
      exact absurd mentioned List.not_mem_nil
    | node index =>
      rw [typeWithin] at mentioned
      split at mentioned
      · split at mentioned
        · next found =>
          rw [List.mem_singleton.mp mentioned]
          exact isName_of_nameOf? found
        · exact absurd mentioned List.not_mem_nil
      · rw [TypeRef.references, TypeRef.mem_references_ofArms_iff] at mentioned
        obtain ⟨_, member, mentioned⟩ := mentioned
        obtain ⟨element, _, rfl⟩ := List.mem_map.mp member
        rw [TypeRef.references_ofElement] at mentioned
        exact step mentioned
      · rw [TypeRef.mem_references_ofArms_iff] at mentioned
        obtain ⟨_, member, mentioned⟩ := mentioned
        obtain ⟨alternative, _, rfl⟩ := List.mem_map.mp member
        exact step mentioned
      · exact absurd mentioned List.not_mem_nil

/-- **A type mentions names of objects.** -/
theorem isName_of_mem_references (mentioned : name ∈ (naming.typeOf registry id).references) :
    naming.IsName name :=
  isName_of_mem_references_typeWithin mentioned

variable {graph : ShapeGraph} {rootName : String}

theorem Sound.nameOf?_eq_some_iff (naming_sound : naming.Sound graph rootName) {index : Nat} :
    naming.nameOf? index = some name ↔ (graph.canonicalNode index, name) ∈ naming.entries := by
  unfold nameOf?
  rw [naming_sound.aliases]
  exact Lists.lookup_eq_some_iff_mem naming_sound.once

/-- A type is searched for a name as the position is for an object that goes by it. -/
theorem searches_references (sound : registry.Sound) (naming : Naming) (name : String) :
    registry.Searches
      (fun (_ : Unit) (_ : Nat) position => name ∈ (naming.typeOf registry position).references)
      fun object => ∃ own, object = .node own ∧ naming.nameOf? own = some name where
  leaf _ _ position leaf := by
    cases position with
    | node index => cases leaf
    | primitive kind => exact List.not_mem_nil
    | date => exact List.not_mem_nil
  object _ _ position fields object := by
    obtain ⟨index, rfl, _⟩ := shape?_eq_some_iff.mp (fields?_eq_some_iff.mp object)
    simp only [typeOf_of_fields? (Option.isSome_of_eq_some object), ShapeId.node.injEq,
      exists_eq_left']
    cases naming.nameOf? index with
    | none => simp [TypeRef.references]
    | some called => simp [TypeRef.references, eq_comm]
  list _ _ position elements list := by
    refine ⟨(), ?_⟩
    rw [typeOf_of_elements? sound list, TypeRef.references, TypeRef.mem_references_ofArms_iff]
    simp [IdSet.mem_toList]
  union _ _ position members union := by
    refine ⟨(), ?_⟩
    rw [typeOf_of_members? sound union, TypeRef.mem_references_ofArms_iff]
    simp

/-- **A type mentions the names of what lies in the position,** and no others. -/
theorem mem_references_typeOf_iff (sound : registry.Sound) (held : registry.Holds id) :
    name ∈ (naming.typeOf registry id).references ↔
      ∃ own, registry.LiesIn (.node own) id ∧ naming.nameOf? own = some name := by
  rw [(searches_references sound naming name).iff_liesIn sound held () _ (Nat.le_refl id.ceiling)]
  constructor
  · rintro ⟨_, inside, own, rfl, called⟩
    exact ⟨own, inside, called⟩
  · rintro ⟨own, inside, called⟩
    exact ⟨_, inside, own, rfl, called⟩

/-- A type mentions the name of every object that the walk finds in the position. -/
theorem mem_references_of_mem_objectsAt (sound : graph.Sound) (named : naming.Sound graph rootName)
    {index : Nat} {under : Bool} (entry : (index, name) ∈ naming.entries)
    (held : graph.registry.Holds id)
    (member : (index, under) ∈ graph.objectsAt (graph.registry.capacity + 1) false id) :
    name ∈ (naming.typeOf graph.registry id).references := by
  obtain ⟨own, inside, rfl⟩ := (ShapeGraph.mem_objectsAt_capacity_iff sound held).mp ⟨under, member⟩
  exact (mem_references_typeOf_iff sound.registry held).mpr
    ⟨own, inside, named.nameOf?_eq_some_iff.mpr entry⟩

end Naming

end SampleShapes
