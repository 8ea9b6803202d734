/-
**Declarations under other nodes.**

Nodes do not show in declarations. If the same objects have the same names under other nodes, shapes
have the same types, so that fields are resolved alike, one after the other, and the declarations of
both graphs are the same.

* `Naming.Relocates.typeOf_rename`: **shapes have the same types;**
* `Naming.Relocates.fieldType_rename`, `fields_rename`: fields are resolved alike;
* `Naming.Relocates.declare_rename`: objects are declared alike;
* `ShapeGraph.Relocates.resolve_eq`: **graphs that are the same under other nodes have the same
  declarations.**
-/

import SampleShapes.Proofs.Naming.Relocating
import SampleShapes.Proofs.Resolution.Declarations

namespace SampleShapes

open Registry

namespace Naming.Relocates

variable {nodes : Nat ↪o Nat} {naming other : Naming} {registry copy : Registry} {id : ShapeId}

/-! ### Names -/

section Names

variable (named : naming.Relocates nodes other)
include named

theorem nameOf?_rename (index : Nat) : other.nameOf? (nodes index) = naming.nameOf? index := by
  have stands : (other.aliases.get? (nodes index)).getD (nodes index) =
      nodes ((naming.aliases.get? index).getD index) := by
    rw [named.aliases index]
    cases naming.aliases.get? index <;> rfl
  unfold nameOf?
  rw [stands, named.entries, Lists.lookup_map_fst nodes.injective]

theorem isDeclared_rename (name : String) : other.isDeclared name = naming.isDeclared name := by
  unfold isDeclared
  rw [named.entries, List.any_map]
  refine congrArg (List.any naming.entries) (funext fun entry => ?_)
  have same : nodes entry.1 ∈ other.synthesized ↔ entry.1 ∈ naming.synthesized := by
    rw [named.synthesized]
    exact List.mem_map_of_injective nodes.injective
  exact congrArg _ (decide_eq_decide.mpr same.not)

end Names

/-! ### Types -/

section Types

variable (named : naming.Relocates nodes other) (embeds : registry.Embeds nodes copy)
  (sound : registry.Sound)
include named embeds sound

/-- **Shapes have the same types.** -/
theorem typeOf_rename (soundCopy : copy.Sound) (held : registry.Holds id) :
    other.typeOf copy (id.rename nodes) = naming.typeOf registry id := by
  refine sound.induct (fun _ => rfl) rfl (fun index shape kept step => ?_) held
  have found : registry.shape? (.node index) = some shape := kept
  have found' : copy.shape? (.node (nodes index)) = some (shape.rename nodes) :=
    embeds index shape kept
  have children : ∀ child ∈ shape.children,
      other.typeOf copy (child.rename nodes) = naming.typeOf registry child :=
    fun child member => step child member (sound.child found member).1
  rw [ShapeId.rename_node]
  cases shape with
  | object fields =>
    have object := Option.isSome_of_eq_some (fields?_eq_some_iff.mpr found)
    have object' := Option.isSome_of_eq_some (fields?_eq_some_iff.mpr found')
    rw [typeOf_of_fields? object, typeOf_of_fields? object', named.nameOf?_rename]
  | list elements =>
    rw [typeOf_of_elements? sound (elements?_eq_some_iff.mpr found),
      typeOf_of_elements? soundCopy (elements?_eq_some_iff.mpr found'),
      IdSet.toList_rename, List.map_map]
    refine congrArg (fun types => TypeRef.array (.ofArms types)) ?_
    exact List.map_congr_left fun child member =>
      congrArg TypeRef.ofElement (children child member)
  | union members =>
    rw [typeOf_of_members? sound (members?_eq_some_iff.mpr found),
      typeOf_of_members? soundCopy (members?_eq_some_iff.mpr found'),
      IdSet.toList_rename, List.map_map]
    exact congrArg TypeRef.ofArms (List.map_congr_left children)

omit named sound in
theorem boundType_rename (held : registry.Holds id) (target : String) :
    copy.boundType (id.rename nodes) target = registry.boundType id target := by
  unfold boundType
  rw [embeds.elements?_rename held, Option.isSome_map]
  simp only [ShapeId.rename_eq_null_iff]

/-! ### Fields -/

variable (soundCopy : copy.Sound)
include soundCopy

/-- **Fields have the same types.** -/
theorem fieldType_rename (policy : ReferencePolicy) (raw : String) {field : Field}
    (held : registry.Holds field.shape) :
    other.fieldType copy policy raw (field.rename nodes) =
      naming.fieldType registry policy raw field := by
  unfold fieldType
  simp only [Field.key_rename, Field.shape_rename, named.typeOf_rename embeds sound soundCopy held,
    embeds.isPlaceholder_rename sound held, boundType_rename embeds held, named.isDeclared_rename]

variable (policy : ReferencePolicy)

theorem field_rename (name : String) (keys : List String) (findings : Findings) (raw : String)
    {field : Field} (held : registry.Holds field.shape) :
    Declaring.field ⟨other, copy, policy, name, keys⟩ findings raw (field.rename nodes) =
      Declaring.field ⟨naming, registry, policy, name, keys⟩ findings raw field := by
  unfold Declaring.field
  dsimp only
  rw [named.fieldType_rename embeds sound soundCopy policy raw held]
  rfl

/-- **Fields are resolved alike,** one after the other. -/
theorem fields_rename (name : String) (keys : List String) (findings : Findings)
    {entries : List (String × Field)} (held : ∀ entry ∈ entries, registry.Holds entry.2.shape) :
    Declaring.fields ⟨other, copy, policy, name, keys⟩ findings
        (entries.map fun entry => (entry.1, entry.2.rename nodes)) =
      Declaring.fields ⟨naming, registry, policy, name, keys⟩ findings entries := by
  induction entries generalizing findings with
  | nil => rfl
  | cons entry rest step =>
    obtain ⟨raw, field⟩ := entry
    rw [List.forall_mem_cons] at held
    rw [List.map_cons, Declaring.fields, Declaring.fields,
      named.field_rename embeds sound soundCopy policy name keys findings raw held.1]
    refine congrArg _ (funext fun result => ?_)
    obtain ⟨one, middle⟩ := result
    dsimp only
    rw [step middle held.2]

/-! ### Declarations -/

/-- **Objects are declared alike.** -/
theorem declare_rename (findings : Findings) {entries : List (Nat × String)}
    (objects : ∀ entry ∈ entries, (registry.fields? (.node entry.1)).isSome) :
    other.declare copy policy findings
        (entries.map fun entry => (nodes entry.1, entry.2)) =
      naming.declare registry policy findings entries := by
  induction entries generalizing findings with
  | nil => rfl
  | cons entry rest step =>
    obtain ⟨index, name⟩ := entry
    rw [List.forall_mem_cons] at objects
    obtain ⟨fields, found⟩ := Option.isSome_iff_exists.mp objects.1
    have found' : copy.fields? (.node (nodes index)) = some (fields.map (Field.rename nodes)) := by
      rw [← ShapeId.rename_node, embeds.fields?_rename (holds_of_fields? objects.1), found]
      rfl
    have held : ∀ entry ∈ fields.entries, registry.Holds entry.2.shape :=
      fun entry member => (sound.field found (Table.get?_eq_some_iff.mpr member)).1
    have keys : (fields.map (Field.rename nodes)).values.map (·.key.name) =
        fields.values.map (·.key.name) := by
      rw [Table.values_map, List.map_map]
      rfl
    rw [List.map_cons, declare_of_fields? found, declare_of_fields? found', settingOf, settingOf,
      keys, Table.entries_map,
      named.fields_rename embeds sound soundCopy policy name _ findings held]
    refine congrArg _ (funext fun result => ?_)
    obtain ⟨one, middle⟩ := result
    dsimp only
    rw [step middle objects.2]

end Types

end Naming.Relocates

/-- **Graphs that are the same under other nodes have the same declarations.** -/
theorem ShapeGraph.Relocates.resolve_eq {nodes : Nat ↪o Nat} {graph copy : ShapeGraph}
    (relocates : graph.Relocates nodes copy) (rootName : String) (policy : ReferencePolicy) :
    copy.resolve (Naming.ofGraph copy rootName) policy =
      graph.resolve (Naming.ofGraph graph rootName) policy := by
  have named := Naming.ofGraph_relocates relocates rootName
  have objects : ∀ entry ∈ (Naming.ofGraph graph rootName).entries,
      (graph.registry.fields? (.node entry.1)).isSome := by
    intro entry member
    have entered : entry.1 ∈ (Walk.ofGraph graph rootName).order := by
      rw [← Naming.map_fst_entries_ofGraph]
      exact List.mem_map_of_mem member
    exact Walk.isObject_of_mem_order entered
  have declared := named.declare_rename relocates.kept relocates.sound.registry
    relocates.soundCopy.registry policy ⟨∅, (Naming.ofGraph graph rootName).warnings.reverse⟩
    objects
  have first : (Naming.ofGraph copy rootName).entries.head?.map Prod.snd =
      (Naming.ofGraph graph rootName).entries.head?.map Prod.snd := by
    rw [named.entries, List.head?_map, Option.map_map]
    rfl
  unfold resolve
  rw [first, named.entries, named.warnings, declared]

end SampleShapes
