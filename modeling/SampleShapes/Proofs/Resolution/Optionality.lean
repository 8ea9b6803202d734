/-
**Optional fields.**

A field is declared optional if some object goes without it or if its type holds null, which is
taken out of it. The natural type holds null exactly if the shape is null or a union with null in
it. The type of a field that is bound to its target does not come from the shape: it is made
nullable if the shape is null, but not if null is only one of its alternatives. So what makes fields
optional is null, except for one that a bound field has among other values.

* `TypeRef.collapseNull_snd_iff`: the types that hold null;
* `Naming.nullable_typeOf_iff`: **the natural type holds null if the shape does**;
* `Registry.nullable_boundType_iff`: the type of a bound field does so if its shape is null;
* `Resolution.optional_iff`: **when a declared field is optional**;
* `Resolution.exists_null_lost`: **and that null may be lost.**
-/

import SampleShapes.Proofs.Registry.Lasting
import SampleShapes.Proofs.Resolution.Closedness

namespace SampleShapes

/-- What is inferred arises from one observation. -/
theorem ShapeGraph.produced_of_infer {options : Options} {sample : Json} {graph : ShapeGraph}
    (inferred : infer options sample = .ok graph) : Registry.Produced options graph.registry := by
  obtain ⟨_, root, _, rfl⟩ := infer_eq_ok_iff.mp inferred
  have observed : Registry.Produced options (Observer.after options [sample]).registry :=
    .observed [sample]
  exact (observed.unified root).pruned _

/-! ### Null in types -/

namespace TypeRef

variable {type : TypeRef} {arms : List TypeRef}

/-- **The types that hold null.** -/
theorem collapseNull_snd_iff :
    type.collapseNull.2 = true ↔ type = .null ∨ ∃ arms, type = .union arms ∧ .null ∈ arms := by
  unfold collapseNull
  split
  · exact ⟨fun _ => .inl rfl, fun _ => rfl⟩
  · next arms =>
    split
    · next member => exact ⟨fun _ => .inr ⟨arms, rfl, member⟩, fun _ => rfl⟩
    · next absent =>
      refine ⟨nofun, ?_⟩
      rintro (same | ⟨_, same, member⟩)
      · cases same
      · cases same
        exact absurd member absent
  · next notNull notUnion =>
    refine ⟨nofun, ?_⟩
    rintro (same | ⟨others, same, _⟩)
    · exact absurd same notNull
    · exact absurd same (notUnion others)

theorem ofArms_eq_union (several : 2 ≤ arms.length) : ofArms arms = .union arms := by
  match arms with
  | [] => exact absurd several (by simp)
  | [arm] => exact absurd several (by simp)
  | first :: second :: rest => rfl

end TypeRef

/-! ### Null in shapes -/

namespace Registry

variable {registry : Registry} {id : ShapeId} {members : IdSet}

/-- The shape is a union that has null among its members. -/
def HasNull (registry : Registry) (id : ShapeId) : Prop :=
  ∃ members, registry.members? id = some members ∧ .null ∈ members

/-- Some object goes without the field, or its value may be null. -/
def MayLack (registry : Registry) (field : Field) : Prop :=
  field.optional = true ∨ field.shape = .null ∨ registry.HasNull field.shape

instance : Decidable (registry.HasNull id) :=
  inferInstanceAs (Decidable (∃ members ∈ registry.members? id, _))

/-- The type of a bound field is nullable if its shape is null. -/
theorem nullable_boundType_iff {target : String} :
    (registry.boundType id target).collapseNull.2 = true ↔ id = .null := by
  unfold boundType
  split
  · next list =>
    obtain ⟨elements, found⟩ := Option.isSome_iff_exists.mp list
    have solid : id ≠ .null := ne_primitive_of_shape? (elements?_eq_some_iff.mp found)
    exact ⟨nofun, fun isNull => absurd isNull solid⟩
  · split
    · next isNull => exact ⟨fun _ => isNull, fun _ => rfl⟩
    · next solid => exact ⟨nofun, fun isNull => absurd isNull solid⟩

end Registry

namespace Naming

open Registry

variable {naming : Naming} {registry : Registry} {id : ShapeId}

/-- The type of what is no union holds null if it is null. -/
theorem nullable_typeOf_iff_of_flat (notUnion : registry.members? id = none) :
    (naming.typeOf registry id).collapseNull.2 = true ↔ id = .null := by
  cases id with
  | primitive kind => cases kind <;> (rw [typeOf, typeWithin]; decide)
  | date =>
    rw [typeOf, typeWithin]
    decide
  | node index =>
    have noNull :
        (naming.typeWithin registry (index + 1) (.node index)).collapseNull.2 = false := by
      rw [typeWithin]
      split
      · split <;> rfl
      · rfl
      · next members found => cases notUnion.symm.trans (members?_eq_some_iff.mpr found)
      · rfl
    exact ⟨fun holds => (by cases noNull.symm.trans holds), fun isNull => (by cases isNull)⟩

theorem typeOf_eq_null_iff_of_flat (notUnion : registry.members? id = none) :
    naming.typeOf registry id = .null ↔ id = .null := by
  constructor
  · intro isNull
    have holds : (naming.typeOf registry id).collapseNull.2 = true := by
      rw [isNull]
      rfl
    exact (nullable_typeOf_iff_of_flat notUnion).mp holds
  · rintro rfl
    rw [typeOf, typeWithin]

section Normal

variable (sound : registry.Sound) (normal : registry.Normal)
include sound normal

/-- **The natural type holds null if the shape does.** -/
theorem nullable_typeOf_iff :
    (naming.typeOf registry id).collapseNull.2 = true ↔ id = .null ∨ registry.HasNull id := by
  cases found : registry.members? id with
  | none =>
    rw [nullable_typeOf_iff_of_flat found]
    refine ⟨.inl, fun holds => holds.resolve_right ?_⟩
    rintro ⟨members, found', _⟩
    cases found.symm.trans found'
  | some members =>
    have solid : id ≠ .null := ne_primitive_of_shape? (members?_eq_some_iff.mp found)
    have flat := (normal.union found).flat
    have among : .null ∈ members ↔ registry.HasNull id := by
      refine ⟨fun member => ⟨members, found, member⟩, ?_⟩
      rintro ⟨others, found', member⟩
      rwa [Option.some.inj (found.symm.trans found')]
    rw [or_iff_right solid, ← among, typeOf_of_members? sound found]
    rcases (normal.union found).empty_or_several with none | several
    · rw [← IdSet.mem_toList, none]
      exact ⟨nofun, nofun⟩
    · -- The alternatives are no unions themselves, so that only null has the type of null.
      rw [TypeRef.ofArms_eq_union (by rwa [List.length_map]), TypeRef.collapseNull_snd_iff]
      constructor
      · rintro (isNull | ⟨arms, same, member⟩)
        · cases isNull
        · cases same
          obtain ⟨alternative, inside, isNull⟩ := List.mem_map.mp member
          rw [← (typeOf_eq_null_iff_of_flat (flat alternative inside)).mp isNull]
          exact inside
      · intro member
        exact .inr ⟨_, rfl, List.mem_map.mpr
          ⟨.null, member, (typeOf_eq_null_iff_of_flat (flat .null member)).mpr rfl⟩⟩

end Normal

end Naming

/-! ### Null in fields -/

/-- **When a declared field is optional.** -/
theorem Declaring.optional_iff_of_resolves {setting : Declaring} {warnings : List Warning}
    {entry : String × Field} {declared : DeclaredField} (sound : setting.registry.Sound)
    (normal : setting.registry.Normal) (resolves : setting.Resolves warnings entry declared) :
    declared.optional = true ↔ entry.2.optional = true ∨ entry.2.shape = .null ∨
      setting.registry.HasNull entry.2.shape ∧
        ∀ target, ¬ setting.naming.Binds setting.registry setting.policy entry.2 target := by
  obtain ⟨found, typed, rfl, _⟩ := resolves
  rw [Bool.or_eq_true_iff]
  refine or_congr_right ?_
  rcases Naming.fieldType_cases typed with ⟨natural, free⟩ | ⟨target, binds, bound, _⟩
  · rw [natural, Naming.nullable_typeOf_iff sound normal, and_iff_left free]
  · rw [bound, Registry.nullable_boundType_iff]
    exact ⟨.inl, fun holds => holds.resolve_right fun ⟨_, free⟩ => free target binds⟩

/-! ### Resolutions -/

namespace Resolution

variable {resolution : Resolution} {options : Options} {sample : Json} {graph : ShapeGraph}

/-- **A declared field is optional if some object goes without it or its value may be null,** unless
null is one of several alternatives and the field is bound. -/
theorem optional_iff (inferred : ShapeGraph.infer options sample = .ok graph)
    (declared : SampleShapes.declarations options sample = .ok resolution)
    {declaration : Declaration} (member : declaration ∈ resolution.declarations) :
    ∃ index fields,
      (index, declaration.name) ∈ (Naming.ofGraph graph options.rootName).entries ∧
      graph.registry.fields? (.node index) = some fields ∧
      List.Forall₂ (fun entry declared => declared.optional = true ↔
          entry.2.optional = true ∨ entry.2.shape = .null ∨
            graph.registry.HasNull entry.2.shape ∧
              ∀ target, ¬ (Naming.ofGraph graph options.rootName).Binds graph.registry
                options.references entry.2 target)
        fields.entries declaration.fields := by
  obtain ⟨_, all, findings, inferred', _, made⟩ := exists_run declared
  obtain rfl := Except.ok.inj (inferred.symm.trans inferred')
  obtain ⟨index, entry, _, fields, found, each⟩ := made.exists_declaredAs member
  have normal := (ShapeGraph.produced_of_infer inferred).normal
  exact ⟨index, fields, entry, found, each.imp fun _ _ resolves =>
    Declaring.optional_iff_of_resolves made.declares.sound.registry normal resolves⟩

/-- A field that is null in one of two objects and a text in the other. -/
theorem optional_iff_of_two_elements :
    ∃ graph resolution declaration index fields,
      ShapeGraph.infer {} (.array [.object [("a", .null)], .object [("a", .string "s")]]) =
        .ok graph ∧
      SampleShapes.declarations {} (.array [.object [("a", .null)], .object [("a", .string "s")]]) =
        .ok resolution ∧
      declaration ∈ resolution.declarations ∧
      declaration.fields.map DeclaredField.optional = [true] ∧
      (index, declaration.name) ∈ (Naming.ofGraph graph "RootObject").entries ∧
      graph.registry.fields? (.node index) = some fields ∧
      List.Forall₂ (fun entry declared => declared.optional = true ↔
          entry.2.optional = true ∨ entry.2.shape = .null ∨
            graph.registry.HasNull entry.2.shape ∧
              ∀ target, ¬ (Naming.ofGraph graph "RootObject").Binds graph.registry .drop
                entry.2 target)
        fields.entries declaration.fields := by
  have declared : SampleShapes.declarations {}
      (.array [.object [("a", .null)], .object [("a", .string "s")]]) = .ok
        { declarations := [⟨"RootObject", [⟨"a", .primitive .string, true, .plain⟩]⟩]
          parents := ∅
          warnings := [] } := by
    decide +kernel
  obtain ⟨graph, _, _, inferred, _⟩ := exists_run declared
  obtain ⟨index, fields, entry, found, optional⟩ :=
    optional_iff inferred declared List.mem_cons_self
  exact ⟨graph, _, _, index, fields, inferred, declared, List.mem_cons_self, rfl, entry, found,
    optional⟩

/-- **Null may be lost.** The value under `a` is null or a text, and it is bound to the declaration
that the object under `b` is named by: the field is declared as if there were no null. -/
theorem exists_null_lost :
    ∃ graph resolution declaration index fields,
      ShapeGraph.infer {} (.array
        [.object [("a[T]", .null), ("b[T]", .object [("x", .null)])],
          .object [("a[T]", .string "s"), ("b[T]", .object [("x", .null)])]]) = .ok graph ∧
      SampleShapes.declarations {} (.array
        [.object [("a[T]", .null), ("b[T]", .object [("x", .null)])],
          .object [("a[T]", .string "s"), ("b[T]", .object [("x", .null)])]]) = .ok resolution ∧
      declaration ∈ resolution.declarations ∧
      (index, declaration.name) ∈ (Naming.ofGraph graph "RootObject").entries ∧
      graph.registry.fields? (.node index) = some fields ∧
      ¬ List.Forall₂ (fun entry declared =>
          declared.optional = true ↔ graph.registry.MayLack entry.2)
        fields.entries declaration.fields := by
  have declared : SampleShapes.declarations {} (.array
      [.object [("a[T]", .null), ("b[T]", .object [("x", .null)])],
        .object [("a[T]", .string "s"), ("b[T]", .object [("x", .null)])]]) = .ok
        { declarations := [
            ⟨"RootObject", [⟨"a", .named "T", false, .reference⟩,
              ⟨"b", .named "T", false, .reference⟩]⟩,
            ⟨"T", [⟨"x", .any, true, .plain⟩]⟩]
          parents := ∅
          warnings := [] } := by
    decide +kernel
  have shaped : (ShapeGraph.infer {} (.array
      [.object [("a[T]", .null), ("b[T]", .object [("x", .null)])],
        .object [("a[T]", .string "s"), ("b[T]", .object [("x", .null)])]])).toOption.any
          (fun graph => (4, "RootObject") ∈ (Naming.ofGraph graph "RootObject").entries ∧
            ∃ fields ∈ graph.registry.fields? (.node 4),
              ∃ entry ∈ fields.entries.head?, graph.registry.HasNull entry.2.shape) = true := by
    decide +kernel
  obtain ⟨graph, _, _, inferred, _⟩ := exists_run declared
  rw [inferred] at shaped
  obtain ⟨entry, fields, found, first, front, null⟩ := of_decide_eq_true shaped
  refine ⟨graph, _, _, 4, fields, inferred, declared, List.mem_cons_self, entry, found, ?_⟩
  intro optional
  obtain ⟨rest, split⟩ := List.head?_eq_some_iff.mp front
  rw [split] at optional
  cases optional with
  | cons same _ => cases same.mpr (.inr (.inr null))

end Resolution

end SampleShapes
