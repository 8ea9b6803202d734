/-
**Flat types.**

Nothing flattens a type once it is made: a union is the type of a union of shapes, which merging
has flattened, and objects have the types of their names whatever they stand for. Where null is
taken out of a type, the arms that are left stay as they are, and one that is left alone is no
union. So every type that is declared is flat, and nothing in it says null but an arm further down.

* `TypeRef.everywhere_array`, `TypeRef.everywhere_union`: what holds everywhere in a type, one level
  at a time;
* `Naming.tidy_typeOf`: **the natural type of a shape is tidy everywhere**;
* `TypeRef.tidy_collapseNull`, `TypeRef.solid_collapseNull`: taking null out keeps a type tidy, and
  leaves no null on top;
* `Resolution.flat_of_declarations`: **every declared type is flat.**
-/

import SampleShapes.Proofs.Resolution.Optionality

namespace SampleShapes

/-! ### What stands in a type -/

namespace TypeRef

mutual

/-- Every type that stands in a type, at any depth, with the type itself first. -/
def parts : TypeRef → List TypeRef
  | primitive kind => [primitive kind]
  | date => [date]
  | named name => [named name]
  | array element => array element :: element.parts
  | union arms => union arms :: armParts arms

/-- Every type that stands in the arms of a union. -/
def armParts : List TypeRef → List TypeRef
  | [] => []
  | arm :: rest => arm.parts ++ armParts rest

end

variable {good : TypeRef → Prop} {type element arm : TypeRef} {arms : List TypeRef}

theorem mem_armParts_iff {part : TypeRef} :
    part ∈ armParts arms ↔ ∃ arm ∈ arms, part ∈ arm.parts := by
  induction arms with
  | nil => simp [armParts]
  | cons arm rest step => simp [armParts, step]

theorem mem_parts_self (type : TypeRef) : type ∈ type.parts := by
  cases type <;> exact List.mem_cons_self

/-- Everything that stands in the type is good. -/
def Everywhere (good : TypeRef → Prop) (type : TypeRef) : Prop := ∀ part ∈ type.parts, good part

theorem Everywhere.here (everywhere : type.Everywhere good) : good type :=
  everywhere type (mem_parts_self type)

/-- **Everything in a list** is the list, or in its element. -/
theorem everywhere_array :
    (array element).Everywhere good ↔ good (array element) ∧ element.Everywhere good :=
  List.forall_mem_cons

/-- **Everything in a union** is the union, or in an arm. -/
theorem everywhere_union :
    (union arms).Everywhere good ↔
      good (union arms) ∧ ∀ arm ∈ arms, arm.Everywhere good := by
  refine List.forall_mem_cons.trans (and_congr_right fun _ => ?_)
  simp only [mem_armParts_iff]
  exact ⟨fun all arm member part inside => all part ⟨arm, member, inside⟩,
    fun all part ⟨arm, member, inside⟩ => all arm member part inside⟩

/-! ### Tidy types -/

/-- The type is no union of fewer than two arms or of unions, and no list of nothing but null. -/
structure Tidy (type : TypeRef) : Prop where
  /-- A union has several arms. -/
  several : ∀ arms, type = union arms → 2 ≤ arms.length
  /-- None of them is a union. -/
  unnested : ∀ arms, type = union arms → ∀ arm ∈ arms, arm.isUnion = false
  /-- A list says more of its elements than that they are null. -/
  solidElement : type ≠ array null

/-- Neither the type nor an arm of it is null. -/
structure Solid (type : TypeRef) : Prop where
  /-- The type is not null. -/
  ne_null : type ≠ null
  /-- No arm is. -/
  arms : ∀ arms, type = union arms → null ∉ arms

theorem tidy_primitive (kind : Primitive) : (primitive kind).Everywhere Tidy := by
  intro part member
  obtain rfl := List.mem_singleton.mp member
  exact ⟨nofun, nofun, nofun⟩

theorem tidy_date : date.Everywhere Tidy := by
  intro part member
  obtain rfl := List.mem_singleton.mp member
  exact ⟨nofun, nofun, nofun⟩

theorem tidy_named (name : String) : (named name).Everywhere Tidy := by
  intro part member
  obtain rfl := List.mem_singleton.mp member
  exact ⟨nofun, nofun, nofun⟩

theorem tidy_array (solid : element ≠ null) (tidy : element.Everywhere Tidy) :
    (array element).Everywhere Tidy :=
  everywhere_array.mpr ⟨⟨nofun, nofun, fun same => solid (by injection same)⟩, tidy⟩

/-- **Arms that are tidy and no unions make a tidy type,** however many they are. -/
theorem tidy_ofArms (unnested : ∀ arm ∈ arms, arm.isUnion = false)
    (tidy : ∀ arm ∈ arms, arm.Everywhere Tidy) : (ofArms arms).Everywhere Tidy := by
  match arms with
  | [] => exact tidy_primitive .any
  | [arm] => exact tidy arm List.mem_cons_self
  | first :: second :: rest =>
    refine everywhere_union.mpr ⟨⟨?_, ?_, nofun⟩, tidy⟩
    · rintro _ ⟨⟩
      simp
    · rintro _ ⟨⟩
      exact unnested

/-- An element is never null. -/
theorem ofElement_ne_null (type : TypeRef) : type.ofElement ≠ null := by
  unfold ofElement
  split
  · decide
  · assumption

theorem tidy_ofElement (tidy : type.Everywhere Tidy) : type.ofElement.Everywhere Tidy := by
  unfold ofElement
  split
  · exact tidy_primitive .any
  · exact tidy

/-! ### Taking null out -/

/-- **Taking null out keeps a type tidy.** -/
theorem tidy_collapseNull (tidy : type.Everywhere Tidy) : type.collapseNull.1.Everywhere Tidy := by
  unfold collapseNull
  split
  · exact tidy_primitive .any
  · next arms =>
    split
    · refine tidy_ofArms (fun arm member => ?_) fun arm member => ?_
      · exact tidy.here.unnested arms rfl arm (List.mem_of_mem_filter member)
      · exact (everywhere_union.mp tidy).2 arm (List.mem_of_mem_filter member)
    · exact tidy
  · exact tidy

/-- Arms that are no unions and not null make a type without null on top. -/
theorem solid_ofArms (unnested : ∀ arm ∈ arms, arm.isUnion = false)
    (solid : ∀ arm ∈ arms, arm ≠ null) : (ofArms arms).Solid := by
  match arms with
  | [] => exact ⟨by decide, nofun⟩
  | [arm] =>
    refine ⟨solid arm List.mem_cons_self, fun others same => ?_⟩
    obtain rfl : arm = union others := same
    cases unnested (union others) List.mem_cons_self
  | first :: second :: rest =>
    refine ⟨nofun, ?_⟩
    rintro _ ⟨⟩ member
    exact solid null member rfl

/-- **Taking null out leaves none on top.** -/
theorem solid_collapseNull (tidy : type.Everywhere Tidy) : type.collapseNull.1.Solid := by
  unfold collapseNull
  split
  · exact ⟨by decide, nofun⟩
  · next arms =>
    split
    · refine solid_ofArms (fun arm member => ?_) fun arm member => ?_
      · exact tidy.here.unnested arms rfl arm (List.mem_of_mem_filter member)
      · exact of_decide_eq_true (List.mem_filter.mp member).2
    · next absent =>
      refine ⟨nofun, ?_⟩
      rintro _ ⟨⟩
      exact absent
  · next notNull notUnion => exact ⟨notNull, fun arms same => absurd same (notUnion arms)⟩

end TypeRef

/-! ### Types of shapes -/

namespace Naming

open Registry

variable {naming : Naming} {registry : Registry} {id : ShapeId}

/-- What is no union has no union for its type. -/
theorem isUnion_typeOf_of_flat (sound : registry.Sound) (held : registry.Holds id)
    (notUnion : registry.members? id = none) :
    (naming.typeOf registry id).isUnion = false := by
  cases id with
  | primitive kind => rw [typeOf, typeWithin]; rfl
  | date => rw [typeOf, typeWithin]; rfl
  | node index =>
    obtain ⟨shape, found⟩ := held
    have kept : registry.shape? (.node index) = some shape := found
    cases shape with
    | object fields =>
      rw [typeOf_of_fields? (Option.isSome_of_eq_some (fields?_eq_some_iff.mpr kept))]
      split <;> rfl
    | list elements =>
      rw [typeOf_of_elements? sound (elements?_eq_some_iff.mpr kept)]
      rfl
    | union members => cases notUnion.symm.trans (members?_eq_some_iff.mpr kept)

/-- **The natural type of a shape is tidy everywhere.** -/
theorem tidy_typeOf (sound : registry.Sound) (normal : registry.Normal)
    (held : registry.Holds id) : (naming.typeOf registry id).Everywhere TypeRef.Tidy := by
  refine sound.induct (fun kind => ?_) ?_ (fun index shape found step => ?_) held
  · rw [typeOf, typeWithin]
    exact TypeRef.tidy_primitive kind
  · rw [typeOf, typeWithin]
    exact TypeRef.tidy_date
  · have kept : registry.shape? (.node index) = some shape := found
    cases shape with
    | object fields =>
      rw [typeOf_of_fields? (Option.isSome_of_eq_some (fields?_eq_some_iff.mpr kept))]
      split
      · exact TypeRef.tidy_named _
      · exact TypeRef.tidy_primitive .any
    | list elements =>
      have list := elements?_eq_some_iff.mpr kept
      obtain ⟨element, rfl⟩ := normal.singleton list
      have inside := step element (List.mem_singleton_self element)
        (sound.element list (List.mem_singleton_self element)).1
      rw [typeOf_of_elements? sound list]
      exact TypeRef.tidy_array (TypeRef.ofElement_ne_null _) (TypeRef.tidy_ofElement inside)
    | union members =>
      have union := members?_eq_some_iff.mpr kept
      rw [typeOf_of_members? sound union]
      refine TypeRef.tidy_ofArms (fun arm listed => ?_) fun arm listed => ?_
      · obtain ⟨member, inside, rfl⟩ := List.mem_map.mp listed
        exact isUnion_typeOf_of_flat sound (sound.member union inside).1
          ((normal.union union).flat member inside)
      · obtain ⟨member, inside, rfl⟩ := List.mem_map.mp listed
        exact step member inside (sound.member union inside).1

end Naming

/-- The type of a bound field is tidy everywhere. -/
theorem Registry.tidy_boundType (registry : Registry) (id : ShapeId) (target : String) :
    (registry.boundType id target).Everywhere TypeRef.Tidy := by
  have named := TypeRef.tidy_named target
  unfold boundType
  split
  · exact TypeRef.tidy_array nofun named
  · split
    · have arms : ∀ arm ∈ [TypeRef.named target, .null], arm.isUnion = false ∧
          arm.Everywhere TypeRef.Tidy := by
        simpa [TypeRef.isUnion] using ⟨named, TypeRef.tidy_primitive .null⟩
      exact TypeRef.tidy_ofArms (fun arm member => (arms arm member).1)
        fun arm member => (arms arm member).2
    · exact named

/-! ### Types of fields -/

/-- The type of a declared field: flat everywhere, and without null on top. -/
structure TypeRef.IsFlat (type : TypeRef) : Prop where
  /-- Every union in it has several arms. -/
  several : ∀ arms, .union arms ∈ type.parts → 2 ≤ arms.length
  /-- None of them is a union. -/
  unnested : ∀ arms, .union arms ∈ type.parts → ∀ arm ∈ arms, arm.isUnion = false
  /-- No list in it is one of nothing but null. -/
  solidElement : .array .null ∉ type.parts
  /-- The type is not null. -/
  ne_null : type ≠ .null
  /-- If it is a union, no arm is null. -/
  arms : ∀ arms, type = .union arms → .null ∉ arms

/-- **A declared field has a flat type,** however it comes to it. -/
theorem Declaring.isFlat_of_resolves {setting : Declaring} {warnings : List Warning}
    {entry : String × Field} {declared : DeclaredField} (sound : setting.registry.Sound)
    (normal : setting.registry.Normal) (held : setting.registry.Holds entry.2.shape)
    (resolves : setting.Resolves warnings entry declared) : declared.type.IsFlat := by
  obtain ⟨found, typed, rfl, _⟩ := resolves
  have tidy : found.type.Everywhere TypeRef.Tidy := by
    rcases Naming.fieldType_cases typed with ⟨natural, _⟩ | ⟨target, _, bound, _⟩
    · rw [natural]
      exact Naming.tidy_typeOf sound normal held
    · rw [bound]
      exact setting.registry.tidy_boundType _ target
  have left := TypeRef.tidy_collapseNull tidy
  have solid := TypeRef.solid_collapseNull tidy
  exact ⟨fun arms member => (left _ member).several arms rfl,
    fun arms member => (left _ member).unnested arms rfl,
    fun member => (left _ member).solidElement rfl, solid.ne_null, solid.arms⟩

namespace Resolution

variable {resolution : Resolution} {options : Options} {sample : Json}

/-- **Every declared type is flat,** at any depth, and has no null on top. -/
theorem flat_of_declarations
    (declared : SampleShapes.declarations options sample = .ok resolution) :
    ∀ declaration ∈ resolution.declarations, ∀ field ∈ declaration.fields, field.type.IsFlat := by
  intro declaration member field inside
  obtain ⟨graph, all, findings, inferred, _, made⟩ := exists_run declared
  have sound := made.declares.sound.registry
  obtain ⟨index, _, _, fields, found, each⟩ := made.exists_declaredAs member
  obtain ⟨⟨raw, source⟩, listed, resolves⟩ := Lists.exists_mem_of_forall₂_right each inside
  have under : fields.get? raw = some source := Table.get?_eq_some_iff.mpr listed
  exact Declaring.isFlat_of_resolves sound (ShapeGraph.produced_of_infer inferred).normal
    (sound.field found under).1 resolves

/-- Lists beside null and a text, one of them nullable inside; a field that is null and bound; and
lists of null and of nothing. -/
theorem flat_of_mixed_lists :
    ∃ resolution, SampleShapes.declarations {} (.array
        [.object [("x", .array [.null, .string "s", .array [.null], .array [.null, .bool true]]),
            ("y[T]", .object [("p", .null)]), ("z[T]", .null)],
          .object [("x", .null), ("y[T]", .object [("q", .array [])])]]) = .ok resolution ∧
      resolution.declarations.map (fun declaration => declaration.fields.map DeclaredField.type) =
        [[.array (.union [.primitive .string, .null, .array .any,
            .array (.union [.primitive .boolean, .null])]), .named "T", .named "T"],
          [.any, .array .any]] ∧
      ∀ declaration ∈ resolution.declarations, ∀ field ∈ declaration.fields,
        field.type.IsFlat := by
  have declared : SampleShapes.declarations {} (.array
      [.object [("x", .array [.null, .string "s", .array [.null], .array [.null, .bool true]]),
          ("y[T]", .object [("p", .null)]), ("z[T]", .null)],
        .object [("x", .null), ("y[T]", .object [("q", .array [])])]]) = .ok
        { declarations := [
            ⟨"RootObject", [⟨"x", .array (.union [.primitive .string, .null, .array .any,
                .array (.union [.primitive .boolean, .null])]), true, .plain⟩,
              ⟨"y", .named "T", false, .reference⟩, ⟨"z", .named "T", true, .reference⟩]⟩,
            ⟨"T", [⟨"p", .any, true, .plain⟩, ⟨"q", .array .any, true, .plain⟩]⟩]
          parents := ∅
          warnings := [] } := by
    decide +kernel
  exact ⟨_, declared, rfl, flat_of_declarations declared⟩

end Resolution

end SampleShapes
