/-
**Declarations describe their sample.**

A value is accepted by a type the way it is written: `any` takes everything, a name what the
declaration of the name describes. A declaration describes an object whose keys it declares, whose
required fields are there, and whose members are accepted, where null is for optional fields.

Whatever conforms to a shape is accepted by its type. As long as keys say nothing but names, a
sample is therefore described by its declarations, the first one at the top.

* `accepts_ofArms`, `fieldAccepts_collapseNull`: unions and null lose no value;
* `Declaring.eq_of_declaredKey`: a key without a mark is declared for its own field only;
* `MadeFrom.describes_of_members`: what conforms to an object is described by its declaration;
* `MadeFrom.accepts_typeOf`: **what conforms to a shape is accepted by its type**;
* `describes_of_declarations`: **the first declaration describes the sample.**
-/

import SampleShapes.Proofs.Resolution.Keys

namespace SampleShapes

/-! ### What types and declarations accept -/

namespace Resolution

mutual

/-- The value is of the type, with names as the resolution declares them. -/
inductive Accepts (resolution : Resolution) : Json → TypeRef → Prop where
  /-- Everything is of the type that says nothing. -/
  | any {value : Json} : Accepts resolution value .any
  /-- A kind is that of the value. -/
  | kind {value : Json} {kind : Primitive} (same : value.primitive = kind) (known : kind ≠ .any) :
      Accepts resolution value (.primitive kind)
  /-- A date is a text that looks like one. -/
  | date {text : String} (dated : Calendar.looksLikeDate text) :
      Accepts resolution (.string text) .date
  /-- A name stands for what its declaration describes. -/
  | named {value : Json} {name : String} {declaration : Declaration}
      (found : resolution.find? name = some declaration)
      (inside : Describes resolution declaration value) : Accepts resolution value (.named name)
  /-- The elements of an array are of its type. -/
  | array {elements : List Json} {element : TypeRef}
      (inside : ∀ value ∈ elements, Accepts resolution value element) :
      Accepts resolution (.array elements) (.array element)
  /-- A value of a union is of one of its types. -/
  | union {value : Json} {arms : List TypeRef} {arm : TypeRef} (member : arm ∈ arms)
      (inside : Accepts resolution value arm) : Accepts resolution value (.union arms)

/-- The value may stand in the field. -/
inductive FieldAccepts (resolution : Resolution) : DeclaredField → Json → Prop where
  /-- Null may stand in an optional field. -/
  | null {field : DeclaredField} (optional : field.optional = true) :
      FieldAccepts resolution field .null
  /-- So may a value of its type in any field. -/
  | value {field : DeclaredField} {value : Json} (inside : Accepts resolution value field.type) :
      FieldAccepts resolution field value

/-- The value is an object that the declaration describes. -/
inductive Describes (resolution : Resolution) : Declaration → Json → Prop where
  /-- Its keys are declared, the required fields are there, and every member may stand in its
  field. -/
  | object {declaration : Declaration} {members : List (String × Json)}
      (known : ∀ member ∈ members, member.1 ∈ declaration.fields.map DeclaredField.key)
      (present : ∀ field ∈ declaration.fields, field.optional = false →
        field.key ∈ members.map Prod.fst)
      (inside : ∀ member ∈ members, ∀ field ∈ declaration.fields, field.key = member.1 →
        FieldAccepts resolution field member.2) :
      Describes resolution declaration (.object members)

end

variable {resolution : Resolution} {value : Json} {type arm : TypeRef} {arms : List TypeRef}

/-- **A union loses no value of its arms.** -/
theorem accepts_ofArms (member : arm ∈ arms) (accepts : resolution.Accepts value arm) :
    resolution.Accepts value (.ofArms arms) := by
  unfold TypeRef.ofArms
  split
  · exact .any
  · rw [← List.mem_singleton.mp member]
    exact accepts
  · exact .union member accepts

theorem accepts_ofElement (accepts : resolution.Accepts value type) :
    resolution.Accepts value type.ofElement := by
  unfold TypeRef.ofElement
  split
  · exact .any
  · exact accepts

theorem eq_null_of_accepts (accepts : resolution.Accepts value .null) : value = .null := by
  cases accepts with
  | kind same _ =>
    cases value with
    | null => rfl
    | bool _ => cases same
    | number _ => cases same
    | string _ => cases same
    | array _ => cases same
    | object _ => cases same

/-- **Null that is taken out of a type may still stand in its field.** -/
theorem fieldAccepts_collapseNull {key : String} {optional : Bool} {kind : FieldKind}
    (accepts : resolution.Accepts value type) :
    resolution.FieldAccepts
      ⟨key, type.collapseNull.1, optional || type.collapseNull.2, kind⟩ value := by
  unfold TypeRef.collapseNull
  split
  · exact .value .any
  · next arms =>
    split
    · cases accepts with
      | @union _ _ arm member inside =>
        by_cases isNull : arm = .null
        · rw [isNull] at inside
          rw [eq_null_of_accepts inside]
          exact .null (Bool.or_true _)
        · exact .value (accepts_ofArms (List.mem_filter.mpr ⟨member, decide_eq_true isNull⟩) inside)
    · exact .value accepts
  · exact .value accepts

end Resolution

/-! ### Keys without marks -/

namespace Declaring

variable {setting : Declaring} {fields : Table String Field} {raw other : String}
  {field source : Field}

/-- A key that is the name of its field is declared as it is. -/
theorem declaredKey_of_name (named : field.key.name = raw) :
    setting.declaredKey raw field = raw := by
  unfold declaredKey
  rw [named]
  simp

/-- **A key that is the name of its field is declared for that field only.** -/
theorem eq_of_declaredKey (keys : setting.keys = fields.values.map (·.key.name))
    (found : fields.get? raw = some field) (named : field.key.name = raw)
    (found' : fields.get? other = some source) (same : setting.declaredKey other source = raw) :
    other = raw := by
  by_contra apart
  rw [declaredKey_eq keys (Table.get?_eq_some_iff.mp found')] at same
  split at same
  · exact apart same
  · next loses =>
    -- Both fields have the same name, so that the other one keeps its raw key.
    have marked : other ≠ source.key.name := by
      rw [show source.key.name = raw from same]
      exact apart
    exact loses ⟨marked, (raw, field), Table.get?_eq_some_iff.mp found, Ne.symm apart,
      named.trans same.symm⟩

end Declaring

/-! ### From shapes to types -/

namespace Resolution

open Registry

variable {resolution : Resolution} {options : Options} {graph : ShapeGraph}
  {all : List Declaration} {findings : Findings} {value : Json} {id : ShapeId}

/-- Every name in the type of a shape is declared. -/
def Covers (resolution : Resolution) (naming : Naming) (registry : Registry) (id : ShapeId) :
    Prop :=
  ∀ name ∈ (naming.typeOf registry id).references, resolution.Declares name

theorem exists_find? {name : String} (declared : resolution.Declares name) :
    ∃ declaration, resolution.find? name = some declaration ∧
      declaration ∈ resolution.declarations ∧ declaration.name = name := by
  cases found : resolution.find? name with
  | none =>
    obtain ⟨declaration, member, rfl⟩ := List.mem_map.mp declared
    have absent := List.find?_eq_none.mp found declaration member
    simp at absent
  | some declaration =>
    have same := List.find?_some found
    exact ⟨declaration, rfl, List.mem_of_find?_eq_some found, of_decide_eq_true same⟩

namespace MadeFrom

section

variable (made : resolution.MadeFrom options graph all findings)
include made

/-- **What conforms to an object is described by its declaration,** if that holds of its members. -/
theorem describes_of_members {index : Nat} {name : String} {declaration : Declaration}
    (member : declaration ∈ resolution.declarations)
    (declared : (Naming.ofGraph graph options.rootName).DeclaredAs graph.registry
      options.references findings.warnings (index, name) declaration)
    {fields : Table String Field} (found : graph.registry.fields? (.node index) = some fields)
    {members : List (String × Json)}
    (plain : ∀ member ∈ members, (Key.parse member.1).mark = .plain)
    (known : ∀ member ∈ members, (fields.get? member.1).isSome)
    (present : ∀ raw field, fields.get? raw = some field → field.optional = false →
      raw ∈ members.map Prod.fst)
    (inside : ∀ member ∈ members, ∀ field, fields.get? member.1 = some field →
      resolution.Covers (Naming.ofGraph graph options.rootName) graph.registry field.shape →
      resolution.Accepts member.2
        ((Naming.ofGraph graph options.rootName).typeOf graph.registry field.shape)) :
    resolution.Describes declaration (.object members) := by
  obtain ⟨_, own, here, each⟩ := declared
  obtain rfl := Option.some.inj (found.symm.trans here)
  have keyed := made.declares.sound.registry.keyed found
  have named : ∀ raw field, fields.get? raw = some field → raw ∈ members.map Prod.fst →
      field.key.mark = .plain ∧ field.key.name = raw := by
    intro raw field under listed
    obtain ⟨entry, among, rfl⟩ := List.mem_map.mp listed
    rw [keyed _ field under]
    exact ⟨plain entry among, Key.name_parse (plain entry among)⟩
  refine .object (fun entry listed => ?_) (fun declared listed required => ?_)
    fun entry listed declared there same => ?_
  · obtain ⟨field, under⟩ := Option.isSome_iff_exists.mp (known entry listed)
    obtain ⟨declared, there, type, _, rfl, _⟩ :=
      Lists.exists_mem_of_forall₂ each (Table.get?_eq_some_iff.mp under)
    refine List.mem_map.mpr ⟨_, there, ?_⟩
    exact Declaring.declaredKey_of_name (named _ field under (List.mem_map_of_mem listed)).2
  · obtain ⟨⟨raw, field⟩, entry, type, _, rfl, _⟩ :=
      Lists.exists_mem_of_forall₂_right each listed
    have under := Table.get?_eq_some_iff.mpr entry
    have raws := present raw field under (Bool.or_eq_false_iff.mp required).1
    show Declaring.declaredKey _ raw field ∈ _
    rw [Declaring.declaredKey_of_name (named raw field under raws).2]
    exact raws
  · obtain ⟨⟨raw, field⟩, entry', type, typed, rfl, _⟩ :=
      Lists.exists_mem_of_forall₂_right each there
    have under := Table.get?_eq_some_iff.mpr entry'
    obtain ⟨mine, under'⟩ := Option.isSome_iff_exists.mp (known entry listed)
    have raws := List.mem_map_of_mem (f := Prod.fst) listed
    obtain rfl : raw = entry.1 :=
      Declaring.eq_of_declaredKey rfl under' (named _ mine under' raws).2 under same
    -- Without a mark the field has the type of its values, and every name in it is declared.
    rw [Naming.fieldType_of_plain (named _ field under raws).1] at typed
    obtain rfl := Except.ok.inj typed
    refine fieldAccepts_collapseNull (inside entry listed field under fun name mentioned => ?_)
    obtain ⟨among, live⟩ := made.mem_declarations_iff.mp member
    refine made.declares_iff.mpr (made.declares.live_of_mentions among live there
      (TypeRef.mem_references_collapseNull_iff.mpr mentioned) ?_)
    rw [made.declares.names_eq]
    exact Naming.isName_of_mem_references mentioned

/-- A declared name of an object is found as the declaration of the object. -/
theorem exists_find?_declaredAs {index : Nat} {name : String}
    (entry : (index, name) ∈ (Naming.ofGraph graph options.rootName).entries)
    (declares : resolution.Declares name) :
    ∃ declaration ∈ resolution.declarations, resolution.find? name = some declaration ∧
      (Naming.ofGraph graph options.rootName).DeclaredAs graph.registry options.references
        findings.warnings (index, name) declaration := by
  obtain ⟨declaration, here, member, same⟩ := exists_find? declares
  obtain ⟨other, among, declared⟩ := made.declares.exists_declaration entry
  obtain rfl : other = declaration :=
    List.inj_on_of_nodup_map made.declares.distinct among
      (made.mem_declarations_iff.mp member).1 (declared.1.trans same.symm)
  exact ⟨other, member, here, declared⟩

/-- **What conforms to an object is accepted by its type,** if that holds of its members. -/
theorem accepts_of_members (object : (graph.registry.fields? id).isSome)
    {fields : Table String Field}
    (found : graph.registry.fields? (graph.canonical id) = some fields)
    {members : List (String × Json)}
    (plain : ∀ member ∈ members, (Key.parse member.1).mark = .plain)
    (known : ∀ member ∈ members, (fields.get? member.1).isSome)
    (present : ∀ raw field, fields.get? raw = some field → field.optional = false →
      raw ∈ members.map Prod.fst)
    (inside : ∀ member ∈ members, ∀ field, fields.get? member.1 = some field →
      resolution.Covers (Naming.ofGraph graph options.rootName) graph.registry field.shape →
      resolution.Accepts member.2
        ((Naming.ofGraph graph options.rootName).typeOf graph.registry field.shape))
    (covers : resolution.Covers (Naming.ofGraph graph options.rootName) graph.registry id) :
    resolution.Accepts (.object members)
      ((Naming.ofGraph graph options.rootName).typeOf graph.registry id) := by
  obtain ⟨others, shape⟩ := Option.isSome_iff_exists.mp object
  obtain ⟨own, rfl, _⟩ := shape?_eq_some_iff.mp (fields?_eq_some_iff.mp shape)
  unfold Covers at covers
  rw [Naming.typeOf_of_fields? object] at covers ⊢
  split
  · next name called =>
    rw [called] at covers
    obtain ⟨declaration, member, here, declared⟩ :=
      made.exists_find?_declaredAs (made.declares.named.nameOf?_eq_some_iff.mp called)
        (covers name (List.mem_singleton_self name))
    exact .named here (made.describes_of_members member declared found plain known present inside)
  · exact .any

/-- **What conforms to a shape is accepted by its type.** -/
theorem accepts_typeOf (conforms : graph.registry.Conforms graph.canonical value id)
    (unmarked : value.Unmarked)
    (covers : resolution.Covers (Naming.ofGraph graph options.rootName) graph.registry id) :
    resolution.Accepts value
      ((Naming.ofGraph graph options.rootName).typeOf graph.registry id) := by
  have sound := made.declares.sound
  induction conforms with
  | kind same known =>
    rw [Naming.typeOf, Naming.typeWithin]
    exact .kind same known
  | date dated =>
    rw [Naming.typeOf, Naming.typeWithin]
    exact .date dated
  | object object found known present _ step =>
    have unmarked := Json.unmarked_object.mp unmarked
    refine made.accepts_of_members object found (fun member listed => (unmarked member listed).1)
      known present (fun member listed field under covers => ?_) covers
    exact step member listed field under (unmarked member listed).2 covers
  | list found element among _ step =>
    rw [Naming.typeOf_of_elements? sound.registry found]
    unfold Covers at covers
    rw [Naming.typeOf_of_elements? sound.registry found, TypeRef.references] at covers
    refine .array fun value listed => ?_
    have part := List.mem_map_of_mem
      (f := fun id => ((Naming.ofGraph graph options.rootName).typeOf graph.registry id).ofElement)
      (among value listed)
    refine accepts_ofArms part (accepts_ofElement (step value listed
      (Json.unmarked_array.mp unmarked value listed) fun name mentioned => ?_))
    refine covers name (TypeRef.mem_references_ofArms_iff.mpr ⟨_, part, ?_⟩)
    rw [TypeRef.references_ofElement]
    exact mentioned
  | union found among _ step =>
    rw [Naming.typeOf_of_members? sound.registry found]
    unfold Covers at covers
    rw [Naming.typeOf_of_members? sound.registry found] at covers
    have part := List.mem_map_of_mem
      (f := (Naming.ofGraph graph options.rootName).typeOf graph.registry) among
    exact accepts_ofArms part (step unmarked fun name mentioned =>
      covers name (TypeRef.mem_references_ofArms_iff.mpr ⟨_, part, mentioned⟩))

/-- What conforms to the object that the root stands for is described by the first declaration. -/
theorem describes_of_conforms {index : Nat} {name : String} {declaration : Declaration}
    (member : declaration ∈ resolution.declarations)
    (declared : (Naming.ofGraph graph options.rootName).DeclaredAs graph.registry
      options.references findings.warnings (index, name) declaration)
    (object : (graph.registry.fields? id).isSome) (same : graph.canonical id = .node index)
    (conforms : graph.Conforms value id) (unmarked : value.Unmarked) :
    resolution.Describes declaration value := by
  obtain ⟨members, fields, rfl, found, known, present, inside⟩ :=
    (conforms_object_iff object).mp conforms
  rw [same] at found
  have unmarked := Json.unmarked_object.mp unmarked
  exact made.describes_of_members member declared found
    (fun member listed => (unmarked member listed).1) known present
    fun member listed field under covers =>
      made.accepts_typeOf (inside member listed field under) (unmarked member listed).2 covers

end

end MadeFrom

/-! ### The sample -/

/-- The objects that a sample gives: its elements, or itself. -/
def instances : Json → List Json
  | .array elements => elements
  | value => [value]

variable {sample : Json}

/-- **The first declaration describes the sample,** or each of its elements. -/
theorem describes_of_declarations (distinct : sample.KeysDistinct) (unmarked : sample.Unmarked)
    (declared : SampleShapes.declarations options sample = .ok resolution) :
    ∃ first rest, resolution.declarations = first :: rest ∧
      ∀ value ∈ instances sample, resolution.Describes first value := by
  obtain ⟨graph, all, findings, represents, made⟩ := exists_madeFrom declared
  obtain ⟨first, rest, others, split, front, _⟩ := made.exists_first
  obtain ⟨index, entries, ⟨id, isRoot, object, same⟩, _, names⟩ := made.declares.named.root
  have declaredAs : (Naming.ofGraph graph options.rootName).DeclaredAs graph.registry
      options.references findings.warnings (index, options.rootName) first := by
    have each := made.declares.each
    rw [names, front] at each
    cases each with
    | cons first _ => exact first
  have member : first ∈ resolution.declarations := by
    rw [split]
    exact List.mem_cons_self
  refine ⟨first, rest, split, fun value listed => ?_⟩
  have conforms := represents.conforms distinct
  rcases isRoot with isRoot | list
  · rw [isRoot] at conforms
    obtain ⟨members, _, rfl, _⟩ := (conforms_object_iff object).mp conforms
    rw [List.mem_singleton.mp listed]
    exact made.describes_of_conforms member declaredAs object same conforms unmarked
  · obtain ⟨values, rfl, each⟩ := (conforms_list_iff list).mp conforms
    obtain ⟨element, inside, conforms⟩ := each value listed
    obtain rfl := List.mem_singleton.mp inside
    exact made.describes_of_conforms member declaredAs object same conforms
      (Json.unmarked_array.mp unmarked value listed)

/-- Two objects with different keys. -/
theorem describes_of_two_objects :
    ∃ resolution, SampleShapes.declarations {} (.array [.object [("x", .null)],
        .object [("y", .bool true)]]) = .ok resolution ∧
      ∃ first rest, resolution.declarations = first :: rest ∧
        ∀ value ∈ instances (.array [.object [("x", .null)], .object [("y", .bool true)]]),
          resolution.Describes first value := by
  have declared : SampleShapes.declarations {} (.array [.object [("x", .null)],
      .object [("y", .bool true)]]) = .ok
        { declarations := [⟨"RootObject", [⟨"x", .any, true, .plain⟩,
            ⟨"y", .primitive .boolean, true, .plain⟩]⟩]
          parents := ∅
          warnings := [] } := by
    decide +kernel
  exact ⟨_, declared, describes_of_declarations (by decide +kernel) (by decide +kernel) declared⟩

end Resolution

end SampleShapes
