/-
**Declarations with the same fields.**

Shapes are kept once each, and a declaration is made for every object that is read, so that two
declarations tell two objects apart. Types tell less: null is taken out of them, a field that is
lacking somewhere is not told from one that is null there, and shapes that look alike have one type.
Without references nothing else gets lost, so that two declarations have the same fields exactly if
their objects agree on all of this; and without null they never do.

* `Naming.DeclaredAs.signatures_eq`: what an object without marks is declared as;
* `Resolution.sameFields_iff_of_declaredAs`: **two of them have the same fields exactly if their
  objects agree key by key**;
* `Resolution.same_fields`: **when two declarations have the same fields, and that they are one
  without null**;
* `Resolution.exists_fields_twice`: **two declarations may have the same fields.**
-/

import SampleShapes.Proofs.Naming.Alternatives
import SampleShapes.Proofs.NullFree

namespace SampleShapes

open Registry

/-! ### Preliminaries -/

/-- Where values have one image exactly if they are related, so have values that may be missing. -/
theorem map_eq_map_iff_rel {α β : Type} {change : α → β} {related : α → α → Prop}
    {first second : Option α} (same : ∀ value, first = some value → ∀ value', second = some value' →
      (change value = change value' ↔ related value value')) :
    first.map change = second.map change ↔ Option.Rel related first second := by
  cases first <;> cases second <;> simp_all

/-- A normal shape is told by what it is one of. -/
theorem Registry.Normal.eq_of_alternatives_eq {registry : Registry} {id other : ShapeId}
    (normal : registry.Normal) (indexed : registry.Indexed)
    (same : registry.alternatives id = registry.alternatives other) : id = other := by
  -- No union is one of a single alternative.
  have several : ∀ {union alone members}, registry.members? union = some members →
      members.toList ≠ [alone] := by
    intro union alone members found single
    rcases (normal.union found).empty_or_several with none | several
    · cases none.symm.trans single
    · rw [single] at several
      exact absurd several (by simp)
  cases found : registry.members? id with
  | none =>
    cases found' : registry.members? other with
    | none =>
      rw [alternatives_of_flat found, alternatives_of_flat found'] at same
      exact List.singleton_inj.mp same
    | some members =>
      rw [alternatives_of_flat found, alternatives_of_members? found'] at same
      exact absurd same.symm (several found')
  | some members =>
    cases found' : registry.members? other with
    | none =>
      rw [alternatives_of_members? found, alternatives_of_flat found'] at same
      exact absurd same (several found)
    | some others =>
      rw [alternatives_of_members? found, alternatives_of_members? found'] at same
      obtain rfl : members = others := IdSet.eq_of_mem_iff fun id => by
        rw [← IdSet.mem_toList, same, IdSet.mem_toList]
      exact indexed.eq_of_shape? (members?_eq_some_iff.mp found) (members?_eq_some_iff.mp found')

/-! ### Declarations -/

/-- What a field says of its object: its key, its type and whether it may be absent. -/
def DeclaredField.signature (field : DeclaredField) : String × TypeRef × Bool :=
  (field.key, field.type, field.optional)

/-- Two declarations have the same set of fields. -/
def Declaration.SameFields (declaration other : Declaration) : Prop :=
  ∀ signature, signature ∈ declaration.fields.map DeclaredField.signature ↔
    signature ∈ other.fields.map DeclaredField.signature

/-- Two fields cannot be told apart once they are declared: both may be lacking or neither, and the
alternatives of their values look alike, null left out. -/
structure ShapeGraph.FieldsAlike (graph : ShapeGraph) (field other : Field) : Prop where
  /-- Both may be lacking, or neither. -/
  lack : graph.registry.MayLack field ↔ graph.registry.MayLack other
  /-- Their alternatives look alike, one by one. -/
  alternatives : List.Forall₂ graph.LooksAlike (graph.registry.solid field.shape)
    (graph.registry.solid other.shape)

namespace Naming

variable {naming : Naming} {registry : Registry} {policy : ReferencePolicy}
  {warnings : List Warning} {entry : Nat × String} {declaration : Declaration}
  {fields : Table String Field}

/-- The type of a field that names no target, and whether it is optional. -/
def plainType (naming : Naming) (registry : Registry) (field : Field) : TypeRef × Bool :=
  let type := (naming.typeOf registry field.shape).collapseNull
  (type.1, field.optional || type.2)

/-- **What an object without marks is declared as:** every key as it is, with its natural type. -/
theorem DeclaredAs.signatures_eq (found : registry.fields? (.node entry.1) = some fields)
    (keyed : Shape.Keyed fields)
    (plain : ∀ raw field, fields.get? raw = some field → (Key.parse raw).mark = .plain)
    (declared : naming.DeclaredAs registry policy warnings entry declaration) :
    declaration.fields.map DeclaredField.signature =
      (fields.map (naming.plainType registry)).entries := by
  obtain ⟨_, own, here, each⟩ := declared
  obtain rfl := Option.some.inj (found.symm.trans here)
  rw [eq_comm, Table.entries_map, ← List.forall₂_eq_eq_eq, List.forall₂_map_left_iff,
    List.forall₂_map_right_iff]
  refine Lists.forall₂_imp_of_mem (fun source listed field _ resolves => ?_) each
  obtain ⟨type, typed, rfl, _⟩ := resolves
  have under := Table.get?_eq_some_iff.mpr listed
  have key := keyed _ _ under
  have unmarked := plain _ _ under
  rw [fieldType_of_plain (key ▸ unmarked)] at typed
  obtain rfl := Except.ok.inj typed
  have name : source.2.key.name = source.1 := by rw [key, Key.name_parse unmarked]
  rw [DeclaredField.signature, Declaring.declaredKey_of_name name]
  rfl

end Naming

/-! ### Fields that are declared alike -/

namespace ShapeGraph

variable {graph : ShapeGraph} {options : Options} {sample : Json} {rootName : String}
  {field other : Field}

/-- **Fields without marks are declared with one type exactly if they cannot be told apart.** -/
theorem plainType_eq_iff (inferred : infer options sample = .ok graph)
    (types : graph.Types (Naming.ofGraph graph rootName) field.shape)
    (types' : graph.Types (Naming.ofGraph graph rootName) other.shape) :
    (Naming.ofGraph graph rootName).plainType graph.registry field =
        (Naming.ofGraph graph rootName).plainType graph.registry other ↔
      graph.FieldsAlike field other := by
  have sound := (represents_of_infer inferred).registry
  have normal := (produced_of_infer inferred).normal
  have optional : ∀ field, ((Naming.ofGraph graph rootName).plainType graph.registry field).2 =
      true ↔ graph.registry.MayLack field := fun field => by
    rw [MayLack, ← Naming.nullable_typeOf_iff sound normal]
    exact Bool.or_eq_true_iff
  have same : (Naming.ofGraph graph rootName).plainType graph.registry field =
      (Naming.ofGraph graph rootName).plainType graph.registry other ↔
        ((Naming.ofGraph graph rootName).typeOf graph.registry field.shape).collapseNull.1 =
          ((Naming.ofGraph graph rootName).typeOf graph.registry other.shape).collapseNull.1 ∧
        (graph.registry.MayLack field ↔ graph.registry.MayLack other) := by
    rw [← optional field, ← optional other, ← Bool.eq_iff_iff]
    exact Prod.ext_iff
  rw [same, collapseNull_typeOf_eq_iff inferred types types']
  exact ⟨fun same => ⟨same.2, same.1⟩, fun alike => ⟨alike.alternatives, alike.lack⟩⟩

/-- Every key is plain in the graph of a sample without references. -/
theorem plain_of_infer (distinct : sample.KeysDistinct) (unmarked : sample.Unmarked)
    (inferred : infer options sample = .ok graph) {id : ShapeId} {fields : Table String Field}
    (found : graph.registry.fields? id = some fields) :
    ∀ raw field, fields.get? raw = some field → (Key.parse raw).mark = .plain := by
  obtain ⟨_, index, mirrors, reached, kept⟩ :=
    exists_mirrors_of_shape? distinct unmarked inferred (fields?_eq_some_iff.mp found)
  exact mirrors.isPlain unmarked index fields reached kept

/-! ### Without null -/

section NullFree

variable (distinct : sample.KeysDistinct) (unmarked : sample.Unmarked)
  (nullFree : sample.NullFree) (inferred : infer options sample = .ok graph)
include distinct unmarked nullFree inferred

/-- Without null a shape is what it is one of. -/
theorem solid_eq_alternatives {id : ShapeId} (notNull : id ≠ .null) :
    graph.registry.solid id = graph.registry.alternatives id := by
  refine List.filter_eq_self.mpr fun alternative member => decide_eq_true ?_
  rintro rfl
  unfold alternatives at member
  split at member
  · next members found =>
    exact null_notMem_children distinct unmarked nullFree inferred (members?_eq_some_iff.mp found)
      member
  · exact notNull (List.mem_singleton.mp member).symm

/-- Without null a field may be lacking only if some object goes without it. -/
theorem mayLack_iff (notNull : field.shape ≠ .null) :
    graph.registry.MayLack field ↔ field.optional = true := by
  refine or_iff_left ?_
  rintro (isNull | ⟨members, found, null⟩)
  · exact notNull isNull
  · exact null_notMem_children distinct unmarked nullFree inferred (members?_eq_some_iff.mp found)
      null

/-- **Without null, fields that cannot be told apart are the same** in all that counts for the
identity of their objects. -/
theorem FieldsAlike.outline_eq (types : graph.Types (Naming.ofGraph graph rootName) field.shape)
    (notNull : field.shape ≠ .null) (notNull' : other.shape ≠ .null)
    (alike : graph.FieldsAlike field other) : field.outline = other.outline := by
  have sound := (represents_of_infer inferred).registry
  have produced := produced_of_infer inferred
  have lack := alike.lack
  rw [mayLack_iff distinct unmarked nullFree inferred notNull,
    mayLack_iff distinct unmarked nullFree inferred notNull', ← Bool.eq_iff_iff] at lack
  have same : graph.registry.solid field.shape = graph.registry.solid other.shape :=
    List.forall₂_eq_eq_eq ▸ Lists.forall₂_imp_of_mem (fun first member _ _ =>
      eq_of_looksAlike_of_infer distinct unmarked nullFree inferred
        (types.of_mem_solid sound produced.normal produced.definite member).1.held)
      alike.alternatives
  rw [solid_eq_alternatives distinct unmarked nullFree inferred notNull,
    solid_eq_alternatives distinct unmarked nullFree inferred notNull'] at same
  exact Prod.ext lack (produced.normal.eq_of_alternatives_eq sound.toIndexed same)

/-- **Without null, objects whose fields cannot be told apart are the same.** -/
theorem index_eq_of_fieldsAlike {index index' : Nat} {fields fields' : Table String Field}
    (found : graph.registry.fields? (.node index) = some fields)
    (found' : graph.registry.fields? (.node index') = some fields')
    (types : ∀ field ∈ fields.values, graph.Types (Naming.ofGraph graph rootName) field.shape)
    (alike : ∀ raw, Option.Rel graph.FieldsAlike (fields.get? raw) (fields'.get? raw)) :
    index = index' := by
  have indexed := (represents_of_infer inferred).registry.toIndexed
  have notNull : ∀ {index fields}, graph.registry.fields? (.node index) = some fields →
      ∀ field ∈ fields.values, field.shape ≠ .null := by
    intro index fields found field inside isNull
    exact null_notMem_children distinct unmarked nullFree inferred (fields?_eq_some_iff.mp found)
      (List.mem_map.mpr ⟨field, inside, isNull⟩)
  refine indexed.eq_of_fingerprint_eq (fields?_eq_some_iff.mp found) (fields?_eq_some_iff.mp found')
    (Shape.fingerprint_object_eq_iff.mpr fun raw => ?_)
  have here := alike raw
  generalize under : fields.get? raw = entry, under' : fields'.get? raw = entry' at here ⊢
  cases here with
  | none => rfl
  | some here =>
    have inside := Table.mem_values_iff.mpr ⟨raw, under⟩
    have inside' := Table.mem_values_iff.mpr ⟨raw, under'⟩
    exact congrArg some (here.outline_eq distinct unmarked nullFree inferred (types _ inside)
      (notNull found _ inside) (notNull found' _ inside'))

end NullFree

end ShapeGraph

namespace Resolution

open ShapeGraph

variable {options : Options} {sample : Json} {graph : ShapeGraph} {warnings : List Warning}
  {declaration other : Declaration} {index index' : Nat} {fields fields' : Table String Field}

/-- **Two declarations of objects without marks have the same fields exactly if these agree key by
key.** -/
theorem sameFields_iff_of_declaredAs (inferred : infer options sample = .ok graph)
    (entry : (index, declaration.name) ∈ (Naming.ofGraph graph options.rootName).entries)
    (entry' : (index', other.name) ∈ (Naming.ofGraph graph options.rootName).entries)
    (found : graph.registry.fields? (.node index) = some fields)
    (found' : graph.registry.fields? (.node index') = some fields')
    (plain : ∀ raw field, fields.get? raw = some field → (Key.parse raw).mark = .plain)
    (plain' : ∀ raw field, fields'.get? raw = some field → (Key.parse raw).mark = .plain)
    (declared : (Naming.ofGraph graph options.rootName).DeclaredAs graph.registry
      options.references warnings (index, declaration.name) declaration)
    (declared' : (Naming.ofGraph graph options.rootName).DeclaredAs graph.registry
      options.references warnings (index', other.name) other) :
    declaration.SameFields other ↔
      ∀ raw, Option.Rel graph.FieldsAlike (fields.get? raw) (fields'.get? raw) := by
  have sound := (represents_of_infer inferred).registry
  unfold Declaration.SameFields
  rw [declared.signatures_eq found (sound.keyed found) plain,
    declared'.signatures_eq found' (sound.keyed found') plain', Prod.forall]
  refine forall_congr' fun raw => ?_
  simp only [← Table.get?_eq_some_iff, Table.get?_map]
  rw [← Option.ext_iff]
  refine map_eq_map_iff_rel fun field under field' under' => ?_
  exact plainType_eq_iff inferred
    (types_of_infer inferred entry found (Table.mem_values_iff.mpr ⟨raw, under⟩))
    (types_of_infer inferred entry' found' (Table.mem_values_iff.mpr ⟨raw, under'⟩))

/-- **When two declarations have the same fields:** in a sample without references, exactly if their
objects agree on every key, up to null and to shapes that look alike; and if the sample is without
null, too, they are one declaration. -/
theorem same_fields {resolution : Resolution} (distinct : sample.KeysDistinct)
    (unmarked : sample.Unmarked) (inferred : infer options sample = .ok graph)
    (declared : SampleShapes.declarations options sample = .ok resolution)
    (member : declaration ∈ resolution.declarations) (member' : other ∈ resolution.declarations) :
    (∃ index index' fields fields',
      (index, declaration.name) ∈ (Naming.ofGraph graph options.rootName).entries ∧
      (index', other.name) ∈ (Naming.ofGraph graph options.rootName).entries ∧
      graph.registry.fields? (.node index) = some fields ∧
      graph.registry.fields? (.node index') = some fields' ∧
      (declaration.SameFields other ↔
        ∀ raw, Option.Rel graph.FieldsAlike (fields.get? raw) (fields'.get? raw))) ∧
    (sample.NullFree → declaration.SameFields other → declaration = other) := by
  obtain ⟨all, findings, made⟩ := exists_madeFrom_of_infer inferred declared
  obtain ⟨index, entry, declaredAs⟩ := made.exists_declaredAs member
  obtain ⟨index', entry', declaredAs'⟩ := made.exists_declaredAs member'
  obtain ⟨_, fields, found, _⟩ := id declaredAs
  obtain ⟨_, fields', found', _⟩ := id declaredAs'
  have same := sameFields_iff_of_declaredAs inferred entry entry' found found'
    (plain_of_infer distinct unmarked inferred found)
    (plain_of_infer distinct unmarked inferred found') declaredAs declaredAs'
  refine ⟨⟨index, index', fields, fields', entry, entry', found, found', same⟩, ?_⟩
  intro nullFree sameFields
  obtain rfl := index_eq_of_fieldsAlike distinct unmarked nullFree inferred found found'
    (fun field inside => types_of_infer inferred entry found inside) (same.mp sameFields)
  have name := congrArg Prod.snd
    (List.inj_on_of_nodup_map made.declares.named.once entry entry' rfl)
  exact List.inj_on_of_nodup_map made.declares.distinct (made.mem_declarations_iff.mp member).1
    (made.mem_declarations_iff.mp member').1 name

/-- Two objects with one key and values of two kinds: without references and null their declarations
do not have the same fields. -/
theorem same_fields_of_two_kinds :
    ∃ graph resolution declaration other,
      infer {} (.object [("a", .object [("x", .array [.bool true])]),
        ("b", .object [("x", .array [])])]) = .ok graph ∧
      SampleShapes.declarations {} (.object [("a", .object [("x", .array [.bool true])]),
        ("b", .object [("x", .array [])])]) = .ok resolution ∧
      declaration ∈ resolution.declarations ∧ other ∈ resolution.declarations ∧
      declaration = ⟨"A", [⟨"x", .array (.primitive .boolean), false, .plain⟩]⟩ ∧
      other = ⟨"B", [⟨"x", .array .any, false, .plain⟩]⟩ ∧
      (∃ index index' fields fields',
        (index, declaration.name) ∈ (Naming.ofGraph graph "RootObject").entries ∧
        (index', other.name) ∈ (Naming.ofGraph graph "RootObject").entries ∧
        graph.registry.fields? (.node index) = some fields ∧
        graph.registry.fields? (.node index') = some fields' ∧
        (declaration.SameFields other ↔
          ∀ raw, Option.Rel graph.FieldsAlike (fields.get? raw) (fields'.get? raw))) ∧
      ¬ declaration.SameFields other := by
  have declared : SampleShapes.declarations {}
      (.object [("a", .object [("x", .array [.bool true])]), ("b", .object [("x", .array [])])]) =
        .ok
          { declarations := [
              ⟨"RootObject", [⟨"a", .named "A", false, .plain⟩, ⟨"b", .named "B", false, .plain⟩]⟩,
              ⟨"A", [⟨"x", .array (.primitive .boolean), false, .plain⟩]⟩,
              ⟨"B", [⟨"x", .array .any, false, .plain⟩]⟩]
            parents := ∅
            warnings := [] } := by
    decide +kernel
  obtain ⟨graph, _, _, inferred, _⟩ := exists_run declared
  obtain ⟨agree, clean⟩ := same_fields (by decide +kernel) (by decide +kernel) inferred declared
    (.tail _ (.head _)) (.tail _ (.tail _ (.head _)))
  exact ⟨graph, _, _, _, inferred, declared, .tail _ (.head _), .tail _ (.tail _ (.head _)), rfl,
    rfl, agree, fun same => absurd (clean (by decide +kernel) same) (by decide)⟩

/-- **Two declarations may have the same fields** without references: a list of nothing and one of
null have one type, and a key that is lacking somewhere is optional, as one is that is null
there. -/
theorem exists_fields_twice :
    (∃ sample,
      sample = .object [("a", .object [("x", .array [])]), ("b", .object [("x", .array [.null])])] ∧
      sample.KeysDistinct ∧ sample.Unmarked ∧
      ∃ resolution, SampleShapes.declarations {} sample = .ok resolution ∧
        ∃ declaration ∈ resolution.declarations, ∃ other ∈ resolution.declarations,
          declaration ≠ other ∧ declaration.SameFields other) ∧
    ∃ sample,
      sample = .object [("a", .array [.object [("x", .bool true)], .object []]),
        ("b", .array [.object [("x", .bool true)], .object [("x", .null)]])] ∧
      sample.KeysDistinct ∧ sample.Unmarked ∧
      ∃ resolution, SampleShapes.declarations {} sample = .ok resolution ∧
        ∃ declaration ∈ resolution.declarations, ∃ other ∈ resolution.declarations,
          declaration ≠ other ∧ declaration.SameFields other := by
  have bare : SampleShapes.declarations {} (.object [("a", .object [("x", .array [])]),
      ("b", .object [("x", .array [.null])])]) = .ok
        { declarations := [
            ⟨"RootObject", [⟨"a", .named "A", false, .plain⟩, ⟨"b", .named "B", false, .plain⟩]⟩,
            ⟨"A", [⟨"x", .array .any, false, .plain⟩]⟩,
            ⟨"B", [⟨"x", .array .any, false, .plain⟩]⟩]
          parents := ∅
          warnings := [] } := by
    decide +kernel
  have lacking : SampleShapes.declarations {} (.object [
      ("a", .array [.object [("x", .bool true)], .object []]),
      ("b", .array [.object [("x", .bool true)], .object [("x", .null)]])]) = .ok
        { declarations := [
            ⟨"RootObject", [⟨"a", .array (.named "A"), false, .plain⟩,
              ⟨"b", .array (.named "B"), false, .plain⟩]⟩,
            ⟨"A", [⟨"x", .primitive .boolean, true, .plain⟩]⟩,
            ⟨"B", [⟨"x", .primitive .boolean, true, .plain⟩]⟩]
          parents := ∅
          warnings := [] } := by
    decide +kernel
  constructor
  · exact ⟨_, rfl, by decide +kernel, by decide +kernel, _, bare, _, .tail _ (.head _), _,
      .tail _ (.tail _ (.head _)), by decide, fun signature => Iff.rfl⟩
  · exact ⟨_, rfl, by decide +kernel, by decide +kernel, _, lacking, _, .tail _ (.head _), _,
      .tail _ (.tail _ (.head _)), by decide, fun signature => Iff.rfl⟩

end Resolution

end SampleShapes
