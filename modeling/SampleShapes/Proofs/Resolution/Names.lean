/-
**The names that declarations have and mention.**

A declaration has the name of the root, or one that the keys of the sample make: a target or a type
name, with a number behind it perhaps. It mentions no other names in its fields, not even where it
keeps a target that nothing declares. Nothing keeps a name from being a word for a built-in type,
such as `string`: a target is taken as it stands. It takes a field that asks for it, though. A type
name starts with no small letter, so that of the six words a key makes `Date` at most; and a number
behind a name makes none of them.

* `Resolution.forall_names`: **what holds of the root and of what keys make** holds of every name;
* `Word.eq_date_of_mem_builtIn`: **the only type name that is a word for a built-in type;**
* `Naming.eq_of_uniqueName_mem_builtIn`: a name with a number behind it is none;
* `Resolution.asked_of_builtIn`: **a declaration has such a name only where a field of the sample
  asks for it;**
* `Resolution.exists_builtIn`: a text that stands for a kind and for a declaration.
-/

import SampleShapes.Proofs.Naming.Origins
import SampleShapes.Proofs.Rendering.TypeText

namespace SampleShapes

/-! ### Names that keys make -/

/-- The property holds of every name that a key inside of the sample makes: of its target, and of
the type names that it and its singular give. -/
structure Json.Makes (sample : Json) (good : String → Prop) : Prop where
  target : ∀ raw ∈ sample.keys, ∀ target, (Key.parse raw).target? = some target → good target
  name : ∀ raw ∈ sample.keys, good (Word.typeName (Key.parse raw).name)
  element : ∀ raw ∈ sample.keys, good (Word.elementTypeName (Key.parse raw).name)

namespace Resolution

variable {options : Options} {sample : Json} {resolution : Resolution} {declaration : Declaration}

/-- **What holds of the name of the root and of what keys make** holds of every name that a
declaration has or mentions, if it goes on to hold with a number behind the name. -/
theorem forall_names {good : String → Prop}
    (declared : SampleShapes.declarations options sample = .ok resolution)
    (root : good options.rootName) (makes : sample.Makes good)
    (numbered : ∀ name (number : Nat), good name → good (name ++ toString number))
    (member : declaration ∈ resolution.declarations) :
    good declaration.name ∧
      ∀ field ∈ declaration.fields, ∀ name ∈ field.type.references, good name := by
  obtain ⟨graph, all, findings, inferred, _, made⟩ := exists_run declared
  have sound := (ShapeGraph.represents_of_infer inferred).toSound
  have named : ∀ {index name},
      (index, name) ∈ (Naming.ofGraph graph options.rootName).entries → good name := by
    refine Naming.forall_mem_entries sound root (fun parent field index wanted edge asks => ?_)
      numbered
    obtain ⟨raw, inside, read⟩ := edge.exists_raw inferred
    cases asks with
    | target names _ => exact makes.target raw inside wanted (read ▸ names)
    | key _ made =>
      rw [read] at made
      rcases made with plain | element
      · rw [plain]
        exact makes.name raw inside
      · rw [element]
        exact makes.element raw inside
  obtain ⟨index, entry, _, fields, found, each⟩ := made.exists_declaredAs member
  refine ⟨named entry, fun field inside name mentioned => ?_⟩
  obtain ⟨⟨raw, source⟩, listed, type, typed, rfl, _⟩ :=
    Lists.exists_mem_of_forall₂_right each inside
  have under := Table.get?_eq_some_iff.mpr listed
  rw [TypeRef.mem_references_collapseNull_iff] at mentioned
  rcases Naming.fieldType_cases typed with ⟨natural, _⟩ | ⟨target, binds, bound, _⟩
  · rw [natural] at mentioned
    obtain ⟨⟨place, name⟩, entry, rfl⟩ :=
      List.mem_map.mp (Naming.isName_of_mem_references mentioned)
    exact named entry
  · rw [bound] at mentioned
    rw [Registry.mem_references_boundType mentioned]
    refine makes.target raw ?_ target ?_
    · exact ShapeGraph.mem_keys_of_infer inferred found (Table.mem_keys_of_get? under)
    · rw [← sound.registry.keyed found raw source under]
      exact binds.named

end Resolution

/-! ### Words for built-in types -/

/-- **The only type name that is a word for a built-in type** is the one with a capital. -/
theorem Word.eq_date_of_mem_builtIn {word : String} (clash : typeName word ∈ TypeRef.builtIn) :
    typeName word = "Date" := by
  have first : ∀ c ∈ (typeName word).toList.head?, c.isLower = false :=
    fun c first => head_typeName first
  generalize typeName word = name at clash first
  simp only [TypeRef.builtIn, List.mem_cons, List.not_mem_nil, or_false] at clash
  rcases clash with rfl | rfl | rfl | rfl | rfl | rfl
  · exact absurd (first 's' rfl) (by decide)
  · exact absurd (first 'n' rfl) (by decide)
  · exact absurd (first 'b' rfl) (by decide)
  · exact absurd (first 'n' rfl) (by decide)
  · exact absurd (first 'a' rfl) (by decide)
  · rfl

/-- No word for a built-in type ends in a digit. -/
theorem TypeRef.not_digit_of_mem_builtIn {word : String} (builtIn : word ∈ TypeRef.builtIn) :
    ∀ c ∈ word.toList.getLast?, ¬ ('0' ≤ c ∧ c ≤ '9') := by
  intro c last
  simp only [TypeRef.builtIn, List.mem_cons, List.not_mem_nil, or_false] at builtIn
  rcases builtIn with rfl | rfl | rfl | rfl | rfl | rfl
  all_goals
    obtain rfl := Option.some.inj last
    decide

/-- **A name with a number behind it is no word for a built-in type.** -/
theorem Naming.eq_of_uniqueName_mem_builtIn {wanted : String} {used : List String}
    (clash : uniqueName wanted used ∈ TypeRef.builtIn) : uniqueName wanted used = wanted := by
  rcases uniqueName_cases wanted used with same | ⟨number, numbered⟩
  · exact same
  · rw [numbered] at clash
    obtain ⟨init, last, digits⟩ :=
      (List.eq_nil_or_concat' (toString number).toList).resolve_left (toString_ne_nil number)
    have digit : '0' ≤ last ∧ last ≤ '9' := mem_toString (by rw [digits]; simp)
    refine absurd digit (TypeRef.not_digit_of_mem_builtIn clash last ?_)
    rw [String.toList_append, digits]
    simp

/-! ### Declarations that are called so -/

/-- The field stands under the raw key, leads to the object at `index`, and asks for the name that
this object has. -/
structure ShapeGraph.Asks (graph : ShapeGraph) (rootName raw : String) (parent : Nat)
    (field : Field) (index : Nat) (name : String) : Prop where
  /-- The object has the name. -/
  named : (index, name) ∈ (Naming.ofGraph graph rootName).entries
  /-- The field leads to it. -/
  leads : graph.Edge parent field index
  /-- Its key is read from the raw one. -/
  read : field.key = Key.parse raw
  /-- It asks for the name. -/
  asks : field.AsksFor graph.registry name

namespace Resolution

variable {options : Options} {sample : Json} {resolution : Resolution} {declaration : Declaration}

/-- **A declaration is called like a built-in type only where a field of the sample asks for it,**
by its target or, for `Date`, by its key. -/
theorem asked_of_builtIn (declared : SampleShapes.declarations options sample = .ok resolution)
    (root : options.rootName ∉ TypeRef.builtIn) (member : declaration ∈ resolution.declarations)
    (clash : declaration.name ∈ TypeRef.builtIn) :
    ∃ graph, ShapeGraph.infer options sample = .ok graph ∧ ∃ raw ∈ sample.keys,
      (∃ parent field index, graph.Asks options.rootName raw parent field index declaration.name) ∧
        ((Key.parse raw).target? = some declaration.name ∨ declaration.name = "Date" ∧
          (Word.typeName (Key.parse raw).name = "Date" ∨
            Word.elementTypeName (Key.parse raw).name = "Date")) := by
  obtain ⟨graph, all, findings, inferred, _, made⟩ := exists_run declared
  obtain ⟨index, entry, _⟩ := made.exists_declaredAs member
  have sound := (ShapeGraph.represents_of_infer inferred).toSound
  obtain ⟨wanted, used, same, origin⟩ := Naming.exists_origin sound entry
  -- Such a name is the wanted one.
  obtain rfl : declaration.name = wanted := by
    rw [same] at clash ⊢
    exact Naming.eq_of_uniqueName_mem_builtIn clash
  rcases origin with atRoot | ⟨parent, field, leads, asks⟩
  · rw [atRoot] at clash
    exact absurd clash root
  · obtain ⟨raw, inside, read⟩ := leads.exists_raw inferred
    refine ⟨graph, inferred, raw, inside, ⟨parent, field, index, entry, leads, read, asks⟩, ?_⟩
    rw [← read]
    cases asks with
    | target names _ => exact .inl names
    | key _ made =>
      refine .inr ?_
      rcases made with plain | element
      · rw [plain] at clash ⊢
        have date := Word.eq_date_of_mem_builtIn clash
        exact ⟨date, .inl date⟩
      · rw [element] at clash ⊢
        have date := Word.eq_date_of_mem_builtIn clash
        exact ⟨date, .inr date⟩

/-- The key of a list makes the name `Date` of its elements. -/
theorem asked_of_plural_key :
    let sample : Json := .object [("dates", .array [.object [("a", .null)]])]
    ∃ resolution, SampleShapes.declarations {} sample = .ok resolution ∧
      ({} : Options).rootName ∉ TypeRef.builtIn ∧
      ∃ declaration ∈ resolution.declarations, declaration.name ∈ TypeRef.builtIn ∧
        ∃ graph, ShapeGraph.infer {} sample = .ok graph ∧ ∃ raw ∈ sample.keys,
          (∃ parent field index,
            graph.Asks ({} : Options).rootName raw parent field index declaration.name) ∧
          ((Key.parse raw).target? = some declaration.name ∨ declaration.name = "Date" ∧
            (Word.typeName (Key.parse raw).name = "Date" ∨
              Word.elementTypeName (Key.parse raw).name = "Date")) := by
  have declared : SampleShapes.declarations {}
      (.object [("dates", .array [.object [("a", .null)]])]) = .ok
        { declarations := [⟨"RootObject", [⟨"dates", .array (.named "Date"), false, .plain⟩]⟩,
            ⟨"Date", [⟨"a", .any, true, .plain⟩]⟩]
          parents := ∅
          warnings := [] } := by
    decide +kernel
  exact ⟨_, declared, by decide, _, .tail _ (.head _), by decide,
    asked_of_builtIn declared (by decide) (.tail _ (.head _)) (by decide)⟩

/-- A declaration is called `string` because a target is, and one text stands for both types. -/
theorem exists_builtIn :
    ({} : Options).rootName ∉ TypeRef.builtIn ∧ ∃ resolution,
      SampleShapes.declarations {} (.object [("x[string]", .object [("a", .string "s")])]) =
        .ok resolution ∧
      (∃ declaration ∈ resolution.declarations, declaration.name ∈ TypeRef.builtIn) ∧
      ∃ first ∈ resolution.declarations, ∃ second ∈ resolution.declarations,
        ∃ field ∈ first.fields, ∃ other ∈ second.fields,
          field.type = .named second.name ∧ other.type = .primitive .string ∧
            field.type.text = other.type.text := by
  have declared : SampleShapes.declarations {}
      (.object [("x[string]", .object [("a", .string "s")])]) = .ok
        { declarations := [⟨"RootObject", [⟨"x", .named "string", false, .reference⟩]⟩,
            ⟨"string", [⟨"a", .primitive .string, false, .plain⟩]⟩]
          parents := ∅
          warnings := [] } := by
    decide +kernel
  exact ⟨by decide, _, declared, ⟨_, .tail _ (.head _), by decide⟩, _, .head _, _,
    .tail _ (.head _), _, .head _, _, .head _, rfl, rfl, rfl⟩

end Resolution

end SampleShapes
