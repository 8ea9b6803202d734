/-
**Names that are identifiers.**

A target in brackets is an identifier, and the name that a key in ASCII makes is one, too: whatever
is left of the key, be it nothing, starts with a capital or is made to start with one or with an
underscore. Taking the singular brings in no character beyond ASCII. So where all keys of a sample
are in ASCII and the name of the root is an identifier, every name is.

* `Key.isIdentifier_target`, `Word.isIdentifier_elementTypeName`: the names that a key makes;
* `Json.makes_identifiers`: **a sample with keys in ASCII makes identifiers;**
* `isIdentifier_numbered`: a number may stand behind an identifier;
* `Resolution.identifiers_of_declarations`: **all names are identifiers.**
-/

import SampleShapes.Proofs.Naming.Singulars
import SampleShapes.Proofs.Resolution.Names

namespace SampleShapes

/-! ### Names that keys make -/

theorem Key.isAscii_name {raw : String} (ascii : IsAscii raw) : IsAscii (parse raw).name :=
  fun c member => ascii c (mem_of_mem_name_parse member)

/-- **The name for the elements of a list is an identifier,** if its word is in ASCII. -/
theorem Word.isIdentifier_elementTypeName {word : String} (ascii : IsAscii word) :
    IsIdentifier (elementTypeName word).toList :=
  isIdentifier_typeName fun c member => (mem_singular member).elim (ascii c) id

/-- **A target is an identifier,** if its key is in ASCII. -/
theorem Key.isIdentifier_target {raw target : String} (ascii : IsAscii raw)
    (names : (parse raw).target? = some target) : IsIdentifier target.toList := by
  rcases target_cases names with identifier | ⟨base, rfl, rfl⟩
  · exact identifier
  · refine Word.isIdentifier_elementTypeName fun c member => ascii c ?_
    rw [String.toList_append]
    exact List.mem_append_right _ member

/-- Every key inside of the value is in ASCII. -/
def Json.KeysAscii (sample : Json) : Prop := ∀ raw ∈ sample.keys, IsAscii raw

instance : DecidablePred Json.KeysAscii := fun sample => List.decidableBAll IsAscii sample.keys

/-- **A sample with keys in ASCII makes identifiers.** -/
theorem Json.makes_identifiers {sample : Json} (ascii : sample.KeysAscii) :
    sample.Makes fun name => IsIdentifier name.toList where
  target raw member _ names := Key.isIdentifier_target (ascii raw member) names
  name raw member := Word.isIdentifier_typeName (Key.isAscii_name (ascii raw member))
  element raw member := Word.isIdentifier_elementTypeName (Key.isAscii_name (ascii raw member))

/-- **A number may stand behind an identifier.** -/
theorem isIdentifier_numbered (name : String) (number : Nat)
    (identifier : IsIdentifier name.toList) :
    IsIdentifier (name ++ toString number).toList := by
  rw [String.toList_append]
  obtain ⟨first, rest, chars⟩ := List.exists_cons_of_ne_nil identifier.ne_nil
  refine ⟨?_, fun c member => ?_, ?_⟩
  · rw [chars]
    exact List.cons_ne_nil _ _
  · rcases List.mem_append.mp member with own | digit
    · exact identifier.all c own
    · exact .inr (.inr (.inl (Naming.mem_toString digit)))
  · have start := identifier.start
    rw [chars] at start ⊢
    exact start

/-! ### All names -/

namespace Resolution

variable {options : Options} {sample : Json} {resolution : Resolution}

/-- Every name in the resolution is an identifier. -/
structure Identifiers (resolution : Resolution) : Prop where
  /-- The name of a declaration. -/
  declared : ∀ declaration ∈ resolution.declarations, IsIdentifier declaration.name.toList
  /-- A name in the type of a field. -/
  mentioned : ∀ declaration ∈ resolution.declarations, ∀ field ∈ declaration.fields,
    ∀ name ∈ field.type.references, IsIdentifier name.toList
  /-- A child and its parent. -/
  parents : ∀ child parent, resolution.parents.get? child = some parent →
    IsIdentifier child.toList ∧ IsIdentifier parent.toList

/-- **All names are identifiers** where the name of the root is one and keys are in ASCII. -/
theorem identifiers_of_declarations
    (declared : SampleShapes.declarations options sample = .ok resolution)
    (ascii : sample.KeysAscii) (root : IsIdentifier options.rootName.toList) :
    resolution.Identifiers := by
  have names : ∀ declaration ∈ resolution.declarations,
      IsIdentifier declaration.name.toList ∧ ∀ field ∈ declaration.fields,
        ∀ name ∈ field.type.references, IsIdentifier name.toList := fun _ =>
    forall_names declared root (Json.makes_identifiers ascii) isIdentifier_numbered
  have own : ∀ {name}, resolution.Declares name → IsIdentifier name.toList := by
    intro name declares
    obtain ⟨declaration, member, rfl⟩ := List.mem_map.mp declares
    exact (names declaration member).1
  refine ⟨fun declaration member => (names declaration member).1,
    fun declaration member => (names declaration member).2, fun child parent found => ?_⟩
  obtain ⟨graph, all, findings, _, made⟩ := exists_madeFrom declared
  obtain ⟨declaresChild, declaresParent, _⟩ := made.declares_of_parents found
  exact ⟨own declaresChild, own declaresParent⟩

/-- A key that starts with a digit, one with nothing in it, and one with a target. -/
theorem identifiers_of_odd_keys :
    let sample : Json := .object [("2 men", .array [.object [("a", .null)]]),
      ("", .object [("b", .null)]), ("+--[$T]", .object [("c", .null)])]
    ∃ resolution, SampleShapes.declarations {} sample = .ok resolution ∧ sample.KeysAscii ∧
      IsIdentifier ({} : Options).rootName.toList ∧
      resolution.declarations.map Declaration.name = ["RootObject", "_2Man", "Type", "$T"] ∧
      resolution.parents.get? "$T" = some "RootObject" ∧ resolution.Identifiers := by
  have declared : SampleShapes.declarations {}
      (.object [("2 men", .array [.object [("a", .null)]]), ("", .object [("b", .null)]),
        ("+--[$T]", .object [("c", .null)])]) = .ok
        { declarations := [
            ⟨"RootObject", [⟨"2 men", .array (.named "_2Man"), false, .plain⟩,
              ⟨"", .named "Type", false, .plain⟩, ⟨"--", .named "$T", false, .subclass⟩]⟩,
            ⟨"_2Man", [⟨"a", .any, true, .plain⟩]⟩, ⟨"Type", [⟨"b", .any, true, .plain⟩]⟩,
            ⟨"$T", [⟨"c", .any, true, .plain⟩]⟩]
          parents := .ofList [("$T", "RootObject")]
          warnings := [] } := by
    decide +kernel
  have ascii : Json.KeysAscii (.object [("2 men", .array [.object [("a", .null)]]),
      ("", .object [("b", .null)]), ("+--[$T]", .object [("c", .null)])]) := by
    decide
  have root : IsIdentifier ({} : Options).rootName.toList := by decide
  exact ⟨_, declared, ascii, root, rfl, rfl, identifiers_of_declarations declared ascii root⟩

end Resolution

end SampleShapes
