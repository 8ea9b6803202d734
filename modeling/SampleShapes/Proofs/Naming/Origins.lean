/-
**Where names come from.**

A name is that of the root, or a field of the sample asks for it: the field names it as its target,
or it is the type name of the key. All that is added is a number behind it, where the name is taken
already. So what holds of the name of the root, of every target and of every type name of a key, and
goes on to hold with a number behind it, holds of every name.

* `Hint.asksFor_ofField`: what a field asks for;
* `uniqueName_cases`, `mem_toString`: what is added to a name;
* `exists_origin`: **every name is that of the root or was asked for,** with a number behind it
  perhaps;
* `forall_mem_entries`: what holds of all names.
-/

import SampleShapes.Proofs.Naming.Hints
import SampleShapes.Proofs.Naming.Words
import SampleShapes.Proofs.Registry.Vocabulary

namespace SampleShapes

/-! ### What a field asks for -/

/-- The field asks for the objects in its position to have this name. -/
inductive Field.AsksFor (registry : Registry) (field : Field) : (name : String) → Prop where
  /-- It names the target of a value with structure. -/
  | target {name : String} (names : field.key.target? = some name)
      (structured : registry.isPlaceholder field.shape = false) : AsksFor registry field name
  /-- It names no target, or that of a placeholder, so that its key makes the name. -/
  | key {name : String} (loose : field.key.target? = none ∨ registry.isPlaceholder field.shape)
      (made : name = Word.typeName field.key.name ∨ name = Word.elementTypeName field.key.name) :
      AsksFor registry field name

/-- **A field asks for the name of its hint.** -/
theorem Hint.asksFor_ofField (registry : Registry) (field : Field) (element : Bool) :
    field.AsksFor registry (Hint.name { Hint.ofField registry field with element }) := by
  have made : ∀ tier, Hint.name ⟨field.key.name, tier, false, element⟩ =
      Word.typeName field.key.name ∨ Hint.name ⟨field.key.name, tier, false, element⟩ =
        Word.elementTypeName field.key.name := by
    intro tier
    cases element
    · exact .inl (by simp [Hint.name])
    · exact .inr (by simp [Hint.name])
  cases names : field.key.target? with
  | none =>
    unfold Hint.ofField
    rw [names]
    exact .key (.inl names) (made .key)
  | some target =>
    unfold Hint.ofField
    rw [names]
    dsimp only
    split
    · next placeholder => exact .key (.inr placeholder) (made .placeholder)
    · next structured => exact .target names (Bool.eq_false_iff.mpr structured)

namespace Naming

open ShapeGraph

variable {graph : ShapeGraph} {rootName name wanted : String} {used : List String} {index : Nat}

/-! ### What is added -/

/-- A unique name is the wanted one, perhaps with a number behind it. -/
theorem uniqueName_cases (wanted : String) (used : List String) :
    uniqueName wanted used = wanted ∨
      ∃ number : Nat, uniqueName wanted used = wanted ++ toString number := by
  unfold uniqueName
  split
  · exact .inl rfl
  · exact .inr ⟨_, rfl⟩

/-- A number is written in digits. -/
theorem mem_toString {number : Nat} {c : Char} (member : c ∈ (toString number).toList) :
    '0' ≤ c ∧ c ≤ '9' := by
  rw [Nat.toString_eq_ofList_toDigits, String.toList_ofList] at member
  have digit := Nat.isDigit_of_mem_toDigits (by decide) (by decide) member
  rw [Char.isDigit, Bool.and_eq_true, decide_eq_true_eq, decide_eq_true_eq] at digit
  exact ⟨Char.le_def.mpr digit.1, Char.le_def.mpr digit.2⟩

theorem toString_ne_nil (number : Nat) : (toString number).toList ≠ [] := by
  rw [Nat.toString_eq_ofList_toDigits, String.toList_ofList]
  exact Nat.toDigits_ne_nil

/-! ### Where a name comes from -/

/-- **Every name is that of the root, or a field that leads to its object asked for it;** a number
may have been put behind it. -/
theorem exists_origin (sound : graph.Sound)
    (entry : (index, name) ∈ (ofGraph graph rootName).entries) :
    ∃ wanted used, name = uniqueName wanted used ∧ (wanted = rootName ∨
      ∃ parent field, graph.Edge parent field index ∧ field.AsksFor graph.registry wanted) := by
  obtain ⟨hint, used, chosen, same⟩ := exists_choice_of_mem_entries entry
  refine ⟨hint.name, used, same, ?_⟩
  have noted := Walk.mem_hints_of_best? (mem_choosing_iff.mp chosen).2
  by_cases root : (index, hint) ∈ graph.hintsAt (Hint.ofRoot rootName) graph.root
  · exact .inl (Walk.of_mem_hintsAt_root root).2.2
  · obtain ⟨parent, field, element, edge, rfl⟩ := exists_edge_of_mem_hints sound noted root
    exact .inr ⟨parent, field, edge, Hint.asksFor_ofField graph.registry field element⟩

/-- **What holds of the name of the root and of what fields ask for** holds of every name, if it
goes on to hold with a number behind the name. -/
theorem forall_mem_entries {good : String → Prop} (sound : graph.Sound) (root : good rootName)
    (asked : ∀ parent field index wanted, graph.Edge parent field index →
      field.AsksFor graph.registry wanted → good wanted)
    (numbered : ∀ name (number : Nat), good name → good (name ++ toString number))
    (entry : (index, name) ∈ (ofGraph graph rootName).entries) : good name := by
  obtain ⟨wanted, used, rfl, origin⟩ := exists_origin sound entry
  have holds : good wanted := by
    rcases origin with rfl | ⟨parent, field, edge, asks⟩
    · exact root
    · exact asked parent field index wanted edge asks
  rcases uniqueName_cases wanted used with same | ⟨number, same⟩
  · rwa [same]
  · rw [same]
    exact numbered wanted number holds

end Naming

/-- **A field of a graph stands under a key of its sample,** read. -/
theorem ShapeGraph.Edge.exists_raw {graph : ShapeGraph} {options : Options} {sample : Json}
    {parent index : Nat} {field : Field} (inferred : infer options sample = .ok graph)
    (edge : graph.Edge parent field index) : ∃ raw ∈ sample.keys, field.key = Key.parse raw := by
  obtain ⟨fields, found, value⟩ := edge.owns
  obtain ⟨raw, under⟩ := Table.mem_values_iff.mp value
  exact ⟨raw, mem_keys_of_infer inferred found (Table.mem_keys_of_get? under),
    (represents_of_infer inferred).toSound.registry.keyed found raw field under⟩

end SampleShapes
