/-
**What objects say about a key.**

The evidence that is gathered from some objects under one raw key depends on nothing but their
fields under this key: their shapes, each once, how many there are, and whether one is optional.

* `get?_gather`: the evidence under a key is that of the fields under it;
* `mem_keys_gather_iff`: there is some exactly under the keys of the objects.
-/

import SampleShapes.Proofs.Table
import SampleShapes.Registry.Merge

namespace SampleShapes.Evidence

/-- The evidence of the fields that stand under one raw key. -/
def ofFields : List Field → Option Evidence
  | [] => none
  | first :: rest =>
    some ⟨first.key, ((first :: rest).map Field.shape).eraseDups, (first :: rest).length,
      (first :: rest).any Field.optional⟩

theorem ofFields_concat (fields : List Field) (last : Field) :
    ofFields (fields ++ [last]) = some (Evidence.add last (ofFields fields)) := by
  cases fields with
  | nil =>
    have single : [last.shape].eraseDups = [last.shape] := rfl
    simp [ofFields, Evidence.add, single]
  | cons first rest =>
    have shapes := Lists.eraseDups_concat ((first :: rest).map Field.shape) last.shape
    simp only [List.cons_append, ofFields, Evidence.add, Option.some.injEq, Evidence.mk.injEq,
      true_and]
    refine ⟨?_, by simp, by simp [Bool.or_assoc]⟩
    rw [← List.cons_append, List.map_append]
    exact shapes

theorem foldl_add (fields : List Field) :
    fields.foldl (fun found field => some (Evidence.add field found)) none = ofFields fields := by
  induction fields using List.reverseRecOn with
  | nil => rfl
  | append_singleton rest last step =>
    rw [List.foldl_append, step, ofFields_concat]
    rfl

/-! ### One object after the other -/

/-- One object changes the evidence under its own keys. -/
theorem get?_foldl_entries (entries : List (String × Field))
    (distinct : (entries.map Prod.fst).Nodup) (table : Table String Evidence) (raw : String) :
    (entries.foldl (fun table (raw, field) => table.alter raw (Evidence.add field))
        table).get? raw =
      (entries.lookup raw).elim (table.get? raw)
        fun field => some (Evidence.add field (table.get? raw)) := by
  induction entries generalizing table with
  | nil => rfl
  | cons entry rest step =>
    rcases entry with ⟨first, field⟩
    rw [List.map_cons, List.nodup_cons] at distinct
    rw [List.foldl_cons, step distinct.2, Table.get?_alter, List.lookup_cons]
    by_cases same : raw = first
    · subst same
      have absent : rest.lookup raw = none := by
        rw [← Option.not_isSome_iff_eq_none, Lists.lookup_isSome_iff_mem]
        exact distinct.1
      simp [absent]
    · simp [same, beq_eq_false_iff_ne.mpr same]

theorem get?_foldl_objects (objects : List (Table String Field)) (table : Table String Evidence)
    (raw : String) :
    (objects.foldl
        (fun table fields =>
          fields.entries.foldl (fun table (raw, field) => table.alter raw (Evidence.add field))
            table)
        table).get? raw =
      (objects.filterMap (·.get? raw)).foldl (fun found field => some (Evidence.add field found))
        (table.get? raw) := by
  induction objects generalizing table with
  | nil => rfl
  | cons fields rest step =>
    rw [List.foldl_cons, step, get?_foldl_entries _ fields.distinct]
    have found : fields.entries.lookup raw = fields.get? raw := rfl
    rw [found]
    cases here : fields.get? raw <;> simp [here]

/-- **The evidence under a key is that of the fields under it.** -/
theorem get?_gather (objects : List (Table String Field)) (raw : String) :
    (gather objects).get? raw = ofFields (objects.filterMap (·.get? raw)) := by
  rw [gather, get?_foldl_objects, Table.get?_empty, foldl_add]

/-! ### Reading evidence -/

/-- **There is evidence exactly under the keys of the objects.** -/
theorem mem_keys_gather_iff {objects : List (Table String Field)} {raw : String} :
    raw ∈ (gather objects).keys ↔ ∃ object ∈ objects, raw ∈ object.keys := by
  have some_iff : (ofFields (objects.filterMap (·.get? raw))).isSome ↔
      objects.filterMap (·.get? raw) ≠ [] := by
    cases objects.filterMap (·.get? raw) <;> simp [ofFields]
  rw [← Table.isSome_get?_iff, get?_gather, some_iff]
  constructor
  · intro some
    obtain ⟨field, member⟩ := List.exists_mem_of_ne_nil _ some
    obtain ⟨object, inside, found⟩ := List.mem_filterMap.mp member
    exact ⟨object, inside, Table.mem_keys_of_get? found⟩
  · rintro ⟨object, inside, member⟩
    obtain ⟨field, found⟩ := Table.exists_get?_of_mem_keys member
    exact List.ne_nil_of_mem (List.mem_filterMap.mpr ⟨object, inside, found⟩)

/-- What evidence says. -/
theorem eq_of_get?_gather {objects : List (Table String Field)} {raw : String}
    {evidence : Evidence} (found : (gather objects).get? raw = some evidence) :
    (∃ field ∈ objects.filterMap (·.get? raw), evidence.key = field.key) ∧
      evidence.shapes = ((objects.filterMap (·.get? raw)).map Field.shape).eraseDups ∧
      evidence.holders = (objects.filterMap (·.get? raw)).length ∧
      evidence.optional = (objects.filterMap (·.get? raw)).any Field.optional := by
  rw [get?_gather] at found
  cases fields : objects.filterMap (·.get? raw) with
  | nil => simp [fields, ofFields] at found
  | cons first rest =>
    rw [fields, ofFields] at found
    obtain rfl := Option.some.inj found
    exact ⟨⟨first, List.mem_cons_self, rfl⟩, rfl, rfl, rfl⟩

end SampleShapes.Evidence
