/-
**Fingerprints.**

Two shapes have the same fingerprint exactly if they are of one kind and hold the same: the same
members, or the same raw keys with the same optionality and the same identity under each. The order
of fields does not count.

* `sort_eq_insertionSort`: fields are sorted by insertion;
* `fingerprint_object_eq_iff`: fingerprints of objects compare their fields as finite maps;
* `Keyed.get?_eq`: keys that are read from their raw keys add nothing to the fingerprint.
-/

import Mathlib.Data.List.Nodup
import Mathlib.Data.List.Sort
import Mathlib.Data.String.Basic
import SampleShapes.Proofs.Table
import SampleShapes.Shape.Basic

namespace SampleShapes

/-- **Sorting is sorting by insertion** as the library knows it. -/
theorem Sorting.sort_eq_insertionSort {α : Type} {before : α → α → Prop} [DecidableRel before]
    (entries : List α) :
    sort (fun first second => before first second) entries = entries.insertionSort before := by
  have inserts (entry : α) (entries : List α) :
      insert (fun first second => before first second) entry entries =
        entries.orderedInsert before entry := by
    induction entries with
    | nil => rfl
    | cons other rest step => simp only [insert, List.orderedInsert, decide_eq_true_eq, step]
  induction entries with
  | nil => rfl
  | cons entry rest step =>
    rw [List.insertionSort_cons, ← step, ← inserts]
    rfl

/-- What of a field counts for the identity of its object. -/
def Field.outline (field : Field) : Bool × ShapeId := (field.optional, field.shape)

namespace Shape

/-! ### Fingerprints of objects -/

/-- The fields of an object as they enter its fingerprint. -/
def outlines (fields : Table String Field) : List (String × Bool × ShapeId) :=
  fields.entries.map fun entry => (entry.1, entry.2.outline)

theorem map_fst_outlines (fields : Table String Field) :
    (outlines fields).map Prod.fst = fields.keys := by
  rw [outlines, List.map_map]
  rfl

theorem nodup_outlines (fields : Table String Field) :
    ((outlines fields).map Prod.fst).Nodup := by
  rw [map_fst_outlines]
  exact fields.distinct

theorem mem_outlines_iff {fields : Table String Field} {raw : String} {outline : Bool × ShapeId} :
    (raw, outline) ∈ outlines fields ↔ (fields.get? raw).map Field.outline = some outline := by
  rw [outlines, List.mem_map, Option.map_eq_some_iff]
  constructor
  · rintro ⟨⟨_, field⟩, member, same⟩
    obtain ⟨rfl, rfl⟩ := Prod.mk.inj same
    exact ⟨field, Table.get?_eq_some_iff.mpr member, rfl⟩
  · rintro ⟨field, found, rfl⟩
    exact ⟨(raw, field), Table.get?_eq_some_iff.mp found, rfl⟩

/-- Two lists of entries with distinct keys that hold the same entries are equal once sorted. -/
theorem sort_eq_of_perm {ν : Type} {entries others : List (String × ν)}
    (distinct : (entries.map Prod.fst).Nodup) (same : entries.Perm others) :
    Sorting.sort (fun first second => first.1 ≤ second.1) entries =
      Sorting.sort (fun first second => first.1 ≤ second.1) others := by
  have : Std.Total fun first second : String × ν => first.1 ≤ second.1 :=
    ⟨fun first second => le_total first.1 second.1⟩
  have : IsTrans (String × ν) fun first second => first.1 ≤ second.1 :=
    ⟨fun _ _ _ low high => le_trans low high⟩
  rw [Sorting.sort_eq_insertionSort, Sorting.sort_eq_insertionSort]
  -- Distinct keys leave no ties, so that there is one sorted order only.
  refine List.Perm.eq_of_pairwise ?_ (List.pairwise_insertionSort _ entries)
    (List.pairwise_insertionSort _ others)
    ((List.perm_insertionSort _ entries).trans (same.trans (List.perm_insertionSort _ others).symm))
  intro first second member member' low high
  have inside : first ∈ entries := (List.mem_insertionSort _).mp member
  have inside' : second ∈ entries := same.mem_iff.mpr ((List.mem_insertionSort _).mp member')
  exact List.inj_on_of_nodup_map distinct inside inside' (le_antisymm low high)

/-- **Fingerprints of objects compare their fields as finite maps.** -/
theorem fingerprint_object_eq_iff {fields others : Table String Field} :
    (object fields).fingerprint = (object others).fingerprint ↔
      ∀ raw, (fields.get? raw).map Field.outline = (others.get? raw).map Field.outline := by
  have unfolded (fields : Table String Field) : (object fields).fingerprint =
      .object (Sorting.sort (fun first second => first.1 ≤ second.1) (outlines fields)) := rfl
  have sorted (fields : Table String Field) (entry : String × Bool × ShapeId) :
      entry ∈ Sorting.sort (fun first second => first.1 ≤ second.1) (outlines fields) ↔
        entry ∈ outlines fields := by
    rw [Sorting.sort_eq_insertionSort, List.mem_insertionSort]
  rw [unfolded, unfolded, Fingerprint.object.injEq]
  constructor
  · intro same raw
    refine Option.ext fun outline => ?_
    rw [← mem_outlines_iff, ← mem_outlines_iff, ← sorted, same, sorted]
  · intro same
    refine sort_eq_of_perm (nodup_outlines fields) ?_
    refine (List.perm_ext_iff_of_nodup (.of_map _ (nodup_outlines fields))
      (.of_map _ (nodup_outlines others))).mpr ?_
    rintro ⟨raw, outline⟩
    rw [mem_outlines_iff, mem_outlines_iff, same raw]

/-! ### Shapes of one fingerprint -/

theorem eq_list_of_fingerprint {shape : Shape} {elements : IdSet}
    (same : shape.fingerprint = (list elements).fingerprint) : shape = list elements := by
  cases shape with
  | list others =>
    have equal : others = elements := Fingerprint.list.inj same
    rw [equal]
  | object _ => cases same
  | union _ => cases same

theorem eq_union_of_fingerprint {shape : Shape} {members : IdSet}
    (same : shape.fingerprint = (union members).fingerprint) : shape = union members := by
  cases shape with
  | union others =>
    have equal : others = members := Fingerprint.union.inj same
    rw [equal]
  | object _ => cases same
  | list _ => cases same

theorem exists_object_of_fingerprint {shape : Shape} {fields : Table String Field}
    (same : shape.fingerprint = (object fields).fingerprint) :
    ∃ others, shape = object others ∧
      ∀ raw, (others.get? raw).map Field.outline = (fields.get? raw).map Field.outline := by
  cases shape with
  | object others => exact ⟨others, rfl, fingerprint_object_eq_iff.mp same⟩
  | list _ => cases same
  | union _ => cases same

/-! ### Keys -/

/-- Every key is read from its raw key. -/
def Keyed (fields : Table String Field) : Prop :=
  ∀ raw field, fields.get? raw = some field → field.key = Key.parse raw

/-- **Keys that are read from their raw keys add nothing to the fingerprint.** -/
theorem Keyed.get?_eq {fields others : Table String Field} (keyed : Keyed fields)
    (keyed' : Keyed others)
    (same : ∀ raw, (fields.get? raw).map Field.outline = (others.get? raw).map Field.outline)
    (raw : String) : fields.get? raw = others.get? raw := by
  have here := same raw
  cases found : fields.get? raw with
  | none =>
    rw [found] at here
    exact (Option.map_eq_none_iff.mp here.symm).symm
  | some field =>
    rw [found] at here
    obtain ⟨other, found', equal⟩ := Option.map_eq_some_iff.mp here.symm
    have keys : other.key = field.key := by rw [keyed' raw other found', keyed raw field found]
    obtain ⟨optional, shape⟩ := Prod.mk.inj equal
    rw [found']
    cases field
    cases other
    simp only at keys optional shape
    rw [keys, optional, shape]

end Shape

end SampleShapes
