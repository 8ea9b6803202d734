/-
**Merging placeholders.**

Null, the object without fields and the list without elements stand for values that carry no
structure of their own. A registry keeps each of them once, so that several placeholders are of
different kinds: they merge to their union, and a union is no placeholder, even if there is nothing
but placeholders in it.

* `isPlaceholder_iff`: the placeholders where every shape is normal;
* `Hollow.fields?_eq`, `Hollow.elements?_eq`: what objects and lists among them consist of;
* `IsNullable.members?_eq`: what is nullable and joins two identities is their union;
* `Joins.members?_of_hollow`: **several placeholders join to their union;**
* `Produced.isPlaceholder_merge_iff`: **placeholders merge to a placeholder exactly if they are all
  the same;**
* `exists_placeholders_lost`: so an object without fields may declare the target of a reference.
-/

import SampleShapes.Declare
import SampleShapes.Proofs.Registry.Lasting
import SampleShapes.Proofs.Registry.Spreading

namespace SampleShapes.Registry

variable {registry later : Registry} {candidates ids : List ShapeId} {id solid joined : ShapeId}
  {options : Options}

/-! ### Placeholders among normal shapes -/

/-- Null, the object without fields, or the list over the union of nothing. -/
inductive Hollow (registry : Registry) : ShapeId → Prop where
  | null : Hollow registry .null
  | object {id : ShapeId} (found : registry.fields? id = some ∅) : Hollow registry id
  | list {id element : ShapeId} (found : registry.elements? id = some (.singleton element))
      (nothing : registry.members? element = some ∅) : Hollow registry id

/-- **The placeholders where every shape is normal.** -/
theorem isPlaceholder_iff (normal : registry.Normal) :
    registry.isPlaceholder id = true ↔ registry.Hollow id := by
  unfold isPlaceholder
  rw [Bool.or_eq_true, decide_eq_true_eq]
  constructor
  · rintro (rfl | bare)
    · exact .null
    split at bare
    · next fields found =>
      rw [Table.isEmpty_iff.mp bare] at found
      exact .object (fields?_eq_some_iff.mpr found)
    · next elements found =>
      have found := elements?_eq_some_iff.mpr found
      obtain ⟨element, rfl⟩ := normal.singleton found
      have bare := List.all_eq_true.mp bare element (List.mem_singleton_self element)
      cases union : registry.members? element with
      | none => rw [union] at bare; cases bare
      | some members =>
        rw [union] at bare
        exact .list found (union.trans (congrArg some (IdSet.isEmpty_iff.mp bare)))
    · cases bare
  · intro hollow
    cases hollow with
    | null => exact .inl rfl
    | object found =>
      rw [fields?_eq_some_iff.mp found]
      exact .inr rfl
    | list found nothing =>
      rw [elements?_eq_some_iff.mp found]
      refine .inr (List.all_eq_true.mpr fun element member => ?_)
      rw [List.mem_singleton.mp member, nothing]
      rfl

namespace Hollow

theorem holds (hollow : registry.Hollow id) : registry.Holds id := by
  cases hollow with
  | null => trivial
  | object found => exact holds_of_shape? (fields?_eq_some_iff.mp found)
  | list found => exact holds_of_shape? (elements?_eq_some_iff.mp found)

theorem grow (hollow : registry.Hollow id) (within : registry.Within later) : later.Hollow id := by
  cases hollow with
  | null => exact .null
  | object found => exact .object (within.fields? found)
  | list found nothing => exact .list (within.elements? found) (within.members? nothing)

/-- No placeholder is a union. -/
theorem members?_eq_none (hollow : registry.Hollow id) : registry.members? id = none := by
  cases hollow with
  | null => rfl
  | object found => exact members?_eq_none_of_fields? (Option.isSome_of_eq_some found)
  | list found => exact members?_eq_none_of_elements? (Option.isSome_of_eq_some found)

/-- An object among placeholders has no fields. -/
theorem fields?_eq (hollow : registry.Hollow id) {fields : Table String Field}
    (found : registry.fields? id = some fields) : fields = ∅ := by
  cases hollow with
  | null => cases found
  | object found' => exact Option.some.inj (found.symm.trans found')
  | list found' =>
    rw [elements?_eq_none_of_fields? (Option.isSome_of_eq_some found)] at found'
    cases found'

/-- A list among placeholders is one over the union of nothing. -/
theorem elements?_eq (hollow : registry.Hollow id) {elements : IdSet}
    (found : registry.elements? id = some elements) :
    ∃ element, elements = .singleton element ∧ registry.members? element = some ∅ := by
  cases hollow with
  | null => cases found
  | object found' =>
    rw [elements?_eq_none_of_fields? (Option.isSome_of_eq_some found')] at found
    cases found
  | @list _ element found' nothing =>
    exact ⟨element, Option.some.inj (found.symm.trans found'), nothing⟩

end Hollow

theorem flatten_of_hollow (hollow : ∀ candidate ∈ candidates, registry.Hollow candidate) :
    registry.flatten candidates = candidates.eraseDups :=
  flatten_of_flat fun candidate member => (hollow candidate member).members?_eq_none

/-! ### Several placeholders -/

/-- What is nullable and joins two identities is their union. -/
theorem IsNullable.members?_eq (nullable : registry.IsNullable ids solid joined)
    (once : ids.Nodup) (several : 2 ≤ ids.length) (all : ∀ id ∈ ids, id ≠ .null → id = solid) :
    registry.members? joined = some (.ofList ids) := by
  obtain ⟨first, member, notSolid⟩ := Lists.exists_ne_of_nodup once several solid
  obtain ⟨second, member', notNull⟩ := Lists.exists_ne_of_nodup once several .null
  have isNull : first = .null := by
    by_contra notNull
    exact notSolid (all first member notNull)
  have isSolid := all second member' notNull
  subst isNull isSolid
  rw [IsNullable, if_pos member] at nullable
  rw [nullable, IdSet.ofList_congr fun id => ?_]
  rw [List.mem_cons, List.mem_singleton]
  constructor
  · rintro (rfl | rfl)
    · exact member'
    · exact member
  · intro inside
    by_cases null : id = .null
    · exact .inr null
    · exact .inl (all id inside null)

/-- Objects without fields unite to one without fields. -/
theorem Unites.eq_empty {objects : List (Table String Field)} {fields : Table String Field}
    (unites : Unites objects fields) (bare : ∀ object ∈ objects, object = ∅) : fields = ∅ := by
  have noKeys : fields.keys = [] := by
    refine List.eq_nil_iff_forall_not_mem.mpr fun raw key => ?_
    obtain ⟨object, among, inside⟩ := (unites.keys raw).mp key
    rw [bare object among] at inside
    exact absurd inside List.not_mem_nil
  exact Table.eq_of_entries_eq (List.map_eq_nil_iff.mp noKeys)

/-- The unions of nothing join to the union of nothing. -/
theorem Joins.of_nothing (joins : registry.Joins candidates joined)
    (nothing : ∀ candidate ∈ candidates, registry.members? candidate = some ∅) :
    registry.members? joined = some ∅ := by
  rcases flatten_cases registry candidates with flat | ⟨only, alone, flat⟩
  · refine joins.of_nil (flat.trans (List.eq_nil_iff_forall_not_mem.mpr fun id member => ?_))
    obtain ⟨candidate, inside, alternative⟩ := mem_spread_iff.mp member
    rw [alternatives_of_members? (nothing candidate inside)] at alternative
    exact absurd alternative List.not_mem_nil
  · rw [joins.of_singleton flat]
    exact nothing only (Lists.eraseDups_eq_singleton_iff.mp alone).1

/-- **Several placeholders join to their union.** -/
theorem Joins.members?_of_hollow (sound : registry.Sound)
    (joins : registry.Joins candidates joined)
    (hollow : ∀ candidate ∈ candidates, registry.Hollow candidate)
    (apart : ∃ first ∈ candidates, ∃ second ∈ candidates, first ≠ second) :
    registry.members? joined = some (.ofList candidates) := by
  have flat := flatten_of_hollow hollow
  have once := nodup_flatten registry candidates
  have several : 2 ≤ (registry.flatten candidates).length := by
    obtain ⟨first, member, second, member', apart⟩ := apart
    rw [flat]
    exact (Lists.one_lt_length_iff_exists_ne (Lists.nodup_eraseDups _)
      (List.mem_eraseDups.mpr member')).mpr ⟨first, List.mem_eraseDups.mpr member, apart⟩
  have listed : ∀ id ∈ registry.flatten candidates, registry.Hollow id := by
    rw [flat]
    exact fun id member => hollow id (List.mem_eraseDups.mp member)
  have same : IdSet.ofList (registry.flatten candidates) = .ofList candidates := by
    rw [flat]
    exact IdSet.ofList_congr fun id => List.mem_eraseDups
  rw [← same]
  cases registry.kinds candidates with
  | nothing none => rw [none] at several; exact absurd several (by decide)
  | alone single => rw [single] at several; exact absurd several (by simp)
  | @objects objects _ all =>
    obtain ⟨solid, fields, found, unites, _, nullable⟩ := joins.of_several_objects several all
    have bare : fields = ∅ := unites.eq_empty fun object among => by
      obtain ⟨id, member, here⟩ := exists_fields?_of_mem all among
      exact (listed id member).fields?_eq here
    -- The join has no fields either, so that it is the one that each of them is.
    refine nullable.members?_eq once several fun id member notNull => ?_
    obtain ⟨object, _, here⟩ := exists_result_of_mem all member notNull
    rw [(listed id member).fields?_eq here, ← bare] at here
    exact sound.eq_of_shape? (fields?_eq_some_iff.mp here) (fields?_eq_some_iff.mp found)
  | @lists lists _ all =>
    obtain ⟨solid, element, found, each, nullable⟩ := joins.of_several_lists several all
    have nothing : registry.members? element = some ∅ := each.of_nothing fun id member => by
      obtain ⟨list, among, part⟩ := List.mem_flatMap.mp member
      obtain ⟨holder, inside, here⟩ := exists_elements?_of_mem all among
      obtain ⟨only, rfl, none⟩ := (listed holder inside).elements?_eq here
      rwa [List.mem_singleton.mp part]
    -- The union of nothing is kept once, and so is the list over it.
    refine nullable.members?_eq once several fun id member notNull => ?_
    obtain ⟨list, _, here⟩ := exists_result_of_mem all member notNull
    obtain ⟨only, rfl, none⟩ := (listed id member).elements?_eq here
    obtain rfl := sound.eq_of_shape? (members?_eq_some_iff.mp none)
      (members?_eq_some_iff.mp nothing)
    exact sound.eq_of_shape? (elements?_eq_some_iff.mp here) (elements?_eq_some_iff.mp found)
  | mixed _ notObjects notLists => exact joins.of_several_mix several notObjects notLists

/-- **Placeholders merge to a placeholder exactly if they are all the same.** All others merge to
their union. -/
theorem Produced.isPlaceholder_merge_iff (produced : Produced options registry)
    (nonempty : candidates ≠ [])
    (placeholders : ∀ candidate ∈ candidates, registry.isPlaceholder candidate = true) :
    ((registry.merge candidates).2.isPlaceholder (registry.merge candidates).1 = true ↔
        ∀ first ∈ candidates, ∀ second ∈ candidates, first = second) ∧
      ((∃ first ∈ candidates, ∃ second ∈ candidates, first ≠ second) →
        (registry.merge candidates).2.members? (registry.merge candidates).1 =
          some (.ofList candidates)) := by
  have hollow : ∀ candidate ∈ candidates, registry.Hollow candidate := fun candidate member =>
    (isPlaceholder_iff produced.normal).mp (placeholders candidate member)
  have held : ∀ candidate ∈ candidates, registry.Holds candidate := fun candidate member =>
    (hollow candidate member).holds
  have merged := merge_merged produced.sound held
  have normal := merge_normal produced.sound produced.normal held
  have union (apart : ∃ first ∈ candidates, ∃ second ∈ candidates, first ≠ second) :
      (registry.merge candidates).2.members? (registry.merge candidates).1 =
        some (.ofList candidates) :=
    merged.joins.members?_of_hollow merged.sound (fun candidate member =>
      (hollow candidate member).grow merged.grows.within) apart
  refine ⟨⟨fun placeholder => ?_, fun same => ?_⟩, union⟩
  · by_contra! apart
    have noUnion := ((isPlaceholder_iff normal).mp placeholder).members?_eq_none
    rw [union apart] at noUnion
    cases noUnion
  · -- A candidate that is alone is what it is merged to.
    obtain ⟨only, member⟩ := List.exists_mem_of_ne_nil candidates nonempty
    have alone : candidates.eraseDups = [only] := Lists.eraseDups_eq_singleton_iff.mpr
      ⟨member, fun other inside => same other inside only member⟩
    have unmoved : registry.merge candidates = (only, registry) :=
      mergeStep_of_singleton ((flatten_of_hollow hollow).trans alone) _
    rw [unmoved]
    exact placeholders only member

/-- The object without fields and the list without elements, merged with null. -/
theorem isPlaceholder_merge_iff_of_three_kinds :
    ∃ registry : Registry, Produced {} registry ∧ registry.size = 3 ∧
      [ShapeId.node 0, .null, .node 2] ≠ [] ∧
      (∀ candidate ∈ [ShapeId.node 0, .null, .node 2],
        registry.isPlaceholder candidate = true) ∧
      ((registry.merge [.node 0, .null, .node 2]).2.isPlaceholder
            (registry.merge [.node 0, .null, .node 2]).1 = true ↔
          ∀ first ∈ [ShapeId.node 0, .null, .node 2],
            ∀ second ∈ [ShapeId.node 0, .null, .node 2], first = second) ∧
      ((∃ first ∈ [ShapeId.node 0, .null, .node 2],
          ∃ second ∈ [ShapeId.node 0, .null, .node 2], first ≠ second) →
        (registry.merge [.node 0, .null, .node 2]).2.members?
            (registry.merge [.node 0, .null, .node 2]).1 =
          some (.ofList [.node 0, .null, .node 2])) := by
  have produced : Produced {} _ := .observed [.object [], .array []]
  have nonempty : [ShapeId.node 0, .null, .node 2] ≠ [] := List.cons_ne_nil _ _
  have placeholders : ∀ candidate ∈ [ShapeId.node 0, .null, .node 2],
      (Observer.after {} [.object [], .array []]).registry.isPlaceholder candidate = true := by
    decide +kernel
  exact ⟨_, produced, by decide +kernel, nonempty, placeholders,
    produced.isPlaceholder_merge_iff nonempty placeholders⟩

/-- **Placeholders may merge to what is none.** Null and the object without fields merge to the
union of both. So a reference whose values are one and the other declares its own target, even where
unresolved references are errors, while it is unresolved if its values are the same. -/
theorem exists_placeholders_lost :
    (∃ registry : Registry, Produced {} registry ∧
      (∀ candidate ∈ [ShapeId.null, .node 0], registry.isPlaceholder candidate = true) ∧
      (registry.merge [.null, .node 0]).2.isPlaceholder
        (registry.merge [.null, .node 0]).1 = false) ∧
    declarations { references := .error }
        (.array [.object [("k[T]", .null)], .object [("k[T]", .object [])]]) = .ok
      { declarations := [⟨"RootObject", [⟨"k", .named "T", true, .reference⟩]⟩, ⟨"T", []⟩]
        parents := ∅
        warnings := [] } ∧
    declarations { references := .error }
        (.array [.object [("k[T]", .object [])], .object [("k[T]", .object [])]]) =
      .error (.unresolvedReference "k[T]" "T") :=
  ⟨⟨_, .observed [.object []], by decide +kernel, by decide +kernel⟩, by decide +kernel,
    by decide +kernel⟩

end SampleShapes.Registry
