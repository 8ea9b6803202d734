/-
**Merges that change nothing.**

Where the join of some candidates is kept already, merging them comes back with it and leaves the
registry as it is: every shape that the merge would intern on its way down is found. For this the
index has to be in step with the slots, and what a shape points at has to lie below it; it need not
be kept.

* `Below.flatten`, `Below.shapesUnder`, `Below.elements`: each step down leads below;
* `mergeObjects_of_unites`, `mergeLists_of_elements`, `orNull_of_isNullable`: the parts of a merge
  that find what they would intern;
* `Joins.merge_eq`: **merging candidates whose join is kept changes nothing**;
* `merge_of_leaf`: neither does merging a leaf and others with what they were merged to.
-/

import SampleShapes.Proofs.Registry.Spreading

namespace SampleShapes.Registry

variable {registry later : Registry} {candidates ids others : List ShapeId}
  {id other joined solid : ShapeId} {level : Nat}

/-! ### Ordered registries -/

/-- The index is in step with the slots, and what a shape points at lies below it, whether it is
kept or not. -/
structure Ordered (registry : Registry) : Prop extends registry.Indexed where
  descends : ∀ index shape, registry.shapeAt? index = some shape →
    ∀ child ∈ shape.children, child.ceiling ≤ index

theorem Sound.ordered (sound : registry.Sound) : registry.Ordered :=
  ⟨sound.toIndexed, sound.descends⟩

theorem Ordered.child (ordered : registry.Ordered) {shape : Shape}
    (found : registry.shape? id = some shape) (member : other ∈ shape.children) :
    other.ceiling < id.ceiling := by
  obtain ⟨index, rfl, kept⟩ := shape?_eq_some_iff.mp found
  exact Nat.lt_succ_of_le (ordered.descends index shape kept other member)

/-- The identities lie below `level`. -/
def Below (level : Nat) (ids : List ShapeId) : Prop := ∀ id ∈ ids, id.ceiling < level

theorem below_ceiling (ids : List ShapeId) : Below (ceiling ids + 1) ids :=
  fun _ member => Nat.lt_succ_of_le (ceiling_le_of_mem member)

/-- Nothing lies below the ground. -/
theorem Below.eq_nil (below : Below 0 ids) : ids = [] :=
  List.eq_nil_iff_forall_not_mem.mpr fun id member => Nat.not_lt_zero _ (below id member)

theorem Below.exists_succ (below : Below level candidates)
    (several : 2 ≤ (registry.flatten candidates).length) : ∃ lower, level = lower + 1 := by
  cases level with
  | zero =>
    rw [below.eq_nil] at several
    exact absurd several (Nat.not_succ_le_zero 1)
  | succ lower => exact ⟨lower, rfl⟩

/-- Flat candidates lie no higher than the candidates. -/
theorem Below.flatten (ordered : registry.Ordered) (below : Below level candidates) :
    Below level (registry.flatten candidates) := by
  intro id member
  rcases mem_candidates_of_mem_flatten member with inside | ⟨union, inside, members, found, part⟩
  · exact below id inside
  · exact Nat.lt_trans (ordered.child (members?_eq_some_iff.mp found) part) (below union inside)

/-- What objects have under a raw key lies further down. -/
theorem Below.shapesUnder (ordered : registry.Ordered) (below : Below (level + 1) ids)
    {objects : List (Table String Field)}
    (all : (ids.filter (· ≠ .null)).mapM registry.fields? = some objects) (raw : String) :
    Below level (shapesUnder objects raw) := by
  intro id member
  obtain ⟨parent, among, shape, found, child⟩ := exists_parent_of_mem_shapesUnder all member
  exact Nat.lt_of_lt_of_le (ordered.child found child) (Nat.le_of_lt_succ (below parent among))

/-- The elements of lists lie further down. -/
theorem Below.elements (ordered : registry.Ordered) (below : Below (level + 1) ids)
    {lists : List IdSet}
    (all : (ids.filter (· ≠ .null)).mapM registry.elements? = some lists) :
    Below level (lists.flatMap IdSet.toList) := by
  intro id member
  obtain ⟨parent, among, shape, found, child⟩ := exists_parent_of_mem_elements all member
  exact Nat.lt_of_lt_of_le (ordered.child found child) (Nat.le_of_lt_succ (below parent among))

/-! ### What is found -/

theorem mergeBelow_eraseDups (level : Nat) (candidates : List ShapeId) (registry : Registry) :
    mergeBelow level candidates.eraseDups registry = mergeBelow level candidates registry := by
  cases level with
  | zero =>
    rw [mergeBelow, mergeBelow, IdSet.ofList_congr fun _ => List.mem_eraseDups]
  | succ level =>
    rw [mergeBelow, mergeBelow]
    unfold mergeStep
    rw [flatten_eraseDups]

/-- No field is united under a raw key under which nothing is gathered. -/
theorem Unites.get?_eq_none {objects : List (Table String Field)} {fields : Table String Field}
    {raw : String} (unites : Unites objects fields)
    (missing : (Evidence.gather objects).get? raw = none) : fields.get? raw = none := by
  refine Table.get?_eq_none_of_not_mem_keys fun key => ?_
  rw [unites.keys, ← Evidence.mem_keys_gather_iff, ← Table.isSome_get?_iff, missing] at key
  cases key

section Found

variable {deeper : Merger}

/-- What is gathered under a raw key settles to the field that is kept under it, if the shapes merge
to its shape. -/
theorem settle_of_unites {objects : List (Table String Field)} {fields : Table String Field}
    {raw : String} {evidence : Evidence} (unites : Unites objects fields)
    (each : ∀ raw field, fields.get? raw = some field →
      deeper (shapesUnder objects raw).eraseDups registry = (field.shape, registry))
    (gathered : (Evidence.gather objects).get? raw = some evidence) :
    ∃ field, fields.get? raw = some field ∧
      (settle deeper objects.length evidence registry).1.outline = field.outline ∧
      (settle deeper objects.length evidence registry).2 = registry := by
  obtain ⟨_, shapes, holders, optional⟩ := Evidence.eq_of_get?_gather gathered
  have key := Evidence.mem_keys_gather_iff.mp (Table.mem_keys_of_get? gathered)
  obtain ⟨field, under⟩ := Table.exists_get?_of_mem_keys ((unites.keys raw).mpr key)
  have merged : deeper evidence.shapes registry = (field.shape, registry) := by
    rw [shapes]
    exact each raw field under
  have same : (evidence.optional || decide (evidence.holders < objects.length)) =
      field.optional := by
    rw [← Bool.not_inj_iff, Bool.eq_iff_iff, Bool.not_eq_true', Bool.not_eq_true', holders,
      optional, required_iff, unites.required raw field under]
  refine ⟨field, under, ?_, ?_⟩
  · unfold settle Field.outline
    rw [merged, ← same]
  · unfold settle
    rw [merged]

variable (indexed : registry.Indexed)
include indexed

/-- Objects whose union is kept are found merged, if their fields are. -/
theorem mergeObjects_of_unites {objects : List (Table String Field)} {fields : Table String Field}
    (found : registry.fields? solid = some fields) (unites : Unites objects fields)
    (each : ∀ raw field, fields.get? raw = some field →
      deeper (shapesUnder objects raw).eraseDups registry = (field.shape, registry)) :
    mergeObjects deeper objects registry = (solid, registry) := by
  have still : ∀ entry ∈ (Evidence.gather objects).entries,
      (settle deeper objects.length entry.2 registry).2 = registry := by
    intro entry member
    obtain ⟨_, _, _, same⟩ := settle_of_unites unites each (Table.get?_eq_some_iff.mpr member)
    exact same
  rw [mergeObjects_eq, Table.thread_of_still still]
  refine indexed.intern_of_fingerprint_eq (fields?_eq_some_iff.mp found)
    (Shape.fingerprint_object_eq_iff.mpr fun raw => ?_)
  rw [Table.get?_map]
  cases gathered : (Evidence.gather objects).get? raw with
  | none =>
    rw [unites.get?_eq_none gathered]
    rfl
  | some evidence =>
    obtain ⟨field, under, outline, _⟩ := settle_of_unites unites each gathered
    rw [under]
    exact congrArg some outline.symm

/-- Lists whose join is kept are found merged, if their elements are. -/
theorem mergeLists_of_elements {lists : List IdSet} {element : ShapeId}
    (found : registry.elements? solid = some (.singleton element))
    (each : deeper (lists.flatMap IdSet.toList).eraseDups registry = (element, registry)) :
    mergeLists deeper lists registry = (solid, registry) := by
  unfold mergeLists
  rw [each]
  exact indexed.intern_of_fingerprint_eq (elements?_eq_some_iff.mp found) rfl

/-- What is kept nullable is found so. -/
theorem orNull_of_isNullable (nullable : registry.IsNullable ids solid joined) :
    orNull ids (solid, registry) = (joined, registry) := by
  unfold orNull
  unfold IsNullable at nullable
  split
  · next null =>
    rw [if_pos null] at nullable
    exact indexed.intern_of_fingerprint_eq (members?_eq_some_iff.mp nullable) rfl
  · next solidOnly =>
    rw [if_neg solidOnly] at nullable
    rw [nullable]

end Found

/-! ### Joins that are kept -/

theorem Joins.mergeBelow_eq (ordered : registry.Ordered) (joins : registry.Joins candidates joined)
    (below : Below level candidates) :
    mergeBelow level candidates registry = (joined, registry) := by
  have indexed := ordered.toIndexed
  induction joins generalizing level with
  | @nothing candidates joined flat found =>
    have interned : registry.intern (.union ∅) = (joined, registry) :=
      indexed.intern_of_fingerprint_eq (members?_eq_some_iff.mp found) rfl
    cases level with
    | zero =>
      rw [below.eq_nil]
      exact interned
    | succ lower => exact (mergeStep_of_nil flat _).trans interned
  | alone flat =>
    cases level with
    | zero =>
      rw [below.eq_nil] at flat
      cases flat
    | succ lower => exact mergeStep_of_singleton flat _
  | @objects candidates joined solid objects fields several all found unites each nullable step =>
    obtain ⟨lower, rfl⟩ := below.exists_succ several
    have under := (below.flatten ordered).shapesUnder ordered all
    have merged : mergeObjects (mergeBelow lower) objects registry = (solid, registry) :=
      mergeObjects_of_unites indexed found unites fun raw field here =>
        (mergeBelow_eraseDups _ _ _).trans (step raw field here (under raw))
    rw [mergeBelow, mergeStep_of_objects several all, merged]
    exact orNull_of_isNullable indexed nullable
  | @lists candidates joined solid element lists several all found each nullable step =>
    obtain ⟨lower, rfl⟩ := below.exists_succ several
    have elements := (below.flatten ordered).elements ordered all
    have merged : mergeLists (mergeBelow lower) lists registry = (solid, registry) :=
      mergeLists_of_elements indexed found ((mergeBelow_eraseDups _ _ _).trans (step elements))
    rw [mergeBelow, mergeStep_of_lists several all, merged]
    exact orNull_of_isNullable indexed nullable
  | mixed several notObjects notLists found =>
    obtain ⟨lower, rfl⟩ := below.exists_succ several
    rw [mergeBelow, mergeStep_of_mix several notObjects notLists]
    exact indexed.intern_of_fingerprint_eq (members?_eq_some_iff.mp found) rfl

/-- **Merging candidates whose join is kept changes nothing.** -/
theorem Joins.merge_eq (ordered : registry.Ordered) (joins : registry.Joins candidates joined) :
    registry.merge candidates = (joined, registry) :=
  joins.mergeBelow_eq ordered (below_ceiling candidates)

/-! ### Unions -/

/-- Interning a union leads to it. -/
theorem members?_of_intern_eq (indexed : registry.Indexed) {members : IdSet}
    (interned : registry.intern (.union members) = (joined, later)) :
    later.members? joined = some members := by
  have found := indexed.members?_intern members
  rwa [interned] at found

/-- It changes nothing else. -/
theorem shape?_of_intern_eq {shape : Shape} (interned : registry.intern shape = (joined, later))
    (apart : id ≠ joined) : later.shape? id = registry.shape? id := by
  have fresh : id ≠ (registry.intern shape).1 := by rwa [interned]
  have same := shape?_intern_of_ne fresh
  rwa [interned] at same

section Union

variable (indexed : registry.Indexed) (several : 2 ≤ (registry.flatten candidates).length)
  (interned : registry.intern (.union (.ofList (registry.flatten candidates))) = (joined, later))
  (within : ∀ other ∈ others, other = joined ∨ other ∈ candidates)
  (covers : joined ∈ others ∨ ∀ candidate ∈ candidates, candidate ∈ others)
include indexed several interned within covers

/-- Once the union of several flat candidates is interned, it and they are flat like them, unless
the union is alone. -/
theorem flatten_cases_of_interned :
    later.flatten others = [joined] ∨
      (later.flatten others).Perm (registry.flatten candidates) := by
  have found := members?_of_intern_eq indexed interned
  -- A candidate may denote nothing before and the union afterwards; all others stay the same.
  have stays : ∀ other, other ≠ joined →
      later.alternatives other = registry.alternatives other := by
    intro other apart
    unfold alternatives
    rw [members?_congr (shape?_of_intern_eq interned apart)]
  have flat := flatten_of_several several
  refine flatten_cases_of_union found (nodup_flatten _ _)
    (fun candidate among apart id alternative => ?_) ?_
  · rw [stays candidate apart] at alternative
    rw [flat]
    exact mem_spread_iff.mpr ⟨candidate, (within candidate among).resolve_left apart, alternative⟩
  · by_cases here : joined ∈ others
    · exact .inl here
    · have every := covers.resolve_left here
      obtain ⟨first, member, _⟩ := exists_ne_of_several several joined
      obtain ⟨second, member', apart⟩ := exists_ne_of_several several first
      refine .inr ⟨flatten_of_ne (every second member') (every first member) apart,
        fun id inside => ?_⟩
      rw [flat] at inside
      obtain ⟨candidate, among, alternative⟩ := mem_spread_iff.mp inside
      have among := every candidate among
      have apart : candidate ≠ joined := fun same => here (same ▸ among)
      exact mem_spread_iff.mpr ⟨candidate, among, by rwa [stays candidate apart]⟩

end Union

/-! ### Leaves -/

/-- Several flat candidates merge to a union if one of them is neither null, an object nor a
list. -/
theorem merge_eq_intern_of_mem (several : 2 ≤ (registry.flatten candidates).length)
    (member : id ∈ registry.flatten candidates) (notNull : id ≠ .null)
    (notObject : registry.fields? id = none) (notList : registry.elements? id = none) :
    registry.merge candidates =
      registry.intern (.union (.ofList (registry.flatten candidates))) :=
  mergeStep_of_mix several (mapM_eq_none_of_mem member notNull notObject)
    (mapM_eq_none_of_mem member notNull notList) _

section Leaf

variable (indexed : registry.Indexed) (member : id ∈ candidates) (leaf : registry.shape? id = none)
  (notNull : id ≠ .null) (merged : registry.merge candidates = (joined, later))
  (within : ∀ other ∈ others, other = joined ∨ other ∈ candidates)
  (covers : joined ∈ others ∨ ∀ candidate ∈ candidates, candidate ∈ others)
include indexed member leaf notNull merged within covers

/-- **What a leaf and others were merged to absorbs them,** also if nothing of theirs is kept. -/
theorem merge_of_leaf : later.merge others = (joined, later) := by
  have notUnion : registry.members? id = none := by rw [members?, leaf]; rfl
  have notObject : registry.fields? id = none := by rw [fields?, leaf]; rfl
  have notList : registry.elements? id = none := by rw [elements?, leaf]; rfl
  have inside : id ∈ registry.flatten candidates := by
    rcases mem_flatten_of_mem_candidates registry member with inside | ⟨members, found, _⟩
    · exact inside
    · cases notUnion.symm.trans found
  rcases Nat.lt_or_ge (registry.flatten candidates).length 2 with few | several
  · -- The leaf is all there is.
    have flat := Lists.eq_singleton_of_length_lt_two inside few
    rw [merge, mergeBelow, mergeStep_of_singleton flat] at merged
    obtain ⟨rfl, rfl⟩ := Prod.mk.inj merged
    have spread := spread_of_only notUnion flat
    refine mergeStep_of_singleton (flatten_of_only ?_ notUnion fun other part => ?_) _
    · exact covers.elim (fun here => here) fun all => all id member
    · obtain ⟨candidate, among, alternative⟩ := mem_spread_iff.mp part
      have among : candidate ∈ candidates :=
        (within candidate among).elim (fun same => same ▸ member) fun here => here
      have part := mem_spread_iff.mpr ⟨candidate, among, alternative⟩
      rwa [spread, List.mem_singleton] at part
  · rw [merge_eq_intern_of_mem several inside notNull notObject notList] at merged
    have found := members?_of_intern_eq indexed merged
    rcases flatten_cases_of_interned indexed several merged within covers with flat | perm
    · exact mergeStep_of_singleton flat _
    · -- The leaf may have become the union, but neither an object nor a list.
      have still : later.fields? id = none ∧ later.elements? id = none := by
        by_cases same : id = joined
        · rw [same, fields?, elements?, members?_eq_some_iff.mp found]
          exact ⟨rfl, rfl⟩
        · have stays := shape?_of_intern_eq merged same
          rw [fields?_congr stays, elements?_congr stays]
          exact ⟨notObject, notList⟩
      have indexedLater : later.Indexed := by
        have kept := indexed.intern (.union (.ofList (registry.flatten candidates)))
        rwa [merged] at kept
      rw [merge_eq_intern_of_mem (by rwa [perm.length_eq]) (perm.mem_iff.mpr inside) notNull
        still.1 still.2, IdSet.ofList_congr fun _ => perm.mem_iff]
      exact indexedLater.intern_of_fingerprint_eq (members?_eq_some_iff.mp found) rfl

end Leaf

end SampleShapes.Registry
