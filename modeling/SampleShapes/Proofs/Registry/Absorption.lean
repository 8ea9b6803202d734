/-
**Absorption.**

What some candidates join to covers each of them: joined with any of them again it stays the same.
Among objects it has every key already and what is optional somewhere is optional there, and under
every key, as for the elements of lists, the same is true further down. A union spreads to its
members, which are all that the candidates spread to. So a merge absorbs what it was made of, and
nothing is interned for it.

* `Unites.absorb`: objects stay united when some of them are united with the result;
* `flatten_cases_of_nullable`: what a nullable join and its candidates spread to;
* `flatten_of_alone`: a candidate that is the only flat one;
* `Joins.absorb`: **a join of some candidates joins itself and any of them**;
* `Produced.merge_cons_eq`: **merging absorbs what it already covers.**
-/

import SampleShapes.Proofs.Registry.Lasting
import SampleShapes.Proofs.Registry.Stillness

namespace SampleShapes.Registry

variable {registry later : Registry} {candidates others ids : List ShapeId}
  {id joined solid : ShapeId} {options : Options}

/-! ### Objects and lists among others -/

/-- Objects stay united when some of them are united with the result. -/
theorem Unites.absorb {objects objects' : List (Table String Field)} {fields : Table String Field}
    (unites : Unites objects fields) (member : fields ∈ objects')
    (within : ∀ object ∈ objects', object = fields ∨ object ∈ objects) :
    Unites objects' fields where
  keys raw := by
    constructor
    · exact fun key => ⟨fields, member, key⟩
    · rintro ⟨object, inside, key⟩
      rcases within object inside with rfl | among
      · exact key
      · exact (unites.keys raw).mpr ⟨object, among, key⟩
  required raw field found := by
    constructor
    · intro required object inside
      rcases within object inside with rfl | among
      · exact ⟨field, found, required⟩
      · exact (unites.required raw field found).mp required object among
    · intro all
      obtain ⟨same, here, required⟩ := all fields member
      rwa [Option.some.inj (found.symm.trans here)]

/-- A partial map that succeeds on identities, null aside, does so on some of them and one more. -/
theorem exists_mapM_of_within {β : Type} {partialMap : ShapeId → Option β} {results : List β}
    {result : β} (all : (ids.filter (· ≠ .null)).mapM partialMap = some results)
    (found : partialMap solid = some result) (notNull : solid ≠ .null) (member : solid ∈ others)
    (within : ∀ other ∈ others, other = solid ∨ other ∈ ids) :
    ∃ results', (others.filter (· ≠ .null)).mapM partialMap = some results' ∧
      result ∈ results' ∧ ∀ made ∈ results', made = result ∨ made ∈ results := by
  have makes : ∀ other ∈ others, other ≠ .null →
      ∃ made, partialMap other = some made ∧ (made = result ∨ made ∈ results) := by
    intro other inside notNull
    rcases within other inside with rfl | among
    · exact ⟨result, found, .inl rfl⟩
    · obtain ⟨made, made', here⟩ := exists_result_of_mem all among notNull
      exact ⟨made, here, .inr made'⟩
  obtain ⟨results', all'⟩ : ∃ results', (others.filter (· ≠ .null)).mapM partialMap =
      some results' := by
    refine Lists.exists_mapM_eq_some fun other inside => ?_
    obtain ⟨inside, notNull⟩ := List.mem_filter.mp inside
    obtain ⟨made, here, _⟩ := makes other inside (of_decide_eq_true notNull)
    exact Option.isSome_of_eq_some here
  refine ⟨results', all', ?_, fun made inside => ?_⟩
  · exact Lists.mem_of_mapM all' (List.mem_filter.mpr ⟨member, decide_eq_true notNull⟩) found
  · obtain ⟨other, inside, here⟩ := Lists.exists_mem_of_mapM_right all' inside
    obtain ⟨inside, notNull⟩ := List.mem_filter.mp inside
    obtain ⟨made', here', cases⟩ := makes other inside (of_decide_eq_true notNull)
    rwa [Option.some.inj (here.symm.trans here')]

/-! ### Spreading a join and its candidates -/

section Within

variable (within : ∀ other ∈ others, other = joined ∨ other ∈ candidates)

include within in
/-- Beside the join, nothing is spread but what its candidates spread to. -/
theorem alternatives_within : ∀ other ∈ others, other ≠ joined →
    ∀ id ∈ registry.alternatives other, id ∈ registry.spread candidates :=
  fun other among apart _ part =>
    mem_spread_iff.mpr ⟨other, (within other among).resolve_left apart, part⟩

variable (member : joined ∈ others)
include within member

/-- A nullable join and its candidates spread to what is solid of it, to its candidates, and to
null if these do, unless it is alone. -/
theorem flatten_cases_of_nullable (several : 2 ≤ (registry.flatten candidates).length)
    (solidFlat : registry.members? solid = none) (notNull : solid ≠ .null)
    (nullable : registry.IsNullable (registry.flatten candidates) solid joined) :
    registry.flatten others = [joined] ∨
      2 ≤ (registry.flatten others).length ∧ solid ∈ registry.flatten others ∧
        (∀ id ∈ registry.flatten others, id = solid ∨ id ∈ registry.flatten candidates) ∧
        (.null ∈ registry.flatten others ↔ .null ∈ registry.flatten candidates) := by
  have alternatives : ∀ id, id ∈ registry.alternatives joined ↔
      id = solid ∨ id = .null ∧ .null ∈ registry.flatten candidates :=
    fun id => nullable.mem_alternatives_iff solidFlat
  obtain alone | spread : registry.flatten others = [joined] ∨
      registry.flatten others = registry.spread others := flatten_cases_of_mem member
  · exact .inl alone
  have inside : ∀ id, id ∈ registry.alternatives joined → id ∈ registry.flatten others :=
    fun id part => spread ▸ mem_spread_iff.mpr ⟨joined, member, part⟩
  have solidInside := inside solid ((alternatives solid).mpr (.inl rfl))
  have cases_of_mem : ∀ id ∈ registry.flatten others,
      id = solid ∨ id ∈ registry.flatten candidates := by
    intro id part
    rw [spread] at part
    obtain ⟨candidate, among, part⟩ := mem_spread_iff.mp part
    rcases within candidate among with rfl | candidateInside
    · rcases (alternatives id).mp part with same | ⟨rfl, null⟩
      · exact .inl same
      · exact .inr null
    · rw [flatten_of_several several]
      exact .inr (mem_spread_iff.mpr ⟨candidate, candidateInside, part⟩)
  have null : .null ∈ registry.flatten others ↔ .null ∈ registry.flatten candidates := by
    constructor
    · exact fun null => (cases_of_mem _ null).resolve_left (Ne.symm notNull)
    · exact fun null => inside _ ((alternatives _).mpr (.inr ⟨rfl, null⟩))
  rcases Nat.lt_or_ge (registry.flatten others).length 2 with few | enough
  · -- What is solid is all there is, so that there is no null.
    have alone := Lists.eq_singleton_of_length_lt_two solidInside few
    have noNull : .null ∉ registry.flatten candidates := fun here => by
      have here := null.mpr here
      rw [alone, List.mem_singleton] at here
      exact notNull here.symm
    rw [IsNullable, if_neg noNull] at nullable
    rw [nullable]
    exact .inl alone
  · exact .inr ⟨enough, solidInside, cases_of_mem, null⟩

/-- A candidate that is the only flat one is still so among its candidates. -/
theorem flatten_of_alone (normal : registry.Normal)
    (flat : registry.flatten candidates = [joined]) :
    registry.flatten others = [joined] := by
  cases found : registry.members? joined with
  | none =>
    refine flatten_of_only member found fun id part => ?_
    obtain ⟨other, among, part⟩ := mem_spread_iff.mp part
    rcases within other among with rfl | inside
    · rwa [alternatives_of_flat found, List.mem_singleton] at part
    · have part := mem_spread_iff.mpr ⟨other, inside, part⟩
      rwa [spread_of_only found flat, List.mem_singleton] at part
  | some members =>
    -- Nothing spreads to a union, so that it is the only candidate.
    rcases flatten_cases registry candidates with same | ⟨only, alone, flat'⟩
    · have spread : joined ∈ registry.spread candidates := by
        rw [← same, flat]
        exact List.mem_singleton_self joined
      cases found.symm.trans (flat_spread normal candidates joined spread)
    · obtain rfl := List.singleton_injective (flat'.symm.trans flat)
      have single := (Lists.eraseDups_eq_singleton_iff.mp alone).2
      have alone : others.eraseDups = [only] := Lists.eraseDups_eq_singleton_iff.mpr
        ⟨member, fun other inside => (within other inside).elim (fun same => same) (single other)⟩
      unfold flatten
      rw [alone]

end Within

/-! ### Absorbing -/

/-- **A join of some candidates joins itself and any of them.** -/
theorem Joins.absorb (normal : registry.Normal) (joins : registry.Joins candidates joined)
    (within : ∀ other ∈ others, other = joined ∨ other ∈ candidates) (member : joined ∈ others) :
    registry.Joins others joined := by
  induction joins generalizing others with
  | @nothing candidates joined flat found =>
    have spread : registry.spread candidates = [] := by
      rcases flatten_cases registry candidates with same | ⟨only, _, alone⟩
      · exact same.symm.trans flat
      · cases flat.symm.trans alone
    have none : ∀ other ∈ others, other ≠ joined →
        ∀ id ∈ registry.alternatives other, id ∈ ([] : List ShapeId) := by
      rw [← spread]
      exact alternatives_within within
    rcases flatten_cases_of_union found List.nodup_nil none (.inl member) with alone | perm
    · exact .alone alone
    · exact .nothing perm.eq_nil found
  | alone flat => exact .alone (flatten_of_alone within member normal flat)
  | @objects candidates joined solid objects fields several all found unites each nullable step =>
    have notNull : solid ≠ .null := ne_primitive_of_shape? (fields?_eq_some_iff.mp found)
    rcases flatten_cases_of_nullable within member several
      (members?_eq_none_of_fields? (Option.isSome_of_eq_some found)) notNull nullable with
      alone | ⟨enough, solidInside, among, null⟩
    · exact .alone alone
    obtain ⟨objects', all', here, objectsWithin⟩ :=
      exists_mapM_of_within all found notNull solidInside among
    refine .objects enough all' found (unites.absorb here objectsWithin)
      (fun raw field under => step raw field under (fun other inside => ?_) ?_)
      (nullable.congr null)
    · obtain ⟨object, holder, field', under', rfl⟩ := mem_shapesUnder_iff.mp inside
      rcases objectsWithin object holder with rfl | among
      · rw [Option.some.inj (under'.symm.trans under)]
        exact .inl rfl
      · exact .inr (mem_shapesUnder_iff.mpr ⟨object, among, field', under', rfl⟩)
    · exact mem_shapesUnder_iff.mpr ⟨fields, here, field, under, rfl⟩
  | @lists candidates joined solid element lists several all found each nullable step =>
    have notNull : solid ≠ .null := ne_primitive_of_shape? (elements?_eq_some_iff.mp found)
    rcases flatten_cases_of_nullable within member several
      (members?_eq_none_of_elements? (Option.isSome_of_eq_some found)) notNull nullable with
      alone | ⟨enough, solidInside, among, null⟩
    · exact .alone alone
    obtain ⟨lists', all', here, listsWithin⟩ :=
      exists_mapM_of_within all found notNull solidInside among
    refine .lists enough all' found (step (fun other inside => ?_) ?_) (nullable.congr null)
    · obtain ⟨list, holder, part⟩ := List.mem_flatMap.mp inside
      rcases listsWithin list holder with rfl | among
      · exact .inl (List.mem_singleton.mp part)
      · exact .inr (List.mem_flatMap.mpr ⟨list, among, part⟩)
    · exact List.mem_flatMap.mpr ⟨_, here, List.mem_singleton_self element⟩
  | @mixed candidates joined several notObjects notLists found =>
    have spreads : ∀ other ∈ others, other ≠ joined →
        ∀ id ∈ registry.alternatives other, id ∈ registry.flatten candidates := by
      rw [flatten_of_several several]
      exact alternatives_within within
    rcases flatten_cases_of_union found (nodup_flatten _ _) spreads (.inl member) with alone | perm
    · exact .alone alone
    have solid := perm.filter (· ≠ .null)
    refine .mixed (by rwa [perm.length_eq]) (Lists.mapM_eq_none_of_perm solid notObjects)
      (Lists.mapM_eq_none_of_perm solid notLists) ?_
    rw [found, IdSet.ofList_congr fun _ => perm.mem_iff]

/-- **Merging absorbs what it already covers:** it comes back with the same and interns nothing. -/
theorem Produced.merge_cons_eq (produced : Produced options registry)
    (merged : registry.merge candidates = (joined, later))
    (within : ∀ other ∈ others, other ∈ candidates) :
    later.merge (joined :: others) = (joined, later) := by
  have sound := produced.sound
  have among : ∀ other ∈ joined :: others, other = joined ∨ other ∈ candidates :=
    fun other inside => (List.mem_cons.mp inside).imp_right (within other)
  by_cases held : ∀ candidate ∈ candidates, registry.Holds candidate
  · have result := merge_merged sound held
    have normal := merge_normal sound produced.normal held
    rw [merged] at result normal
    exact (result.joins.absorb normal among List.mem_cons_self).merge_eq result.sound.ordered
  · push Not at held
    obtain ⟨stranger, member, missing⟩ := held
    obtain ⟨leaf, notNull⟩ := leaf_of_not_holds missing
    exact merge_of_leaf sound.toIndexed member leaf notNull merged among (.inl List.mem_cons_self)

/-- The merge of an object and one with null in place of an object, and with a list of another
element, absorbs the latter. -/
theorem merge_cons_eq_of_two_objects :
    ∃ registry later : Registry, Produced {} registry ∧ registry.size = 5 ∧
      registry.merge [.node 2, .node 4] = (.node 8, later) ∧
      (∀ other ∈ [ShapeId.node 4], other ∈ [.node 2, .node 4]) ∧ later.size = 9 ∧
      later.merge [.node 8, .node 4] = (.node 8, later) := by
  have produced : Produced {} _ := .observed
    [.object [("a", .object [("x", .null)]), ("b", .array [.null])],
      .object [("a", .null), ("b", .array [.bool true])]]
  have among : ∀ other ∈ [ShapeId.node 4], other ∈ [ShapeId.node 2, .node 4] := by decide
  refine ⟨_, _, produced, by decide +kernel,
    Prod.ext (by decide +kernel) rfl, among, by decide +kernel, produced.merge_cons_eq ?_ among⟩
  exact Prod.ext (by decide +kernel) rfl

end SampleShapes.Registry
