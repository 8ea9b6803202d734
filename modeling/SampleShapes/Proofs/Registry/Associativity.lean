/-
**Merging in groups.**

Candidates may be merged in groups first, and what comes of the groups afterwards. This comes to the
same as merging them at once as long as kinds do not meet: whatever is merged, at every depth, is
objects only or lists only, or has one object and one list at most, null aside. Where several
objects meet something else, a group of them alone is merged into one object while all of them
together stay side by side in a union.

* `GroupedByKind.mem_iff`: groups of what is single leave everything as it is;
* `Uniform.join_eq`: **joins of groups join to what all candidates do**, if these are uniform;
* `Produced.merge_eq_mergeInGroups`: **merging in groups is merging at once**, if the candidates are
  uniform;
* `merge_ne_mergeInGroups`: and it may not be otherwise.
-/

import SampleShapes.Proofs.Registry.Grouping
import SampleShapes.Proofs.Registry.Lasting

namespace SampleShapes.Registry

variable {registry later : Registry} {candidates part fine coarse : List ShapeId}
  {id joined joined' : ShapeId}

/-! ### One object and one list -/

/-- Objects that are all the same join to it. -/
theorem JoinsPart.eq_of_same (sound : registry.Sound) (normal : registry.Normal)
    (joins : registry.JoinsPart part joined) (member : id ∈ part)
    (only : ∀ other ∈ part, other = id) : joined = id := by
  cases joins with
  | itself => exact only joined (List.mem_singleton_self joined)
  | @objects _ _ objects fields all found composes =>
    obtain ⟨own, listed, here⟩ := Lists.exists_mem_of_mapM all member
    have same : ∀ object ∈ objects, object = own := by
      intro object inside
      obtain ⟨other, inPart, here'⟩ := Lists.exists_mem_of_mapM_right all inside
      rw [only other inPart] at here'
      exact Option.some.inj (here'.symm.trans here)
    -- Among the same objects, each is a group of its own.
    have grouped : registry.ObjectsGrouped objects [own] := by
      refine ⟨fun object inside => ⟨own, List.mem_singleton_self own, [own], ?_, ?_,
        composes_self registry own⟩, fun whole there => ⟨[own], ?_, List.cons_ne_nil _ _, ?_⟩⟩
      · exact Lists.singleton_subset listed
      · rw [same object inside]
        exact List.mem_singleton_self own
      · exact Lists.singleton_subset listed
      · rw [List.mem_singleton.mp there]
        exact composes_self registry own
    refine eq_of_unfolding_eq sound ((unfolding_eq_iff_of_objects sound sound found here).mpr ?_)
    refine fun raw => grouped.entriesAt_eq composes.1 (composes_self registry own).1
      fun field field' under under' => ?_
    refine (composes.2 raw field under).unique sound (joins_self field'.shape) fun shape => ?_
    rw [mem_shapesUnder_iff, List.mem_singleton]
    constructor
    · rintro ⟨object, inside, other, there, rfl⟩
      rw [same object inside] at there
      rw [Option.some.inj (there.symm.trans under')]
    · rintro rfl
      exact ⟨own, listed, field', under', rfl⟩
  | @lists _ _ element lists all found joins =>
    obtain ⟨own, listed, here⟩ := Lists.exists_mem_of_mapM all member
    obtain ⟨single, rfl⟩ := normal.singleton here
    have same : ∀ list ∈ lists, list = .singleton single := by
      intro list inside
      obtain ⟨other, inPart, here'⟩ := Lists.exists_mem_of_mapM_right all inside
      rw [only other inPart] at here'
      exact Option.some.inj (here'.symm.trans here)
    have element : element = single := by
      refine joins.unique sound (joins_self single) fun shape => ?_
      rw [List.mem_flatMap, List.mem_singleton]
      constructor
      · rintro ⟨list, inside, there⟩
        rw [same list inside] at there
        exact List.mem_singleton.mp there
      · rintro rfl
        exact ⟨_, listed, List.mem_singleton_self _⟩
    subst element
    exact eq_of_unfolding_eq sound ((unfolding_eq_iff_of_lists sound sound found here).mpr rfl)

/-- There is one object and one list at most. -/
structure Single (registry : Registry) (ids : List ShapeId) : Prop where
  /-- Objects are the same. -/
  object : ∀ first ∈ ids, ∀ second ∈ ids, (registry.fields? first).isSome →
    (registry.fields? second).isSome → first = second
  /-- Lists are the same. -/
  list : ∀ first ∈ ids, ∀ second ∈ ids, (registry.elements? first).isSome →
    (registry.elements? second).isSome → first = second

/-- **Groups of what is single leave everything as it is.** -/
theorem GroupedByKind.mem_iff (byKind : registry.GroupedByKind fine coarse) (sound : registry.Sound)
    (normal : registry.Normal) (single : registry.Single fine) : id ∈ fine ↔ id ∈ coarse := by
  have itself : ∀ joined part, registry.JoinsPart part joined → part ⊆ fine →
      ∀ id ∈ part, joined = id := by
    intro joined part joins within id member
    refine joins.eq_of_same sound normal member fun other inPart => ?_
    cases joins with
    | itself => rw [List.mem_singleton.mp member, List.mem_singleton.mp inPart]
    | objects all =>
      obtain ⟨_, _, here⟩ := Lists.exists_mem_of_mapM all member
      obtain ⟨_, _, there⟩ := Lists.exists_mem_of_mapM all inPart
      exact single.object other (within inPart) id (within member)
        (Option.isSome_of_eq_some there) (Option.isSome_of_eq_some here)
    | lists all =>
      obtain ⟨_, _, here⟩ := Lists.exists_mem_of_mapM all member
      obtain ⟨_, _, there⟩ := Lists.exists_mem_of_mapM all inPart
      exact single.list other (within inPart) id (within member)
        (Option.isSome_of_eq_some there) (Option.isSome_of_eq_some here)
  constructor
  · intro inside
    obtain ⟨joined, there, part, within, member, joins⟩ := byKind.forth id inside
    rwa [← itself joined part joins within id member]
  · intro there
    obtain ⟨part, within, nonempty, joins⟩ := byKind.back id there
    obtain ⟨other, member⟩ := List.exists_mem_of_ne_nil part nonempty
    rw [itself id part joins within other member]
    exact within member

/-! ### Uniform candidates -/

/-- Kinds do not meet: the candidates are objects only or lists only, null aside, and so are those
that merging them leads to; or there is one object and one list at most. -/
inductive Uniform (registry : Registry) : List ShapeId → Prop where
  /-- Objects only, and what they have under each raw key is uniform. -/
  | objects {candidates : List ShapeId} {objects : List (Table String Field)}
      (all : ((registry.spread candidates).filter (· ≠ .null)).mapM registry.fields? =
        some objects)
      (each : ∀ raw, Uniform registry (shapesUnder objects raw)) : Uniform registry candidates
  /-- Lists only, and their elements are uniform. -/
  | lists {candidates : List ShapeId} {lists : List IdSet}
      (all : ((registry.spread candidates).filter (· ≠ .null)).mapM registry.elements? =
        some lists)
      (each : Uniform registry (lists.flatMap IdSet.toList)) : Uniform registry candidates
  /-- One object and one list at most. -/
  | single {candidates : List ShapeId} (single : registry.Single (registry.spread candidates)) :
      Uniform registry candidates

/-- Where everything is null there is no object and no list. -/
theorem single_of_solid_eq_nil {ids : List ShapeId} (nothing : ids.filter (· ≠ .null) = []) :
    registry.Single ids := by
  have null : ∀ id ∈ ids, id = .null := fun id member => by
    simpa using List.filter_eq_nil_iff.mp nothing id member
  refine ⟨fun first member second member' _ _ => ?_, fun first member second member' _ _ => ?_⟩
  · rw [null first member, null second member']
  · rw [null first member, null second member']

/-- Nullable joins of the same are the same. -/
theorem IsNullable.unique {ids others : List ShapeId} {solid : ShapeId} (sound : registry.Sound)
    (nullable : registry.IsNullable ids solid joined)
    (nullable' : registry.IsNullable others solid joined') (same : .null ∈ ids ↔ .null ∈ others) :
    joined = joined' := by
  unfold IsNullable at nullable nullable'
  by_cases null : .null ∈ ids
  · rw [if_pos null] at nullable
    rw [if_pos (same.mp null)] at nullable'
    exact eq_of_unfolding_eq sound
      ((unfolding_eq_iff_of_unions sound sound nullable nullable').mpr rfl)
  · rw [if_neg null] at nullable
    rw [if_neg fun null' => null (same.mpr null')] at nullable'
    rw [nullable, nullable']

theorem isNullable_self (solid : joined ≠ .null) : registry.IsNullable [joined] joined joined := by
  rw [IsNullable, if_neg]
  exact fun null => solid (List.mem_singleton.mp null).symm

section Solid

variable (flat : registry.Flat candidates) (distinct : candidates.Nodup)
  (joins : registry.Joins candidates joined) (solid : candidates.filter (· ≠ .null) ≠ [])
include flat distinct joins solid

/-- A candidate that is alone is not null, or there are several. -/
theorem alone_or_several :
    candidates = [joined] ∧ joined ≠ .null ∨ 2 ≤ (registry.flatten candidates).length := by
  have same : registry.flatten candidates = candidates :=
    (flatten_of_flat flat).trans (Lists.eraseDups_of_nodup distinct)
  match candidates with
  | [] => exact absurd rfl solid
  | [only] =>
    obtain rfl := joins.of_singleton same
    refine .inl ⟨rfl, ?_⟩
    rintro rfl
    exact solid rfl
  | _ :: _ :: _ =>
    rw [same]
    exact .inr (by simp)

/-- Objects, null aside, join to an object that null makes nullable. -/
theorem Joins.exists_object {objects : List (Table String Field)}
    (all : (candidates.filter (· ≠ .null)).mapM registry.fields? = some objects) :
    ∃ whole fields, registry.fields? whole = some fields ∧ registry.Composes objects fields ∧
      registry.IsNullable candidates whole joined := by
  have same : registry.flatten candidates = candidates :=
    (flatten_of_flat flat).trans (Lists.eraseDups_of_nodup distinct)
  rcases alone_or_several flat distinct joins solid with ⟨rfl, notNull⟩ | several
  · have only : [joined].filter (· ≠ .null) = [joined] := by simp [notNull]
    rw [only] at all
    obtain ⟨fields, _, found⟩ := Lists.exists_mem_of_mapM all (List.mem_singleton_self joined)
    obtain rfl : [fields] = objects := by simpa [found] using all
    exact ⟨joined, fields, found, composes_self registry fields, isNullable_self notNull⟩
  · rw [← same] at all
    obtain ⟨whole, fields, found, unites, each, nullable⟩ := joins.of_several_objects several all
    exact ⟨whole, fields, found, ⟨unites, each⟩, same ▸ nullable⟩

/-- Lists, null aside, join to a list that null makes nullable. -/
theorem Joins.exists_list (normal : registry.Normal) {lists : List IdSet}
    (all : (candidates.filter (· ≠ .null)).mapM registry.elements? = some lists) :
    ∃ whole element, registry.elements? whole = some (.singleton element) ∧
      registry.Joins (lists.flatMap IdSet.toList) element ∧
      registry.IsNullable candidates whole joined := by
  have same : registry.flatten candidates = candidates :=
    (flatten_of_flat flat).trans (Lists.eraseDups_of_nodup distinct)
  rcases alone_or_several flat distinct joins solid with ⟨rfl, notNull⟩ | several
  · have only : [joined].filter (· ≠ .null) = [joined] := by simp [notNull]
    rw [only] at all
    obtain ⟨list, _, found⟩ := Lists.exists_mem_of_mapM all
      (List.mem_singleton_self joined)
    obtain rfl : [list] = lists := by simpa [found] using all
    obtain ⟨element, rfl⟩ := normal.singleton found
    exact ⟨joined, element, found, joins_self element, isNullable_self notNull⟩
  · rw [← same] at all
    obtain ⟨whole, element, found, each, nullable⟩ := joins.of_several_lists several all
    exact ⟨whole, element, found, each, same ▸ nullable⟩

end Solid

/-- **Joins of groups join to what all candidates do,** if these are uniform. -/
theorem Uniform.join_eq (sound : registry.Sound) (normal : registry.Normal)
    (uniform : registry.Uniform fine) (grouped : registry.Grouped fine coarse)
    (joins : registry.Joins fine joined) (joins' : registry.Joins coarse joined') :
    joined = joined' := by
  -- The induction follows the candidates down, and compares what lies there as grouped again.
  induction uniform generalizing coarse joined joined' with
  | @objects fine objects all each step =>
    have byKind := grouped.spread normal
    have joins := joins.spread normal
    have joins' := joins'.spread normal
    by_cases solid : (registry.spread fine).filter (· ≠ .null) = []
    · exact joins.unique sound joins' fun id =>
        byKind.mem_iff sound normal (single_of_solid_eq_nil solid)
    obtain ⟨wholes, all', grouped⟩ := byKind.exists_objects all
    obtain ⟨whole, fields, found, composes, nullable⟩ := joins.exists_object
      (flat_spread normal fine) (Lists.nodup_eraseDups _) solid all
    obtain ⟨whole', fields', found', composes', nullable'⟩ := joins'.exists_object
      (flat_spread normal coarse) (Lists.nodup_eraseDups _) (byKind.solid_ne_nil solid) all'
    have same : whole = whole' := by
      refine eq_of_unfolding_eq sound
        ((unfolding_eq_iff_of_objects sound sound found found').mpr fun raw => ?_)
      refine grouped.entriesAt_eq composes.1 composes'.1 fun field field' under under' => ?_
      exact step raw (grouped.shapesUnder raw) (composes.2 raw field under)
        (composes'.2 raw field' under')
    exact nullable.unique sound (same ▸ nullable') byKind.null_mem_iff
  | @lists fine lists all each step =>
    have byKind := grouped.spread normal
    have joins := joins.spread normal
    have joins' := joins'.spread normal
    by_cases solid : (registry.spread fine).filter (· ≠ .null) = []
    · exact joins.unique sound joins' fun id =>
        byKind.mem_iff sound normal (single_of_solid_eq_nil solid)
    obtain ⟨wholes, all', grouped⟩ := byKind.exists_lists normal all
    obtain ⟨whole, element, found, inside, nullable⟩ := joins.exists_list
      (flat_spread normal fine) (Lists.nodup_eraseDups _) solid normal all
    obtain ⟨whole', element', found', inside', nullable'⟩ := joins'.exists_list
      (flat_spread normal coarse) (Lists.nodup_eraseDups _) (byKind.solid_ne_nil solid) normal all'
    obtain rfl : element = element' := step grouped inside inside'
    have same : whole = whole' :=
      eq_of_unfolding_eq sound ((unfolding_eq_iff_of_lists sound sound found found').mpr rfl)
    exact nullable.unique sound (same ▸ nullable') byKind.null_mem_iff
  | single single =>
    exact (joins.spread normal).unique sound (joins'.spread normal) fun id =>
      (grouped.spread normal).mem_iff sound normal single

/-! ### Growth -/

/-- **Uniform candidates stay uniform while the registry grows.** -/
theorem Uniform.grow (sound : registry.Sound) (grows : registry.Grows later)
    (uniform : registry.Uniform candidates)
    (held : ∀ candidate ∈ candidates, registry.Holds candidate) : later.Uniform candidates := by
  induction uniform with
  | @objects candidates objects all each step =>
    have heldSpread := holds_spread sound held
    have all' : ((later.spread candidates).filter (· ≠ .null)).mapM later.fields? =
        some objects := by
      rw [spread_grow grows held, mapM_fields?_of_holds grows heldSpread]
      exact all
    exact .objects all' fun raw => step raw fun id member =>
      ((holdsBelow_of_holds heldSpread).shapesUnder sound all raw id member).1
  | @lists candidates lists all each step =>
    have heldSpread := holds_spread sound held
    have all' : ((later.spread candidates).filter (· ≠ .null)).mapM later.elements? =
        some lists := by
      rw [spread_grow grows held, mapM_elements?_of_holds grows heldSpread]
      exact all
    exact .lists all' (step fun id member =>
      ((holdsBelow_of_holds heldSpread).elements sound all id member).1)
  | @single candidates single =>
    have heldSpread := holds_spread sound held
    refine .single ⟨?_, ?_⟩
    · rw [spread_grow grows held]
      intro first member second member'
      rw [grows.fields?_eq (heldSpread first member), grows.fields?_eq (heldSpread second member')]
      exact single.object first member second member'
    · rw [spread_grow grows held]
      intro first member second member'
      rw [grows.elements?_eq (heldSpread first member),
        grows.elements?_eq (heldSpread second member')]
      exact single.list first member second member'

/-! ### Merging in groups -/

/-- The joins of two groups leave no candidate out. -/
theorem grouped_pair {xs ys : List ShapeId} {first second : ShapeId}
    (joins : registry.Joins xs first) (joins' : registry.Joins ys second) :
    registry.Grouped (xs ++ ys) [first, second] where
  forth id member := by
    rcases List.mem_append.mp member with inside | inside
    · exact ⟨first, by simp, xs, List.subset_append_left xs ys, inside, joins⟩
    · exact ⟨second, by simp, ys, List.subset_append_right xs ys, inside, joins'⟩
  back joined there := by
    rcases List.mem_cons.mp there with rfl | there
    · exact ⟨xs, List.subset_append_left xs ys, joins⟩
    · rw [List.mem_singleton.mp there]
      exact ⟨ys, List.subset_append_right xs ys, joins'⟩

/-- Merge two groups of candidates, and then what comes of them. -/
def mergeInGroups (xs ys : List ShapeId) (registry : Registry) : ShapeId × Registry :=
  let (first, registry) := registry.merge xs
  let (second, registry) := registry.merge ys
  registry.merge [first, second]

/-- Merging in groups joins the joins of the groups. -/
theorem exists_grouped_mergeInGroups (sound : registry.Sound) (normal : registry.Normal)
    {xs ys : List ShapeId} (held : ∀ id ∈ xs ++ ys, registry.Holds id) :
    registry.Safe (mergeInGroups xs ys registry) ∧ (mergeInGroups xs ys registry).2.Normal ∧
      ∃ merges, (∀ id ∈ merges, (mergeInGroups xs ys registry).2.Holds id) ∧
        (mergeInGroups xs ys registry).2.Grouped (xs ++ ys) merges ∧
        (mergeInGroups xs ys registry).2.Joins merges (mergeInGroups xs ys registry).1 := by
  rw [List.forall_mem_append] at held
  have merged := merge_merged sound held.1
  have heldNext := fun id member => merged.grows.holds (held.2 id member)
  have mergedNext := merge_merged merged.sound heldNext
  have heldLast : ∀ id ∈ [(registry.merge xs).1, ((registry.merge xs).2.merge ys).1],
      ((registry.merge xs).2.merge ys).2.Holds id := by
    intro id member
    rcases List.mem_cons.mp member with rfl | member
    · exact mergedNext.grows.holds merged.holds
    · rw [List.mem_singleton.mp member]
      exact mergedNext.holds
  have mergedLast := merge_merged mergedNext.sound heldLast
  have grows := mergedNext.grows.trans mergedLast.grows
  refine ⟨mergedLast.toSafe.after (merged.grows.trans mergedNext.grows),
    merge_normal mergedNext.sound (merge_normal merged.sound (merge_normal sound normal held.1)
      heldNext) heldLast,
    _, fun id member => mergedLast.grows.holds (heldLast id member), ?_, mergedLast.joins⟩
  exact grouped_pair
    (merged.joins.grow merged.sound grows fun id member => merged.grows.holds (held.1 id member))
    (mergedNext.joins.grow mergedNext.sound mergedLast.grows fun id member =>
      mergedNext.grows.holds (heldNext id member))

/-- **Merging in groups is merging at once,** if the candidates are uniform. -/
theorem Produced.merge_eq_mergeInGroups {options : Options} (produced : Produced options registry)
    {xs ys : List ShapeId} (held : ∀ id ∈ xs ++ ys, registry.Holds id)
    (uniform : registry.Uniform (xs ++ ys)) :
    ((mergeInGroups xs ys registry).2.merge (xs ++ ys)).1 = (mergeInGroups xs ys registry).1 := by
  obtain ⟨safe, normal, merges, heldMerges, grouped, joins⟩ :=
    exists_grouped_mergeInGroups produced.sound produced.normal held
  have heldAll := fun id member => safe.grows.holds (held id member)
  have whole := merge_merged safe.sound heldAll
  -- Both are compared in the registry that the last merge leaves behind.
  have uniform := uniform.grow produced.sound (safe.grows.trans whole.grows) held
  exact uniform.join_eq whole.sound (merge_normal safe.sound normal heldAll)
    (grouped.grow safe.sound whole.grows heldAll) whole.joins
    (joins.grow safe.sound whole.grows heldMerges)

/-- Objects over kinds and dates are uniform. -/
theorem uniform_of_shape?_eq_none {objects : List (Table String Field)}
    (all : ((registry.spread candidates).filter (· ≠ .null)).mapM registry.fields? = some objects)
    (kinds : ∀ object ∈ objects, ∀ field ∈ object.values, registry.shape? field.shape = none) :
    registry.Uniform candidates := by
  refine .objects all fun raw => .single ?_
  have none : ∀ id ∈ registry.spread (shapesUnder objects raw), registry.shape? id = none := by
    intro id member
    obtain ⟨shape, inside, alternative⟩ := mem_spread_iff.mp member
    obtain ⟨object, listed, field, under, rfl⟩ := mem_shapesUnder_iff.mp inside
    have kind := kinds object listed field (Table.mem_values_iff.mpr ⟨raw, under⟩)
    rw [alternatives_of_flat (by rw [members?, kind]; rfl), List.mem_singleton] at alternative
    rw [alternative]
    exact kind
  refine ⟨fun first member second _ object => ?_, fun first member second _ list => ?_⟩
  · rw [fields?, none first member] at object
    cases object
  · rw [elements?, none first member] at list
    cases list

/-- Two objects of three are merged first. -/
theorem merge_eq_mergeInGroups_of_three_objects :
    ∃ registry : Registry, Produced {} registry ∧
      registry.Uniform ([.node 0, .node 1] ++ [.node 2]) ∧
      ((mergeInGroups [.node 0, .node 1] [.node 2] registry).2.merge
          ([.node 0, .node 1] ++ [.node 2])).1 =
        (mergeInGroups [.node 0, .node 1] [.node 2] registry).1 := by
  have produced : Produced {} _ := .observed [.object [("a", .null)], .object [("b", .null)],
    .object [("c", .null)]]
  have kept : ∀ id ∈ ([.node 0, .node 1] ++ [.node 2] : List ShapeId), ((Observer.after {}
      [.object [("a", .null)], .object [("b", .null)],
        .object [("c", .null)]]).registry.shape? id).isSome := by
    decide +kernel
  have held : ∀ id ∈ ([.node 0, .node 1] ++ [.node 2] : List ShapeId), (Observer.after {}
      [.object [("a", .null)], .object [("b", .null)],
        .object [("c", .null)]]).registry.Holds id := by
    intro id member
    obtain ⟨shape, found⟩ := Option.isSome_iff_exists.mp (kept id member)
    exact holds_of_shape? found
  have uniform : (Observer.after {} [.object [("a", .null)], .object [("b", .null)],
      .object [("c", .null)]]).registry.Uniform ([.node 0, .node 1] ++ [.node 2]) := by
    refine uniform_of_shape?_eq_none (?_ : _ = some [.ofList [("a", ⟨⟨"a", .plain⟩, .null, false⟩)],
      .ofList [("b", ⟨⟨"b", .plain⟩, .null, false⟩)],
      .ofList [("c", ⟨⟨"c", .plain⟩, .null, false⟩)]]) ?_
    · decide +kernel
    · decide +kernel
  exact ⟨_, produced, uniform, produced.merge_eq_mergeInGroups held uniform⟩

/-- **Merging in groups is not merging at once where objects meet a list:** merged on their own, two
objects become one. -/
theorem merge_ne_mergeInGroups :
    ∃ registry : Registry, Produced {} registry ∧
      (∀ id ∈ [.node 0, .node 1] ++ [.node 3], (registry.shape? id).isSome) ∧
      ((mergeInGroups [.node 0, .node 1] [.node 3] registry).2.merge
          ([.node 0, .node 1] ++ [.node 3])).1 ≠
        (mergeInGroups [.node 0, .node 1] [.node 3] registry).1 := by
  refine ⟨_, .observed [.object [("a", .null)], .object [("b", .null)], .array []], ?_, ?_⟩
  · decide +kernel
  · decide +kernel

end SampleShapes.Registry
