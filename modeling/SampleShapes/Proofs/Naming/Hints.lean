/-
**Which hint names an object.**

The walk goes on from an object only when it enters it, and yet no hint is lost: an object hands
out all of its links when it is entered, to objects that were entered before as well. The best hint
of an object is therefore the strongest of all that the fields leading to it give, also where
aliases close a cycle.

* `mem_hints_ofGraph_iff`: **the hints of a walk** are those of the root and of every link of what
  is entered;
* `rank_best?_le`: no hint for an object is stronger than the best one;
* `isDeclared_eq_false_iff`: the names that only placeholders lead to;
* `Naming.strongest_of_infer`: **an object is named by the strongest hint of all that lead to it.**
-/

import SampleShapes.Proofs.Naming.Coverage

namespace SampleShapes

open Registry

/-! ### Tiers -/

/-- The place of a tier, the strongest first. -/
def Tier.rank : Tier → Nat
  | root => 0
  | target => 1
  | key => 2
  | placeholder => 3

theorem Tier.pairwise_all : Tier.all.Pairwise (·.rank < ·.rank) := by decide

theorem Tier.mem_all (tier : Tier) : tier ∈ Tier.all := by cases tier <;> decide

theorem Tier.eq_placeholder_of_le {tier : Tier} (weakest : Tier.placeholder.rank ≤ tier.rank) :
    tier = .placeholder := by
  cases tier with
  | root | target | key => exact absurd weakest (by decide)
  | placeholder => rfl

/-- A field gives a placeholder's hint if it names a target for a value without structure. -/
theorem Hint.tier_ofField_eq_placeholder_iff {registry : Registry} {field : Field} :
    (Hint.ofField registry field).tier = .placeholder ↔
      field.key.target?.isSome ∧ registry.isPlaceholder field.shape := by
  unfold Hint.ofField
  cases field.key.target? with
  | none => simp
  | some target =>
    by_cases placeholder : registry.isPlaceholder field.shape <;> simp [placeholder]

namespace Walk

variable {graph : ShapeGraph} {rootName : String} {walk later : Walk} {index : Nat} {hint : Hint}

/-! ### No hint is lost -/

/-- What `later` entered since `walk` has handed out its links. -/
def HandsOut (graph : ShapeGraph) (walk later : Walk) : Prop :=
  ∀ place ∈ later.entered, place ∈ walk.entered ∨ ∀ entry ∈ graph.links place, entry ∈ later.hints

theorem HandsOut.trans {last : Walk} (first : HandsOut graph walk later)
    (second : HandsOut graph later last) (kept : ∀ noted ∈ later.hints, noted ∈ last.hints) :
    HandsOut graph walk last := by
  intro place member
  rcases second place member with added | handed
  · exact (first place added).imp_right fun handed entry linked => kept _ (handed entry linked)
  · exact .inr handed

variable {inner : List Nat} {fuel : Nat}

/-- Visits in a row hand out the links of what they enter, if each of them does. -/
theorem foldl_visit_handsOut
    (one : ∀ walk entry, Reach.ahead inner walk.entered < fuel →
      HandsOut graph walk (visit graph fuel walk entry) ∧
        entry ∈ (visit graph fuel walk entry).hints)
    (walk : Walk) (entries : List (Nat × Hint)) (enough : Reach.ahead inner walk.entered < fuel) :
    HandsOut graph walk (entries.foldl (visit graph fuel) walk) ∧
      ∀ entry ∈ entries, entry ∈ (entries.foldl (visit graph fuel) walk).hints := by
  induction entries generalizing walk with
  | nil => exact ⟨fun place member => .inl member, by simp⟩
  | cons first rest step =>
    obtain ⟨handsOut, noted⟩ := one walk first enough
    have grows : ∀ place ∈ walk.entered, place ∈ (visit graph fuel walk first).entered :=
      fun place => mem_entered_visit
    obtain ⟨others, hinted⟩ := step _ (Nat.lt_of_le_of_lt (Reach.ahead_le grows) enough)
    have kept : ∀ noted ∈ (visit graph fuel walk first).hints,
        noted ∈ (rest.foldl (visit graph fuel) (visit graph fuel walk first)).hints :=
      fun noted => mem_hints_foldl (mem_hints_visit_of_mem fuel) rest
    exact ⟨handsOut.trans others kept, List.forall_mem_cons.mpr ⟨kept _ noted, hinted⟩⟩

/-- **A visit hands out the links of all that it enters,** if it may go deeper than there are
objects with links ahead. -/
theorem visit_handsOut (covers : ∀ place, graph.links place ≠ [] → place ∈ inner) (walk : Walk)
    (entry : Nat × Hint) (enough : Reach.ahead inner walk.entered < fuel) :
    HandsOut graph walk (visit graph fuel walk entry) ∧
      entry ∈ (visit graph fuel walk entry).hints := by
  induction fuel generalizing walk entry with
  | zero => exact absurd enough (Nat.not_lt_zero _)
  | succ fuel step =>
    refine ⟨?_, mem_hints_visit_self fuel walk entry⟩
    obtain ⟨index, hint⟩ := entry
    unfold visit
    dsimp only
    split
    · exact fun place member => .inl member
    · next fresh =>
      by_cases last : graph.links index = []
      · intro place member
        rw [last] at member ⊢
        refine (List.mem_cons.mp member).symm.imp_right fun same => ?_
        rw [same, last]
        exact fun entry linked => absurd linked List.not_mem_nil
      · -- One object with links less lies ahead, as deep as the walk may still go.
        have fewer := Reach.ahead_cons_lt (covers index last) fresh
        obtain ⟨others, hinted⟩ :=
          foldl_visit_handsOut step ⟨index :: walk.entered, (index, hint) :: walk.hints⟩
            (graph.links index) (Nat.lt_of_lt_of_le fewer (Nat.le_of_lt_succ enough))
        intro place member
        rcases others place member with added | handed
        · rcases List.mem_cons.mp added with rfl | before
          · exact .inr hinted
          · exact .inl before
        · exact .inr handed

/-- **The hints of a walk** are those of the root and of every link of what is entered. -/
theorem mem_hints_ofGraph_iff {entry : Nat × Hint} :
    entry ∈ (ofGraph graph rootName).hints ↔
      entry ∈ graph.hintsAt (Hint.ofRoot rootName) graph.root ∨
        ∃ parent ∈ (ofGraph graph rootName).order, entry ∈ graph.links parent := by
  have covers : ∀ place, graph.links place ≠ [] → place ∈ List.range graph.registry.capacity :=
    fun place leads => List.mem_range.mpr (lt_capacity_of_links leads)
  have enough : Reach.ahead (List.range graph.registry.capacity) [] <
      graph.registry.capacity + 1 :=
    Nat.lt_succ_of_le (Nat.le_trans List.countP_le_length (by simp))
  obtain ⟨handsOut, hinted⟩ := foldl_visit_handsOut (visit_handsOut covers) ⟨[], []⟩
    (graph.hintsAt (Hint.ofRoot rootName) graph.root) enough
  constructor
  · intro noted
    refine ((ofGraph_noted graph rootName).suggested entry noted).imp_right ?_
    exact fun ⟨parent, entered, linked⟩ => ⟨parent, List.mem_reverse.mpr entered, linked⟩
  · rintro (root | ⟨parent, entered, linked⟩)
    · exact hinted entry root
    · rcases handsOut parent (List.mem_reverse.mp entered) with none | handed
      · exact absurd none List.not_mem_nil
      · exact handed entry linked

/-! ### The best hint -/

/-- **No hint for an object is stronger than the best one.** -/
theorem rank_best?_le {best : Hint} (found : walk.best? index = some best)
    (noted : (index, hint) ∈ walk.hints) : best.tier.rank ≤ hint.tier.rank := by
  obtain ⟨before, tier, after, split, here, none⟩ := List.findSome?_eq_some_iff.mp found
  have passes := List.find?_some here
  have same : best.tier = tier := of_decide_eq_true passes
  have rising := Tier.pairwise_all
  have member := Tier.mem_all hint.tier
  rw [split] at rising member
  rw [same]
  rcases List.mem_append.mp member with earlier | later
  · -- An earlier tier would have had its turn.
    have missed := List.find?_eq_none.mp (none _ earlier) hint (mem_hintsFor_iff.mpr noted)
    exact absurd (decide_eq_true rfl) missed
  · rcases List.mem_cons.mp later with rfl | weaker
    · exact Nat.le_refl _
    · have below := (List.pairwise_append.mp rising).2.1
      exact Nat.le_of_lt ((List.pairwise_cons.mp below).1 _ weaker)

end Walk

/-! ### Choices and names -/

namespace Naming

variable {graph : ShapeGraph} {rootName name : String} {index : Nat} {hint : Hint}

/-- **An object that was entered chooses with its best hint.** -/
theorem mem_choosing_iff :
    (index, hint) ∈ choosing (Walk.ofGraph graph rootName) ↔
      index ∈ (Walk.ofGraph graph rootName).order ∧
        (Walk.ofGraph graph rootName).best? index = some hint := by
  have once : (candidates (Walk.ofGraph graph rootName)).Nodup := by
    refine .of_map Prod.fst ?_
    rw [map_fst_candidates]
    exact Walk.nodup_order graph rootName
  rw [(perm_choosing _ once).mem_iff]
  exact Lists.mem_filterMap_pair_iff

/-- What is named was named before, or is a unique name for what it wanted. The names that were used
then stay names of objects. -/
theorem exists_choice_of_mem_nameAll (choices : List (Nat × Hint)) (assignment : Assignment)
    (named : (index, name) ∈ (nameAll choices assignment).named) :
    (index, name) ∈ assignment.named ∨
      ∃ hint used, (index, hint) ∈ choices ∧ name = uniqueName hint.name used ∧
        used ⊆ (nameAll choices assignment).named.map Prod.snd := by
  induction choices generalizing assignment with
  | nil => exact .inl named
  | cons choice rest step =>
    rcases step (assignment.name choice.1 choice.2) named with before | later
    · rcases List.mem_cons.mp before with here | before
      · obtain ⟨rfl, rfl⟩ := Prod.mk.inj here
        refine .inr ⟨choice.2, _, List.mem_cons_self, rfl, List.map_subset _ fun entry member => ?_⟩
        exact mem_nameAll_of_mem (choice :: rest) assignment member
      · exact .inl before
    · obtain ⟨hint, used, member, wanted, kept⟩ := later
      exact .inr ⟨hint, used, List.mem_cons_of_mem _ member, wanted, kept⟩

/-- **A name is a unique one for what the best hint of its object wants.** -/
theorem exists_choice_of_mem_entries
    (entry : (index, name) ∈ (ofGraph graph rootName).entries) :
    ∃ hint used, (index, hint) ∈ choosing (Walk.ofGraph graph rootName) ∧
      name = uniqueName hint.name used := by
  rcases exists_choice_of_mem_nameAll _ _ (mem_entries_ofGraph_iff.mp entry) with
    none | ⟨hint, used, chosen, wanted, _⟩
  · exact absurd none List.not_mem_nil
  · exact ⟨hint, used, chosen, wanted⟩

theorem mem_synthesized_name_iff {assignment : Assignment} {place : Nat} :
    index ∈ (assignment.name place hint).synthesized ↔
      index = place ∧ hint.tier = .placeholder ∨ index ∈ assignment.synthesized := by
  unfold Assignment.name
  dsimp only
  split
  · next weakest => simp [weakest]
  · next stronger => simp [stronger]

/-- What chooses with the hint of a placeholder is recorded. -/
theorem mem_synthesized_nameAll_iff (choices : List (Nat × Hint)) (assignment : Assignment) :
    index ∈ (nameAll choices assignment).synthesized ↔
      (∃ hint, (index, hint) ∈ choices ∧ hint.tier = .placeholder) ∨
        index ∈ assignment.synthesized := by
  induction choices generalizing assignment with
  | nil => simp [nameAll]
  | cons choice rest step =>
    obtain ⟨place, hint⟩ := choice
    refine (step (assignment.name place hint)).trans ?_
    rw [mem_synthesized_name_iff]
    constructor
    · rintro (⟨other, member, weakest⟩ | ⟨rfl, weakest⟩ | before)
      · exact .inl ⟨other, List.mem_cons_of_mem _ member, weakest⟩
      · exact .inl ⟨hint, List.mem_cons_self, weakest⟩
      · exact .inr before
    · rintro (⟨other, member, weakest⟩ | before)
      · rcases List.mem_cons.mp member with same | member
        · obtain ⟨rfl, rfl⟩ := Prod.mk.inj same
          exact .inr (.inl ⟨rfl, weakest⟩)
        · exact .inl ⟨other, member, weakest⟩
      · exact .inr (.inr before)

/-- **A name is not declared if its object chose with the hint of a placeholder.** -/
theorem isDeclared_eq_false_iff (entry : (index, name) ∈ (ofGraph graph rootName).entries)
    (chosen : (index, hint) ∈ choosing (Walk.ofGraph graph rootName)) :
    (ofGraph graph rootName).isDeclared name = false ↔ hint.tier = .placeholder := by
  have synthesized : index ∈ (ofGraph graph rootName).synthesized ↔ hint.tier = .placeholder := by
    refine (mem_synthesized_nameAll_iff _ _).trans ⟨?_, fun weakest => .inl ⟨hint, chosen, weakest⟩⟩
    rintro (⟨other, chosen', weakest⟩ | none)
    · -- An object chooses with one hint.
      have best := (mem_choosing_iff.mp chosen').2
      rwa [Option.some.inj ((mem_choosing_iff.mp chosen).2.symm.trans best)]
    · exact absurd none List.not_mem_nil
  have only : ∀ place, (place, name) ∈ (ofGraph graph rootName).entries → place = index := by
    intro place entry'
    have same := List.inj_on_of_nodup_map (nodup_map_snd_entries_ofGraph graph rootName) entry'
      entry rfl
    exact (Prod.mk.inj same).1
  rw [← synthesized]
  unfold isDeclared
  rw [List.any_eq_false]
  constructor
  · intro none
    have here := none _ entry
    simpa using here
  · rintro member ⟨place, other⟩ entry'
    simp only [Bool.and_eq_true, decide_eq_true_eq, not_and, not_not]
    rintro rfl
    rw [only place entry']
    exact member

end Naming

/-! ### The fields that lead to an object -/

namespace ShapeGraph

variable {graph : ShapeGraph} {options : Options} {sample : Json} {rootName name : String}
  {index parent : Nat} {field : Field} {hint : Hint}

/-- The field of an object that is read leads to the object at `index`, which something stands for
that lies in the position of the field. -/
structure Edge (graph : ShapeGraph) (parent : Nat) (field : Field) (index : Nat) : Prop where
  /-- The parent is read. -/
  read : graph.IsRead parent
  /-- It is an object with this field. -/
  owns : ∃ fields, graph.registry.fields? (.node parent) = some fields ∧ field ∈ fields.values
  /-- In the position of the field lies an object that stands for the one at `index`. -/
  leads : ∃ member, graph.registry.LiesIn (.node member) field.shape ∧
    graph.canonicalNode member = index

/-- **A field that leads to an object gives its hint,** whenever the walk enters its parent. -/
theorem Edge.exists_mem_hints (sound : graph.Sound) (edge : graph.Edge parent field index)
    (rootName : String) :
    ∃ element, (index, { Hint.ofField graph.registry field with element }) ∈
      (Walk.ofGraph graph rootName).hints := by
  obtain ⟨fields, object, value⟩ := edge.owns
  have entered : parent ∈ (Walk.ofGraph graph rootName).order :=
    Walk.mem_order_iff.mpr <|
      (reached_iff_isRead sound).mpr ⟨edge.read, Option.isSome_of_eq_some object⟩
  obtain ⟨element, found⟩ := (mem_objectsAt_field_iff sound object value).mpr edge.leads
  exact ⟨element, Walk.mem_hints_ofGraph_iff.mpr <| .inr ⟨parent, entered,
    mem_links_iff.mpr ⟨fields, field, element, object, value, found, rfl⟩⟩⟩

/-- **Every hint comes from such a field,** unless it is that of the root. -/
theorem exists_edge_of_mem_hints (sound : graph.Sound)
    (noted : (index, hint) ∈ (Walk.ofGraph graph rootName).hints)
    (notRoot : (index, hint) ∉ graph.hintsAt (Hint.ofRoot rootName) graph.root) :
    ∃ parent field element, graph.Edge parent field index ∧
      hint = { Hint.ofField graph.registry field with element } := by
  rcases Walk.mem_hints_ofGraph_iff.mp noted with root | ⟨parent, entered, linked⟩
  · exact absurd root notRoot
  · obtain ⟨fields, field, element, object, value, found, same⟩ := mem_links_iff.mp linked
    refine ⟨parent, field, element, ⟨?_, ⟨fields, object, value⟩, ?_⟩, same⟩
    · exact ((reached_iff_isRead sound).mp (Walk.mem_order_iff.mp entered)).1
    · exact (mem_objectsAt_field_iff sound object value).mp ⟨element, found⟩

/-- The hint is the strongest of those that the fields leading to an object give. -/
structure Strongest (graph : ShapeGraph) (index : Nat) (hint : Hint) : Prop where
  /-- A field gives it. -/
  given : ∃ parent field element, graph.Edge parent field index ∧
    hint = { Hint.ofField graph.registry field with element }
  /-- None gives a stronger one. -/
  least : ∀ parent field, graph.Edge parent field index →
    hint.tier.rank ≤ (Hint.ofField graph.registry field).tier.rank

theorem strongest_of_mem_choosing (sound : graph.Sound) (notStart : index ∉ Walk.starts graph)
    (chosen : (index, hint) ∈ Naming.choosing (Walk.ofGraph graph rootName)) :
    graph.Strongest index hint where
  given := exists_edge_of_mem_hints sound
    (Walk.mem_hints_of_best? (Naming.mem_choosing_iff.mp chosen).2)
    fun root => notStart (Walk.of_mem_hintsAt_root root).1
  least parent field edge := by
    obtain ⟨element, noted⟩ := edge.exists_mem_hints sound rootName
    have weaker := Walk.rank_best?_le (Naming.mem_choosing_iff.mp chosen).2 noted
    exact weaker

/-- The strongest hint is that of a placeholder if no field gives another one. -/
theorem Strongest.tier_eq_placeholder_iff (strongest : graph.Strongest index hint) :
    hint.tier = .placeholder ↔ ∀ parent field, graph.Edge parent field index →
      field.key.target?.isSome ∧ graph.registry.isPlaceholder field.shape := by
  constructor
  · intro weakest parent field edge
    refine Hint.tier_ofField_eq_placeholder_iff.mp (Tier.eq_placeholder_of_le ?_)
    rw [← weakest]
    exact strongest.least parent field edge
  · intro all
    obtain ⟨parent, field, element, edge, rfl⟩ := strongest.given
    exact Hint.tier_ofField_eq_placeholder_iff.mpr (all parent field edge)

end ShapeGraph

/-! ### The naming of a graph -/

namespace Naming

open ShapeGraph

variable {graph : ShapeGraph} {options : Options} {sample : Json} {rootName name : String}
  {index : Nat}

/-- **An object is named by the strongest hint of all that lead to it,** unless it is that of the
root, and counts as declared unless only placeholders lead to it. -/
theorem strongest_of_infer (inferred : infer options sample = .ok graph)
    (entry : (index, name) ∈ (ofGraph graph rootName).entries)
    (notTop : ¬ graph.registry.IsTop graph.root (.node index)) :
    (∃ hint used, (index, hint) ∈ choosing (Walk.ofGraph graph rootName) ∧
      name = uniqueName hint.name used ∧ graph.Strongest index hint) ∧
    ((ofGraph graph rootName).isDeclared name = false ↔
      ∀ parent field, graph.Edge parent field index →
        field.key.target?.isSome ∧ graph.registry.isPlaceholder field.shape) := by
  have sound := (represents_of_infer inferred).toSound
  have notStart : index ∉ Walk.starts graph := by
    intro start
    obtain ⟨top, isRoot, starts, _⟩ := Walk.exists_root sound rootName
    rw [starts] at start
    rw [List.mem_singleton.mp start] at notTop
    exact notTop (isTop_of_isRootObject inferred isRoot)
  obtain ⟨hint, used, chosen, wanted⟩ := exists_choice_of_mem_entries entry
  have strongest := strongest_of_mem_choosing sound notStart chosen
  refine ⟨⟨hint, used, chosen, wanted, strongest⟩, ?_⟩
  rw [isDeclared_eq_false_iff entry chosen, strongest.tier_eq_placeholder_iff]

/-- A key and a reference lead to one object, and the reference names it. -/
theorem strongest_of_key_and_reference :
    ∃ graph, infer {} (.object [("k", .object [("a", .null)]),
        ("x[T]", .object [("a", .null)])]) = .ok graph ∧
      (0, "T") ∈ (ofGraph graph "Root").entries ∧
      ¬ graph.registry.IsTop graph.root (.node 0) ∧
      (∃ hint used, (0, hint) ∈ choosing (Walk.ofGraph graph "Root") ∧
        "T" = uniqueName hint.name used ∧ graph.Strongest 0 hint) ∧
      ((ofGraph graph "Root").isDeclared "T" = false ↔
        ∀ parent field, graph.Edge parent field 0 →
          field.key.target?.isSome ∧ graph.registry.isPlaceholder field.shape) := by
  obtain ⟨graph, inferred, entry, notTop⟩ : ∃ graph,
      infer {} (.object [("k", .object [("a", .null)]), ("x[T]", .object [("a", .null)])]) =
        .ok graph ∧
      (0, "T") ∈ (ofGraph graph "Root").entries ∧
      ¬ graph.registry.IsTop graph.root (.node 0) :=
    exists_of_decided (by decide +kernel)
  exact ⟨graph, inferred, entry, notTop, strongest_of_infer inferred entry notTop⟩

end Naming

end SampleShapes
