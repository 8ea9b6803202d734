/-
**Names are distinct.**

Objects choose their names one after the other, each a name that is not used. Every object that the
walk enters gets one. The object of the root chooses first and gets the name it is given.

* `nameAll_distinct`: names stay distinct with every choice;
* `perm_choosing`, `perm_named`: every object that is entered chooses once, and has one name;
* `head?_choosing`: the object of the root chooses first;
* `mem_entries_ofGraph_iff`: what is listed is what was chosen;
* `ofGraph_sound`: **what naming the objects of a graph leads to.**
-/

import SampleShapes.Naming.Basic
import SampleShapes.Proofs.Naming.Walk

namespace SampleShapes.Naming

variable {graph : ShapeGraph} {rootName : String}

/-! ### Choices -/

section Choices

variable (choices : List (Nat × Hint)) (assignment : Assignment)

/-- Let objects choose one after the other. -/
def nameAll : Assignment :=
  choices.foldl (fun assignment entry => Assignment.name assignment entry.1 entry.2) assignment

/-- **Names stay distinct with every choice.** -/
theorem nameAll_distinct (distinct : (assignment.named.map Prod.snd).Nodup) :
    ((nameAll choices assignment).named.map Prod.snd).Nodup := by
  induction choices generalizing assignment with
  | nil => exact distinct
  | cons choice rest step =>
    exact step (assignment.name choice.1 choice.2)
      (List.nodup_cons.mpr ⟨uniqueName_notMem, distinct⟩)

theorem map_fst_nameAll :
    (nameAll choices assignment).named.map Prod.fst =
      (choices.map Prod.fst).reverse ++ assignment.named.map Prod.fst := by
  induction choices generalizing assignment with
  | nil => rfl
  | cons choice rest step =>
    show (nameAll rest (assignment.name choice.1 choice.2)).named.map Prod.fst = _
    rw [step, List.map_cons, List.reverse_cons, List.append_assoc]
    rfl

/-- What is chosen stays chosen. -/
theorem mem_nameAll_of_mem {entry : Nat × String} (member : entry ∈ assignment.named) :
    entry ∈ (nameAll choices assignment).named := by
  induction choices generalizing assignment with
  | nil => exact member
  | cons choice rest step =>
    exact step (assignment.name choice.1 choice.2) (List.mem_cons_of_mem _ member)

end Choices

/-! ### The order of choices -/

/-- The objects with their best hints, by first arrival. -/
def candidates (walk : Walk) : List (Nat × Hint) :=
  walk.order.filterMap fun index => (walk.best? index).map (index, ·)

theorem map_fst_candidates (graph : ShapeGraph) (rootName : String) :
    (candidates (Walk.ofGraph graph rootName)).map Prod.fst =
      (Walk.ofGraph graph rootName).order := by
  refine Lists.map_fst_filterMap_pair fun index member => ?_
  obtain ⟨hint, noted⟩ :=
    (Walk.ofGraph_noted graph rootName).hinted index (List.mem_reverse.mp member)
  exact Walk.isSome_best? noted

/-- Candidates choose by tiers. -/
theorem perm_choosing (walk : Walk) (distinct : (candidates walk).Nodup) :
    (choosing walk).Perm (candidates walk) := by
  show (Tier.all.flatMap fun tier => (candidates walk).filter (·.2.tier = tier)).Perm _
  -- An entry has one tier, and every tier has its turn.
  refine (List.perm_ext_iff_of_nodup ?_ distinct).mpr fun entry => ?_
  · refine List.nodup_flatMap.mpr ⟨fun tier _ => distinct.filter _, ?_⟩
    refine List.Pairwise.imp_of_mem ?_ (by decide : Tier.all.Pairwise (· ≠ ·))
    intro tier other _ _ apart entry first second
    exact apart ((of_decide_eq_true (List.mem_filter.mp first).2).symm.trans
      (of_decide_eq_true (List.mem_filter.mp second).2))
  · rw [List.mem_flatMap]
    constructor
    · rintro ⟨tier, _, inside⟩
      exact (List.mem_filter.mp inside).1
    · intro member
      refine ⟨entry.2.tier, by cases entry.2.tier <;> decide, List.mem_filter.mpr ⟨member, ?_⟩⟩
      exact decide_eq_true rfl

/-- **The object of the root chooses first,** and wants the name that it is given. -/
theorem head?_choosing {index : Nat} {hint : Hint}
    (first : ∃ rest, (Walk.ofGraph graph rootName).order = index :: rest)
    (noted : (index, hint) ∈ (Walk.ofGraph graph rootName).hints) (strongest : hint.tier = .root) :
    ∃ best rest, best.name = rootName ∧
      choosing (Walk.ofGraph graph rootName) = (index, best) :: rest := by
  obtain ⟨others, order⟩ := first
  obtain ⟨best, found⟩ := Option.isSome_iff_exists.mp (Walk.isSome_best? noted)
  have root := Walk.tier_best? noted strongest found
  have named := ((Walk.ofGraph_noted graph rootName).suggested _
    (Walk.mem_hints_of_best? found)).of_root root
  have head : (choosing (Walk.ofGraph graph rootName)).head? = some (index, best) := by
    unfold choosing Tier.all
    dsimp only
    rw [order, List.flatMap_cons]
    simp only [List.filterMap_cons, found, Option.map_some, List.filter_cons, root, decide_true,
      if_true, List.cons_append, List.head?_cons]
  obtain ⟨rest, split⟩ := List.head?_eq_some_iff.mp head
  exact ⟨best, rest, named.2, split⟩

/-! ### The naming of a graph -/

/-- Names are distinct, every object that the walk enters has one, and the object of the root comes
first, with the name that it is given. -/
structure Sound (naming : Naming) (graph : ShapeGraph) (rootName : String) : Prop where
  /-- Objects stand for what they stand for in the graph. -/
  aliases : naming.aliases = graph.aliases
  /-- No name is given twice. -/
  distinct : (naming.entries.map Prod.snd).Nodup
  /-- No object is named twice. -/
  once : (naming.entries.map Prod.fst).Nodup
  /-- What is named is what the root leads to. -/
  named : ∀ index, index ∈ naming.entries.map Prod.fst ↔
    Reach.Reached (Walk.successors graph) (Walk.starts graph) index
  /-- The object of the root comes first. -/
  root : ∃ index rest, graph.IsRootObject index ∧ Walk.starts graph = [index] ∧
    naming.entries = (index, rootName) :: rest

/-- The names that the objects of a walk end up with, the last choice first. -/
def named (walk : Walk) : List (Nat × String) :=
  (nameAll (choosing walk) ⟨[], [], [], []⟩).named

theorem entries_ofGraph (graph : ShapeGraph) (rootName : String) :
    (ofGraph graph rootName).entries =
      (Walk.ofGraph graph rootName).order.filterMap fun index =>
        ((named (Walk.ofGraph graph rootName)).lookup index).map (index, ·) := rfl

/-- **Every object that was entered has one name.** -/
theorem perm_named (graph : ShapeGraph) (rootName : String) :
    ((named (Walk.ofGraph graph rootName)).map Prod.fst).Perm
      (Walk.ofGraph graph rootName).order := by
  have entered := map_fst_candidates graph rootName
  have once : (candidates (Walk.ofGraph graph rootName)).Nodup := by
    refine .of_map Prod.fst ?_
    rw [entered]
    exact Walk.nodup_order graph rootName
  unfold named
  rw [map_fst_nameAll, ← entered, List.map_nil, List.append_nil]
  exact (List.reverse_perm _).trans ((perm_choosing _ once).map Prod.fst)

theorem nodup_map_fst_named (graph : ShapeGraph) (rootName : String) :
    ((named (Walk.ofGraph graph rootName)).map Prod.fst).Nodup :=
  (perm_named graph rootName).nodup_iff.mpr (Walk.nodup_order graph rootName)

theorem map_fst_entries_ofGraph (graph : ShapeGraph) (rootName : String) :
    (ofGraph graph rootName).entries.map Prod.fst = (Walk.ofGraph graph rootName).order := by
  rw [entries_ofGraph]
  exact Lists.map_fst_filterMap_pair fun index member =>
    Lists.lookup_isSome_iff_mem.mpr ((perm_named graph rootName).mem_iff.mpr member)

/-- **What is listed is what was chosen,** in another order. -/
theorem mem_entries_ofGraph_iff {entry : Nat × String} :
    entry ∈ (ofGraph graph rootName).entries ↔ entry ∈ named (Walk.ofGraph graph rootName) := by
  rw [entries_ofGraph, Lists.mem_filterMap_pair_iff,
    Lists.lookup_eq_some_iff_mem (nodup_map_fst_named graph rootName)]
  refine and_iff_right_of_imp fun member => ?_
  exact (perm_named graph rootName).mem_iff.mp (List.mem_map_of_mem member)

theorem nodup_map_snd_entries_ofGraph (graph : ShapeGraph) (rootName : String) :
    ((ofGraph graph rootName).entries.map Prod.snd).Nodup := by
  have distinct : ((named (Walk.ofGraph graph rootName)).map Prod.snd).Nodup :=
    nameAll_distinct _ _ List.nodup_nil
  have once : (ofGraph graph rootName).entries.Nodup := by
    refine .of_map Prod.fst ?_
    rw [map_fst_entries_ofGraph]
    exact Walk.nodup_order graph rootName
  refine once.map_on fun entry member other member' same => ?_
  exact List.inj_on_of_nodup_map distinct (mem_entries_ofGraph_iff.mp member)
    (mem_entries_ofGraph_iff.mp member') same

/-- The object that chooses first, and wants the name of the root, is listed first with it. -/
theorem head?_entries_ofGraph {index : Nat} {best : Hint} {rest : List (Nat × Hint)}
    (first : ∃ others, (Walk.ofGraph graph rootName).order = index :: others)
    (wanted : best.name = rootName)
    (split : choosing (Walk.ofGraph graph rootName) = (index, best) :: rest) :
    (ofGraph graph rootName).entries.head? = some (index, rootName) := by
  have rootNamed : (index, rootName) ∈ named (Walk.ofGraph graph rootName) := by
    unfold named
    rw [split]
    refine mem_nameAll_of_mem rest _ (List.mem_singleton.mpr ?_)
    rw [← wanted]
    rfl
  have looked := (Lists.lookup_eq_some_iff_mem (nodup_map_fst_named graph rootName)).mpr rootNamed
  obtain ⟨others, order⟩ := first
  rw [entries_ofGraph, order]
  simp only [List.filterMap_cons, looked, Option.map_some, List.head?_cons]

/-- **What naming the objects of a graph leads to.** -/
theorem ofGraph_sound (sound : graph.Sound) (rootName : String) :
    (ofGraph graph rootName).Sound graph rootName := by
  have indices := map_fst_entries_ofGraph graph rootName
  obtain ⟨index, isRoot, starts, first, hint, strongest, noted⟩ := Walk.exists_root sound rootName
  obtain ⟨best, rest, wanted, split⟩ := head?_choosing first noted strongest
  obtain ⟨others, front⟩ :=
    List.head?_eq_some_iff.mp (head?_entries_ofGraph first wanted split)
  refine ⟨rfl, nodup_map_snd_entries_ofGraph graph rootName, ?_, fun place => ?_,
    index, others, isRoot, starts, front⟩
  · rw [indices]
    exact Walk.nodup_order graph rootName
  · rw [indices]
    exact Walk.mem_order_iff

end SampleShapes.Naming
