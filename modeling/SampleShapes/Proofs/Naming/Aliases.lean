/-
**What aliases lead to.**

An alias leads from an object that was collected under a target to the merge of this target, and is
looked up in one step. A merge may have been collected under another target itself, and then an
alias leads from it as well, so that a second step leads further than the first. Merges that no
alias leads to are dropped with all that only they hold, and aliases from there may be left.

* `follows_iff_isSome`: aliases lead from what follows a merge, and from nothing else;
* `hasFields_iff_isReached`: what an alias leads from is left exactly if it is reached;
* `hasFields_of_alias`: all of it is, if every merge is left and the rounds came to rest;
* `resolves_of_infer`: **where aliases lead, and when one step is enough**;
* `aliases_chain`: one step may not be enough, and an alias may lead from an object that was
  dropped.
-/

import SampleShapes.Proofs.Naming.Coverage
import SampleShapes.Proofs.Pruning

namespace SampleShapes

open Registry

namespace Registry

variable {registry later : Registry} {object position : ShapeId} {roots : List ShapeId}
  {index : Nat}

/-! ### Parts of a registry -/

theorem IsReached.within (within : registry.Within later)
    (reached : registry.IsReached roots index) : later.IsReached roots index := by
  induction reached with
  | start member => exact .start member
  | step _ leads before =>
    obtain ⟨shape, found, child⟩ := mem_childNodes_iff.mp leads
    exact .step before (mem_childNodes_iff.mpr ⟨shape, within _ shape found, child⟩)

/-- A sound part of a registry keeps what lies in a position that it keeps. -/
theorem holds_of_liesIn_later (sound : registry.Sound) (within : registry.Within later)
    (inside : later.LiesIn object position) (held : registry.Holds position) :
    registry.Holds object := by
  induction inside with
  | here _ => exact held
  | element found member _ step =>
    have here := (within.shape?_of_holds held).trans (elements?_eq_some_iff.mp found)
    exact step (sound.child here member).1
  | member found member _ step =>
    have here := (within.shape?_of_holds held).trans (members?_eq_some_iff.mp found)
    exact step (sound.child here member).1

end Registry

namespace ShapeGraph

variable {graph : ShapeGraph} {options : Options} {sample : Json} {member index : Nat}

/-! ### What follows a merge -/

/-- The node was collected in the last round under a target with another merge. -/
def Follows (options : Options) (sample : Json) (member index : Nat) : Prop :=
  ∃ groups state target, roundsOf options sample maxRounds = some (groups, state) ∧
    InGroup groups target (.node member) ∧ state.merged.get? target = some index ∧ member ≠ index

/-- Everything that the last round merged is left in the graph. -/
def KeepsMerges (graph : ShapeGraph) (options : Options) (sample : Json) : Prop :=
  ∀ result ∈ roundsOf options sample maxRounds, ∀ index ∈ result.2.merged.values,
    (graph.registry.shapeAt? index).isSome

instance (graph : ShapeGraph) (options : Options) (sample : Json) :
    Decidable (graph.KeepsMerges options sample) :=
  inferInstanceAs (Decidable (∀ result ∈ _, ∀ index ∈ _, _))

/-- An alias leads to a merge that its member follows. -/
theorem follows_of_alias (inferred : infer options sample = .ok graph)
    (leads : graph.aliases.get? member = some index) : Follows options sample member index := by
  obtain ⟨before, _, _, rounds, _, aliases, _⟩ := exists_round_of_infer inferred
  rw [aliases] at leads
  obtain ⟨target, group, found, merge, inside⟩ := leadsToMerges_aliases _ _ member index leads
  exact ⟨_, _, target, rounds, ⟨group, found, inside⟩, merge, ne_of_aliases leads⟩

/-- **Aliases lead from what follows a merge,** and from nothing else. -/
theorem follows_iff_isSome (inferred : infer options sample = .ok graph) :
    (∃ index, Follows options sample member index) ↔ (graph.aliases.get? member).isSome := by
  constructor
  · rintro ⟨index, groups, state, target, rounds', ⟨group, found, inside⟩, merge, apart⟩
    obtain ⟨before, _, _, rounds, _, aliases, _⟩ := exists_round_of_infer inferred
    obtain ⟨rfl, rfl⟩ := Prod.mk.inj (Option.some.inj (rounds.symm.trans rounds'))
    rw [aliases]
    exact isSome_aliases found merge inside apart
  · intro aliased
    obtain ⟨index, leads⟩ := Option.isSome_iff_exists.mp aliased
    exact ⟨index, follows_of_alias inferred leads⟩

/-- **What an alias leads from is left exactly if it is reached,** from the root or from what
aliases lead to. -/
theorem hasFields_iff_isReached (inferred : infer options sample = .ok graph)
    (leads : graph.aliases.get? member = some index) :
    graph.registry.HasFields (.node member) ↔ graph.registry.IsReached graph.roots member := by
  rw [← (isPruned_of_infer inferred).holds_iff]
  exact ⟨HasFields.holds, (represents_of_infer inferred).merged member index leads⟩

/-- **Aliases lead from objects that are left,** if every merge is and the rounds came to rest. -/
theorem hasFields_of_alias (inferred : infer options sample = .ok graph)
    (rests : Rests options sample) (keeps : graph.KeepsMerges options sample)
    (leads : graph.aliases.get? member = some index) : graph.registry.HasFields (.node member) := by
  have sound := (represents_of_infer inferred).toSound
  obtain ⟨before, soundBefore, holds, rounds, settles, aliases, left⟩ :=
    exists_round_of_infer inferred
  obtain ⟨soundNext, grows⟩ := Unification.round_sound soundBefore graph.root
  have still := settles rests
  have within : graph.registry.Within (before.round graph.root).2.registry := by
    rw [left]
    exact within_prune _ _
  obtain ⟨roots, rooted⟩ :
      ∃ roots, graph.root :: before.merged.values.map ShapeId.node = roots := ⟨_, rfl⟩
  -- The round started from the root and from merges, and these are left.
  have held : ∀ id ∈ roots, graph.registry.Holds id := by
    rw [← rooted]
    refine List.forall_mem_cons.mpr ⟨sound.root.holds, fun id member => ?_⟩
    obtain ⟨place, value, rfl⟩ := List.mem_map.mp member
    exact Option.isSome_iff_exists.mp (keeps _ rounds place (still.symm ▸ value))
  have collected : ∀ target group, (before.round graph.root).1.get? target = some group →
      ∀ id ∈ group, graph.registry.Holds id := by
    unfold Unification.round
    rw [rooted]
    refine forall_mem_groups fun place fields reached found field value _ _ id bound => ?_
    have parent := holds_of_isReached_later sound.registry within held (reached.within grows.within)
    have object := (within.shape?_of_holds parent).trans (grows.within place _ found)
    have position := (sound.registry.child object (List.mem_map_of_mem value)).1
    have bound := mem_boundObjects_of_within grows.within bound
    have inside := ((mem_boundObjects_iff soundNext.registry (within.holds position) _
      (Nat.le_refl _)).mp bound).1
    exact holds_of_liesIn_later sound.registry within inside position
  rw [aliases] at leads
  obtain ⟨target, group, found, merge, inside⟩ := leadsToMerges_aliases _ _ member index leads
  rw [← aliases] at leads
  exact sound.merged member index leads (collected target group found _ inside)

/-! ### One step -/

/-- What a node stands for is another node exactly if it has an alias. -/
theorem canonicalNode_eq_iff (inferred : infer options sample = .ok graph) :
    graph.canonicalNode index = index ↔ ∀ merge, ¬ Follows options sample index merge := by
  rw [← not_exists, follows_iff_isSome inferred, Option.not_isSome_iff_eq_none]
  unfold canonicalNode
  cases leads : graph.aliases.get? index with
  | none => simp
  | some merge =>
    obtain ⟨_, _, _, _, _, _, apart⟩ := follows_of_alias inferred leads
    simp [apart.symm]

/-- The name of a node is that of its entry exactly if it has no alias. -/
theorem nameOf?_eq_entry_iff (inferred : infer options sample = .ok graph) {rootName name : String}
    (entry : (index, name) ∈ (Naming.ofGraph graph rootName).entries) :
    (Naming.ofGraph graph rootName).nameOf? index = some name ↔
      graph.canonicalNode index = index := by
  have named := Naming.ofGraph_sound (represents_of_infer inferred).toSound rootName
  rw [named.nameOf?_eq_some_iff]
  constructor
  · intro entry'
    exact (Prod.mk.inj (List.inj_on_of_nodup_map named.distinct entry' entry rfl)).1
  · intro itself
    rwa [itself]

/-- Where aliases lead, and when one step along them is enough. -/
structure Resolves (graph : ShapeGraph) (options : Options) (sample : Json) (rootName : String) :
    Prop where
  /-- An alias leads from every node that follows a merge, and from no other one. -/
  members : ∀ member, (graph.aliases.get? member).isSome ↔
    ∃ index, Follows options sample member index
  /-- It leads to a merge that its member follows, which is left and has fields. -/
  values : ∀ member index, graph.aliases.get? member = some index →
    Follows options sample member index ∧ graph.registry.HasFields (.node index)
  /-- It leads from an object with fields, if this is left. -/
  keys : ∀ member index, graph.aliases.get? member = some index →
    graph.registry.Holds (.node member) → graph.registry.HasFields (.node member)
  /-- And this is left exactly if it is reached from the root or from what aliases lead to. -/
  keys_iff : ∀ member index, graph.aliases.get? member = some index →
    (graph.registry.HasFields (.node member) ↔ graph.registry.IsReached graph.roots member)
  /-- Every such object is left if every merge is and the rounds came to rest. -/
  live : Rests options sample → graph.KeepsMerges options sample → ∀ member index,
    graph.aliases.get? member = some index → graph.registry.HasFields (.node member)
  /-- One step is enough, unless what it leads to follows a merge itself. -/
  idempotent : ∀ index,
    graph.canonicalNode (graph.canonicalNode index) = graph.canonicalNode index ↔
      ∀ merge, ¬ Follows options sample (graph.canonicalNode index) merge
  /-- An entry goes by its name, unless it follows a merge itself. -/
  named : ∀ entry ∈ (Naming.ofGraph graph rootName).entries,
    (Naming.ofGraph graph rootName).nameOf? entry.1 = some entry.2 ↔
      ∀ merge, ¬ Follows options sample entry.1 merge

/-- **Where aliases lead, and when one step is enough.** -/
theorem resolves_of_infer (inferred : infer options sample = .ok graph) (rootName : String) :
    graph.Resolves options sample rootName where
  members _ := (follows_iff_isSome inferred).symm
  values member index leads :=
    ⟨follows_of_alias inferred leads, (represents_of_infer inferred).merge member index leads⟩
  keys := (represents_of_infer inferred).merged
  keys_iff _ _ := hasFields_iff_isReached inferred
  live rests keeps _ _ leads := hasFields_of_alias inferred rests keeps leads
  idempotent _ := canonicalNode_eq_iff inferred
  named _ entry := (nameOf?_eq_entry_iff inferred entry).trans (canonicalNode_eq_iff inferred)

/-- Two objects under one target are merged to what was collected under another target as well, and
nothing is dropped. -/
theorem resolves_of_two_targets :
    ∃ graph, infer {} (.object [("x[T]", .object [("a", .null)]),
        ("l[T]", .array [.object [("p", .null)], .object [("q", .null)]]),
        ("y[S]", .object [("p", .null)]), ("z[S]", .object [("q", .null)])]) = .ok graph ∧
      graph.aliases.size = 4 ∧
      Rests {} (.object [("x[T]", .object [("a", .null)]),
        ("l[T]", .array [.object [("p", .null)], .object [("q", .null)]]),
        ("y[S]", .object [("p", .null)]), ("z[S]", .object [("q", .null)])]) ∧
      graph.KeepsMerges {} (.object [("x[T]", .object [("a", .null)]),
        ("l[T]", .array [.object [("p", .null)], .object [("q", .null)]]),
        ("y[S]", .object [("p", .null)]), ("z[S]", .object [("q", .null)])]) ∧
      graph.Resolves {} (.object [("x[T]", .object [("a", .null)]),
        ("l[T]", .array [.object [("p", .null)], .object [("q", .null)]]),
        ("y[S]", .object [("p", .null)]), ("z[S]", .object [("q", .null)])]) "Root" := by
  obtain ⟨sample, isSample⟩ : ∃ sample, Json.object [("x[T]", .object [("a", .null)]),
      ("l[T]", .array [.object [("p", .null)], .object [("q", .null)]]),
      ("y[S]", .object [("p", .null)]), ("z[S]", .object [("q", .null)])] = sample := ⟨_, rfl⟩
  rw [isSample]
  obtain ⟨graph, inferred, aliased, keeps⟩ : ∃ graph, infer {} sample = .ok graph ∧
      graph.aliases.size = 4 ∧ graph.KeepsMerges {} sample := by
    rw [← isSample]
    exact exists_of_decided (by decide +kernel)
  have rests : Rests {} sample := by
    rw [← isSample]
    decide +kernel
  exact ⟨graph, inferred, aliased, rests, keeps, resolves_of_infer inferred "Root"⟩

/-- **One step may not be enough,** so that an entry goes by the name of another one, and an alias
may lead from an object that was dropped. -/
theorem aliases_chain :
    (∃ graph, infer {} (.object [("x[T]", .object [("a", .null)]),
        ("l[T]", .array [.object [("p", .null)], .object [("q", .null)]]),
        ("y[S]", .object [("p", .null)]), ("z[S]", .object [("q", .null)])]) = .ok graph ∧
      graph.canonicalNode (graph.canonicalNode 1) ≠ graph.canonicalNode 1 ∧
      (Naming.ofGraph graph "Root").entries = [(5, "Root"), (6, "T"), (3, "S")] ∧
      (Naming.ofGraph graph "Root").nameOf? 3 = some "T") ∧
    ∃ graph, infer {} (.object [("a[T]", .object [("k[U]", .object [("x", .null)])]),
        ("b[T]", .object [("k[U]", .object [("y", .null)])]),
        ("c[T]", .object [("k[U]", .object [("z", .null)])]),
        ("d[S]", .object [("k[U]", .object [("x", .null)])]),
        ("e[S]", .object [("k[U]", .object [("y", .null)])])]) = .ok graph ∧
      graph.aliases.get? 9 = some 7 ∧ graph.registry.shapeAt? 9 = none := by
  constructor
  · exact exists_of_decided (by decide +kernel)
  · exact exists_of_decided (by decide +kernel)

end ShapeGraph

end SampleShapes
