/-
**Lists.**

What a search through an association list finds, when a partial map succeeds on a whole list, and
what is left of a list when every entry counts once.

* `lookup_eq_some_iff_mem`: among distinct keys, a search finds exactly what is there;
* `mapM_eq_some_iff`: a partial map succeeds on a list exactly if it does so on every entry;
* `eraseDups_eraseDups`: counting every entry once is done at once.
-/

import Mathlib.Data.List.Forall2
import Mathlib.Data.List.Induction
import Mathlib.Data.List.Nodup
import Mathlib.Data.List.Perm.Basic

namespace SampleShapes.Lists

variable {α β κ ν : Type}

/-! ### Association lists -/

section Lookup

variable [DecidableEq κ] {entries : List (κ × ν)} {key : κ} {value : ν}

theorem mem_of_lookup (found : entries.lookup key = some value) : (key, value) ∈ entries := by
  obtain ⟨before, after, split, _⟩ := List.lookup_eq_some_iff.mp found
  rw [split]
  simp

/-- **Among distinct keys, a search finds exactly what is there.** -/
theorem lookup_eq_some_iff_mem (distinct : (entries.map Prod.fst).Nodup) :
    entries.lookup key = some value ↔ (key, value) ∈ entries := by
  refine ⟨mem_of_lookup, fun member => ?_⟩
  induction entries with
  | nil => simp at member
  | cons entry rest step =>
    rw [List.map_cons, List.nodup_cons] at distinct
    rcases List.mem_cons.mp member with rfl | later
    · simp
    · have apart : (key == entry.1) = false := by
        rw [beq_eq_false_iff_ne]
        rintro rfl
        exact distinct.1 (List.mem_map.mpr ⟨_, later, rfl⟩)
      rw [List.lookup_cons, apart]
      exact step distinct.2 later

theorem lookup_isSome_iff_mem : (entries.lookup key).isSome ↔ key ∈ entries.map Prod.fst := by
  rw [List.lookup_isSome_iff]
  constructor
  · rintro ⟨entry, member, same⟩
    exact List.mem_map.mpr ⟨entry, member, (beq_iff_eq.mp same).symm⟩
  · intro member
    obtain ⟨entry, inside, rfl⟩ := List.mem_map.mp member
    exact ⟨entry, inside, beq_self_eq_true _⟩

/-- Keys may change their names if they keep apart. -/
theorem lookup_map_fst {μ : Type} [DecidableEq μ] {name : κ → μ}
    (injective : Function.Injective name) (entries : List (κ × ν)) (key : κ) :
    (entries.map fun entry => (name entry.1, entry.2)).lookup (name key) = entries.lookup key := by
  induction entries with
  | nil => rfl
  | cons entry rest step =>
    rw [List.map_cons, List.lookup_cons, List.lookup_cons, step, injective.beq_eq]

end Lookup

/-! ### Partial maps -/

/-- **A partial map succeeds on a list exactly if it does so on every entry.** -/
theorem mapM_eq_some_iff {partialMap : α → Option β} {entries : List α} {results : List β} :
    entries.mapM partialMap = some results ↔
      List.Forall₂ (fun entry result => partialMap entry = some result) entries results := by
  induction entries generalizing results with
  | nil => simp [eq_comm]
  | cons entry rest step =>
    simp only [List.mapM_cons, Option.bind_eq_bind, Option.bind_eq_some_iff, Option.pure_def,
      List.forall₂_cons_left_iff, step]
    constructor
    · rintro ⟨result, found, others, related, same⟩
      exact ⟨result, others, found, related, (Option.some.inj same).symm⟩
    · rintro ⟨result, others, found, related, same⟩
      exact ⟨result, found, others, related, congrArg some same.symm⟩

theorem exists_mapM_eq_some {partialMap : α → Option β} {entries : List α}
    (all : ∀ entry ∈ entries, (partialMap entry).isSome) :
    ∃ results, entries.mapM partialMap = some results := by
  induction entries with
  | nil => exact ⟨[], rfl⟩
  | cons entry rest step =>
    obtain ⟨result, here⟩ := Option.isSome_iff_exists.mp (all entry List.mem_cons_self)
    obtain ⟨results, there⟩ := step fun other member => all other (List.mem_cons_of_mem _ member)
    exact ⟨result :: results, by simp [List.mapM_cons, here, there]⟩

theorem mapM_congr {first second : α → Option β} {entries : List α}
    (same : ∀ entry ∈ entries, first entry = second entry) :
    entries.mapM first = entries.mapM second := by
  induction entries with
  | nil => rfl
  | cons entry rest step =>
    rw [List.mapM_cons, List.mapM_cons, same entry List.mem_cons_self,
      step fun other member => same other (List.mem_cons_of_mem _ member)]

/-- A partial map succeeds on changed entries as another one does on the entries. -/
theorem mapM_map {γ δ : Type} {name : α → γ} {change : β → δ} {first : α → Option β}
    {second : γ → Option δ} {entries : List α}
    (same : ∀ entry ∈ entries, second (name entry) = (first entry).map change) :
    (entries.map name).mapM second = (entries.mapM first).map (List.map change) := by
  induction entries with
  | nil => rfl
  | cons entry rest step =>
    rw [List.map_cons, List.mapM_cons, List.mapM_cons, same entry List.mem_cons_self,
      step fun other member => same other (List.mem_cons_of_mem _ member)]
    cases first entry with
    | none => rfl
    | some result => cases rest.mapM first <;> rfl

theorem exists_mem_of_forall₂ {related : α → β → Prop} {entries : List α} {results : List β}
    (all : List.Forall₂ related entries results) {entry : α} (member : entry ∈ entries) :
    ∃ result ∈ results, related entry result := by
  induction all with
  | nil => simp at member
  | cons first _ step =>
    rcases List.mem_cons.mp member with rfl | later
    · exact ⟨_, List.mem_cons_self, first⟩
    · obtain ⟨result, inside, holds⟩ := step later
      exact ⟨result, List.mem_cons_of_mem _ inside, holds⟩

theorem exists_mem_of_forall₂_right {related : α → β → Prop} {entries : List α}
    {results : List β} (all : List.Forall₂ related entries results) {result : β}
    (member : result ∈ results) : ∃ entry ∈ entries, related entry result :=
  exists_mem_of_forall₂ (List.Forall₂.flip all) member

/-- What is related to the entries one by one is found if there is something for each of them. -/
theorem exists_forall₂ {related : α → β → Prop} {entries : List α}
    (each : ∀ entry ∈ entries, ∃ result, related entry result) :
    ∃ results, List.Forall₂ related entries results := by
  induction entries with
  | nil => exact ⟨[], .nil⟩
  | cons entry rest step =>
    rw [List.forall_mem_cons] at each
    obtain ⟨result, here⟩ := each.1
    obtain ⟨results, others⟩ := step each.2
    exact ⟨result :: results, .cons here others⟩

/-- What two lists are to a third one, one entry at a time, leads from the one to the other. -/
theorem forall₂_of_forall₂ {γ : Type} {related : α → β → Prop} {related' : α → γ → Prop}
    {leads : β → γ → Prop} {entries : List α} {firsts : List β} {seconds : List γ}
    (all : List.Forall₂ related entries firsts) (all' : List.Forall₂ related' entries seconds)
    (each : ∀ entry ∈ entries, ∀ first ∈ firsts, ∀ second, related entry first →
      related' entry second → leads first second) : List.Forall₂ leads firsts seconds := by
  induction all generalizing seconds with
  | nil =>
    cases all'
    exact .nil
  | @cons entry first rest firsts here _ step =>
    cases all' with
    | cons here' others' =>
      refine .cons (each entry List.mem_cons_self first List.mem_cons_self _ here here') ?_
      exact step others' fun entry member first member' =>
        each entry (List.mem_cons_of_mem _ member) first (List.mem_cons_of_mem _ member')

/-- What is related stays so if entries of both lists do. -/
theorem forall₂_imp_of_mem {related related' : α → β → Prop} {entries : List α} {others : List β}
    (leads : ∀ entry ∈ entries, ∀ other ∈ others, related entry other → related' entry other)
    (all : List.Forall₂ related entries others) : List.Forall₂ related' entries others := by
  obtain ⟨lengths, each⟩ := List.forall₂_iff_zip.mp all
  refine List.forall₂_iff_zip.mpr ⟨lengths, fun {entry other} pair => ?_⟩
  obtain ⟨member, member'⟩ := List.of_mem_zip pair
  exact leads entry member other member' (each pair)

/-- Two lists are mapped to one exactly if their entries are, one by one. -/
theorem map_eq_map_iff_forall₂ {change : α → β} {entries others : List α} :
    entries.map change = others.map change ↔
      List.Forall₂ (fun entry other => change entry = change other) entries others := by
  rw [← List.forall₂_eq_eq_eq, List.forall₂_map_left_iff, List.forall₂_map_right_iff]

section PartialMaps

variable {partialMap : α → Option β} {entries : List α} {results : List β}

/-- What a partial map makes of an entry is among the results. -/
theorem exists_mem_of_mapM (all : entries.mapM partialMap = some results) {entry : α}
    (member : entry ∈ entries) : ∃ result ∈ results, partialMap entry = some result :=
  exists_mem_of_forall₂ (mapM_eq_some_iff.mp all) member

/-- What is made of an entry is one of the results. -/
theorem mem_of_mapM (all : entries.mapM partialMap = some results) {entry : α} {result : β}
    (member : entry ∈ entries) (made : partialMap entry = some result) : result ∈ results := by
  obtain ⟨other, inside, made'⟩ := exists_mem_of_mapM all member
  rwa [Option.some.inj (made.symm.trans made')]

/-- Every result is made of an entry. -/
theorem exists_mem_of_mapM_right (all : entries.mapM partialMap = some results) {result : β}
    (member : result ∈ results) : ∃ entry ∈ entries, partialMap entry = some result :=
  exists_mem_of_forall₂_right (mapM_eq_some_iff.mp all) member

end PartialMaps

/-- A partial map succeeds on entries in another order, with the results in another order. -/
theorem exists_mapM_of_perm {partialMap : α → Option β} {entries others : List α} {results : List β}
    (perm : others.Perm entries) (all : entries.mapM partialMap = some results) :
    ∃ results', others.mapM partialMap = some results' ∧ results'.Perm results := by
  rw [mapM_eq_some_iff] at all
  obtain ⟨results', all', perm'⟩ := List.perm_comp_forall₂ perm all
  exact ⟨results', mapM_eq_some_iff.mpr all', perm'⟩

/-- A partial map fails on entries if it fails on them in another order. -/
theorem mapM_eq_none_of_perm {partialMap : α → Option β} {entries others : List α}
    (perm : others.Perm entries) (fails : entries.mapM partialMap = none) :
    others.mapM partialMap = none := by
  cases all : others.mapM partialMap with
  | none => rfl
  | some results =>
    obtain ⟨_, all', _⟩ := exists_mapM_of_perm perm.symm all
    cases fails.symm.trans all'

theorem mem_filterMap_pair_iff {partialMap : α → Option β} {entries : List α} {entry : α}
    {result : β} :
    (entry, result) ∈ (entries.filterMap fun entry => (partialMap entry).map (entry, ·)) ↔
      entry ∈ entries ∧ partialMap entry = some result := by
  rw [List.mem_filterMap]
  constructor
  · rintro ⟨other, member, same⟩
    obtain ⟨found, here, pair⟩ := Option.map_eq_some_iff.mp same
    obtain ⟨rfl, rfl⟩ := Prod.mk.inj pair
    exact ⟨member, here⟩
  · rintro ⟨member, here⟩
    exact ⟨entry, member, by rw [here]; rfl⟩

theorem map_fst_filterMap_pair {partialMap : α → Option β} {entries : List α}
    (all : ∀ entry ∈ entries, (partialMap entry).isSome) :
    (entries.filterMap fun entry => (partialMap entry).map (entry, ·)).map Prod.fst = entries := by
  induction entries with
  | nil => rfl
  | cons entry rest step =>
    rw [List.forall_mem_cons] at all
    obtain ⟨result, found⟩ := Option.isSome_iff_exists.mp all.1
    simp only [List.filterMap_cons, found, Option.map_some, List.map_cons, step all.2]

/-! ### Folds -/

/-- What one entry brings about and no entry undoes is there in the end. -/
theorem foldl_of_mem (good : β → Prop) {step : β → α → β} {entries : List α} {entry : α}
    (member : entry ∈ entries) (brings : ∀ state, good (step state entry))
    (keeps : ∀ state other, good state → good (step state other)) (state : β) :
    good (entries.foldl step state) := by
  obtain ⟨before, after, rfl⟩ := List.append_of_mem member
  rw [List.foldl_append, List.foldl_cons]
  exact List.foldlRecOn after step (brings _) fun state holds other _ => keeps state other holds

theorem singleton_subset {entries : List α} {entry : α} (member : entry ∈ entries) :
    [entry] ⊆ entries :=
  List.cons_subset.mpr ⟨member, List.nil_subset _⟩

/-! ### One entry after the other -/

/-- What holds of an entry once it holds of those before it, holds of all. -/
theorem forall_mem_of_before {good : α → Prop} {entries : List α}
    (each : ∀ before entry after, entries = before ++ entry :: after →
      (∀ other ∈ before, good other) → good entry) : ∀ entry ∈ entries, good entry := by
  induction entries with
  | nil => exact fun _ member => absurd member List.not_mem_nil
  | cons first rest step =>
    have here := each [] first rest rfl fun _ member => absurd member List.not_mem_nil
    refine List.forall_mem_cons.mpr ⟨here, step fun before entry after split others => ?_⟩
    refine each (first :: before) entry after ?_ (List.forall_mem_cons.mpr ⟨here, others⟩)
    rw [split, List.cons_append]

/-! ### Every entry once -/

section Once

variable [DecidableEq α]

theorem eraseDups_concat (entries : List α) (entry : α) :
    (entries ++ [entry]).eraseDups =
      if entry ∈ entries.eraseDups then entries.eraseDups else entries.eraseDups ++ [entry] := by
  have single : [entry].eraseDups = [entry] := rfl
  rw [List.eraseDups_append]
  by_cases member : entry ∈ entries <;> simp [List.removeAll, member, single]

theorem nodup_eraseDups (entries : List α) : entries.eraseDups.Nodup := by
  induction entries using List.reverseRecOn with
  | nil => exact List.nodup_nil
  | append_singleton rest entry step =>
    rw [eraseDups_concat]
    split
    · exact step
    · next fresh =>
      refine List.nodup_append.mpr ⟨step, by simp, ?_⟩
      intro first member second last same
      rw [List.mem_singleton] at last
      exact fresh (last ▸ same ▸ member)

theorem eraseDups_of_nodup {entries : List α} (distinct : entries.Nodup) :
    entries.eraseDups = entries := by
  induction entries with
  | nil => rfl
  | cons entry rest step =>
    rw [List.nodup_cons] at distinct
    have others : (rest.filter fun other => !other == entry) = rest := by
      refine List.filter_eq_self.mpr fun other member => ?_
      have apart : other ≠ entry := by
        rintro rfl
        exact distinct.1 member
      simp [apart]
    rw [List.eraseDups_cons, others, step distinct.2]

/-- **Counting every entry once is done at once.** -/
theorem eraseDups_eraseDups (entries : List α) :
    entries.eraseDups.eraseDups = entries.eraseDups :=
  eraseDups_of_nodup (nodup_eraseDups entries)

/-- Lists of the same entries have the same entries once. -/
theorem eraseDups_perm {entries others : List α}
    (same : ∀ entry, entry ∈ others ↔ entry ∈ entries) :
    others.eraseDups.Perm entries.eraseDups := by
  refine (List.perm_ext_iff_of_nodup (nodup_eraseDups _) (nodup_eraseDups _)).mpr fun entry => ?_
  rw [List.mem_eraseDups, List.mem_eraseDups, same]

/-- Entries that keep apart under other names count once under these. -/
theorem eraseDups_map [DecidableEq β] {name : α → β} (injective : Function.Injective name)
    (entries : List α) : (entries.map name).eraseDups = entries.eraseDups.map name := by
  induction entries using List.reverseRecOn with
  | nil => rfl
  | append_singleton rest entry step =>
    have same : name entry ∈ rest.eraseDups.map name ↔ entry ∈ rest.eraseDups :=
      List.mem_map_of_injective injective
    rw [List.map_append, List.map_singleton, eraseDups_concat, eraseDups_concat, step]
    by_cases member : entry ∈ rest.eraseDups
    · rw [if_pos member, if_pos (same.mpr member)]
    · rw [if_neg member, if_neg (fun known => member (same.mp known)), List.map_append,
        List.map_singleton]

/-- Entries that pass a test count once among those that do. -/
theorem eraseDups_filter (test : α → Bool) (entries : List α) :
    (entries.filter test).eraseDups = entries.eraseDups.filter test := by
  induction entries using List.reverseRecOn with
  | nil => rfl
  | append_singleton rest entry step =>
    rw [List.filter_append, eraseDups_concat rest]
    cases passes : test entry with
    | false =>
      rw [List.filter_cons_of_neg (by rw [passes]; decide), List.filter_nil, List.append_nil, step]
      split
      · rfl
      · rw [List.filter_append, List.filter_cons_of_neg (by rw [passes]; decide), List.filter_nil,
          List.append_nil]
    | true =>
      have same : entry ∈ rest.eraseDups.filter test ↔ entry ∈ rest.eraseDups :=
        List.mem_filter.trans (and_iff_left passes)
      rw [List.filter_cons_of_pos passes, List.filter_nil, eraseDups_concat, step]
      by_cases member : entry ∈ rest.eraseDups
      · rw [if_pos member, if_pos (same.mpr member)]
      · rw [if_neg member, if_neg (mt same.mp member), List.filter_append,
          List.filter_cons_of_pos passes, List.filter_nil]

/-- Of several distinct entries, one is not the given one. -/
theorem exists_ne_of_nodup {entries : List α} (distinct : entries.Nodup)
    (several : 2 ≤ entries.length) (entry : α) : ∃ other ∈ entries, other ≠ entry := by
  match entries with
  | [] => exact absurd several (by simp)
  | [only] => exact absurd several (by simp)
  | first :: second :: rest =>
    by_cases same : first = entry
    · refine ⟨second, by simp, fun also => ?_⟩
      exact (List.nodup_cons.mp distinct).1 (by simp [same, also])
    · exact ⟨first, by simp, same⟩

omit [DecidableEq α] in
/-- Of fewer than two entries a given one is the only one. -/
theorem eq_singleton_of_length_lt_two {entries : List α} {entry : α} (member : entry ∈ entries)
    (few : entries.length < 2) : entries = [entry] := by
  obtain ⟨only, rfl⟩ := List.length_eq_one_iff.mp
    (Nat.le_antisymm (Nat.le_of_lt_succ few) (List.length_pos_of_mem member))
  rw [List.mem_singleton.mp member]

/-- Of several distinct entries there is one beside any given one. -/
theorem one_lt_length_iff_exists_ne {entries : List α} {entry : α} (distinct : entries.Nodup)
    (member : entry ∈ entries) : 1 < entries.length ↔ ∃ other ∈ entries, other ≠ entry := by
  constructor
  · intro several
    exact exists_ne_of_nodup distinct several entry
  · rintro ⟨other, inside, apart⟩
    have pair : [other, entry].Nodup :=
      List.nodup_cons.mpr ⟨fun same => apart (List.mem_singleton.mp same), List.nodup_singleton _⟩
    exact pair.length_le_of_subset
      (List.forall_mem_cons.mpr ⟨inside, List.forall_mem_singleton.mpr member⟩)

omit [DecidableEq α] in
/-- Distinct entries that are all the same are one. -/
theorem eq_singleton_of_nodup {entries : List α} {entry : α} (distinct : entries.Nodup)
    (member : entry ∈ entries) (only : ∀ other ∈ entries, other = entry) : entries = [entry] := by
  match entries with
  | [] => exact absurd member List.not_mem_nil
  | [first] => rw [only first (List.mem_singleton_self first)]
  | first :: second :: rest =>
    rw [List.forall_mem_cons, List.forall_mem_cons] at only
    rw [only.1, only.2.1] at distinct
    exact absurd List.mem_cons_self (List.nodup_cons.mp distinct).1

theorem eraseDups_eq_singleton_iff {entries : List α} {entry : α} :
    entries.eraseDups = [entry] ↔ entry ∈ entries ∧ ∀ other ∈ entries, other = entry := by
  constructor
  · intro alone
    have only : ∀ other, other ∈ entries ↔ other = entry := fun other => by
      rw [← List.mem_eraseDups, alone, List.mem_singleton]
    exact ⟨(only entry).mpr rfl, fun other member => (only other).mp member⟩
  · rintro ⟨member, only⟩
    exact eq_singleton_of_nodup (nodup_eraseDups entries) (List.mem_eraseDups.mpr member)
      fun other inside => only other (List.mem_eraseDups.mp inside)

end Once

end SampleShapes.Lists
