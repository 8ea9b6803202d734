/-
**Looking up in tables.**

What stands under a key of a table that was filled, filtered or reworked.

* `get?_eq_some_iff`: what is found under a key is the entry with that key;
* `get?_ofList`: of entries that are put in one after the other, the last one of a key counts;
* `forall₂_threadEntries`: what each step of a rework achieves, and later steps leave alone, holds
  of every entry in the end;
* `map_alter`, `map_put`: changing all values goes along with insertions;
* `thread_of_still`: a rework that never moves the state on is a change of all values.
-/

import SampleShapes.Proofs.Lists
import SampleShapes.Table

namespace SampleShapes.Table

variable {κ ν μ σ : Type}

/-! ### Entries -/

section Entries

variable [DecidableEq κ] {table : Table κ ν} {key : κ} {value : ν}

/-- **What is found under a key is the entry with that key.** -/
theorem get?_eq_some_iff : table.get? key = some value ↔ (key, value) ∈ table.entries :=
  Lists.lookup_eq_some_iff_mem table.distinct

theorem isSome_get?_iff : (table.get? key).isSome ↔ key ∈ table.keys :=
  Lists.lookup_isSome_iff_mem

theorem mem_keys_of_get? (found : table.get? key = some value) : key ∈ table.keys :=
  isSome_get?_iff.mp (by rw [found]; rfl)

theorem exists_get?_of_mem_keys (member : key ∈ table.keys) :
    ∃ value, table.get? key = some value :=
  Option.isSome_iff_exists.mp (isSome_get?_iff.mpr member)

theorem get?_eq_none_of_not_mem_keys (missing : key ∉ table.keys) : table.get? key = none := by
  rw [← Option.not_isSome_iff_eq_none, isSome_get?_iff]
  exact missing

theorem mem_values_iff : value ∈ table.values ↔ ∃ key, table.get? key = some value := by
  simp only [values, get?_eq_some_iff, List.mem_map]
  constructor
  · rintro ⟨entry, member, rfl⟩
    exact ⟨entry.1, member⟩
  · rintro ⟨key, member⟩
    exact ⟨(key, value), member, rfl⟩

theorem isEmpty_eq_false_of_get? (found : table.get? key = some value) :
    table.isEmpty = false := by
  have member := get?_eq_some_iff.mp found
  rw [isEmpty, List.isEmpty_eq_false_iff]
  exact List.ne_nil_of_mem member

@[simp] theorem get?_empty : (∅ : Table κ ν).get? key = none := rfl

end Entries

/-! ### Insertion -/

section Insertion

variable [DecidableEq κ]

theorem get?_put (table : Table κ ν) (key other : κ) (value : ν) :
    (table.put key value).get? other = if other = key then some value else table.get? other :=
  get?_alter table key _ other

theorem get?_putNew (table : Table κ ν) (key other : κ) (value : ν) :
    (table.putNew key value).get? other =
      if other = key then some ((table.get? key).getD value) else table.get? other :=
  get?_alter table key _ other

/-- What is there once a new entry was put in was there before, or it is the entry. -/
theorem of_get?_putNew {table : Table κ ν} {key other : κ} {value entry : ν}
    (found : (table.putNew key value).get? other = some entry) :
    table.get? other = some entry ∨ other = key ∧ entry = value := by
  rw [get?_putNew] at found
  split at found
  · next same =>
    cases old : table.get? key with
    | none =>
      rw [old] at found
      exact .inr ⟨same, (Option.some.inj found).symm⟩
    | some kept =>
      rw [old] at found
      rw [same, old]
      exact .inl found
  · exact .inl found

theorem get?_foldl_put (entries : List (κ × ν)) (table : Table κ ν) (key : κ) :
    (entries.foldl (fun table entry => table.put entry.1 entry.2) table).get? key =
      (entries.reverse.lookup key).or (table.get? key) := by
  induction entries generalizing table with
  | nil => simp
  | cons entry rest step =>
    rcases entry with ⟨first, value⟩
    rw [List.foldl_cons, step, get?_put, List.reverse_cons, List.lookup_append, Option.or_assoc,
      List.lookup_cons]
    by_cases same : key = first
    · simp [same]
    · simp [same, beq_eq_false_iff_ne.mpr same]

/-- **Of entries that are put in one after the other, the last one of a key counts.** -/
theorem get?_ofList (entries : List (κ × ν)) (key : κ) :
    (ofList entries).get? key = entries.reverse.lookup key := by
  have none : (empty : Table κ ν).get? key = none := rfl
  rw [ofList, get?_foldl_put, none, Option.or_none]

theorem mem_of_get?_ofList {entries : List (κ × ν)} {key : κ} {value : ν}
    (found : (ofList entries).get? key = some value) : (key, value) ∈ entries := by
  rw [get?_ofList] at found
  exact List.mem_reverse.mp (Lists.mem_of_lookup found)

theorem mem_keys_ofList {entries : List (κ × ν)} {key : κ} :
    key ∈ (ofList entries).keys ↔ key ∈ entries.map Prod.fst := by
  rw [← isSome_get?_iff, get?_ofList, Lists.lookup_isSome_iff_mem, List.map_reverse,
    List.mem_reverse]

theorem get?_filter (table : Table κ ν) (test : κ → Bool) (key : κ) :
    (table.filter test).get? key = if test key then table.get? key else none := by
  by_cases passes : test key
  · rw [if_pos passes]
    refine Option.ext fun value => ?_
    rw [get?_eq_some_iff, get?_eq_some_iff]
    simp [filter, passes]
  · rw [if_neg passes]
    refine Option.eq_none_iff_forall_ne_some.mpr fun value found => ?_
    rw [get?_eq_some_iff] at found
    exact passes (List.mem_filter.mp found).2

end Insertion

/-! ### Reworking -/

theorem threadEntries_cons (step : ν → σ → μ × σ) (entry : κ × ν) (rest : List (κ × ν))
    (state : σ) :
    threadEntries step (entry :: rest) state =
      ((entry.1, (step entry.2 state).1) :: (threadEntries step rest (step entry.2 state).2).1,
        (threadEntries step rest (step entry.2 state).2).2) := rfl

/-- **What each step of a rework achieves, and later steps leave alone, holds of every entry in
the end.** The state may only move along `onward`, and `keeps` is what every step relies on. -/
theorem forall₂_threadEntries {step : ν → σ → μ × σ} {keeps : σ → Prop} {onward : σ → σ → Prop}
    {achieves : ν → μ → σ → Prop} (still : ∀ state, onward state state)
    (further : ∀ first second third, onward first second → onward second third →
      onward first third)
    (stays : ∀ value reworked state later, keeps state → achieves value reworked state →
      onward state later → achieves value reworked later)
    (entries : List (κ × ν)) (state : σ) (start : keeps state)
    (one : ∀ entry ∈ entries, ∀ between, onward state between → keeps between →
      keeps (step entry.2 between).2 ∧ onward between (step entry.2 between).2 ∧
        achieves entry.2 (step entry.2 between).1 (step entry.2 between).2) :
    keeps (threadEntries step entries state).2 ∧
      onward state (threadEntries step entries state).2 ∧
      List.Forall₂
        (fun entry result => entry.1 = result.1 ∧
          achieves entry.2 result.2 (threadEntries step entries state).2)
        entries (threadEntries step entries state).1 := by
  induction entries generalizing state with
  | nil => exact ⟨start, still state, .nil⟩
  | cons entry rest ih =>
    obtain ⟨kept, moved, achieved⟩ := one entry List.mem_cons_self state (still state) start
    obtain ⟨keptLast, movedLast, others⟩ := ih (step entry.2 state).2 kept
      fun other member between reached =>
        one other (List.mem_cons_of_mem _ member) between (further _ _ _ moved reached)
    refine ⟨keptLast, further _ _ _ moved movedLast, .cons ⟨rfl, ?_⟩ others⟩
    exact stays _ _ _ _ kept achieved movedLast

/-! ### Changing values -/

/-- Change every value, and leave keys and order alone. -/
def map (change : ν → μ) (table : Table κ ν) : Table κ μ where
  entries := table.entries.map fun entry => (entry.1, change entry.2)
  distinct := by
    rw [List.map_map]
    exact table.distinct

section Map

variable {change : ν → μ}

@[simp] theorem entries_map (change : ν → μ) (table : Table κ ν) :
    (table.map change).entries = table.entries.map fun entry => (entry.1, change entry.2) := rfl

@[simp] theorem map_empty (change : ν → μ) : (∅ : Table κ ν).map change = ∅ := rfl

@[simp] theorem values_map (change : ν → μ) (table : Table κ ν) :
    (table.map change).values = table.values.map change := by
  simp [values]

@[simp] theorem isEmpty_map (change : ν → μ) (table : Table κ ν) :
    (table.map change).isEmpty = table.isEmpty := by
  simp [isEmpty]

theorem eq_of_entries_eq {table other : Table κ ν} (same : table.entries = other.entries) :
    table = other := by
  cases table
  cases other
  cases same
  rfl

theorem isEmpty_iff {table : Table κ ν} : table.isEmpty = true ↔ table = ∅ := by
  constructor
  · exact fun bare => eq_of_entries_eq (List.isEmpty_iff.mp bare)
  · rintro rfl
    rfl

theorem map_injective (injective : Function.Injective change) :
    Function.Injective (map change : Table κ ν → Table κ μ) := by
  intro table other same
  refine eq_of_entries_eq (List.map_injective_iff.mpr ?_ (congrArg entries same))
  intro entry entry' equal
  obtain ⟨keys, values⟩ := Prod.mk.inj equal
  exact Prod.ext keys (injective values)

variable [DecidableEq κ]

@[simp] theorem get?_map (change : ν → μ) (table : Table κ ν) (key : κ) :
    (table.map change).get? key = (table.get? key).map change := by
  refine Option.ext fun value => ?_
  simp only [get?_eq_some_iff, Option.map_eq_some_iff, entries_map, List.mem_map, Prod.mk.injEq]
  constructor
  · rintro ⟨⟨_, old⟩, member, rfl, rfl⟩
    exact ⟨old, member, rfl⟩
  · rintro ⟨old, member, rfl⟩
    exact ⟨(key, old), member, rfl, rfl⟩

/-- **Changing all values goes along with insertions.** -/
theorem map_alter {insertion : Option ν → ν} {insertion' : Option μ → μ}
    (commutes : ∀ old, change (insertion old) = insertion' (old.map change)) (table : Table κ ν)
    (key : κ) :
    (table.alter key insertion).map change = (table.map change).alter key insertion' := by
  refine eq_of_entries_eq ?_
  show (alterEntries key insertion table.entries).map _ =
    alterEntries key insertion' (table.entries.map _)
  induction table.entries with
  | nil => simp [alterEntries, commutes]
  | cons entry rest step =>
    by_cases here : entry.1 = key
    · simp [alterEntries, here, commutes]
    · simp [alterEntries, here, step]

theorem map_put (table : Table κ ν) (key : κ) (value : ν) :
    (table.put key value).map change = (table.map change).put key (change value) := by
  have commutes : ∀ old : Option ν, change value = (fun _ => change value) (old.map change) :=
    fun _ => rfl
  exact map_alter commutes table key

end Map

/-- Reworks that agree on the entries agree on the table. -/
theorem thread_congr {step step' : ν → σ → μ × σ} {table : Table κ ν} {state : σ}
    [DecidableEq κ]
    (same : threadEntries step table.entries state = threadEntries step' table.entries state) :
    table.thread step state = table.thread step' state := by
  refine Prod.ext (eq_of_entries_eq ?_) ?_
  · exact congrArg Prod.fst same
  · show (threadEntries step table.entries state).2 = (threadEntries step' table.entries state).2
    rw [same]

/-- A rework that never moves the state on changes every value by itself. -/
theorem thread_of_still {step : ν → σ → μ × σ} {table : Table κ ν} {state : σ}
    [DecidableEq κ] (still : ∀ entry ∈ table.entries, (step entry.2 state).2 = state) :
    table.thread step state = (table.map fun value => (step value state).1, state) := by
  have entries : ∀ entries : List (κ × ν), (∀ entry ∈ entries, (step entry.2 state).2 = state) →
      threadEntries step entries state =
        (entries.map fun entry => (entry.1, (step entry.2 state).1), state) := by
    intro entries still
    induction entries with
    | nil => rfl
    | cons entry rest ih =>
      rw [List.forall_mem_cons] at still
      simp only [threadEntries, still.1, ih still.2, List.map_cons]
  have threaded := entries table.entries still
  refine Prod.ext (eq_of_entries_eq ?_) ?_
  · exact congrArg Prod.fst threaded
  · show (threadEntries step table.entries state).2 = state
    rw [threaded]

end SampleShapes.Table
