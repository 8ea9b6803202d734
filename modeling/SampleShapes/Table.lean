/-
**Tables in order of first insertion.**

A table maps keys to values and remembers the order in which its keys were first inserted: a key
that is put again keeps its place and takes the new value.

* `keys_alter`: an insertion adds its key at the end, or leaves the keys as they are;
* `get?_alter`: it changes the value of its own key and no other.
-/

namespace SampleShapes

/-- A finite map whose entries stand in order of first insertion. -/
structure Table (κ ν : Type) where
  /-- The entries, oldest key first. -/
  entries : List (κ × ν)
  /-- No key stands twice. -/
  distinct : (entries.map Prod.fst).Nodup
  deriving DecidableEq

namespace Table

variable {κ ν μ σ : Type}

/-- The table without entries. -/
def empty : Table κ ν := ⟨[], List.nodup_nil⟩

instance : EmptyCollection (Table κ ν) := ⟨empty⟩
instance : Inhabited (Table κ ν) := ⟨empty⟩

/-- The keys, oldest first. -/
def keys (table : Table κ ν) : List κ := table.entries.map Prod.fst

/-- The values, in the order of their keys. -/
def values (table : Table κ ν) : List ν := table.entries.map Prod.snd

/-- The number of entries. -/
def size (table : Table κ ν) : Nat := table.entries.length

/-- No entry at all. -/
def isEmpty (table : Table κ ν) : Bool := table.entries.isEmpty

/-- Keep the entries whose keys pass a test. -/
def filter (test : κ → Bool) (table : Table κ ν) : Table κ ν :=
  ⟨table.entries.filter fun entry => test entry.1,
    List.Nodup.sublist (List.Sublist.map _ List.filter_sublist) table.distinct⟩

/-! ### Insertion -/

section Insertion

variable [DecidableEq κ]

/-- Rework the value under `key` in place, or append a first one. -/
def alterEntries (key : κ) (change : Option ν → ν) : List (κ × ν) → List (κ × ν)
  | [] => [(key, change none)]
  | entry :: rest =>
    if entry.1 = key then (entry.1, change (some entry.2)) :: rest
    else entry :: alterEntries key change rest

/-- An insertion adds its key at the end, or leaves the keys as they are. -/
theorem map_fst_alterEntries (key : κ) (change : Option ν → ν) (entries : List (κ × ν)) :
    (alterEntries key change entries).map Prod.fst =
      if key ∈ entries.map Prod.fst then entries.map Prod.fst
      else entries.map Prod.fst ++ [key] := by
  induction entries with
  | nil => simp [alterEntries]
  | cons entry rest step =>
    by_cases same : entry.1 = key
    · simp [alterEntries, same]
    · have other : key ≠ entry.1 := fun h => same h.symm
      by_cases found : key ∈ rest.map Prod.fst <;>
        simp only [alterEntries, same, if_false, List.map_cons, step, found, if_true,
          List.mem_cons, other, false_or, List.cons_append]

theorem nodup_alterEntries (key : κ) (change : Option ν → ν) {entries : List (κ × ν)}
    (distinct : (entries.map Prod.fst).Nodup) :
    ((alterEntries key change entries).map Prod.fst).Nodup := by
  rw [map_fst_alterEntries]
  split
  · exact distinct
  · next absent =>
    rw [List.nodup_append]
    refine ⟨distinct, by simp, ?_⟩
    intro first member second last equal
    rw [List.mem_singleton] at last
    exact absent (last ▸ equal ▸ member)

/-- Replace what stands under `key` by what `change` makes of it. -/
def alter (table : Table κ ν) (key : κ) (change : Option ν → ν) : Table κ ν :=
  ⟨alterEntries key change table.entries, nodup_alterEntries key change table.distinct⟩

/-- Put `value` under `key`. -/
def put (table : Table κ ν) (key : κ) (value : ν) : Table κ ν :=
  table.alter key fun _ => value

/-- Put `value` under `key` unless something stands there. -/
def putNew (table : Table κ ν) (key : κ) (value : ν) : Table κ ν :=
  table.alter key fun old => old.getD value

/-- The value under `key`. -/
def get? (table : Table κ ν) (key : κ) : Option ν := table.entries.lookup key

/-- The table of `entries`, put in one after the other. -/
def ofList (entries : List (κ × ν)) : Table κ ν :=
  entries.foldl (fun table entry => table.put entry.1 entry.2) empty

/-- **Keys after an insertion.** -/
theorem keys_alter (table : Table κ ν) (key : κ) (change : Option ν → ν) :
    (table.alter key change).keys =
      if key ∈ table.keys then table.keys else table.keys ++ [key] :=
  map_fst_alterEntries key change table.entries

theorem lookup_alterEntries (key : κ) (change : Option ν → ν) (entries : List (κ × ν)) (other : κ) :
    (alterEntries key change entries).lookup other =
      if other = key then some (change (entries.lookup key)) else entries.lookup other := by
  induction entries with
  | nil =>
    by_cases same : other = key
    · simp [alterEntries, same]
    · simp [alterEntries, same]
  | cons entry rest step =>
    rcases entry with ⟨first, value⟩
    by_cases here : first = key
    · subst here
      by_cases same : other = first
      · subst same; simp [alterEntries]
      · have apart : (other == first) = false := by simp [same]
        simp [alterEntries, List.lookup_cons, same, apart]
    · by_cases same : other = key
      · subst same
        have apart : (other == first) = false := by simp [Ne.symm here]
        simp [alterEntries, here, List.lookup_cons, apart, step]
      · simp [alterEntries, here, List.lookup_cons, same, step]

/-- **Values after an insertion.** Only the value under its own key changes. -/
theorem get?_alter (table : Table κ ν) (key : κ) (change : Option ν → ν) (other : κ) :
    (table.alter key change).get? other =
      if other = key then some (change (table.get? key)) else table.get? other :=
  lookup_alterEntries key change table.entries other

end Insertion

/-! ### Threading a state -/

/-- Rework every value in order, passing a state along. -/
def threadEntries (step : ν → σ → μ × σ) : List (κ × ν) → σ → List (κ × μ) × σ
  | [], state => ([], state)
  | (key, value) :: rest, state =>
    let (reworked, state) := step value state
    let (others, state) := threadEntries step rest state
    ((key, reworked) :: others, state)

theorem map_fst_threadEntries (step : ν → σ → μ × σ) (entries : List (κ × ν)) (state : σ) :
    (threadEntries step entries state).1.map Prod.fst = entries.map Prod.fst := by
  induction entries generalizing state with
  | nil => rfl
  | cons entry rest ih => simp [threadEntries, ih]

/-- Rework every value in order under its old key, passing a state along. -/
def thread (step : ν → σ → μ × σ) (table : Table κ ν) (state : σ) : Table κ μ × σ :=
  let result := threadEntries step table.entries state
  (⟨result.1, map_fst_threadEntries step table.entries state ▸ table.distinct⟩, result.2)

end Table

end SampleShapes
