/-
**Sets of shape identities.**

A set is the list of its members by rising rank, so that equal sets are equal lists.

* `mem_insert`, `mem_ofList`: membership;
* `eq_of_mem_iff`: a set is determined by its members.
-/

import SampleShapes.Shape.Id

namespace SampleShapes

/-- A finite set of identities. -/
structure IdSet where
  /-- The members by rising rank. -/
  toList : List ShapeId
  /-- Their ranks rise. -/
  sorted : toList.Pairwise fun first second => first.rank < second.rank
  deriving DecidableEq

namespace IdSet

/-- The set without members. -/
def empty : IdSet := ⟨[], List.Pairwise.nil⟩

instance : EmptyCollection IdSet := ⟨empty⟩
instance : Inhabited IdSet := ⟨empty⟩
instance : Membership ShapeId IdSet := ⟨fun set id => id ∈ set.toList⟩

instance (id : ShapeId) (set : IdSet) : Decidable (id ∈ set) :=
  inferInstanceAs (Decidable (id ∈ set.toList))

/-- The set of one member. -/
def singleton (id : ShapeId) : IdSet := ⟨[id], List.pairwise_singleton ..⟩

/-- The number of members. -/
def size (set : IdSet) : Nat := set.toList.length

/-- No member at all. -/
def isEmpty (set : IdSet) : Bool := set.toList.isEmpty

/-! ### Insertion -/

/-- Insert by rank, unless the identity is there already. -/
def insertRanked (id : ShapeId) : List ShapeId → List ShapeId
  | [] => [id]
  | other :: rest =>
    if id.rank < other.rank then id :: other :: rest
    else if id = other then other :: rest
    else other :: insertRanked id rest

theorem mem_insertRanked {id other : ShapeId} {ids : List ShapeId} :
    other ∈ insertRanked id ids ↔ other = id ∨ other ∈ ids := by
  induction ids with
  | nil => simp [insertRanked]
  | cons first rest step =>
    unfold insertRanked
    split
    · simp
    · split
      · next same => simp [same]
      · simp only [List.mem_cons, step]
        constructor <;> rintro (h | h | h) <;> simp [h]

theorem sorted_insertRanked {id : ShapeId} {ids : List ShapeId}
    (sorted : ids.Pairwise fun first second => first.rank < second.rank) :
    (insertRanked id ids).Pairwise fun first second => first.rank < second.rank := by
  induction ids with
  | nil => simp [insertRanked]
  | cons first rest step =>
    rw [List.pairwise_cons] at sorted
    unfold insertRanked
    split
    · next below =>
      refine List.pairwise_cons.mpr ⟨?_, List.pairwise_cons.mpr sorted⟩
      intro other member
      rcases List.mem_cons.mp member with rfl | member
      · exact below
      · exact Nat.lt_trans below (sorted.1 other member)
    · split
      · exact List.pairwise_cons.mpr sorted
      · next notBelow apart =>
        refine List.pairwise_cons.mpr ⟨?_, step sorted.2⟩
        intro other member
        rcases mem_insertRanked.mp member with rfl | member
        · have unequal : other.rank ≠ first.rank := fun same => apart (ShapeId.rank_injective same)
          omega
        · exact sorted.1 other member

/-- Add one member. -/
def insert (id : ShapeId) (set : IdSet) : IdSet :=
  ⟨insertRanked id set.toList, sorted_insertRanked set.sorted⟩

/-- The set of the identities in a list. -/
def ofList (ids : List ShapeId) : IdSet := ids.foldr insert empty

/-- Add every identity of a list. -/
def insertAll (ids : List ShapeId) (set : IdSet) : IdSet := ids.foldr insert set

@[simp] theorem mem_toList {id : ShapeId} {set : IdSet} : id ∈ set.toList ↔ id ∈ set := Iff.rfl

@[simp] theorem mem_insert {id other : ShapeId} {set : IdSet} :
    other ∈ set.insert id ↔ other = id ∨ other ∈ set := mem_insertRanked

@[simp] theorem mem_insertAll {ids : List ShapeId} {id : ShapeId} {set : IdSet} :
    id ∈ set.insertAll ids ↔ id ∈ ids ∨ id ∈ set := by
  induction ids with
  | nil => simp [insertAll]
  | cons first rest step =>
    have unfolded : set.insertAll (first :: rest) = (set.insertAll rest).insert first := rfl
    rw [unfolded, mem_insert, step, List.mem_cons, or_assoc]

@[simp] theorem mem_ofList {ids : List ShapeId} {id : ShapeId} : id ∈ ofList ids ↔ id ∈ ids := by
  have unfolded : ofList ids = empty.insertAll ids := rfl
  have none : id ∉ empty := List.not_mem_nil
  rw [unfolded, mem_insertAll]
  simp [none]

/-- No member stands twice. -/
theorem nodup_toList (set : IdSet) : set.toList.Nodup :=
  set.sorted.imp fun below same => by
    rw [same] at below
    exact Nat.lt_irrefl _ below

/-- Two rising lists with the same members are equal. -/
theorem eq_of_sorted {first second : List ShapeId}
    (sorted : first.Pairwise fun a b => a.rank < b.rank)
    (sorted' : second.Pairwise fun a b => a.rank < b.rank)
    (same : ∀ id, id ∈ first ↔ id ∈ second) : first = second := by
  induction first generalizing second with
  | nil =>
    rcases second with _ | ⟨b, rest⟩
    · rfl
    · exact absurd ((same b).mpr (by simp)) (by simp)
  | cons a rest step =>
    rcases second with _ | ⟨b, rest'⟩
    · exact absurd ((same a).mp (by simp)) (by simp)
    · rw [List.pairwise_cons] at sorted sorted'
      have equal : a = b := by
        rcases List.mem_cons.mp ((same a).mp (by simp)) with h | inSecond
        · exact h
        · rcases List.mem_cons.mp ((same b).mpr (by simp)) with h | inFirst
          · exact h.symm
          · have := sorted.1 b inFirst
            have := sorted'.1 a inSecond
            omega
      subst equal
      congr 1
      refine step sorted.2 sorted'.2 fun id => ?_
      have here := same id
      simp only [List.mem_cons] at here
      constructor
      · intro member
        rcases here.mp (Or.inr member) with rfl | found
        · exact absurd (sorted.1 _ member) (Nat.lt_irrefl _)
        · exact found
      · intro member
        rcases here.mpr (Or.inr member) with rfl | found
        · exact absurd (sorted'.1 _ member) (Nat.lt_irrefl _)
        · exact found

/-- **A set is determined by its members.** -/
theorem eq_of_mem_iff {first second : IdSet} (same : ∀ id, id ∈ first ↔ id ∈ second) :
    first = second := by
  rcases first with ⟨ids, sorted⟩
  rcases second with ⟨ids', sorted'⟩
  have equal : ids = ids' := eq_of_sorted sorted sorted' same
  subst equal
  rfl

theorem isEmpty_iff {set : IdSet} : set.isEmpty = true ↔ set = ∅ := by
  constructor
  · intro bare
    refine eq_of_mem_iff fun id => ?_
    rw [← mem_toList, List.isEmpty_iff.mp bare]
    exact Iff.rfl
  · rintro rfl
    rfl

/-- The set of a list does not depend on order and repetition. -/
theorem ofList_congr {ids others : List ShapeId} (same : ∀ id, id ∈ ids ↔ id ∈ others) :
    ofList ids = ofList others :=
  eq_of_mem_iff fun id => by rw [mem_ofList, mem_ofList, same]

end IdSet

end SampleShapes
