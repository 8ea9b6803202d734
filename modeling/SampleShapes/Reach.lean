/-
**Reachability.**

A depth-first walk over a graph that is given by its successors. It lists every place it reaches
once, in the order of first arrival.

* `nodup_explore`: no place is listed twice;
* `mem_explore_iff`: a place is listed exactly if it is reached from the starts, provided that no
  more places than the bound have successors.
-/

namespace SampleShapes.Reach

variable {α : Type} [DecidableEq α]

/-- Arrive at `place` with the places in `seen` behind, latest first, and walk on from it unless it
was seen before. A walk is at most `fuel` places deep. -/
def visit (next : α → List α) : Nat → List α → α → List α
  | 0, seen, _ => seen
  | fuel + 1, seen, place =>
    if place ∈ seen then seen else (next place).foldl (visit next fuel) (place :: seen)

/-- Every place that is reached from `starts`, by first arrival. A place is entered once, so that
`bound` need not exceed the number of places with successors. -/
def explore (next : α → List α) (bound : Nat) (starts : List α) : List α :=
  (starts.foldl (visit next (bound + 1)) []).reverse

/-- A place is reached: it is a start, or a successor of a place that is reached. -/
inductive Reached (next : α → List α) (starts : List α) : α → Prop where
  /-- A start is reached. -/
  | start {place : α} : place ∈ starts → Reached next starts place
  /-- A successor of a place that is reached is reached. -/
  | step {place other : α} : Reached next starts place → other ∈ next place →
      Reached next starts other

/-! ### What a walk keeps -/

section Kept

variable {next : α → List α} {fuel : Nat}

/-- What each visit keeps is kept by visits in a row. -/
theorem foldl_visit_keeps (keeps : List α → Prop) (good : α → Prop) {places seen : List α}
    (one : ∀ seen place, keeps seen → good place → keeps (visit next fuel seen place))
    (start : keeps seen) (all : ∀ place ∈ places, good place) :
    keeps (places.foldl (visit next fuel) seen) := by
  induction places generalizing seen with
  | nil => exact start
  | cons place rest step =>
    refine step (one seen place start (all place (by simp))) fun other member => ?_
    exact all other (by simp [member])

/-- What is seen stays seen. -/
theorem mem_visit_of_mem {seen : List α} {place other : α} (member : other ∈ seen) :
    other ∈ visit next fuel seen place := by
  induction fuel generalizing seen place with
  | zero => exact member
  | succ fuel step =>
    unfold visit
    split
    · exact member
    · exact foldl_visit_keeps (fun seen => other ∈ seen) (fun _ => True)
        (fun seen place member _ => step member) (by simp [member]) (fun _ _ => trivial)

theorem mem_foldl_visit_of_mem {places seen : List α} {other : α} (member : other ∈ seen) :
    other ∈ places.foldl (visit next fuel) seen :=
  foldl_visit_keeps (fun seen => other ∈ seen) (fun _ => True)
    (fun _ _ member _ => mem_visit_of_mem member) member (fun _ _ => trivial)

/-- What a visit adds stands before what was seen. -/
theorem suffix_visit {seen : List α} {place : α} : seen <:+ visit next fuel seen place := by
  induction fuel generalizing seen place with
  | zero => exact List.suffix_refl seen
  | succ fuel step =>
    unfold visit
    split
    · exact List.suffix_refl seen
    · exact foldl_visit_keeps (seen <:+ ·) (fun _ => True)
        (fun _ _ before _ => before.trans step) (List.suffix_cons place seen) (fun _ _ => trivial)

/-- A visit arrives. -/
theorem mem_visit_self {seen : List α} {place : α} : place ∈ visit next (fuel + 1) seen place := by
  unfold visit
  split
  · next member => exact member
  · exact mem_foldl_visit_of_mem (by simp)

theorem nodup_visit {seen : List α} {place : α} (distinct : seen.Nodup) :
    (visit next fuel seen place).Nodup := by
  induction fuel generalizing seen place with
  | zero => exact distinct
  | succ fuel step =>
    unfold visit
    split
    · exact distinct
    · next fresh =>
      exact foldl_visit_keeps List.Nodup (fun _ => True)
        (fun seen place distinct _ => step distinct) (List.nodup_cons.mpr ⟨fresh, distinct⟩)
        (fun _ _ => trivial)

/-- A visit stays where its start and what was seen before are, if no step leads out of it. -/
theorem visit_within {inside : α → Prop}
    (closed : ∀ place, inside place → ∀ other ∈ next place, inside other)
    {seen : List α} {place : α} (before : ∀ other ∈ seen, inside other) (here : inside place) :
    ∀ other ∈ visit next fuel seen place, inside other := by
  induction fuel generalizing seen place with
  | zero => exact before
  | succ fuel step =>
    unfold visit
    split
    · exact before
    · refine foldl_visit_keeps (fun seen => ∀ other ∈ seen, inside other) inside
        (fun seen place before here => step before here) ?_ (closed place here)
      intro other member
      rcases List.mem_cons.mp member with rfl | member
      · exact here
      · exact before other member

end Kept

/-! ### What a walk completes -/

section Complete

variable {next : α → List α} {inner : List α}

/-- The places with successors that are still to be seen. -/
def ahead (inner seen : List α) : Nat := inner.countP (· ∉ seen)

theorem ahead_le {seen later : List α} (grows : ∀ place ∈ seen, place ∈ later) :
    ahead inner later ≤ ahead inner seen := by
  refine List.countP_mono_left ?_
  intro place _ unseen
  simp only [decide_eq_true_eq] at unseen ⊢
  exact fun member => unseen (grows place member)

theorem ahead_cons_lt {seen : List α} {place : α} (member : place ∈ inner)
    (fresh : place ∉ seen) : ahead inner (place :: seen) < ahead inner seen := by
  unfold ahead
  induction inner with
  | nil => simp at member
  | cons first rest step =>
    have fewer : ahead rest (place :: seen) ≤ ahead rest seen :=
      ahead_le (by intro other member; simp [member])
    unfold ahead at fewer step
    rw [List.countP_cons, List.countP_cons]
    by_cases here : first = place
    · subst here
      simp only [List.mem_cons, true_or, not_true, decide_false, fresh, not_false_iff, decide_true,
        if_true] at fewer ⊢
      simp only [Bool.false_eq_true, if_false]
      omega
    · have inRest : place ∈ rest := by
        rcases List.mem_cons.mp member with same | inRest
        · exact absurd same.symm here
        · exact inRest
      have less := step inRest
      by_cases seenFirst : first ∈ seen <;> simp [here, seenFirst] at less ⊢ <;> omega

/-- Every successor of a place that `later` adds to `seen` is in `later`. -/
def Completes (next : α → List α) (seen later : List α) : Prop :=
  ∀ place ∈ later, place ∈ seen ∨ ∀ other ∈ next place, other ∈ later

/-- Visits in a row complete what they add, if each of them does. -/
theorem foldl_visit_completes {fuel : Nat} (bound : Nat)
    (one : ∀ seen place, ahead inner seen < bound →
      Completes next seen (visit next (fuel + 1) seen place))
    (places : List α) {seen : List α} (enough : ahead inner seen < bound) :
    Completes next seen (places.foldl (visit next (fuel + 1)) seen) ∧
      ∀ place ∈ places, place ∈ places.foldl (visit next (fuel + 1)) seen := by
  induction places generalizing seen with
  | nil => exact ⟨fun place member => Or.inl member, by simp⟩
  | cons first rest step =>
    have grows : ∀ place ∈ seen, place ∈ visit next (fuel + 1) seen first :=
      fun place member => mem_visit_of_mem member
    have later := step (Nat.lt_of_le_of_lt (ahead_le grows) enough)
    rw [List.foldl_cons]
    refine ⟨?_, ?_⟩
    · intro place member
      rcases later.1 place member with added | complete
      · rcases one seen first enough place added with old | complete
        · exact Or.inl old
        · exact Or.inr fun other successor => mem_foldl_visit_of_mem (complete other successor)
      · exact Or.inr complete
    · intro place member
      rcases List.mem_cons.mp member with rfl | member
      · exact mem_foldl_visit_of_mem mem_visit_self
      · exact later.2 place member

/-- A visit completes what it adds, if it may go deeper than there are places ahead. -/
theorem visit_completes (covers : ∀ place, next place ≠ [] → place ∈ inner) {fuel : Nat}
    {seen : List α} {place : α} (enough : ahead inner seen < fuel + 1) :
    Completes next seen (visit next (fuel + 1) seen place) := by
  induction fuel generalizing seen place with
  | zero =>
    unfold visit
    split
    · exact fun other member => Or.inl member
    · next fresh =>
      have none : next place = [] := by
        by_cases empty : next place = []
        · exact empty
        · have less := ahead_cons_lt (covers place empty) fresh
          omega
      intro other member
      rw [none] at member ⊢
      rcases List.mem_cons.mp member with rfl | member
      · exact Or.inr (by simp [none])
      · exact Or.inl member
  | succ fuel step =>
    unfold visit
    split
    · exact fun other member => Or.inl member
    · next fresh =>
      by_cases none : next place = []
      · intro other member
        rw [none] at member ⊢
        rcases List.mem_cons.mp member with rfl | member
        · exact Or.inr (by simp [none])
        · exact Or.inl member
      · have less := ahead_cons_lt (covers place none) fresh
        have rest := foldl_visit_completes (fuel + 1)
          (fun seen place enough => step enough) (next place)
          (Nat.lt_of_lt_of_le less (Nat.le_of_lt_succ enough))
        intro other member
        rcases rest.1 other member with added | complete
        · rcases List.mem_cons.mp added with rfl | old
          · exact Or.inr rest.2
          · exact Or.inl old
        · exact Or.inr complete

end Complete

/-! ### The walk -/

variable {next : α → List α} {bound : Nat} {starts : List α}

/-- **No place is listed twice.** -/
theorem nodup_explore : (explore next bound starts).Nodup := by
  refine (List.reverse_perm _).nodup_iff.mpr ?_
  exact foldl_visit_keeps List.Nodup (fun _ => True)
    (fun _ _ distinct _ => nodup_visit distinct) List.nodup_nil (fun _ _ => trivial)

/-- A single start is listed first. -/
theorem explore_singleton (place : α) : ∃ rest, explore next bound [place] = place :: rest := by
  have first : [place] <:+ visit next (bound + 1) [] place := by
    unfold visit
    rw [if_neg List.not_mem_nil]
    exact foldl_visit_keeps ([place] <:+ ·) (fun _ => True)
      (fun _ _ before _ => before.trans suffix_visit) (List.suffix_refl _) (fun _ _ => trivial)
  obtain ⟨before, split⟩ := first
  refine ⟨before.reverse, ?_⟩
  unfold explore
  rw [List.foldl_cons, List.foldl_nil, ← split, List.reverse_append]
  rfl

/-- What is listed is reached. -/
theorem reached_of_mem_explore {place : α} (member : place ∈ explore next bound starts) :
    Reached next starts place := by
  have within : ∀ other ∈ starts.foldl (visit next (bound + 1)) [], Reached next starts other :=
    foldl_visit_keeps (fun seen => ∀ other ∈ seen, Reached next starts other)
      (Reached next starts)
      (fun _ _ before here => visit_within (fun _ here _ successor => .step here successor) before
        here)
      (by simp) (fun _ start => .start start)
  exact within place (List.mem_reverse.mp member)

/-- **A place is listed exactly if it is reached,** where `inner` holds the places with
successors. -/
theorem mem_explore_iff (inner : List α) (covers : ∀ place, next place ≠ [] → place ∈ inner)
    (fits : inner.length ≤ bound) {place : α} :
    place ∈ explore next bound starts ↔ Reached next starts place := by
  refine ⟨reached_of_mem_explore, fun reached => List.mem_reverse.mpr ?_⟩
  have enough : ahead inner [] < bound + 1 :=
    Nat.lt_succ_of_le (Nat.le_trans List.countP_le_length fits)
  have walk := foldl_visit_completes (bound + 1)
    (fun _ _ enough => visit_completes covers enough) starts enough
  induction reached with
  | start member => exact walk.2 _ member
  | step _ successor before =>
    rcases walk.1 _ before with none | complete
    · simp at none
    · exact complete _ successor

end SampleShapes.Reach
