/-
**Walks over one graph inside of another.**

A graph stands inside of another one if its places have other names there and lead to the same
places under their names. The walk over the larger graph from what stands inside lists the same
places in the same order: it never leaves them, and how deep it may go does not count as long as it
is deep enough.

* `visit_map`: **a visit goes the same way in both graphs**;
* `explore_cons_map`: the walks list the same places if a place that leads to the first start alone
  comes before the starts.
-/

import Mathlib.Data.List.Basic
import SampleShapes.Reach

namespace SampleShapes.Reach

variable {α β : Type} [DecidableEq α] [DecidableEq β]

/-- No more than `bound` places lead anywhere: those in `inner`. -/
structure Bounded (next : α → List α) (inner : List α) (bound : Nat) : Prop where
  /-- What leads anywhere is in `inner`. -/
  covers : ∀ place, next place ≠ [] → place ∈ inner
  /-- There are no more than `bound` of these. -/
  fits : inner.length ≤ bound

theorem Bounded.ahead_lt {next : α → List α} {inner : List α} {bound : Nat}
    (bounded : Bounded next inner bound) (seen : List α) : ahead inner seen < bound + 1 :=
  Nat.lt_succ_of_le (Nat.le_trans List.countP_le_length bounded.fits)

/-- The part of a graph that is `inside` stands inside of another graph under other names. -/
structure Stands (next : α → List α) (next' : β → List β) (name : α → β) (inside : α → Prop) :
    Prop where
  /-- Places keep apart. -/
  injective : Function.Injective name
  /-- No step leads out of the part. -/
  closed : ∀ place, inside place → ∀ other ∈ next place, inside other
  /-- A place leads to the same places, in the same order. -/
  leads : ∀ place, inside place → next' (name place) = (next place).map name

variable {next : α → List α} {next' : β → List β} {name : α → β} {inside : α → Prop}
  {inner : List α} {inner' behind : List β} {bound bound' fuel fuel' : Nat} {seen places : List α}
  {place : α}

omit [DecidableEq α] [DecidableEq β] in
theorem Stands.name_mem_iff (stands : Stands next next' name inside)
    (apart : ∀ place, inside place → name place ∉ behind) (here : inside place) :
    name place ∈ seen.map name ++ behind ↔ place ∈ seen := by
  rw [List.mem_append, List.mem_map_of_injective stands.injective]
  exact or_iff_left (apart place here)

/-- Visits in a row go the same way, if each of them does. -/
theorem foldl_visit_map (seen : List α) (behind : List β)
    (one : ∀ seen place, inside place → ahead inner seen < fuel →
      ahead inner' (seen.map name ++ behind) < fuel' →
      visit next' fuel' (seen.map name ++ behind) (name place) =
        (visit next fuel seen place).map name ++ behind)
    (all : ∀ place ∈ places, inside place) (enough : ahead inner seen < fuel)
    (enough' : ahead inner' (seen.map name ++ behind) < fuel') :
    (places.map name).foldl (visit next' fuel') (seen.map name ++ behind) =
      (places.foldl (visit next fuel) seen).map name ++ behind := by
  induction places generalizing seen with
  | nil => rfl
  | cons first rest step =>
    rw [List.forall_mem_cons] at all
    have same := one seen first all.1 enough enough'
    rw [List.map_cons, List.foldl_cons, List.foldl_cons, same]
    refine step _ all.2 (Nat.lt_of_le_of_lt (ahead_le fun _ => mem_visit_of_mem) enough) ?_
    rw [← same]
    exact Nat.lt_of_le_of_lt (ahead_le fun _ => mem_visit_of_mem) enough'

section Walks

variable (stands : Stands next next' name inside) (bounded : Bounded next inner bound)
  (bounded' : Bounded next' inner' bound')
include stands bounded bounded'

/-- **A visit goes the same way in both graphs,** with places `behind` that it never comes to. -/
theorem visit_map (seen : List α) (apart : ∀ place, inside place → name place ∉ behind)
    (here : inside place)
    (enough : ahead inner seen < fuel)
    (enough' : ahead inner' (seen.map name ++ behind) < fuel') :
    visit next' fuel' (seen.map name ++ behind) (name place) =
      (visit next fuel seen place).map name ++ behind := by
  induction fuel generalizing fuel' seen place with
  | zero => exact absurd enough (Nat.not_lt_zero _)
  | succ fuel step =>
    obtain _ | fuel' := fuel'
    · exact absurd enough' (Nat.not_lt_zero _)
    unfold visit
    by_cases member : place ∈ seen
    · rw [if_pos member, if_pos ((stands.name_mem_iff apart here).mpr member)]
    · have fresh : name place ∉ seen.map name ++ behind :=
        fun known => member ((stands.name_mem_iff apart here).mp known)
      rw [if_neg member, if_neg fresh, stands.leads place here]
      by_cases last : next place = []
      · rw [last]
        rfl
      · -- The place leads on, so that fewer such places lie ahead.
        have last' : next' (name place) ≠ [] := by
          rw [stands.leads place here]
          exact fun none => last (List.map_eq_nil_iff.mp none)
        have fewer := ahead_cons_lt (bounded.covers place last) member
        have fewer' := ahead_cons_lt (bounded'.covers (name place) last') fresh
        have fewer' : ahead inner' ((place :: seen).map name ++ behind) < fuel' :=
          Nat.lt_of_lt_of_le fewer' (Nat.le_of_lt_succ enough')
        exact foldl_visit_map (place :: seen) behind
          (fun seen other inside enough enough' => step seen inside enough enough')
          (stands.closed place here) (Nat.lt_of_lt_of_le fewer (Nat.le_of_lt_succ enough)) fewer'

/-- **A place that leads to the first start alone** is listed before what is listed without it. -/
theorem explore_cons_map {top : β} (here : inside place) (leads : next' top = [name place])
    (apart : ∀ place, inside place → name place ≠ top) (all : ∀ place ∈ places, inside place) :
    explore next' bound' (top :: places.map name) =
      top :: (explore next bound (place :: places)).map name := by
  have apart : ∀ place, inside place → name place ∉ [top] := fun place here member =>
    apart place here (List.mem_singleton.mp member)
  -- The first visit goes on from the top, one place deeper than without it.
  have fewer : ahead inner' [top] < bound' := by
    refine Nat.lt_of_lt_of_le (ahead_cons_lt (bounded'.covers top ?_) List.not_mem_nil) ?_
    · rw [leads]
      exact List.cons_ne_nil _ _
    · exact Nat.le_trans List.countP_le_length bounded'.fits
  have first := visit_map stands bounded bounded' [] apart here
    (bounded.ahead_lt []) fewer
  have rest := foldl_visit_map (visit next (bound + 1) [] place) [top]
    (fun seen place here enough enough' => visit_map stands bounded bounded' seen apart here enough
      enough') all (bounded.ahead_lt _) (bounded'.ahead_lt _)
  rw [← first] at rest
  have arrives : visit next' (bound' + 1) [] top = visit next' bound' [top] (name place) := by
    rw [visit, if_neg List.not_mem_nil, leads]
    rfl
  unfold explore
  rw [List.foldl_cons, List.foldl_cons, arrives]
  change List.foldl (visit next' (bound' + 1)) (visit next' bound' [top] (name place))
    (places.map name) = _ at rest
  rw [rest, List.reverse_append, List.map_reverse]
  rfl

end Walks

end SampleShapes.Reach
