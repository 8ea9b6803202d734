/-
**Numbers behind names.**

Where a name is used already, it is tried with 2 behind it, then with 3, and so on, until the name
is free. Different numbers make different names, and none of these is the wanted name, which is used
itself. So the search passes fewer names than are used, also where used names have numbers of their
own behind them, and it always comes back with a free name.

* `tried`, `firstFree?`: the search, broken off after so many steps;
* `nodup_tried`: what is tried is different;
* `GetsTo.le_card`: **the search passes fewer names than are used;**
* `exists_getsTo`: the number that is taken is free, and every smaller one was passed;
* `uniqueName_first_free`: **a unique name is the first free one,** and the search ends there;
* `numbered_without_gaps`: **numbers are given without gaps** to the objects of a graph.
-/

import Mathlib.Data.Finset.Card
import Mathlib.Order.Bounds.Basic
import SampleShapes.Proofs.Naming.Origins

namespace SampleShapes.Naming

variable {graph : ShapeGraph} {rootName name wanted : String} {used names : List String}
  {index number steps : Nat}

/-! ### The search -/

/-- The first names that are tried in place of `wanted`. -/
def tried (wanted : String) (steps : Nat) : List String :=
  (List.range' 2 steps).map fun number => wanted ++ toString number

/-- The first free one of the first names that are tried; none if all of these are used, so that the
search would have to go on. -/
def firstFree? (wanted : String) (used : List String) (steps : Nat) : Option String :=
  (tried wanted steps).find? (· ∉ used)

/-- The numbers that make a free name behind `wanted`. -/
def freeNumbers (wanted : String) (used : List String) : Set Nat :=
  {number | 2 ≤ number ∧ wanted ++ toString number ∉ used}

theorem length_tried (wanted : String) (steps : Nat) : (tried wanted steps).length = steps := by
  simp [tried]

theorem mem_tried_iff :
    name ∈ tried wanted steps ↔
      ∃ number : Nat, 2 ≤ number ∧ number < 2 + steps ∧ wanted ++ toString number = name := by
  simp only [tried, List.mem_map, List.mem_range'_1, and_assoc]

/-- A number makes another name. -/
theorem append_toString_ne_self (wanted : String) (number : Nat) :
    wanted ++ toString number ≠ wanted := by
  intro same
  have empty : toString number = "" := String.append_eq_left_iff.mp same
  exact toString_ne_nil number (by rw [empty]; rfl)

/-- **What is tried is different,** and none of it is the wanted name. -/
theorem nodup_tried (wanted : String) (steps : Nat) : (wanted :: tried wanted steps).Nodup := by
  refine List.nodup_cons.mpr ⟨fun member => ?_, ?_⟩
  · obtain ⟨number, _, _, same⟩ := mem_tried_iff.mp member
    exact append_toString_ne_self wanted number same
  · refine (List.nodup_range' 1).map fun first second same => ?_
    exact Nat.repr_inj.mp ((String.append_right_inj wanted).mp same)

/-- The search gets to a number if the wanted name is used, and so is every name that is tried
before. -/
structure GetsTo (wanted : String) (used : List String) (number : Nat) : Prop where
  /-- The first number is two. -/
  start : 2 ≤ number
  /-- A free name is not searched for. -/
  taken : wanted ∈ used
  /-- What is tried before is used. -/
  passed : ∀ smaller : Nat, 2 ≤ smaller → smaller < number → wanted ++ toString smaller ∈ used

namespace GetsTo

variable (gets : GetsTo wanted used number)
include gets

/-- It gets as far where more is used. -/
theorem mono (more : used ⊆ names) : GetsTo wanted names number :=
  ⟨gets.start, more gets.taken, fun smaller start before => more (gets.passed smaller start before)⟩

/-- It gets past a name that is used. -/
theorem next (member : wanted ++ toString number ∈ used) : GetsTo wanted used (number + 1) where
  start := Nat.le_succ_of_le gets.start
  taken := gets.taken
  passed smaller start before := by
    rcases Nat.lt_succ_iff_lt_or_eq.mp before with earlier | rfl
    · exact gets.passed smaller start earlier
    · exact member

/-- **The search passes fewer names than are used:** the wanted name is used too. So a counter
that has room for one more than the used names does not run over. -/
theorem le_card : number ≤ used.toFinset.card + 1 := by
  have start := gets.start
  have inside : (wanted :: tried wanted (number - 2)).toFinset ⊆ used.toFinset := by
    intro name member
    rw [List.mem_toFinset] at member ⊢
    rcases List.mem_cons.mp member with rfl | later
    · exact gets.taken
    · obtain ⟨smaller, start', before, rfl⟩ := mem_tried_iff.mp later
      exact gets.passed smaller start' (by omega)
  have count := Finset.card_le_card inside
  rw [List.toFinset_card_of_nodup (nodup_tried _ _), List.length_cons, length_tried] at count
  omega

variable (free : wanted ++ toString number ∉ used)
include free

/-- Where it stops, the number is the least that makes a free name. -/
theorem isLeast : IsLeast (freeNumbers wanted used) number := by
  refine ⟨⟨gets.start, free⟩, fun other ⟨start, free'⟩ => ?_⟩
  by_contra smaller
  exact free' (gets.passed other start (Nat.lt_of_not_le smaller))

/-- It comes back with the name where it stops, if it is not broken off before. -/
theorem firstFree?_eq (enough : number < 2 + steps) :
    firstFree? wanted used steps = some (wanted ++ toString number) := by
  unfold firstFree? tried
  rw [List.find?_map, Option.map_eq_some_iff]
  refine ⟨number, List.find?_range'_eq_some.mpr ⟨decide_eq_true free, ?_, ?_⟩, rfl⟩
  · exact List.mem_range'_1.mpr ⟨gets.start, enough⟩
  · intro smaller start before
    simpa using gets.passed smaller start before

end GetsTo

/-! ### Unique names -/

theorem uniqueName_of_notMem (free : wanted ∉ used) : uniqueName wanted used = wanted :=
  if_pos free

/-- **The number that is taken is free,** and every smaller one was passed. -/
theorem exists_getsTo (taken : wanted ∈ used) :
    ∃ number : Nat, GetsTo wanted used number ∧ wanted ++ toString number ∉ used ∧
      uniqueName wanted used = wanted ++ toString number := by
  refine ⟨freeSuffix wanted (alike wanted used).length 2 (alike wanted used),
    ⟨le_freeSuffix, taken, fun smaller start before => ?_⟩, ?_, if_neg (not_not.mpr taken)⟩
  · exact append_mem_alike.mp (mem_of_lt_freeSuffix start before)
  · rw [← append_mem_alike]
    exact notMem_freeSuffix (Nat.le_refl _)

/-- Neither the order of the used names matters nor how often one is listed. -/
theorem uniqueName_congr (same : ∀ name, name ∈ used ↔ name ∈ names) (wanted : String) :
    uniqueName wanted used = uniqueName wanted names := by
  by_cases taken : wanted ∈ used
  · obtain ⟨number, gets, free, made⟩ := exists_getsTo taken
    obtain ⟨number', gets', free', made'⟩ := exists_getsTo ((same wanted).mp taken)
    have least := gets'.isLeast free'
    unfold freeNumbers at least
    simp only [← same] at least
    rw [made, made', (gets.isLeast free).unique least]
  · rw [uniqueName_of_notMem taken, uniqueName_of_notMem (mt (same wanted).mpr taken)]

/-- **A unique name is the first free one:** the wanted name if it is free, and otherwise the one
with the least number from 2 on that makes a free name. The search for it never comes back without
one, and ends after as many names as are used at most: one more with the look at the wanted name. -/
theorem uniqueName_first_free (wanted : String) (used : List String) :
    uniqueName wanted used ∉ used ∧
      (wanted ∉ used → uniqueName wanted used = wanted) ∧
      (wanted ∈ used →
        (∃ number, IsLeast (freeNumbers wanted used) number ∧
          uniqueName wanted used = wanted ++ toString number) ∧
        ∀ steps, used.toFinset.card ≤ steps →
          firstFree? wanted used steps = some (uniqueName wanted used)) := by
  refine ⟨uniqueName_notMem, uniqueName_of_notMem, fun taken => ?_⟩
  obtain ⟨number, gets, free, made⟩ := exists_getsTo taken
  refine ⟨⟨number, gets.isLeast free, made⟩, fun steps enough => ?_⟩
  rw [made]
  have passed := gets.le_card
  exact gets.firstFree?_eq free (by omega)

/-- Numbers that are used further on do not matter. -/
theorem uniqueName_first_free_of_gap :
    "User" ∈ ["User3", "User", "User2", "User5"] ∧
      IsLeast (freeNumbers "User" ["User3", "User", "User2", "User5"]) 4 ∧
      uniqueName "User" ["User3", "User", "User2", "User5"] = "User4" ∧
      firstFree? "User" ["User3", "User", "User2", "User5"] 4 = some "User4" := by
  have taken : "User" ∈ ["User3", "User", "User2", "User5"] := by decide
  have value : uniqueName "User" ["User3", "User", "User2", "User5"] = "User" ++ toString 4 := by
    decide +kernel
  obtain ⟨⟨number, least, made⟩, ends⟩ := (uniqueName_first_free "User" _).2.2 taken
  obtain rfl : number = 4 :=
    Nat.repr_inj.mp ((String.append_right_inj "User").mp (made.symm.trans value))
  exact ⟨taken, least, value, (ends 4 (by decide)).trans (congrArg some value)⟩

/-! ### The names of a graph -/

/-- **Numbers are given without gaps:** the name of an object is the one that its hint wants, or has
a number behind it, and then the wanted name and those with smaller numbers are names of objects
too. So no number is greater than that of the objects. -/
theorem numbered_without_gaps (entry : (index, name) ∈ (ofGraph graph rootName).entries) :
    ∃ hint, (index, hint) ∈ choosing (Walk.ofGraph graph rootName) ∧
      (name = hint.name ∨ ∃ number : Nat, name = hint.name ++ toString number ∧
        number ≤ (ofGraph graph rootName).entries.length ∧
        GetsTo hint.name ((ofGraph graph rootName).entries.map Prod.snd) number) := by
  rcases exists_choice_of_mem_nameAll _ _ (mem_entries_ofGraph_iff.mp entry) with
    none | ⟨hint, used, chosen, same, kept⟩
  · exact absurd none List.not_mem_nil
  refine ⟨hint, chosen, ?_⟩
  by_cases taken : hint.name ∈ used
  · obtain ⟨number, gets, _, made⟩ := exists_getsTo taken
    have listed : used ⊆ (ofGraph graph rootName).entries.map Prod.snd := fun other member =>
      List.map_subset _ (fun _ => mem_entries_ofGraph_iff.mpr) (kept member)
    have numbered : name = hint.name ++ toString number := same.trans made
    have gets := gets.mono listed
    -- The object's own name is listed too, so that its number counts as passed.
    have past := gets.next (numbered ▸ List.mem_map_of_mem entry)
    refine .inr ⟨number, numbered, ?_, gets⟩
    calc number ≤ ((ofGraph graph rootName).entries.map Prod.snd).toFinset.card :=
          Nat.le_of_succ_le_succ past.le_card
      _ ≤ ((ofGraph graph rootName).entries.map Prod.snd).length := List.toFinset_card_le _
      _ = (ofGraph graph rootName).entries.length := List.length_map _
  · exact .inl (same.trans (uniqueName_of_notMem taken))

end SampleShapes.Naming
