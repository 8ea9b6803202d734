/-
**The grammar of keys.**

What a key says is told here by what it is put together from: a base, a target in brackets, and
perhaps a plus sign in front. A base may hold brackets and plus signs of its own, and yet a key is
put together in one way at most, because no target holds a bracket and no base starts with the sign
that could stand in front of it. The reader looks for the last opening bracket from the end; it
finds the parts whenever there are any.

* `AllInIdentifier.told`: identifiers are told apart from what stands behind them;
* `Key.bracketed?_eq_some_iff`: **splitting undoes putting together,** and fails where nothing was;
* `Key.mem_splits_iff`: the parts of a key, in terms of the split;
* `Key.target_cases`: what a target may be;
* `Key.parse_eq_iff`: **a key is read by the grammar,** and in no second way.
-/

import Mathlib.Data.Set.Subsingleton
import SampleShapes.Key

namespace SampleShapes

/-! ### Identifiers -/

/-- The character is an ASCII letter or digit, an underscore or a dollar sign. -/
def InIdentifier (c : Char) : Prop :=
  ('A' ≤ c ∧ c ≤ 'Z') ∨ ('a' ≤ c ∧ c ≤ 'z') ∨ ('0' ≤ c ∧ c ≤ '9') ∨ c = '_' ∨ c = '$'

instance (c : Char) : Decidable (InIdentifier c) :=
  inferInstanceAs (Decidable (_ ∨ _))

/-- Every one of the characters may stand in an identifier. -/
def AllInIdentifier (chars : List Char) : Prop := ∀ c ∈ chars, InIdentifier c

instance : DecidablePred AllInIdentifier := fun chars => List.decidableBAll InIdentifier chars

/-- The characters are one or more of an identifier, and the first of them is no digit. -/
structure IsIdentifier (name : List Char) : Prop where
  /-- There is one. -/
  ne_nil : name ≠ []
  /-- Each may stand in an identifier. -/
  all : AllInIdentifier name
  /-- The first is no digit. -/
  start : ∀ c ∈ name.head?, ¬ ('0' ≤ c ∧ c ≤ '9')

instance : DecidablePred IsIdentifier := fun name =>
  decidable_of_iff
    (name ≠ [] ∧ AllInIdentifier name ∧ name.head?.all fun c => !decide ('0' ≤ c ∧ c ≤ '9')) <| by
    simp only [Option.all_eq_true, Bool.not_eq_true', decide_eq_false_iff_not]
    exact ⟨fun ⟨one, all, start⟩ => ⟨one, all, start⟩, fun ⟨one, all, start⟩ => ⟨one, all, start⟩⟩

/-- These characters, or none, end an identifier before them. -/
def EndsIdentifier (rest : List Char) : Prop := ∀ c ∈ rest.head?, ¬ InIdentifier c

/-- **Identifiers are told apart from what ends them.** -/
theorem AllInIdentifier.told {chars chars' rest rest' : List Char} (plain : AllInIdentifier chars)
    (plain' : AllInIdentifier chars') (ends : EndsIdentifier rest) (ends' : EndsIdentifier rest')
    (same : chars ++ rest = chars' ++ rest') : chars = chars' ∧ rest = rest' := by
  have nothing : ∀ {chars between rest : List Char}, AllInIdentifier (chars ++ between) →
      EndsIdentifier (between ++ rest) → between = [] := by
    intro chars between rest plain ends
    cases between with
    | nil => rfl
    | cons c between => exact absurd (plain c (by simp)) (ends c rfl)
  rcases List.append_eq_append_iff.mp same with ⟨between, rfl, rfl⟩ | ⟨between, rfl, rfl⟩
  · obtain rfl := nothing plain' ends
    simp
  · obtain rfl := nothing plain ends'
    simp

namespace Key

variable {chars base target : List Char} {raw : String}

theorem isUpper_iff {c : Char} : c.isUpper = true ↔ 'A' ≤ c ∧ c ≤ 'Z' := decide_eq_true_iff

theorem isLower_iff {c : Char} : c.isLower = true ↔ 'a' ≤ c ∧ c ≤ 'z' :=
  (Bool.and_eq_true_iff).trans (and_congr decide_eq_true_iff decide_eq_true_iff)

theorem isAlpha_iff {c : Char} :
    c.isAlpha = true ↔ ('A' ≤ c ∧ c ≤ 'Z') ∨ ('a' ≤ c ∧ c ≤ 'z') :=
  (Bool.or_eq_true_iff).trans (or_congr isUpper_iff isLower_iff)

theorem inTarget_iff {c : Char} : inTarget c = true ↔ InIdentifier c := by
  simp [inTarget, InIdentifier, Char.isAlphanum, isAlpha_iff, Char.isDigit, Char.le_def, or_assoc]

theorem startsTarget_iff {c : Char} :
    startsTarget c = true ↔ InIdentifier c ∧ ¬ ('0' ≤ c ∧ c ≤ '9') := by
  simp only [startsTarget, InIdentifier, Bool.or_eq_true, isAlpha_iff, beq_iff_eq, or_assoc]
  change _ ↔ ((65 ≤ c.val.toNat ∧ c.val.toNat ≤ 90) ∨ (97 ≤ c.val.toNat ∧ c.val.toNat ≤ 122) ∨
    (48 ≤ c.val.toNat ∧ c.val.toNat ≤ 57) ∨ c = '_' ∨ c = '$') ∧
      ¬ (48 ≤ c.val.toNat ∧ c.val.toNat ≤ 57)
  constructor
  · rintro (upper | lower | rfl | rfl)
    · change 65 ≤ c.val.toNat ∧ c.val.toNat ≤ 90 at upper
      omega
    · change 97 ≤ c.val.toNat ∧ c.val.toNat ≤ 122 at lower
      omega
    · decide
    · decide
  · rintro ⟨upper | lower | digit | sign, noDigit⟩
    · exact .inl upper
    · exact .inr (.inl lower)
    · exact absurd digit noDigit
    · exact .inr (.inr sign)

/-- **What may stand as a target is an identifier.** -/
theorem isTarget_iff : isTarget target = true ↔ IsIdentifier target := by
  cases target with
  | nil => exact ⟨nofun, fun identifier => absurd rfl identifier.ne_nil⟩
  | cons c rest =>
    have others : rest.all inTarget = true ↔ ∀ c ∈ rest, InIdentifier c := by
      simp [inTarget_iff]
    rw [isTarget, Bool.and_eq_true_iff, startsTarget_iff, others]
    constructor
    · rintro ⟨⟨here, start⟩, later⟩
      exact ⟨List.cons_ne_nil c rest, List.forall_mem_cons.mpr ⟨here, later⟩, by simpa using start⟩
    · rintro ⟨_, all, start⟩
      exact ⟨⟨all c List.mem_cons_self, start c rfl⟩, (List.forall_mem_cons.mp all).2⟩

/-! ### Splitting -/

/-- **Splitting undoes putting together:** a text splits into a base and a target exactly if it is
these two, the target in brackets. -/
theorem bracketed?_eq_some_iff :
    bracketed? chars = some (base, target) ↔
      chars = base ++ '[' :: target ++ [']'] ∧ '\n' ∉ base ∧ IsIdentifier target := by
  constructor
  · intro split
    unfold bracketed? at split
    split at split
    · next rest reversed =>
      split at split
      · next left dropped =>
        dsimp only at split
        split at split
        · next good =>
          obtain ⟨rfl, rfl⟩ := Prod.mk.inj (Option.some.inj split)
          rw [Bool.and_eq_true_iff, isTarget_iff] at good
          refine ⟨?_, by simpa using good.2, good.1⟩
          have parts := List.takeWhile_append_dropWhile (p := inTarget) (l := rest)
          rw [dropped] at parts
          generalize rest.takeWhile inTarget = inside at parts
          rw [← List.reverse_reverse chars, reversed, ← parts]
          simp
        · cases split
      · cases split
    · cases split
  · rintro ⟨rfl, oneLine, identifier⟩
    have inside : ∀ c ∈ target.reverse, inTarget c = true := fun c member =>
      inTarget_iff.mpr (identifier.all c (List.mem_reverse.mp member))
    have reversed : (base ++ '[' :: target ++ [']']).reverse =
        ']' :: (target.reverse ++ '[' :: base.reverse) := by simp
    have outside : inTarget '[' = false := by decide
    unfold bracketed?
    rw [reversed]
    simp [List.dropWhile_append_of_pos inside, List.takeWhile_append_of_pos inside, outside,
      isTarget_iff.mpr identifier, oneLine]

/-! ### Marked keys -/

/-- The parts of a key with a target in brackets. -/
structure Marked where
  /-- A plus sign stands in front. -/
  signed : Bool
  /-- What stands before the brackets. -/
  base : String
  /-- What stands in the brackets. -/
  target : String

namespace Marked

/-- How the parts are put together. -/
def text (marked : Marked) : String :=
  (if marked.signed then "+" else "") ++ marked.base ++ "[" ++ marked.target ++ "]"

/-- What the parts say. -/
def key (marked : Marked) : Key :=
  ⟨marked.base, if marked.signed then .subclass marked.target else .reference marked.target⟩

/-- The parts may stand where they stand. -/
structure Proper (marked : Marked) : Prop where
  /-- No line ends in the base. -/
  oneLine : '\n' ∉ marked.base.toList
  /-- The target is an identifier. -/
  target : IsIdentifier marked.target.toList
  /-- A plus sign that comes first is the one in front of the base. -/
  unsigned : marked.signed = false → marked.base.toList.head? ≠ some '+'

end Marked

/-- The ways in which a key can be put together. -/
def splits (raw : String) : Set Marked := {marked | marked.Proper ∧ marked.text = raw}

/-- **The parts of a key are those of its split,** with the sign taken off. -/
theorem mem_splits_iff {marked : Marked} :
    marked ∈ splits raw ↔
      bracketed? raw.toList =
        some ((if marked.signed then ['+'] else []) ++ marked.base.toList, marked.target.toList) ∧
      (marked.signed = false → marked.base.toList.head? ≠ some '+') := by
  have written : marked.text = raw ↔
      raw.toList = (if marked.signed then ['+'] else []) ++ marked.base.toList ++
        '[' :: marked.target.toList ++ [']'] := by
    rw [← String.toList_inj, eq_comm]
    cases marked with
    | mk signed base target => cases signed <;> simp [Marked.text]
  have oneLine : '\n' ∉ (if marked.signed then ['+'] else []) ++ marked.base.toList ↔
      '\n' ∉ marked.base.toList := by
    cases marked.signed <;> simp
  rw [bracketed?_eq_some_iff, ← written, oneLine]
  exact ⟨fun ⟨⟨line, identifier, unsigned⟩, same⟩ => ⟨⟨same, line, identifier⟩, unsigned⟩,
    fun ⟨⟨same, line, identifier⟩, unsigned⟩ => ⟨⟨line, identifier, unsigned⟩, same⟩⟩

/-- **A key is put together in one way at most.** -/
theorem subsingleton_splits (raw : String) : (splits raw).Subsingleton := by
  rintro ⟨signed, base, target⟩ first ⟨signed', base', target'⟩ second
  obtain ⟨split, unsigned⟩ := mem_splits_iff.mp first
  obtain ⟨split', unsigned'⟩ := mem_splits_iff.mp second
  dsimp only at split split' unsigned unsigned'
  obtain ⟨bases, targets⟩ := Prod.mk.inj (Option.some.inj (split.symm.trans split'))
  obtain rfl := String.toList_inj.mp targets
  cases signed <;> cases signed'
  · obtain rfl := String.toList_inj.mp bases
    rfl
  · simp at bases
    simp [bases] at unsigned
  · simp at bases
    simp [← bases] at unsigned'
  · obtain rfl := String.toList_inj.mp (List.cons.inj bases).2
    rfl

/-- **A key without parts does not split.** -/
theorem bracketed?_eq_none (unsplit : splits raw = ∅) : bracketed? raw.toList = none := by
  rw [Option.eq_none_iff_forall_ne_some]
  rintro ⟨base, target⟩ split
  refine Set.eq_empty_iff_forall_notMem.mp unsplit ?_ ?_
  · -- The sign, if there is one, is taken off the base.
    exact ⟨base.head? = some '+',
      String.ofList (if base.head? = some '+' then base.tail else base), String.ofList target⟩
  · refine mem_splits_iff.mpr ?_
    by_cases signed : base.head? = some '+'
    · obtain ⟨rest, rfl⟩ := List.head?_eq_some_iff.mp signed
      simpa using split
    · simpa [signed] using split

/-- **A key with parts is read by them.** -/
theorem parse_of_mem_splits {marked : Marked} (split : marked ∈ splits raw) :
    parse raw = marked.key := by
  obtain ⟨split, unsigned⟩ := mem_splits_iff.mp split
  obtain ⟨signed, base, target⟩ := marked
  unfold parse
  rw [split]
  cases signed with
  | true => simp [Marked.key]
  | false =>
    split
    · next rest _ same =>
      obtain ⟨first, _⟩ := Prod.mk.inj (Option.some.inj same)
      exact absurd (congrArg List.head? first) (unsigned rfl)
    · next same =>
      obtain ⟨rfl, rfl⟩ := Prod.mk.inj (Option.some.inj same)
      simp [Marked.key]
    · next none _ => cases none
    · next none _ => cases none

/-! ### Reading -/

/-- What a key says by the grammar: what its parts say if it has any; else a plus sign makes the
rest a subclass that is named after it; else the key is plain. -/
structure Reads (raw : String) (key : Key) : Prop where
  /-- A key with a target in brackets. -/
  marked : ∀ marked ∈ splits raw, key = marked.key
  /-- A key with a plus sign alone. -/
  signed : splits raw = ∅ → ∀ base, base ≠ "" → raw = "+" ++ base →
    key = ⟨base, .subclass (Word.elementTypeName base)⟩
  /-- Any other key. -/
  plain : splits raw = ∅ → (∀ base, base ≠ "" → raw ≠ "+" ++ base) → key = ⟨raw, .plain⟩

/-- **What the grammar says of a key is one thing.** -/
theorem Reads.unique {first second : Key} (reads : Reads raw first) (reads' : Reads raw second) :
    first = second := by
  by_cases split : ∃ marked, marked ∈ splits raw
  · obtain ⟨marked, member⟩ := split
    rw [reads.marked marked member, reads'.marked marked member]
  · have none : splits raw = ∅ := Set.not_nonempty_iff_eq_empty.mp split
    by_cases signed : ∃ base, base ≠ "" ∧ raw = "+" ++ base
    · obtain ⟨base, some, same⟩ := signed
      rw [reads.signed none base some same, reads'.signed none base some same]
    · have plain : ∀ base, base ≠ "" → raw ≠ "+" ++ base := fun base some same =>
        signed ⟨base, some, same⟩
      rw [reads.plain none plain, reads'.plain none plain]

/-- **The reader says what the grammar says.** -/
theorem reads_parse (raw : String) : Reads raw (parse raw) where
  marked _ split := parse_of_mem_splits split
  signed none base some same := by
    obtain ⟨c, rest, chars⟩ := List.exists_cons_of_ne_nil (mt String.toList_eq_nil_iff.mp some)
    have written : raw.toList = '+' :: c :: rest := by simp [same, chars]
    have whole : String.ofList (c :: rest) = base := by rw [← chars, String.ofList_toList]
    unfold parse
    rw [bracketed?_eq_none none, written]
    simp [whole]
  plain none unsigned := by
    unfold parse
    rw [bracketed?_eq_none none]
    split
    · next split => cases split
    · next split => cases split
    · next c rest _ written =>
      refine absurd ?_ (unsigned (String.ofList (c :: rest)) (by simp))
      rw [← String.toList_inj, written]
      simp
    · rfl

/-- **A target is an identifier in brackets, or named after what a plus sign stands before.** -/
theorem target_cases {target : String} (names : (parse raw).target? = some target) :
    IsIdentifier target.toList ∨
      ∃ base, raw = "+" ++ base ∧ target = Word.elementTypeName base := by
  have reads := reads_parse raw
  by_cases split : ∃ marked, marked ∈ splits raw
  · obtain ⟨marked, member⟩ := split
    rw [reads.marked marked member] at names
    obtain ⟨signed, base, own⟩ := marked
    obtain rfl : own = target := by
      cases signed
      · exact Option.some.inj names
      · exact Option.some.inj names
    exact .inl member.1.target
  · have none : splits raw = ∅ := Set.not_nonempty_iff_eq_empty.mp split
    by_cases signed : ∃ base, base ≠ "" ∧ raw = "+" ++ base
    · obtain ⟨base, some, same⟩ := signed
      rw [reads.signed none base some same] at names
      exact .inr ⟨base, same, (Option.some.inj names).symm⟩
    · rw [reads.plain none fun base some same => signed ⟨base, some, same⟩] at names
      cases names

/-- **The name of a key is a part of it.** -/
theorem mem_of_mem_name_parse {c : Char} (member : c ∈ (parse raw).name.toList) :
    c ∈ raw.toList := by
  have reads := reads_parse raw
  by_cases split : ∃ marked, marked ∈ splits raw
  · obtain ⟨marked, parts⟩ := split
    rw [reads.marked marked parts] at member
    rw [← parts.2, Marked.text]
    simp only [String.toList_append, List.mem_append]
    exact .inl (.inl (.inl (.inr member)))
  · have none : splits raw = ∅ := Set.not_nonempty_iff_eq_empty.mp split
    by_cases signed : ∃ base, base ≠ "" ∧ raw = "+" ++ base
    · obtain ⟨base, some, same⟩ := signed
      rw [reads.signed none base some same] at member
      rw [same, String.toList_append]
      exact List.mem_append_right _ member
    · rwa [reads.plain none fun base some same => signed ⟨base, some, same⟩] at member

/-- **A key is read by the grammar,** which leaves one way to put it together at most. -/
theorem parse_eq_iff (raw : String) (key : Key) :
    (splits raw).Subsingleton ∧ (parse raw = key ↔ Reads raw key) :=
  ⟨subsingleton_splits raw, fun same => same ▸ reads_parse raw, (reads_parse raw).unique⟩

/-- The last brackets hold the target, and the first sign makes it a subclass. -/
example : parse "++a[b][C]" = ⟨"+a[b]", .subclass "C"⟩ := by decide

end Key
end SampleShapes
