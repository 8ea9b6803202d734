/-
**What type names are made of.**

A type name is put together from the letters and digits of a word, some of them in upper case, and
from underscores. A character in upper case is no small letter of ASCII, also where it comes of a
character beyond ASCII, so that no type name starts with one.

* `Text.mem_upper`: what a character in upper case is;
* `Word.head_typeName`: **a type name does not start with a small letter;**
* `Word.mem_typeName`: **what its characters are;**
* `Word.isIdentifier_typeName`: in ASCII it is an identifier.
-/

import SampleShapes.Proofs.Key.Grammar

namespace SampleShapes

/-! ### Upper case -/

namespace Text

/-- The code is that of a capital of ASCII or of a character beyond ASCII. -/
def IsRaised (code : Nat) : Prop := (65 ≤ code ∧ code ≤ 90) ∨ 128 ≤ code

/-- The run leads to nothing but such codes, and to characters. -/
def CaseRun.raises : CaseRun → Bool
  | (first, last, _, image) =>
    (first == last && 65 ≤ image && image ≤ 90) ||
      (128 ≤ image && image + (last - first) < 0xd800) ||
      (0xe000 ≤ image && image + (last - first) < 0x110000)

theorem raises_upperRuns : upperRuns.all CaseRun.raises := by decide +kernel

/-- Every expansion is one of such codes, and of characters. -/
theorem raises_upperExpansions : upperExpansions.all fun entry =>
    entry.2.all fun code => ((65 ≤ code && code ≤ 90) || 128 ≤ code) && code.isValidChar := by
  decide +kernel

theorem toNat_ofNat {code : Nat} (valid : code.isValidChar) : (Char.ofNat code).toNat = code := by
  unfold Char.ofNat
  rw [dif_pos valid]
  rfl

theorem toUpper_cases {c : Char} (ascii : c.toNat < 128) :
    (c.isLower = false ∧ c.toUpper = c) ∨ 65 ≤ c.toUpper.toNat ∧ c.toUpper.toNat ≤ 90 := by
  have all : ∀ code < 128, ((Char.ofNat code).isLower = false ∧
      (Char.ofNat code).toUpper = Char.ofNat code) ∨
        65 ≤ (Char.ofNat code).toUpper.toNat ∧ (Char.ofNat code).toUpper.toNat ≤ 90 := by decide
  have here := all c.toNat ascii
  rwa [Char.ofNat_toNat] at here

/-- A run leads to a capital or beyond ASCII. -/
theorem CaseRun.isRaised_of_image? {run : CaseRun} {code image : Nat} (raises : run.raises)
    (found : run.image? code = some image) : image.isValidChar ∧ IsRaised image := by
  obtain ⟨first, last, step, start⟩ := run
  unfold CaseRun.image? at found
  dsimp only at found
  split at found
  · next inside =>
    obtain rfl := Option.some.inj found
    simp only [Bool.and_eq_true, decide_eq_true_eq] at inside
    simp only [CaseRun.raises, Bool.or_eq_true, Bool.and_eq_true, decide_eq_true_eq,
      beq_iff_eq] at raises
    unfold IsRaised Nat.isValidChar
    omega
  · cases found

/-- What a character is mapped to: a code of its expansion, that of a run, or itself. -/
theorem mem_mapCase {expansions : Array (Nat × List Nat)} {runs : Array CaseRun} {c d : Char}
    (member : d ∈ mapCase expansions runs c) :
    (∃ codes code, (c.toNat, codes) ∈ expansions ∧ code ∈ codes ∧ Char.ofNat code = d) ∨
      (∃ run code, run ∈ runs ∧ run.image? c.toNat = some code ∧ Char.ofNat code = d) ∨ d = c := by
  unfold mapCase at member
  split at member
  · next code codes found =>
    have same := Array.find?_some found
    obtain rfl : code = c.toNat := by simpa using same
    obtain ⟨code, inside, same⟩ := List.mem_map.mp member
    exact .inl ⟨codes, code, Array.mem_of_find?_eq_some found, inside, same⟩
  · split at member
    · next code found =>
      obtain ⟨run, among, image⟩ := Array.exists_of_findSome?_eq_some found
      exact .inr (.inl ⟨run, code, among, image, (List.mem_singleton.mp member).symm⟩)
    · exact .inr (.inr (List.mem_singleton.mp member))

/-- **What a character in upper case is:** itself, and no small letter of ASCII; a capital of ASCII;
or beyond ASCII, where it comes from beyond ASCII. -/
theorem mem_upper {c d : Char} (member : d ∈ upper c) :
    (d = c ∧ c.isLower = false) ∨ (65 ≤ d.toNat ∧ d.toNat ≤ 90) ∨
      128 ≤ d.toNat ∧ 128 ≤ c.toNat := by
  unfold upper at member
  split at member
  · next ascii =>
    obtain rfl := List.mem_singleton.mp member
    rcases toUpper_cases ascii with ⟨notLower, same⟩ | capital
    · exact .inl ⟨same, notLower⟩
    · exact .inr (.inl capital)
  · next beyond =>
    have outside : 128 ≤ c.toNat := Nat.le_of_not_lt beyond
    have raised : IsRaised d.toNat := by
      rcases mem_mapCase member with
        ⟨codes, code, among, inside, rfl⟩ | ⟨run, code, among, found, rfl⟩ | rfl
      · have raises := Array.all_eq_true_iff_forall_mem.mp raises_upperExpansions _ among
        have here := List.all_eq_true.mp raises code inside
        simp only [Bool.and_eq_true, Bool.or_eq_true, decide_eq_true_eq] at here
        rw [toNat_ofNat here.2]
        exact here.1
      · have raises := Array.all_eq_true_iff_forall_mem.mp raises_upperRuns run among
        obtain ⟨valid, raised⟩ := CaseRun.isRaised_of_image? raises found
        rwa [toNat_ofNat valid]
      · exact .inr outside
    rcases raised with capital | far
    · exact .inr (.inl capital)
    · exact .inr (.inr ⟨far, outside⟩)

/-- A character is mapped to one or more, if no expansion is empty. -/
theorem mapCase_ne_nil {expansions : Array (Nat × List Nat)} {runs : Array CaseRun}
    (some : expansions.all fun entry => !entry.2.isEmpty) (c : Char) :
    mapCase expansions runs c ≠ [] := by
  unfold mapCase
  split
  · next code codes found =>
    have here := Array.all_eq_true_iff_forall_mem.mp some _ (Array.mem_of_find?_eq_some found)
    rw [Bool.not_eq_true', List.isEmpty_eq_false_iff] at here
    exact mt List.map_eq_nil_iff.mp here
  · split
    · exact List.cons_ne_nil _ _
    · exact List.cons_ne_nil _ _

/-- **A character in upper case is one or more.** -/
theorem upper_ne_nil (c : Char) : upper c ≠ [] := by
  unfold upper
  split
  · exact List.cons_ne_nil _ _
  · exact mapCase_ne_nil (by decide +kernel) c

end Text

/-! ### Type names -/

/-- The characters of the text are those of ASCII. -/
def IsAscii (text : String) : Prop := ∀ c ∈ text.toList, c.toNat < 128

instance : DecidablePred IsAscii := fun text =>
  List.decidableBAll (fun c : Char => c.toNat < 128) text.toList

namespace Word

variable {word : String} {chars : List Char} {fresh : Bool} {c d : Char}

theorem alphanumeric_cases (alphanumeric : Text.isAlphanumeric c) :
    InIdentifier c ∨ 128 ≤ c.toNat := by
  unfold Text.isAlphanumeric at alphanumeric
  split at alphanumeric
  · refine .inl (Key.inTarget_iff.mp ?_)
    rw [Key.inTarget, alphanumeric, Bool.true_or, Bool.true_or]
  · next beyond => exact .inr (Nat.le_of_not_lt beyond)

theorem inIdentifier_of_capital (capital : 65 ≤ c.toNat ∧ c.toNat ≤ 90) : InIdentifier c :=
  .inl capital

theorem isLower_of_isRaised (raised : Text.IsRaised c.toNat) : c.isLower = false := by
  refine Bool.eq_false_iff.mpr fun lower => ?_
  have inside : 97 ≤ c.toNat ∧ c.toNat ≤ 122 := Key.isLower_iff.mp lower
  unfold Text.IsRaised at raised
  omega

/-- No character in upper case is a small letter. -/
theorem isLower_of_mem_upper (member : d ∈ Text.upper c) : d.isLower = false := by
  rcases Text.mem_upper member with ⟨rfl, notLower⟩ | capital | ⟨beyond, _⟩
  · exact notLower
  · exact isLower_of_isRaised (.inl capital)
  · exact isLower_of_isRaised (.inr beyond)

/-- **Parts run together are made of the letters and digits of the word,** some of them in upper
case. -/
theorem exists_of_mem_pascal (member : d ∈ pascal fresh chars) :
    ∃ c ∈ chars, Text.isAlphanumeric c ∧ (d = c ∨ d ∈ Text.upper c) := by
  induction chars generalizing fresh with
  | nil => exact absurd member List.not_mem_nil
  | cons first rest step =>
    have later : ∀ {fresh}, d ∈ pascal fresh rest →
        ∃ c ∈ first :: rest, Text.isAlphanumeric c ∧ (d = c ∨ d ∈ Text.upper c) := by
      intro fresh member
      obtain ⟨c, inside, from'⟩ := step member
      exact ⟨c, List.mem_cons_of_mem _ inside, from'⟩
    unfold pascal at member
    split at member
    · next alphanumeric =>
      rcases List.mem_append.mp member with here | member
      · refine ⟨first, List.mem_cons_self, alphanumeric, ?_⟩
        split at here
        · exact .inr here
        · exact .inl (List.mem_singleton.mp here)
      · exact later member
    · exact later member

/-- **The first of them is in upper case.** -/
theorem exists_of_head_pascal (first : d ∈ (pascal true chars).head?) :
    ∃ c, d ∈ Text.upper c := by
  induction chars with
  | nil => cases first
  | cons c rest step =>
    unfold pascal at first
    split at first
    · refine ⟨c, ?_⟩
      obtain ⟨d, more, same⟩ := List.exists_cons_of_ne_nil (Text.upper_ne_nil c)
      rw [if_pos rfl, same, List.cons_append] at first
      obtain rfl := Option.some.inj first
      rw [same]
      exact List.mem_cons_self
    · exact step first

/-- **A type name does not start with a small letter.** -/
theorem head_typeName (first : c ∈ (typeName word).toList.head?) : c.isLower = false := by
  unfold typeName at first
  split at first
  · obtain rfl := Option.some.inj first
    rfl
  · next d rest parts =>
    rw [String.toList_ofList] at first
    split at first
    · obtain rfl := Option.some.inj first
      rfl
    · obtain rfl := Option.some.inj first
      obtain ⟨d, member⟩ := exists_of_head_pascal (congrArg List.head? parts)
      exact isLower_of_mem_upper member

theorem typeName_ne_nil (word : String) : (typeName word).toList ≠ [] := by
  unfold typeName
  split
  · exact List.cons_ne_nil _ _
  · rw [String.toList_ofList]
    split
    · exact List.cons_ne_nil _ _
    · exact List.cons_ne_nil _ _

/-- **A type name does not start with a digit.** -/
theorem not_digit_of_head_typeName (first : c ∈ (typeName word).toList.head?) :
    ¬ ('0' ≤ c ∧ c ≤ '9') := by
  unfold typeName at first
  split at first
  · obtain rfl := Option.some.inj first
    decide
  · rw [String.toList_ofList] at first
    split at first
    · obtain rfl := Option.some.inj first
      decide
    · next noDigit =>
      obtain rfl := Option.some.inj first
      intro digit
      exact noDigit (Bool.and_eq_true_iff.mpr
        ⟨decide_eq_true (Char.le_def.mp digit.1), decide_eq_true (Char.le_def.mp digit.2)⟩)

/-- **What a type name is made of:** characters of identifiers, and characters beyond ASCII where
the word has some. -/
theorem mem_typeName (member : d ∈ (typeName word).toList) :
    InIdentifier d ∨ 128 ≤ d.toNat ∧ ∃ c ∈ word.toList, 128 ≤ c.toNat := by
  have parts : ∀ d ∈ pascal true word.toList,
      InIdentifier d ∨ 128 ≤ d.toNat ∧ ∃ c ∈ word.toList, 128 ≤ c.toNat := by
    intro d member
    obtain ⟨c, inside, alphanumeric, rfl | upper⟩ := exists_of_mem_pascal member
    · exact (alphanumeric_cases alphanumeric).imp_right fun beyond => ⟨beyond, d, inside, beyond⟩
    · rcases Text.mem_upper upper with ⟨rfl, _⟩ | capital | ⟨beyond, outside⟩
      · exact (alphanumeric_cases alphanumeric).imp_right fun beyond => ⟨beyond, d, inside, beyond⟩
      · exact .inl (inIdentifier_of_capital capital)
      · exact .inr ⟨beyond, c, inside, outside⟩
  unfold typeName at member
  split at member
  · have all : AllInIdentifier "Type".toList := by decide
    exact .inl (all d member)
  · next first rest same =>
    rw [String.toList_ofList] at member
    rw [same] at parts
    split at member
    · rcases List.mem_cons.mp member with rfl | member
      · exact .inl (by decide)
      · exact parts d member
    · exact parts d member

/-- **The type name of a word in ASCII is an identifier.** -/
theorem isIdentifier_typeName (ascii : IsAscii word) : IsIdentifier (typeName word).toList where
  ne_nil := typeName_ne_nil word
  all d member := by
    rcases mem_typeName member with inside | ⟨_, c, own, beyond⟩
    · exact inside
    · exact absurd (ascii c own) (Nat.not_lt.mpr beyond)
  start _ first := not_digit_of_head_typeName first

end Word

end SampleShapes
