/-
**Singulars and bytes.**

A plural is told by the end of its lower case form, while it is the word itself that is cut, and a
word in lower case need not take the bytes of the word. What holds the two together is the ending:
it is made of small letters other than `k`, and only characters of ASCII go to such letters at the
end of a text. So a word that seems to end in it does end in as many characters of ASCII, one byte
each, and no cut goes through a character.

* `splitBytes?_eq_some_iff`: **bytes split off exactly where a character ends;**
* `Lowers`: what a text in lower case is asked to be;
* `Lowers.exists_ascii`: **what ends in an ending in lower case ends in ASCII;**
* `singularOf_eq`: the singular is the word with its end changed;
* `mem_singular`: what the characters of a singular are;
* `singular_cuts`: **a singular by bytes never cuts through a character,** and is the same singular;
* `singularInBytes?_eq`: so it is under the case maps of Unicode.
-/

import Mathlib.Data.List.Basic
import Mathlib.Data.List.Induction
import SampleShapes.Proofs.Naming.Words

namespace SampleShapes

/-! ### Lower case -/

namespace Text

/-- What one character in lower case is asked to be: something; for a character of ASCII its small
letter; and beyond ASCII no letter of ASCII, but for the Kelvin sign and the dotted capital `I`. -/
structure LowersTo (c : Char) (piece : List Char) : Prop where
  /-- No character is lost. -/
  ne_nil : piece ≠ []
  /-- A character of ASCII becomes its small letter. -/
  ascii : c.toNat < 128 → piece = [c.toLower]
  /-- Two characters beyond ASCII become letters of ASCII. -/
  letters : 128 ≤ c.toNat → ∀ d ∈ piece, d.isAlpha →
    c = '\u212a' ∧ piece = ['k'] ∨ c = '\u0130' ∧ piece = ['i', '\u0307']

/-- A text in lower case: its characters one after the other, where what becomes of each may depend
on those around it. -/
inductive Lowers : (chars lowered : List Char) → Prop where
  /-- Nothing becomes nothing. -/
  | nothing : Lowers [] []
  /-- One more character. -/
  | next {chars lowered piece : List Char} {c : Char} (before : Lowers chars lowered)
      (last : LowersTo c piece) : Lowers (chars ++ [c]) (lowered ++ piece)

/-- The run leads beyond ASCII, and to characters. -/
def CaseRun.leadsBeyond : CaseRun → Bool
  | (first, last, _, image) =>
    (128 ≤ image && image + (last - first) < 0xd800) ||
      (0xe000 ≤ image && image + (last - first) < 0x110000)

theorem leadsBeyond_lowerRuns : lowerRuns.all fun run =>
    run == (0x212a, 0x212a, 1, 0x6b) || run.leadsBeyond := by decide +kernel

theorem CaseRun.image?_of_leadsBeyond {run : CaseRun} {code image : Nat} (leads : run.leadsBeyond)
    (found : run.image? code = some image) : image.isValidChar ∧ 128 ≤ image := by
  obtain ⟨first, last, step, start⟩ := run
  unfold CaseRun.image? at found
  dsimp only at found
  split at found
  · next inside =>
    obtain rfl := Option.some.inj found
    simp only [Bool.and_eq_true, decide_eq_true_eq] at inside
    simp only [CaseRun.leadsBeyond, Bool.or_eq_true, Bool.and_eq_true, decide_eq_true_eq] at leads
    unfold Nat.isValidChar
    omega
  · cases found

theorem toNat_lt_of_isAlpha {c : Char} (letter : c.isAlpha) : c.toNat < 128 := by
  rcases Key.isAlpha_iff.mp letter with ⟨_, last⟩ | ⟨_, last⟩
  · change c.toNat ≤ 90 at last
    omega
  · change c.toNat ≤ 122 at last
    omega

/-- **The case maps of Unicode are as they are asked to be.** -/
theorem lowersTo_lower (c : Char) : LowersTo c (lower c) where
  ne_nil := by
    unfold lower
    split
    · exact List.cons_ne_nil _ _
    · exact mapCase_ne_nil (by decide +kernel) c
  ascii small := if_pos small
  letters beyond d member letter := by
    have small := toNat_lt_of_isAlpha letter
    have mapped : lower c = mapCase lowerExpansions lowerRuns c := if_neg (Nat.not_lt.mpr beyond)
    rw [mapped] at member
    rcases mem_mapCase member with
      ⟨codes, code, among, inside, rfl⟩ | ⟨run, code, among, found, rfl⟩ | rfl
    · obtain ⟨here, rfl⟩ := Prod.mk.inj (List.mem_singleton.mp (Array.mem_toList_iff.mpr among))
      obtain rfl : c = '\u0130' := Char.toNat_inj.mp here
      exact .inr ⟨rfl, by decide +kernel⟩
    · have leads := Array.all_eq_true_iff_forall_mem.mp leadsBeyond_lowerRuns run among
      rcases Bool.or_eq_true_iff.mp leads with kelvin | leads
      · obtain rfl := beq_iff_eq.mp kelvin
        have only : c.toNat = 0x212a := by
          unfold CaseRun.image? at found
          simp only [Option.ite_none_right_eq_some, Bool.and_eq_true, decide_eq_true_eq] at found
          omega
        obtain rfl : c = '\u212a' := Char.toNat_inj.mp only
        exact .inl ⟨rfl, by decide +kernel⟩
      · obtain ⟨valid, far⟩ := CaseRun.image?_of_leadsBeyond leads found
        rw [toNat_ofNat valid] at small
        omega
    · omega

theorem lowers_flatMap_lower (chars : List Char) : Lowers chars (chars.flatMap lower) := by
  induction chars using List.reverseRecOn with
  | nil => exact .nothing
  | append_singleton chars c before =>
    rw [List.flatMap_append, List.flatMap_singleton]
    exact before.next (lowersTo_lower c)

/-- Only a character of ASCII ends in a small letter other than `k`. -/
theorem LowersTo.toNat_lt {c d : Char} {piece : List Char} (lowers : LowersTo c piece)
    (last : d ∈ piece.getLast?) (letter : d.isAlpha) (notK : d ≠ 'k') : c.toNat < 128 := by
  by_contra beyond
  rcases lowers.letters (Nat.le_of_not_lt beyond) d (List.mem_of_getLast? last) letter with
    ⟨_, rfl⟩ | ⟨_, rfl⟩
  · exact notK (Option.some.inj last).symm
  · obtain rfl := Option.some.inj last
    exact absurd letter (by decide)

/-- **What ends in small letters other than `k` in lower case ends in as many characters of
ASCII.** -/
theorem Lowers.exists_ascii {chars before ending : List Char}
    (lowers : Lowers chars (before ++ ending))
    (letters : ∀ d ∈ ending, d.isAlpha ∧ d ≠ 'k') :
    ∃ kept cut, chars = kept ++ cut ∧ cut.length = ending.length ∧ ∀ c ∈ cut, c.toNat < 128 := by
  -- From the end, one character at a time: each small letter is all that its character becomes.
  induction ending using List.reverseRecOn generalizing chars with
  | nil => exact ⟨chars, [], by simp⟩
  | append_singleton ending d step =>
    generalize whole : before ++ (ending ++ [d]) = lowered at lowers
    cases lowers with
    | nothing => simp at whole
    | @next chars lowered piece c earlier last =>
      obtain ⟨rest, d', rfl⟩ := (List.eq_nil_or_concat' piece).resolve_left last.ne_nil
      rw [← List.append_assoc, ← List.append_assoc] at whole
      obtain ⟨front, same⟩ := List.append_inj' whole rfl
      obtain rfl := List.singleton_injective same
      have here := letters d (by simp)
      have small := last.toNat_lt (by simp) here.1 here.2
      obtain rfl : rest = [] := by
        have alone := congrArg List.length (last.ascii small)
        simpa using alone
      rw [List.append_nil] at front
      rw [← front] at earlier
      obtain ⟨kept, cut, rfl, long, ascii⟩ :=
        step earlier fun e member => letters e (List.mem_append_left _ member)
      refine ⟨kept, cut ++ [c], by simp, by simp [long], ?_⟩
      intro e member
      rcases List.mem_append.mp member with inside | atEnd
      · exact ascii e inside
      · rwa [List.mem_singleton.mp atEnd]

end Text

/-! ### Bytes -/

namespace Word

/-- Split off the last `n` bytes of a text. This fails if the text has fewer, or if a character lies
across the cut. -/
def splitBytes? (n : Nat) (text : String) : Option (String × String) :=
  let place : String.Pos.Raw := ⟨text.utf8ByteSize - n⟩
  if inside : n ≤ text.utf8ByteSize ∧ place.IsValid text then
    some ((text.sliceTo (text.pos place inside.2)).copy,
      (text.sliceFrom (text.pos place inside.2)).copy)
  else none

/-- **Bytes split off exactly where a character ends.** -/
theorem splitBytes?_eq_some_iff {n : Nat} {text kept cut : String} :
    splitBytes? n text = some (kept, cut) ↔ text = kept ++ cut ∧ cut.utf8ByteSize = n := by
  unfold splitBytes?
  dsimp only
  constructor
  · intro split
    split at split
    · next inside =>
      obtain ⟨rfl, rfl⟩ := Prod.mk.inj (Option.some.inj split)
      have splits := (text.pos ⟨text.utf8ByteSize - n⟩ inside.2).splits
      refine ⟨splits.eq_append, ?_⟩
      have sizes := congrArg String.utf8ByteSize splits.eq_append
      have left := congrArg String.Pos.Raw.byteIdx splits.offset_eq_rawEndPos
      rw [String.utf8ByteSize_append] at sizes
      simp only [String.offset_pos, String.byteIdx_rawEndPos] at left
      omega
    · cases split
  · rintro ⟨rfl, rfl⟩
    have size := String.utf8ByteSize_append (s := kept) (t := cut)
    have place : (⟨(kept ++ cut).utf8ByteSize - cut.utf8ByteSize⟩ : String.Pos.Raw) =
        kept.rawEndPos := by
      refine String.Pos.Raw.ext ?_
      show (kept ++ cut).utf8ByteSize - cut.utf8ByteSize = kept.utf8ByteSize
      omega
    have valid : (⟨(kept ++ cut).utf8ByteSize - cut.utf8ByteSize⟩ : String.Pos.Raw).IsValid
        (kept ++ cut) := String.Pos.Raw.isValid_iff_exists_append.mpr ⟨kept, cut, rfl, place⟩
    rw [dif_pos ⟨by omega, valid⟩]
    have splits : ((kept ++ cut).pos _ valid).Splits kept cut := ⟨rfl, place⟩
    obtain ⟨left, right⟩ := (String.Pos.splits _).eq splits
    rw [left, right]

theorem utf8ByteSize_of_ascii {text : String} (ascii : IsAscii text) :
    text.utf8ByteSize = text.length := by
  unfold IsAscii at ascii
  rw [← String.length_toList, ← String.ofList_toList (s := text), String.toList_ofList]
  generalize text.toList = chars at ascii ⊢
  induction chars with
  | nil => rfl
  | cons c rest step =>
    obtain ⟨small, ascii⟩ := List.forall_mem_cons.mp ascii
    have one : c.utf8Size = 1 := Char.utf8Size_eq_one_iff.mpr (Nat.le_of_lt_succ small)
    rw [String.ofList_cons, String.utf8ByteSize_append, String.utf8ByteSize_singleton, one,
      step ascii, List.length_cons, Nat.add_comm]

/-! ### Singulars -/

/-- What is done to the end of a word. -/
structure Change where
  /-- The number of bytes that are cut off. -/
  bytes : Nat
  /-- What is put in their place, given what they are. -/
  put : String → String

/-- What is done to the end of a word for its singular, by its lower case form. -/
def change? (lowered : List Char) : Option Change :=
  match irregular.find? fun (plural, _) => endsWith plural lowered with
  | some (plural, single) =>
    some ⟨plural.utf8ByteSize, fun cut =>
      if cut.toList.head?.any Char.isUpper then typeName single else single⟩
  | none =>
    if endsWith "ies" lowered && 3 < byteLength lowered then some ⟨3, fun _ => "y"⟩
    else if longEndings.any (endsWith · lowered) then some ⟨2, fun _ => ""⟩
    else if singularEndings.any (endsWith · lowered) then none
    else if endsWith "s" lowered && 1 < byteLength lowered then some ⟨1, fun _ => ""⟩
    else none

/-- The singular of a word by the endings of its lower case form, with bytes cut off the word; none
if a cut goes through a character or leads out of the word. -/
def singularInBytes? (word : String) (lowered : List Char) : Option String :=
  if byteLength lowered = byteLength word.toList then
    match change? lowered with
    | none => some word
    | some change =>
      (splitBytes? change.bytes word).map fun (kept, cut) => kept ++ change.put cut
  else some word

/-- The endings that a plural is told by. -/
def pluralEndings : List String := irregular.map Prod.fst ++ longEndings ++ ["ies", "s"]

theorem letters_pluralEndings : pluralEndings.all fun ending =>
    ending.toList.all fun c => c.isAlpha && c ≠ 'k' := by decide +kernel

theorem letters_of_mem_pluralEndings {ending : String} (among : ending ∈ pluralEndings) :
    ∀ c ∈ ending.toList, c.isAlpha ∧ c ≠ 'k' := by
  intro c member
  simpa using List.all_eq_true.mp (List.all_eq_true.mp letters_pluralEndings ending among) c member

theorem spec_irregular : ∀ entry ∈ irregular, entry.1 ∈ pluralEndings ∧
    entry.1.utf8ByteSize = entry.1.length ∧ IsAscii entry.2 ∧ IsAscii (typeName entry.2) := by
  decide +kernel

variable {word : String} {lowered : List Char} {change : Change} {c : Char}

/-- **A word is changed by an ending,** of which no more is cut off than there is, and what is put
in its place is ASCII. -/
theorem spec_change? (found : change? lowered = some change) :
    (∃ ending ∈ pluralEndings, endsWith ending lowered ∧ change.bytes ≤ ending.length) ∧
      ∀ cut, IsAscii (change.put cut) := by
  unfold change? at found
  split at found
  · next plural single here =>
    obtain rfl := Option.some.inj found
    obtain ⟨among, size, small, raised⟩ := spec_irregular _ (List.mem_of_find?_eq_some here)
    have ends : endsWith plural lowered = true := by simpa using List.find?_some here
    refine ⟨⟨plural, among, ends, Nat.le_of_eq size⟩, fun cut => ?_⟩
    dsimp only
    split
    · exact raised
    · exact small
  · have nothing : IsAscii "" := by decide
    split at found
    · next ends =>
      obtain rfl := Option.some.inj found
      rw [Bool.and_eq_true] at ends
      have ascii : IsAscii "y" := by decide
      exact ⟨⟨"ies", by decide, ends.1, by decide⟩, fun _ => ascii⟩
    · split at found
      · next ends =>
        obtain rfl := Option.some.inj found
        obtain ⟨ending, among, ends⟩ := List.any_eq_true.mp ends
        have long : ∀ ending ∈ longEndings, ending ∈ pluralEndings ∧ 2 ≤ ending.length := by decide
        exact ⟨⟨ending, (long ending among).1, ends, (long ending among).2⟩, fun _ => nothing⟩
      · split at found
        · cases found
        · split at found
          · next ends =>
            obtain rfl := Option.some.inj found
            rw [Bool.and_eq_true] at ends
            exact ⟨⟨"s", by decide, ends.1, by decide⟩, fun _ => nothing⟩
          · cases found

/-- **The singular is the word with its end changed.** -/
theorem singularOf_eq (word : String) (lowered : List Char) :
    singularOf word lowered = (change? lowered).elim word fun change =>
      String.ofList (dropEnd change.bytes word.toList) ++
        change.put (String.ofList (word.toList.drop (word.toList.length - change.bytes))) := by
  unfold singularOf change?
  dsimp only
  cases here : irregular.find? fun entry => endsWith entry.1 lowered with
  | some entry =>
    have size := (spec_irregular _ (List.mem_of_find?_eq_some here)).2.1
    dsimp only
    rw [Option.elim_some, size, replaceEnd, String.ofList_append, String.ofList_toList]
    dsimp only
    rw [String.toList_ofList]
  | none =>
    dsimp only
    split
    · rw [Option.elim_some, String.ofList_append]
    · split
      · rw [Option.elim_some, String.append_empty]
      · split
        · rfl
        · split
          · rw [Option.elim_some, String.append_empty]
          · rfl

/-- **What is cut off a word is ASCII,** one byte a character, so that the bytes split off. -/
theorem exists_cut (lowers : Text.Lowers word.toList lowered)
    (found : change? lowered = some change) :
    ∃ kept cut, splitBytes? change.bytes word = some (kept, cut) ∧ cut.length = change.bytes ∧
      IsAscii cut := by
  obtain ⟨⟨ending, among, ends, fits⟩, _⟩ := spec_change? found
  obtain ⟨before, rfl⟩ := List.isSuffixOf_iff_suffix.mp ends
  obtain ⟨front, back, split, long, ascii⟩ :=
    lowers.exists_ascii (letters_of_mem_pluralEndings among)
  rw [String.length_toList] at long
  -- Not all of the ending need go.
  have rest : (back.drop (back.length - change.bytes)).length = change.bytes := by
    rw [List.length_drop]
    omega
  have whole : word = String.ofList (front ++ back.take (back.length - change.bytes)) ++
      String.ofList (back.drop (back.length - change.bytes)) := by
    rw [← String.ofList_append, List.append_assoc, List.take_append_drop, ← split,
      String.ofList_toList]
  have small : IsAscii (String.ofList (back.drop (back.length - change.bytes))) := by
    intro c member
    rw [String.toList_ofList] at member
    exact ascii c (List.mem_of_mem_drop member)
  have length : (String.ofList (back.drop (back.length - change.bytes))).length =
      change.bytes := by
    rw [String.length_ofList, rest]
  refine ⟨_, _, splitBytes?_eq_some_iff.mpr ⟨whole, ?_⟩, length, small⟩
  rw [utf8ByteSize_of_ascii small, length]

/-- **A singular by bytes is the same singular.** -/
theorem singularInBytes?_eq_some (lowers : Text.Lowers word.toList lowered) :
    singularInBytes? word lowered =
      some (if byteLength lowered = byteLength word.toList then singularOf word lowered
        else word) := by
  unfold singularInBytes?
  split
  · rw [singularOf_eq]
    cases found : change? lowered with
    | none => rfl
    | some change =>
      obtain ⟨kept, cut, split, length, _⟩ := exists_cut lowers found
      obtain ⟨rfl, _⟩ := splitBytes?_eq_some_iff.mp split
      have cuts : (kept ++ cut).toList.length - change.bytes = kept.toList.length := by
        rw [String.toList_append, List.length_append, String.length_toList (s := cut),
          length, Nat.add_sub_cancel]
      dsimp only
      rw [split, Option.map_some, Option.elim_some, dropEnd, cuts, String.toList_append,
        List.take_left, List.drop_left, String.ofList_toList, String.ofList_toList]
  · rfl

/-- **Under the case maps of Unicode a singular by bytes is the singular.** -/
theorem singularInBytes?_eq (word : String) :
    singularInBytes? word (word.toList.flatMap Text.lower) = some (singular word) :=
  singularInBytes?_eq_some (Text.lowers_flatMap_lower word.toList)

/-- **What a singular is made of:** characters of the word, and of ASCII. -/
theorem mem_singular (member : c ∈ (singular word).toList) :
    c ∈ word.toList ∨ c.toNat < 128 := by
  unfold singular at member
  dsimp only at member
  split at member
  · rw [singularOf_eq] at member
    cases found : change? (word.toList.flatMap Text.lower) with
    | none =>
      rw [found] at member
      exact .inl member
    | some change =>
      rw [found, Option.elim_some, String.toList_append, String.toList_ofList] at member
      rcases List.mem_append.mp member with kept | put
      · exact .inl (List.mem_of_mem_take kept)
      · exact .inr ((spec_change? found).2 _ c put)
  · exact .inl member

/-- **A singular never cuts through a character.** Whatever bytes are cut off a word are those of as
many characters of ASCII, so that every cut lies inside of the word and between two characters of
it, and there is a singular. -/
theorem singular_cuts (lowers : Text.Lowers word.toList lowered) :
    (∀ change, change? lowered = some change → ∃ kept cut,
      splitBytes? change.bytes word = some (kept, cut) ∧ word = kept ++ cut ∧
        cut.length = change.bytes ∧ IsAscii cut) ∧
    singularInBytes? word lowered =
      some (if byteLength lowered = byteLength word.toList then singularOf word lowered
        else word) ∧
    singularInBytes? word (word.toList.flatMap Text.lower) = some (singular word) := by
  refine ⟨fun change found => ?_, singularInBytes?_eq_some lowers, singularInBytes?_eq word⟩
  obtain ⟨kept, cut, split, length, ascii⟩ := exists_cut lowers found
  exact ⟨kept, cut, split, (splitBytes?_eq_some_iff.mp split).1, length, ascii⟩

/-- A word of characters of one byte and of two, all of them capitals. -/
theorem singular_cuts_of_capitals :
    Text.Lowers "\u00c9TUDIES".toList "\u00e9tudies".toList ∧
    (∀ change, change? "\u00e9tudies".toList = some change → ∃ kept cut,
      splitBytes? change.bytes "\u00c9TUDIES" = some (kept, cut) ∧
        "\u00c9TUDIES" = kept ++ cut ∧ cut.length = change.bytes ∧ IsAscii cut) ∧
    singularInBytes? "\u00c9TUDIES" "\u00e9tudies".toList = some "\u00c9TUDy" := by
  have lowered : "\u00c9TUDIES".toList.flatMap Text.lower = "\u00e9tudies".toList := by
    decide +kernel
  have lowers := Text.lowers_flatMap_lower "\u00c9TUDIES".toList
  rw [lowered] at lowers
  obtain ⟨cuts, singular, _⟩ := singular_cuts lowers
  exact ⟨lowers, cuts, singular.trans (by decide +kernel)⟩

end Word

end SampleShapes
