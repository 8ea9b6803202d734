/-
**Types by their text.**

A type is written without more parentheses than those around a union under an array, and yet it is
told by its text, as long as its unions are several arms side by side and its names are identifiers
that no built-in type goes by. The text is read from its end: brackets there are those of an array,
a parenthesis before them is that of a union, and anything else is a word. A word starts where an
opening parenthesis or a space stands before it, so what stands before a type is told along with it.

* `TypeRef.toList_text_array`, `TypeRef.heads_eq`: how arrays and unions end;
* `TypeRef.eq_ofWord`: a word is one type;
* `TypeRef.told`: **a type is told by its text, and so is what stands before it**;
* `TypeRef.eq_of_text_eq`: **types with one text are one type.**
-/

import SampleShapes.Proofs.Key.Grammar
import SampleShapes.Proofs.Resolution.Flatness

namespace SampleShapes.TypeRef

variable {type other element : TypeRef} {arms arms' : List TypeRef}

/-- Every type rests on its element or its arms. -/
theorem induct {motive : TypeRef → Prop} (primitive : ∀ kind, motive (primitive kind))
    (date : motive date) (named : ∀ name, motive (named name))
    (array : ∀ element, motive element → motive (array element))
    (union : ∀ arms, (∀ arm ∈ arms, motive arm) → motive (union arms)) (type : TypeRef) :
    motive type :=
  @TypeRef.rec motive (fun arms => ∀ arm ∈ arms, motive arm) primitive date named array union
    (fun _ member => absurd member List.not_mem_nil)
    (fun _ _ head tail => List.forall_mem_cons.mpr ⟨head, tail⟩) type

/-! ### Texts -/

/-- The words for types that need no declaration. -/
def builtIn : List String := ["string", "number", "boolean", "null", "any", "Date"]

/-- The type can be told from its text: a union has several arms and none of them is a union, and a
name is made of the characters of identifiers and no word for a built-in type. -/
structure Legible (type : TypeRef) : Prop where
  /-- A union has several arms. -/
  several : ∀ arms, type = union arms → 2 ≤ arms.length
  /-- None of them is a union. -/
  unnested : ∀ arms, type = union arms → ∀ arm ∈ arms, arm.isUnion = false
  /-- A name is made of the characters of identifiers. -/
  plain : ∀ name, type = named name → AllInIdentifier name.toList
  /-- It is no word for a built-in type. -/
  declared : ∀ name, type = named name → name ∉ builtIn

instance : DecidablePred Legible
  | primitive _ => isTrue ⟨nofun, nofun, nofun, nofun⟩
  | date => isTrue ⟨nofun, nofun, nofun, nofun⟩
  | named name =>
    decidable_of_iff (AllInIdentifier name.toList ∧ name ∉ builtIn)
      ⟨fun ⟨plain, declared⟩ =>
          ⟨nofun, nofun, fun _ same => by cases same; exact plain,
            fun _ same => by cases same; exact declared⟩,
        fun legible => ⟨legible.plain name rfl, legible.declared name rfl⟩⟩
  | array _ => isTrue ⟨nofun, nofun, nofun, nofun⟩
  | union arms =>
    decidable_of_iff (2 ≤ arms.length ∧ ∀ arm ∈ arms, arm.isUnion = false)
      ⟨fun ⟨several, unnested⟩ =>
          ⟨fun _ same => by cases same; exact several,
            fun _ same => by cases same; exact unnested, nofun, nofun⟩,
        fun legible => ⟨legible.several arms rfl, legible.unnested arms rfl⟩⟩

/-- The word that a type is written as, if it is written as one. -/
def word? : TypeRef → Option String
  | primitive kind => some kind.keyword
  | date => some "Date"
  | named name => some name
  | array _ => none
  | union _ => none

/-- What is no union is written as a word, or is an array. -/
theorem solid_cases (solid : type.isUnion = false) :
    (∃ word, type.word? = some word) ∨ ∃ element, type = array element := by
  cases type with
  | primitive kind => exact .inl ⟨_, rfl⟩
  | date => exact .inl ⟨_, rfl⟩
  | named name => exact .inl ⟨_, rfl⟩
  | array element => exact .inr ⟨element, rfl⟩
  | union arms => cases solid

theorem text_of_word? {word : String} (written : type.word? = some word) : type.text = word := by
  cases type with
  | primitive kind => exact Option.some.inj written
  | date => exact Option.some.inj written
  | named name => exact Option.some.inj written
  | array element => cases written
  | union arms => cases written

/-- An array ends in brackets, and a union under it stands in parentheses. -/
theorem toList_text_array (element : TypeRef) :
    (array element).text.toList =
      (if element.isUnion then ['('] ++ element.text.toList ++ [')'] else element.text.toList) ++
        ['[', ']'] := by
  rw [text]
  split
  · simp
  · simp

/-- Arms with a bar behind each. -/
def heads (arms : List TypeRef) : List Char :=
  arms.flatMap fun arm => arm.text.toList ++ [' ', '|', ' ']

theorem heads_concat (arms : List TypeRef) (arm : TypeRef) :
    heads (arms ++ [arm]) = heads arms ++ arm.text.toList ++ [' ', '|', ' '] := by
  simp [heads]

/-- **A union lacks the last bar.** -/
theorem heads_eq (some : arms ≠ []) :
    heads arms = (union arms).text.toList ++ [' ', '|', ' '] := by
  rw [text]
  induction arms with
  | nil => exact absurd rfl some
  | cons arm rest step =>
    cases rest with
    | nil => simp [heads, armTexts]
    | cons next rest =>
      have later := step (List.cons_ne_nil next rest)
      simp only [armTexts, String.intercalate_cons_cons, String.toList_append] at later ⊢
      rw [heads, List.flatMap_cons, ← heads, later]
      simp

/-! ### Words -/

theorem plain_of_word? {word : String} (written : type.word? = some word)
    (legible : type.Legible) : AllInIdentifier word.toList := by
  cases type with
  | primitive kind =>
    obtain rfl := Option.some.inj written
    cases kind <;> decide
  | date =>
    obtain rfl := Option.some.inj written
    decide
  | named name =>
    obtain rfl := Option.some.inj written
    exact legible.plain _ rfl
  | array element => cases written
  | union arms => cases written

/-- The type that a word stands for. -/
def ofWord (word : String) : TypeRef :=
  match word with
  | "string" => primitive .string
  | "number" => primitive .number
  | "boolean" => primitive .boolean
  | "null" => null
  | "any" => any
  | "Date" => date
  | name => named name

/-- **A word is one type.** -/
theorem eq_ofWord {word : String} (written : type.word? = some word) (legible : type.Legible) :
    type = ofWord word := by
  cases type with
  | primitive kind =>
    obtain rfl := Option.some.inj written
    cases kind <;> rfl
  | date =>
    obtain rfl := Option.some.inj written
    rfl
  | named name =>
    obtain rfl := Option.some.inj written
    have declared := legible.declared name rfl
    unfold ofWord
    split
    all_goals first
      | rfl
      | exact absurd (by decide) declared
  | array element => cases written
  | union arms => cases written

/-! ### Beginnings -/

/-- The type may start behind these characters: they end in an opening parenthesis or, if it is no
union, in a space. -/
def Starts (type : TypeRef) (before : List Char) : Prop :=
  ∀ c ∈ before.getLast?, c = '(' ∨ type.isUnion = false ∧ c = ' '

theorem starts_nil (type : TypeRef) : type.Starts [] := nofun

theorem starts_parenthesis (type : TypeRef) (before : List Char) :
    type.Starts (before ++ ['(']) := by
  intro c last
  simp at last
  exact .inl last.symm

/-- A type that is no union may start behind the heads of one. -/
theorem starts_heads {before : List Char} (starts : (union arms).Starts before)
    (solid : type.isUnion = false) : type.Starts (before ++ heads arms) := by
  rcases List.eq_nil_or_concat' arms with rfl | ⟨init, last, rfl⟩
  · intro c last
    rw [heads, List.flatMap_nil, List.append_nil] at last
    exact .inl ((starts c last).resolve_right fun space => by cases space.1)
  · intro c last
    rw [heads_concat] at last
    simp at last
    exact .inr ⟨solid, last.symm⟩

/-- What a type may start behind ends an identifier that is read from its end. -/
theorem endsIdentifier_of_starts {before : List Char} (starts : type.Starts before) :
    EndsIdentifier before.reverse := by
  intro c last
  rw [List.head?_reverse] at last
  rcases starts c last with rfl | ⟨_, rfl⟩
  · decide
  · decide

/-! ### Reading from the end -/

/-- Words are told apart from what stands before them. -/
theorem words_told {before before' word word' : List Char} (starts : type.Starts before)
    (starts' : other.Starts before') (plain : AllInIdentifier word)
    (plain' : AllInIdentifier word') (same : before ++ word = before' ++ word') :
    word = word' ∧ before = before' := by
  have backwards : word.reverse ++ before.reverse = word'.reverse ++ before'.reverse := by
    rw [← List.reverse_append, ← List.reverse_append, same]
  obtain ⟨words, befores⟩ := AllInIdentifier.told
    (fun c member => plain c (List.mem_reverse.mp member))
    (fun c member => plain' c (List.mem_reverse.mp member))
    (endsIdentifier_of_starts starts) (endsIdentifier_of_starts starts') backwards
  exact ⟨List.reverse_injective words, List.reverse_injective befores⟩

/-- A word does not end in a bracket or a parenthesis, not even one without characters. -/
theorem word_ends {before word : List Char} (starts : type.Starts before)
    (plain : AllInIdentifier word) : ∀ c ∈ (before ++ word).getLast?, c ≠ ']' ∧ c ≠ ')' := by
  rcases List.eq_nil_or_concat' word with rfl | ⟨init, last, rfl⟩
  · intro c ends
    rw [List.append_nil] at ends
    rcases starts c ends with rfl | ⟨_, rfl⟩ <;> decide
  · intro c ends
    have inside := plain last (by simp)
    simp at ends
    subst ends
    constructor
    · rintro rfl
      exact absurd inside (by decide)
    · rintro rfl
      exact absurd inside (by decide)

/-- The type is told by its text, and so is what stands before it. -/
def Told (type : TypeRef) : Prop :=
  ∀ other before before', other.isUnion = type.isUnion → other.Everywhere Legible →
    type.Starts before → other.Starts before' →
      before ++ type.text.toList = before' ++ other.text.toList → type = other ∧ before = before'

/-- **A word is told.** -/
theorem told_of_word? {word : String} (written : type.word? = some word)
    (solid : type.isUnion = false) (legible : type.Legible) : type.Told := by
  intro other before before' kind legible' starts starts' same
  rw [text_of_word? written] at same
  have plain := plain_of_word? written legible
  rcases solid_cases (kind.trans solid) with ⟨word', written'⟩ | ⟨element, rfl⟩
  · rw [text_of_word? written'] at same
    obtain ⟨words, befores⟩ :=
      words_told starts starts' plain (plain_of_word? written' legible'.here) same
    obtain rfl := String.toList_inj.mp words
    exact ⟨(eq_ofWord written legible).trans (eq_ofWord written' legible'.here).symm, befores⟩
  · refine absurd rfl (word_ends starts plain ']' ?_).1
    rw [same, toList_text_array]
    simp

/-- **What is no union does not end in a parenthesis.** -/
theorem ne_parenthesis {before : List Char} (solid : type.isUnion = false)
    (legible : type.Legible) (starts : type.Starts before) :
    (before ++ type.text.toList).getLast? ≠ some ')' := by
  intro last
  rcases solid_cases solid with ⟨word, written⟩ | ⟨element, rfl⟩
  · rw [text_of_word? written] at last
    exact (word_ends starts (plain_of_word? written legible) ')' last).2 rfl
  · rw [toList_text_array] at last
    simp at last

/-- **An array is told if its element is.** -/
theorem told_array (legible : element.Everywhere Legible) (told : element.Told) :
    (array element).Told := by
  intro other before before' kind legible' starts starts' same
  rcases solid_cases kind with ⟨word, written⟩ | ⟨element', rfl⟩
  · refine absurd rfl (word_ends starts' (plain_of_word? written legible'.here) ']' ?_).1
    rw [← text_of_word? written, ← same, toList_text_array]
    simp
  · rw [toList_text_array, toList_text_array, ← List.append_assoc, ← List.append_assoc] at same
    have same := List.append_cancel_right same
    have legible' := (everywhere_array.mp legible').2
    -- Where one element stands in parentheses, so does the other.
    cases kind : element.isUnion <;> cases kind' : element'.isUnion
    · rw [kind, kind'] at same
      obtain ⟨rfl, befores⟩ := told element' before before' (kind'.trans kind.symm) legible'
        (fun c last => (starts c last).imp_right fun space => ⟨kind, space.2⟩)
        (fun c last => (starts' c last).imp_right fun space => ⟨kind', space.2⟩) same
      exact ⟨rfl, befores⟩
    · rw [kind, kind'] at same
      refine absurd ?_ (ne_parenthesis kind legible.here
        fun c last => (starts c last).imp_right fun space => ⟨kind, space.2⟩)
      have same : before ++ element.text.toList =
          before' ++ (['('] ++ element'.text.toList ++ [')']) := same
      rw [same, ← List.append_assoc, List.getLast?_concat]
    · rw [kind, kind'] at same
      refine absurd ?_ (ne_parenthesis kind' legible'.here
        fun c last => (starts' c last).imp_right fun space => ⟨kind', space.2⟩)
      have same : before ++ (['('] ++ element.text.toList ++ [')']) =
          before' ++ element'.text.toList := same
      rw [← same, ← List.append_assoc, List.getLast?_concat]
    · rw [kind, kind'] at same
      have same : before ++ (['('] ++ element.text.toList ++ [')']) =
          before' ++ (['('] ++ element'.text.toList ++ [')']) := same
      simp only [← List.append_assoc] at same
      have inside := List.append_cancel_right same
      obtain ⟨rfl, befores⟩ := told element' _ _ (kind'.trans kind.symm) legible'
        (starts_parenthesis element before) (starts_parenthesis element' before') inside
      exact ⟨rfl, List.append_cancel_right befores⟩

/-- **Arms are told one after the other,** from the last one. -/
theorem heads_told {before before' : List Char} (solid : ∀ arm ∈ arms, arm.isUnion = false)
    (solid' : ∀ arm ∈ arms', arm.isUnion = false) (told : ∀ arm ∈ arms, arm.Told)
    (legible' : ∀ arm ∈ arms', arm.Everywhere Legible) (starts : (union arms).Starts before)
    (starts' : (union arms').Starts before')
    (same : before ++ heads arms = before' ++ heads arms') : arms = arms' ∧ before = before' := by
  -- A bar never stands where a union may start.
  have ends : ∀ {before : List Char} {init : List TypeRef} {last : TypeRef},
      ¬ (union arms).Starts (before ++ heads (init ++ [last])) := by
    intro before init last starts
    rw [heads_concat] at starts
    rcases starts ' ' (by simp) with space | ⟨union, _⟩
    · exact absurd space (by decide)
    · cases union
  induction arms using List.reverseRecOn generalizing arms' with
  | nil =>
    rcases List.eq_nil_or_concat' arms' with rfl | ⟨init', last', rfl⟩
    · simpa [heads] using same
    · have same : before ++ [] = _ := same
      rw [List.append_nil] at same
      rw [same] at starts
      exact absurd starts ends
  | append_singleton init last step =>
    rcases List.eq_nil_or_concat' arms' with rfl | ⟨init', last', rfl⟩
    · have same : _ = before' ++ [] := same
      rw [List.append_nil] at same
      rw [← same] at starts'
      exact absurd starts' ends
    · rw [List.forall_mem_append] at solid solid' told legible'
      have here := solid.2 last List.mem_cons_self
      have here' := solid'.2 last' List.mem_cons_self
      rw [heads_concat, heads_concat] at same
      simp only [← List.append_assoc] at same
      have same := List.append_cancel_right same
      -- Where one union may start, so may any other.
      have starts : (union init).Starts before := starts
      have starts' : (union init').Starts before' := starts'
      obtain ⟨rfl, befores⟩ := told.2 last List.mem_cons_self last' _ _ (here'.trans here.symm)
        (legible'.2 last' List.mem_cons_self) (starts_heads starts here)
        (starts_heads starts' here') same
      obtain ⟨rfl, outer⟩ :=
        step solid.1 solid'.1 told.1 legible'.1 starts starts' befores ends
      exact ⟨rfl, outer⟩

theorem Legible.ne_nil (legible : (union arms).Legible) : arms ≠ [] := by
  rintro rfl
  exact absurd (legible.several [] rfl) (by decide)

/-- **A union is told if its arms are.** -/
theorem told_union (legible : (union arms).Everywhere Legible) (told : ∀ arm ∈ arms, arm.Told) :
    (union arms).Told := by
  intro other before before' kind legible' starts starts' same
  obtain ⟨arms', rfl⟩ : ∃ arms', other = union arms' := by
    cases other with
    | union arms' => exact ⟨arms', rfl⟩
    | _ => cases kind
  have heads : before ++ heads arms = before' ++ heads arms' := by
    rw [heads_eq legible.here.ne_nil, heads_eq legible'.here.ne_nil, ← List.append_assoc, same,
      List.append_assoc]
  obtain ⟨rfl, befores⟩ := heads_told (legible.here.unnested arms rfl)
    (legible'.here.unnested arms' rfl) told (everywhere_union.mp legible').2 starts starts' heads
  exact ⟨rfl, befores⟩

/-- **A type is told by its text, and so is what stands before it.** -/
theorem told (type : TypeRef) (legible : type.Everywhere Legible) : type.Told := by
  induction type using induct with
  | primitive kind => exact told_of_word? rfl rfl legible.here
  | date => exact told_of_word? rfl rfl legible.here
  | named name => exact told_of_word? rfl rfl legible.here
  | array element step =>
    have inside := (everywhere_array.mp legible).2
    exact told_array inside (step inside)
  | union arms step =>
    have inside := (everywhere_union.mp legible).2
    exact told_union legible fun arm member => step arm member (inside arm member)

/-- **A union is not written as what is none.** -/
theorem text_ne_of_isUnion (legible : type.Everywhere Legible)
    (legible' : other.Everywhere Legible) (kind : type.isUnion = true)
    (solid : other.isUnion = false) : type.text ≠ other.text := by
  intro same
  obtain ⟨arms, rfl⟩ : ∃ arms, type = union arms := by
    cases type with
    | union arms => exact ⟨arms, rfl⟩
    | _ => cases kind
  obtain ⟨init, last, rfl⟩ := (List.eq_nil_or_concat' arms).resolve_left legible.here.ne_nil
  have here := legible.here.unnested _ rfl last (by simp)
  have written := heads_eq (List.append_ne_nil_of_right_ne_nil init (List.cons_ne_nil last []))
  rw [heads_concat, same] at written
  have first := told last ((everywhere_union.mp legible).2 last (by simp)) other (heads init) []
    (solid.trans here.symm) legible' (starts_heads (starts_nil (union init)) here)
    (starts_nil other) (List.append_cancel_right written)
  -- The last of several arms is not the first.
  rcases List.eq_nil_or_concat' init with rfl | ⟨init, arm, rfl⟩
  · exact absurd (legible.here.several _ rfl) (by simp)
  · have none := first.2
    rw [heads_concat] at none
    simp at none

/-- **Types with one text are one type.** -/
theorem eq_of_text_eq (legible : type.Everywhere Legible) (legible' : other.Everywhere Legible)
    (same : type.text = other.text) : type = other := by
  cases kind : type.isUnion <;> cases kind' : other.isUnion
  · exact (told type legible other [] [] (kind'.trans kind.symm) legible' (starts_nil type)
      (starts_nil other) (by rw [same])).1
  · exact absurd same.symm (text_ne_of_isUnion legible' legible kind' kind)
  · exact absurd same (text_ne_of_isUnion legible legible' kind kind')
  · exact (told type legible other [] [] (kind'.trans kind.symm) legible' (starts_nil type)
      (starts_nil other) (by rw [same])).1

/-- **A type with its null taken out** is told like any other. -/
theorem eq_of_text_eq_of_nullable :
    let nullable := union [null, primitive .string, array (union [named "Cat", date])]
    let rest := union [primitive .string, array (union [named "Cat", date])]
    nullable.collapseNull.1.Everywhere Legible ∧ rest.Everywhere Legible ∧
      nullable.collapseNull.1.text = rest.text ∧ nullable.collapseNull.1 = rest := by
  have legible : ∀ part ∈ (union [null, primitive .string,
      array (union [named "Cat", date])]).collapseNull.1.parts, part.Legible := by decide
  have legible' : ∀ part ∈ (union [primitive .string,
      array (union [named "Cat", date])]).parts, part.Legible := by decide
  have same : (union [null, primitive .string,
      array (union [named "Cat", date])]).collapseNull.1.text = "string | (Cat | Date)[]" := by
    decide
  exact ⟨legible, legible', same, eq_of_text_eq legible legible' same⟩

end SampleShapes.TypeRef
