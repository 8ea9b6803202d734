/-
**Property names by their text.**

A key that is no identifier stands in single quotes, with a backslash before each quote and each
backslash. Reading up to the quote that no backslash stands before gives the key back, whatever
characters it is made of, and nothing of what stands behind it is taken along. Line ends are not
escaped, so a key with one is written over several lines, and so is its field.

* `PropertyName.literal?_append`: **reading a literal undoes writing it;**
* `PropertyName.Denotes.unique`: a property name denotes one name;
* `PropertyName.told`: a name is told by its text, and so is what stands behind it;
* `DeclaredField.told`: **a field is told by its line;**
* `DeclaredField.render_exact`: **each property name denotes its name,** and stands on one line
  where the name does;
* `Resolution.oneLine_field_iff`: **what is declared is one line for each field,** but for keys with
  line ends.
-/

import SampleShapes.Proofs.Resolution.Names
import SampleShapes.Rendering

namespace SampleShapes

/-- No line ends in the text. -/
def OneLine (text : String) : Prop :=
  ∀ c ∈ text.toList, c ≠ '\n' ∧ c ≠ '\r'

instance (text : String) : Decidable (OneLine text) :=
  List.decidableBAll (fun c => c ≠ '\n' ∧ c ≠ '\r') text.toList

theorem oneLine_append {first second : String} :
    OneLine (first ++ second) ↔ OneLine first ∧ OneLine second := by
  simp only [OneLine, String.toList_append, List.forall_mem_append]

namespace PropertyName

variable {name other text : String} {chars rest : List Char}

/-! ### Literals -/

/-- Read up to the quote that ends a literal: what the literal says, and what stands behind it. A
backslash stands before a quote or a backslash, and gives it. -/
def literal? : List Char → Option (List Char × List Char)
  | [] => none
  | '\'' :: rest => some ([], rest)
  | '\\' :: '\'' :: rest => (literal? rest).map (Prod.map ('\'' :: ·) id)
  | '\\' :: '\\' :: rest => (literal? rest).map (Prod.map ('\\' :: ·) id)
  | '\\' :: _ => none
  | c :: rest => (literal? rest).map (Prod.map (c :: ·) id)

/-- What is written for a character is read as that character. -/
theorem literal?_escape (c : Char) (rest : List Char) :
    literal? (escape c ++ rest) = (literal? rest).map (Prod.map (c :: ·) id) := by
  unfold escape
  split
  · next backslash =>
    subst backslash
    rfl
  · next plain =>
    split
    · next quote =>
      subst quote
      rfl
    · simp [literal?, plain]

/-- **Reading a literal undoes writing it,** and leaves what stands behind it. -/
theorem literal?_append (chars rest : List Char) :
    literal? (chars.flatMap escape ++ '\'' :: rest) = some (chars, rest) := by
  induction chars with
  | nil => rfl
  | cons c chars step =>
    rw [List.flatMap_cons, List.append_assoc, literal?_escape, step]
    rfl

/-- **Between quotes stands what the name is made of,** and backslashes and quotes. -/
theorem forall_mem_escape {good : Char → Prop} (backslash : good '\\') (quote : good '\'') :
    (∀ c ∈ chars.flatMap escape, good c) ↔ ∀ c ∈ chars, good c := by
  have one : ∀ c, (∀ d ∈ escape c, good d) ↔ good c := by
    intro c
    unfold escape
    split
    · next same => simp [same, backslash]
    · split
      · next same => simp [same, backslash, quote]
      · simp
  constructor
  · intro all c member
    exact (one c).mp fun d inside => all d (List.mem_flatMap.mpr ⟨c, member, inside⟩)
  · intro all d inside
    obtain ⟨c, member, inside⟩ := List.mem_flatMap.mp inside
    exact (one c).mpr (all c member) d inside

/-! ### Property names -/

/-- The text is a property name for this name: the name itself, if it is an identifier, or a
literal that says it. -/
inductive Denotes : (text name : String) → Prop
  /-- An identifier stands for itself. -/
  | bare {name : String} : IsIdentifier name.toList → Denotes name name
  /-- A literal stands for what it says, up to the quote that ends it and the text. -/
  | quoted {text name : String} {inside : List Char} :
      text.toList = '\'' :: inside → literal? inside = some (name.toList, []) → Denotes text name

theorem isIdentifier_of_isBare (bare : isBare name = true) : IsIdentifier name.toList := by
  unfold isBare at bare
  split at bare
  · cases bare
  · next c rest written =>
    rw [Bool.and_eq_true_iff] at bare
    have target : Key.isTarget (c :: rest) = true := by
      rw [Key.isTarget, Bool.and_eq_true_iff]
      refine ⟨?_, List.all_eq_true.mpr fun d member => ?_⟩
      · rw [Key.startsTarget, bare.1, Bool.true_or]
      · have inside := List.all_eq_true.mp bare.2 d member
        rw [Key.inTarget, inside, Bool.true_or]
    exact written ▸ Key.isTarget_iff.mp target

/-- An identifier does not start with a quote. -/
theorem ne_quote_of_isIdentifier (identifier : IsIdentifier chars) (rest : List Char) :
    chars ≠ '\'' :: rest := by
  rintro rfl
  exact absurd (identifier.all '\'' List.mem_cons_self) (by decide)

/-- **A property name denotes one name.** -/
theorem Denotes.unique (denotes : Denotes text name) (denotes' : Denotes text other) :
    name = other := by
  cases denotes with
  | bare identifier =>
    cases denotes' with
    | bare _ => rfl
    | quoted written _ => exact absurd written (ne_quote_of_isIdentifier identifier _)
  | quoted written read =>
    cases denotes' with
    | bare identifier => exact absurd written (ne_quote_of_isIdentifier identifier _)
    | quoted written' read' =>
      obtain rfl := (List.cons.inj (written.symm.trans written')).2
      exact String.toList_inj.mp (Prod.mk.inj (Option.some.inj (read.symm.trans read'))).1

/-! ### Writing -/

/-- A name is written as an identifier, or as a literal. -/
theorem render_cases (name : String) :
    (IsIdentifier name.toList ∧ render name = name) ∨
      (render name).toList = '\'' :: (name.toList.flatMap escape ++ ['\'']) := by
  unfold render
  split
  · next bare => exact .inl ⟨isIdentifier_of_isBare bare, rfl⟩
  · exact .inr String.toList_ofList

/-- **A name is written as a property name that denotes it.** -/
theorem denotes_render (name : String) : Denotes (render name) name := by
  rcases render_cases name with ⟨identifier, bare⟩ | quoted
  · rw [bare]
    exact .bare identifier
  · exact .quoted quoted (literal?_append name.toList [])

/-- **It stands on one line exactly if the name does.** -/
theorem oneLine_render : OneLine (render name) ↔ OneLine name := by
  rcases render_cases name with ⟨_, bare⟩ | quoted
  · rw [bare]
  · unfold OneLine
    rw [quoted, List.forall_mem_cons, List.forall_mem_append,
      forall_mem_escape (by decide) (by decide)]
    simp

/-- **Different names are written differently.** -/
theorem render_injective : Function.Injective render := by
  intro name other same
  exact (denotes_render name).unique (same ▸ denotes_render other)

/-- No identifier goes on as a literal does. -/
theorem append_ne_quote {chars' : List Char} (identifier : IsIdentifier chars) :
    chars ++ rest ≠ '\'' :: chars' := by
  obtain ⟨c, more, rfl⟩ := List.exists_cons_of_ne_nil identifier.ne_nil
  intro same
  obtain rfl := (List.cons.inj same).1
  exact absurd rfl (ne_quote_of_isIdentifier identifier more)

/-- **A name is told by its text, and so is what stands behind it.** -/
theorem told {rest' : List Char} (ends : EndsIdentifier rest) (ends' : EndsIdentifier rest')
    (same : (render name).toList ++ rest = (render other).toList ++ rest') :
    name = other ∧ rest = rest' := by
  rcases render_cases name with ⟨identifier, bare⟩ | quoted <;>
    rcases render_cases other with ⟨identifier', bare'⟩ | quoted'
  · rw [bare, bare'] at same
    obtain ⟨names, rests⟩ := identifier.all.told identifier'.all ends ends' same
    exact ⟨String.toList_inj.mp names, rests⟩
  · rw [bare, quoted'] at same
    exact absurd same (append_ne_quote identifier)
  · rw [bare', quoted] at same
    exact absurd same.symm (append_ne_quote identifier')
  · rw [quoted, quoted'] at same
    simp only [List.cons_append, List.append_assoc] at same
    have read := congrArg literal? (List.cons.inj same).2
    rw [literal?_append, literal?_append] at read
    obtain ⟨names, rests⟩ := Prod.mk.inj (Option.some.inj read)
    exact ⟨String.toList_inj.mp names, rests⟩

end PropertyName

namespace DeclaredField

/-- What stands behind the key of a field on its line. -/
def tail (field : DeclaredField) : String :=
  (if field.optional then "?" else "") ++ (": " ++ (field.type.text ++ ";"))

/-- The line of a field. -/
def line (field : DeclaredField) : String :=
  "  " ++ (PropertyName.render field.key ++ field.tail)

theorem render_eq (field : DeclaredField) : field.render = field.line ++ "\n" := by
  simp [render, line, tail, String.append_assoc]

/-- **The line of a field is one line** exactly if its key and the text of its type are. -/
theorem oneLine_line_iff (field : DeclaredField) :
    OneLine field.line ↔ OneLine field.key ∧ OneLine field.type.text := by
  have mark : OneLine (if field.optional then "?" else "") := by
    cases field.optional <;> decide
  have indent : OneLine "  " := by decide
  have colon : OneLine ": " := by decide
  have stop : OneLine ";" := by decide
  simp only [line, tail, oneLine_append, PropertyName.oneLine_render, indent, mark, colon, stop,
    true_and, and_true]

theorem ends_tail (field : DeclaredField) : EndsIdentifier field.tail.toList := by
  intro c first
  cases optional : field.optional
  · simp [tail, optional] at first
    subst first
    decide
  · simp [tail, optional] at first
    subst first
    decide

/-- **A field is told by its line:** its key, whether it is optional, and the text of its type. -/
theorem told {field other : DeclaredField} (same : field.render = other.render) :
    field.key = other.key ∧ field.optional = other.optional ∧
      field.type.text = other.type.text := by
  rw [render_eq, render_eq, String.append_left_inj, line, line, String.append_right_inj,
    ← String.toList_inj, String.toList_append, String.toList_append] at same
  obtain ⟨keys, tails⟩ := PropertyName.told (ends_tail field) (ends_tail other) same
  refine ⟨keys, ?_⟩
  -- What is optional goes on with a question mark, and anything else with a colon.
  rw [String.toList_inj, tail, tail] at tails
  cases optional : field.optional <;> cases optional' : other.optional
  · rw [optional, optional', String.append_right_inj, String.append_right_inj,
      String.append_left_inj] at tails
    exact ⟨rfl, tails⟩
  · rw [optional, optional', ← String.toList_inj] at tails
    simp at tails
  · rw [optional, optional', ← String.toList_inj] at tails
    simp at tails
  · rw [optional, optional', String.append_right_inj, String.append_right_inj,
      String.append_left_inj] at tails
    exact ⟨rfl, tails⟩

/-- **A property name is exact:** it denotes its name and no other, and each field under it is a
line, but for the line ends of the name and of the type. -/
theorem render_exact (name : String) :
    PropertyName.Denotes (PropertyName.render name) name ∧
      (OneLine (PropertyName.render name) ↔ OneLine name) ∧
      (∀ other, PropertyName.render other = PropertyName.render name → other = name) ∧
      ∀ field : DeclaredField, field.key = name → field.render = field.line ++ "\n" ∧
        (OneLine field.line ↔ OneLine name ∧ OneLine field.type.text) := by
  refine ⟨PropertyName.denotes_render name, PropertyName.oneLine_render,
    fun other same => PropertyName.render_injective same, ?_⟩
  rintro field rfl
  exact ⟨field.render_eq, field.oneLine_line_iff⟩

end DeclaredField

/-! ### What breaks a line -/

/-- Characters of identifiers and characters beyond ASCII end no line. -/
theorem oneLine_of_plain {text : String}
    (plain : ∀ c ∈ text.toList, InIdentifier c ∨ 128 ≤ c.toNat) : OneLine text := by
  intro c member
  constructor
  · rintro rfl
    exact absurd (plain _ member) (by decide)
  · rintro rfl
    exact absurd (plain _ member) (by decide)

theorem oneLine_typeName (word : String) : OneLine (Word.typeName word) :=
  oneLine_of_plain fun _ member => (Word.mem_typeName member).imp_right And.left

/-- **No name that a key makes is broken.** -/
theorem Json.makes_oneLine (sample : Json) : sample.Makes OneLine where
  target raw _ target names := by
    rcases Key.target_cases names with identifier | ⟨base, _, rfl⟩
    · exact oneLine_of_plain fun c member => .inl (identifier.all c member)
    · exact oneLine_typeName _
  name _ _ := oneLine_typeName _
  element _ _ := oneLine_typeName _

theorem oneLine_numbered (name : String) (number : Nat) (oneLine : OneLine name) :
    OneLine (name ++ toString number) :=
  oneLine_append.mpr ⟨oneLine, oneLine_of_plain fun _ member =>
    .inl (.inr (.inr (.inl (Naming.mem_toString member))))⟩

/-- **A type is written on one line** if the names in it are. -/
theorem TypeRef.oneLine_text (type : TypeRef) (names : ∀ name ∈ type.references, OneLine name) :
    OneLine type.text := by
  induction type using TypeRef.induct with
  | primitive kind => cases kind <;> decide
  | date => decide
  | named name => exact names name (List.mem_singleton_self name)
  | array element step =>
    have inside := step names
    rw [text]
    split
    · exact oneLine_append.mpr ⟨oneLine_append.mpr ⟨by decide, inside⟩, by decide⟩
    · exact oneLine_append.mpr ⟨inside, by decide⟩
  | union arms step =>
    cases arms with
    | nil => decide
    | cons first rest =>
      intro c member
      have among : c ∈ heads (first :: rest) := by
        rw [heads_eq (List.cons_ne_nil first rest)]
        exact List.mem_append_left _ member
      obtain ⟨arm, listed, inside⟩ := List.mem_flatMap.mp among
      rcases List.mem_append.mp inside with inside | bar
      · exact step arm listed
          (fun name under => names name (mem_armReferences_iff.mpr ⟨arm, listed, under⟩)) c inside
      · have apart : ∀ d ∈ [' ', '|', ' '], d ≠ '\n' ∧ d ≠ '\r' := by simp
        exact apart c bar

namespace Resolution

variable {options : Options} {sample : Json} {resolution : Resolution} {declaration : Declaration}
  {field : DeclaredField}

/-- **What is declared is written one field a line, but for keys with line ends,** if the name of
the root is one line. -/
theorem oneLine_field_iff (declared : SampleShapes.declarations options sample = .ok resolution)
    (root : OneLine options.rootName) (member : declaration ∈ resolution.declarations)
    (inside : field ∈ declaration.fields) : OneLine field.line ↔ OneLine field.key := by
  have names := (forall_names declared root sample.makes_oneLine oneLine_numbered member).2
  rw [field.oneLine_line_iff, and_iff_left (field.type.oneLine_text (names field inside))]

/-- A line end in a key is written as it is, so that the property name takes two lines. -/
theorem exists_line_broken :
    ∃ resolution, SampleShapes.declarations {} (.object [("a\nb", .null)]) = .ok resolution ∧
      ∃ declaration ∈ resolution.declarations, ∃ field ∈ declaration.fields,
        ¬ OneLine (PropertyName.render field.key) ∧ ¬ OneLine field.line := by
  have declared : SampleShapes.declarations {} (.object [("a\nb", .null)]) = .ok
      { declarations := [⟨"RootObject", [⟨"a\nb", .any, true, .plain⟩]⟩]
        parents := ∅
        warnings := [] } := by
    decide +kernel
  exact ⟨_, declared, _, .head _, _, .head _, by decide, by decide⟩

end Resolution

end SampleShapes
