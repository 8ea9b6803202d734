/-
**What becomes of claims.**

A field may say that the declaration of its type extends its own. What is said is recorded, or it is
turned down with a warning because another declaration said so before; only a declaration that is
said to extend itself is passed over. What is recorded stays, unless the child is left out in the
end, and then the field is warned of that mentions it.

What a type names is looked for under arrays only. The alternatives of a union are not looked at,
and nothing is said here of a claim whose type is one.

* `TypeRef.exists_named`: a type that mentions a declaration and is no union names it;
* `Naming.references_ne_nil_of_subclass`: the type of a field that claims a child mentions one;
* `field_accounts`, `fields_account`, `declare_accounts`: **what is claimed is accounted for**;
* `Resolution.accounts_of_declarations`: **no claim is lost** unless it is for the claimant or a
  union;
* `Resolution.exists_claim_lost`: **and one for the claimant is.**
-/

import SampleShapes.Proofs.Resolution.Inheritance

namespace SampleShapes

/-! ### Types that claim -/

namespace TypeRef

variable {type : TypeRef}

/-- The type is a union, looked at through arrays. -/
def isMixed : TypeRef → Bool
  | array element => element.isMixed
  | union _ => true
  | _ => false

/-- A type that mentions a declaration and is no union names it. -/
theorem exists_named (mentions : type.references ≠ []) (notMixed : type.isMixed = false) :
    ∃ child, type.named? = some child := by
  fun_induction isMixed type with
  | case1 element step =>
    rw [references] at mentions
    exact step mentions notMixed
  | case2 => cases notMixed
  | case3 other notArray notUnion =>
    cases other with
    | named name => exact ⟨name, rfl⟩
    | primitive _ => exact absurd rfl mentions
    | date => exact absurd rfl mentions
    | array element => exact absurd rfl (notArray element)
    | union arms => exact absurd rfl (notUnion arms)

end TypeRef

/-- **The type of a field that claims a child mentions one:** it has structure, or it is bound. -/
theorem Naming.references_ne_nil_of_subclass {naming : Naming} {registry : Registry}
    {policy : ReferencePolicy} {raw : String} {field : Field} {found : FieldType}
    (typed : naming.fieldType registry policy raw field = .ok found)
    (claims : found.kind = .subclass) : found.type.references ≠ [] := by
  have bound : ∀ target, (registry.boundType field.shape target).references ≠ [] := by
    intro target
    unfold Registry.boundType
    split
    · exact List.cons_ne_nil _ _
    · split <;> exact List.cons_ne_nil _ _
  cases typedAs_of_fieldType typed with
  | plain noTarget =>
    -- A key that names no target has no mark.
    unfold Key.target? at noTarget
    cases mark : field.key.mark <;> rw [mark] at noTarget claims
    · cases claims
    · cases noTarget
    · cases noTarget
  | structured _ mentions => exact mentions
  | bound => exact bound _
  | kept => exact bound _
  | dropped => cases claims

/-! ### Findings -/

namespace Findings

/-- What is found stays. -/
structure Retains (before after : Findings) : Prop where
  /-- Warnings stay. -/
  warnings : ∀ warning ∈ before.warnings, warning ∈ after.warnings
  /-- Children keep their parents. -/
  parents : ∀ child parent, before.parents.get? child = some parent →
    after.parents.get? child = some parent

/-- What is claimed is recorded, or turned down with a warning, unless it is claimed of the parent
itself. -/
def Accounts (findings : Findings) (child parent : String) : Prop :=
  child = parent ∨ findings.parents.get? child = some parent ∨
    ∃ kept, .conflictingParent child parent kept ∈ findings.warnings

variable {before middle after : Findings} {child parent : String}

theorem Retains.refl (before : Findings) : Retains before before :=
  ⟨fun _ member => member, fun _ _ found => found⟩

theorem Retains.trans (first : Retains before middle) (second : Retains middle after) :
    Retains before after where
  warnings warning member := second.warnings warning (first.warnings warning member)
  parents child parent found := second.parents child parent (first.parents child parent found)

theorem Warns.retains (warns : Warns before after) : Retains before after :=
  ⟨warns.warnings, fun _ _ found => warns.parents_eq ▸ found⟩

/-- **What is accounted for stays so.** -/
theorem Accounts.retain (accounts : before.Accounts child parent)
    (retains : before.Retains after) : after.Accounts child parent :=
  accounts.imp_right <| Or.imp (retains.parents child parent)
    fun ⟨kept, warned⟩ => ⟨kept, retains.warnings _ warned⟩

theorem retains_addParent (before : Findings) (type : TypeRef) (parent : String) :
    Retains before (before.addParent type parent) := by
  unfold addParent
  split
  · exact .refl before
  · next child _ =>
    split
    · exact .refl before
    · split
      · next free =>
        refine ⟨fun _ member => member, fun other owner found => ?_⟩
        have apart : other ≠ child := by
          rintro rfl
          cases free.symm.trans found
        rw [Table.get?_put, if_neg apart]
        exact found
      · split
        · exact .refl before
        · exact (warns_warn before _).retains

/-- **A claim is accounted for once it is made.** -/
theorem accounts_addParent (before : Findings) {type : TypeRef} (named : type.named? = some child)
    (parent : String) : (before.addParent type parent).Accounts child parent := by
  unfold addParent
  rw [named]
  dsimp only
  split
  · next same => exact .inl same
  · refine .inr ?_
    split
    · refine .inl ?_
      rw [Table.get?_put, if_pos rfl]
    · next kept found =>
      split
      · next same =>
        rw [same] at found
        exact .inl found
      · exact .inr ⟨kept, List.mem_cons_self⟩

end Findings

/-! ### Fields and declarations -/

namespace Declaring

variable {setting : Declaring} {before after : Findings}

/-- **What a field claims is accounted for.** -/
theorem field_accounts {raw : String} {field : Field} {declared : DeclaredField}
    (resolved : setting.field before raw field = .ok (declared, after)) :
    before.Retains after ∧ (declared.kind = .subclass → ∀ child,
      declared.type.named? = some child → after.Accounts child setting.name) := by
  obtain ⟨warned, _, warns, rfl⟩ := field_cases resolved
  split
  · exact ⟨warns.retains.trans (Findings.retains_addParent _ _ _), fun _ child named =>
      Findings.accounts_addParent _ named _⟩
  · next other => exact ⟨warns.retains, fun claims => absurd claims other⟩

/-- **What fields claim is accounted for.** -/
theorem fields_account {entries : List (String × Field)} {declared : List DeclaredField}
    (resolved : setting.fields before entries = .ok (declared, after)) :
    before.Retains after ∧ ∀ child, (⟨setting.name, declared⟩ : Declaration).Claims child →
      after.Accounts child setting.name := by
  induction entries generalizing before declared with
  | nil =>
    obtain ⟨rfl, rfl⟩ := Prod.mk.inj (Except.ok.inj resolved)
    exact ⟨.refl _, fun _ ⟨_, member, _⟩ => absurd member List.not_mem_nil⟩
  | cons entry rest step =>
    obtain ⟨one, others, middle, rfl, first, second⟩ := fields_cons resolved
    obtain ⟨retains, accounts⟩ := field_accounts first
    obtain ⟨retainsLast, accountsLast⟩ := step second
    refine ⟨retains.trans retainsLast, ?_⟩
    rintro child ⟨claimant, member, kind, named⟩
    rcases List.mem_cons.mp member with rfl | later
    · exact (accounts kind child named).retain retainsLast
    · exact accountsLast child ⟨claimant, later, kind, named⟩

end Declaring

/-- **What declarations claim is accounted for.** -/
theorem Naming.declare_accounts {naming : Naming} {registry : Registry} {policy : ReferencePolicy}
    {entries : List (Nat × String)} {declarations : List Declaration} {before after : Findings}
    (declared : naming.declare registry policy before entries = .ok (declarations, after)) :
    before.Retains after ∧ ∀ declaration ∈ declarations, ∀ child, declaration.Claims child →
      after.Accounts child declaration.name := by
  induction entries generalizing before declarations with
  | nil =>
    obtain ⟨rfl, rfl⟩ := Prod.mk.inj (Except.ok.inj declared)
    exact ⟨.refl _, fun _ member => absurd member List.not_mem_nil⟩
  | cons entry rest step =>
    rcases declare_cons declared with
      ⟨fields, one, others, middle, _, rfl, first, second⟩ | ⟨_, declared⟩
    · obtain ⟨retains, accounts⟩ := Declaring.fields_account first
      obtain ⟨retainsLast, accountsLast⟩ := step second
      refine ⟨retains.trans retainsLast, List.forall_mem_cons.mpr ⟨?_, accountsLast⟩⟩
      exact fun child claims => (accounts child claims).retain retainsLast
    · exact step declared

/-! ### Resolutions -/

namespace Resolution

variable {resolution : Resolution} {options : Options} {sample : Json}

/-- The field's claim on `child` is recorded, or the declaration is warned that the child extends
another one or is not declared. -/
def Accounts (resolution : Resolution) (declaration : Declaration) (field : DeclaredField)
    (child : String) : Prop :=
  resolution.IsChild child declaration.name ∨
    (∃ kept, .conflictingParent child declaration.name kept ∈ resolution.warnings) ∨
    ∃ key, field.HasKey key ∧
      .unresolvedReference declaration.name key child ∈ resolution.warnings

/-- **No claim is lost** unless it is for the claimant itself or for a union. -/
theorem accounts_of_declarations
    (declared : SampleShapes.declarations options sample = .ok resolution)
    {declaration : Declaration} (member : declaration ∈ resolution.declarations)
    {field : DeclaredField} (inside : field ∈ declaration.fields) (claims : field.kind = .subclass)
    (notMixed : field.type.isMixed = false) :
    ∃ child, field.type.named? = some child ∧
      (child = declaration.name ∨ resolution.Accounts declaration field child) := by
  obtain ⟨graph, all, findings, _, run, made⟩ := exists_run declared
  obtain ⟨index, _, _, fields, _, each⟩ := made.exists_declaredAs member
  obtain ⟨entry, _, type, typed, declared_eq, _⟩ := Lists.exists_mem_of_forall₂_right each inside
  have mentions : field.type.references ≠ [] := by
    obtain ⟨name, mentioned⟩ := List.exists_mem_of_ne_nil _
      (Naming.references_ne_nil_of_subclass typed (by rw [declared_eq] at claims; exact claims))
    rw [declared_eq]
    exact List.ne_nil_of_mem (TypeRef.mem_references_collapseNull_iff.mpr mentioned)
  obtain ⟨child, named⟩ := TypeRef.exists_named mentions notMixed
  obtain ⟨among, live⟩ := made.mem_declarations_iff.mp member
  have kept : ∀ warning ∈ findings.warnings, warning ∈ resolution.warnings := by
    intro warning warned
    rw [made.resolution_eq]
    exact List.mem_reverse.mpr warned
  refine ⟨child, named, ?_⟩
  rcases (Naming.declare_accounts run).2 declaration among child ⟨field, inside, claims, named⟩ with
    same | recorded | ⟨other, warned⟩
  · exact .inl same
  · -- The child is left out in the end only if nothing declares it.
    refine .inr ?_
    rcases made.declares.live_or_warned_of_field among live inside
      (TypeRef.mem_references_of_named? named) with liveChild | ⟨_, key, hasKey, warned⟩
    · refine .inl ?_
      unfold IsChild
      rw [made.resolution_eq, Table.get?_filter, if_pos (decide_eq_true liveChild)]
      exact recorded
    · exact .inr (.inr ⟨key, hasKey, kept _ warned⟩)
  · exact .inr (.inr (.inl ⟨other, kept _ warned⟩))

/-- A second claim on one child, which is warned of. -/
theorem accounts_of_two_claims :
    ∃ resolution declaration field child,
      SampleShapes.declarations {} (.object [("+a[T]", .object [("x", .null)]),
        ("b", .object [("+c[T]", .object [("x", .null)])])]) = .ok resolution ∧
      declaration ∈ resolution.declarations ∧ field ∈ declaration.fields ∧
      field.kind = .subclass ∧ field.type.isMixed = false ∧
      ¬ resolution.IsChild "T" declaration.name ∧ field.type.named? = some child ∧
      (child = declaration.name ∨ resolution.Accounts declaration field child) := by
  have declared : SampleShapes.declarations {} (.object [("+a[T]", .object [("x", .null)]),
      ("b", .object [("+c[T]", .object [("x", .null)])])]) = .ok
        { declarations := [
            ⟨"RootObject", [⟨"a", .named "T", false, .subclass⟩,
              ⟨"b", .named "B", false, .plain⟩]⟩,
            ⟨"T", [⟨"x", .any, true, .plain⟩]⟩,
            ⟨"B", [⟨"c", .named "T", false, .subclass⟩]⟩]
          parents := .ofList [("T", "RootObject")]
          warnings := [.conflictingParent "T" "B" "RootObject"] } := by
    decide +kernel
  obtain ⟨child, named, accounts⟩ := accounts_of_declarations declared
    (List.mem_cons_of_mem _ (List.mem_cons_of_mem _ List.mem_cons_self)) List.mem_cons_self rfl rfl
  refine ⟨_, _, _, child, declared,
    List.mem_cons_of_mem _ (List.mem_cons_of_mem _ List.mem_cons_self), List.mem_cons_self, rfl,
    rfl, ?_, named, accounts⟩
  unfold IsChild
  decide

/-- **A claim for the claimant is lost:** a field says that `Node` extends itself, and nothing is
recorded or warned of. -/
theorem exists_claim_lost :
    ∃ resolution declaration field,
      SampleShapes.declarations {} (.object [("root[Node]", .object [("v", .number "1"),
        ("+child[Node]", .object [("v", .number "2")])])]) = .ok resolution ∧
      declaration ∈ resolution.declarations ∧ field ∈ declaration.fields ∧
      field.kind = .subclass ∧ field.type.named? = some declaration.name ∧
      ¬ ∃ child, field.type.named? = some child ∧ resolution.Accounts declaration field child := by
  have declared : SampleShapes.declarations {} (.object [("root[Node]",
      .object [("v", .number "1"), ("+child[Node]", .object [("v", .number "2")])])]) = .ok
        { declarations := [
            ⟨"RootObject", [⟨"root", .named "Node", false, .reference⟩]⟩,
            ⟨"Node", [⟨"v", .primitive .number, false, .plain⟩,
              ⟨"child", .named "Node", true, .subclass⟩]⟩]
          parents := ∅
          warnings := [] } := by
    decide +kernel
  refine ⟨_, _, _, declared, List.mem_cons_of_mem _ List.mem_cons_self,
    List.mem_cons_of_mem _ List.mem_cons_self, rfl, rfl, ?_⟩
  rintro ⟨child, _, recorded | ⟨_, warned⟩ | ⟨_, _, warned⟩⟩
  · cases recorded
  · cases warned
  · cases warned

end Resolution

end SampleShapes
