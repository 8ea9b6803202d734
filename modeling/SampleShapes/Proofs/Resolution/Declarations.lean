/-
**What resolving leads to.**

Every named object becomes a declaration of its name, and every field of it a field of the
declaration. A field keeps the type of its values, or is bound to the target that its key names;
what is found out on the way is only added to.

* `Naming.typedAs_of_fieldType`: the ways in which a field comes to its type;
* `Naming.fieldType_cases`: **a type is that of the target if the field is bound**;
* `field_cases`, `fields_cons`, `declare_cons`: what one step does, for every property of a run;
* `field_spec`, `fields_spec`: what a field is resolved to;
* `declare_spec`: **every named object is declared**;
* `ShapeGraph.resolve_eq_ok`: what is left of the declarations in the end.
-/

import SampleShapes.Proofs.Naming.Typing
import SampleShapes.Resolution

namespace SampleShapes

/-- Two steps succeed together if the first does, and then the second. -/
theorem exists_of_bind_eq_ok {α β : Type} {first : Except Failure α} {next : α → Except Failure β}
    {result : β} (done : first >>= next = .ok result) :
    ∃ middle, first = .ok middle ∧ next middle = .ok result := by
  cases first with
  | error failure => cases done
  | ok middle => exact ⟨middle, rfl, done⟩

/-! ### Types of fields -/

theorem Registry.mem_references_boundType {registry : Registry} {shape : ShapeId}
    {target name : String} (mentioned : name ∈ (registry.boundType shape target).references) :
    name = target := by
  unfold boundType at mentioned
  split at mentioned
  · exact List.mem_singleton.mp mentioned
  · split at mentioned
    · simpa [TypeRef.references, TypeRef.armReferences] using mentioned
    · exact List.mem_singleton.mp mentioned

namespace Naming

variable {naming : Naming} {registry : Registry} {policy : ReferencePolicy} {raw : String}
  {field : Field} {found : FieldType}

/-- A type that names no target is natural. -/
theorem fieldType_of_plain (plain : field.key.mark = .plain) :
    naming.fieldType registry policy raw field =
      .ok ⟨naming.typeOf registry field.shape, .plain, none⟩ := by
  unfold fieldType Key.target?
  rw [plain]
  rfl

/-- The field is bound to the declaration of its target, whose type takes the place of its own: its
value has no structure or no names, and the target is declared or kept in any case. -/
structure Binds (naming : Naming) (registry : Registry) (policy : ReferencePolicy) (field : Field)
    (target : String) : Prop where
  /-- The key names the target. -/
  named : field.key.target? = some target
  /-- The value has no structure, or its type names nothing. -/
  loose : registry.isPlaceholder field.shape ∨
    (naming.typeOf registry field.shape).references = []
  /-- The target is declared, or the policy keeps it. -/
  known : naming.isDeclared target ∨ policy = .keep

/-- How a field comes to its type. -/
inductive TypedAs (naming : Naming) (registry : Registry) (policy : ReferencePolicy)
    (field : Field) : FieldType → Prop
  /-- The key names no target. -/
  | plain (noTarget : field.key.target? = none) :
      TypedAs naming registry policy field
        ⟨naming.typeOf registry field.shape, field.key.mark.fieldKind, none⟩
  /-- The value has structure, so that the target only names what is inside of it. -/
  | structured (solid : registry.isPlaceholder field.shape = false)
      (mentions : (naming.typeOf registry field.shape).references ≠ []) :
      TypedAs naming registry policy field
        ⟨naming.typeOf registry field.shape, field.key.mark.fieldKind, none⟩
  /-- The target is declared. -/
  | bound {target : String} (binds : naming.Binds registry policy field target)
      (declared : naming.isDeclared target) :
      TypedAs naming registry policy field
        ⟨registry.boundType field.shape target, field.key.mark.fieldKind, none⟩
  /-- The target is not declared, and kept. -/
  | kept {target : String} (binds : naming.Binds registry policy field target)
      (keeps : policy = .keep) :
      TypedAs naming registry policy field
        ⟨registry.boundType field.shape target, field.key.mark.fieldKind, some target⟩
  /-- The target is not declared, and dropped together with the mark. -/
  | dropped {target : String} (named : field.key.target? = some target)
      (undeclared : ¬ naming.isDeclared target) (drops : policy = .drop) :
      TypedAs naming registry policy field
        ⟨naming.typeOf registry field.shape, .plain, some target⟩

/-- **Every field comes to its type in one of these ways.** -/
theorem typedAs_of_fieldType (typed : naming.fieldType registry policy raw field = .ok found) :
    naming.TypedAs registry policy field found := by
  unfold fieldType at typed
  dsimp only at typed
  split at typed
  · next noTarget =>
    obtain rfl := Except.ok.inj typed
    exact .plain noTarget
  · next target named =>
    split at typed
    · next structured =>
      obtain rfl := Except.ok.inj typed
      rw [Bool.and_eq_true_iff, Bool.not_eq_true', Bool.not_eq_true',
        List.isEmpty_eq_false_iff] at structured
      exact .structured structured.1 structured.2
    · next notStructured =>
      have loose : registry.isPlaceholder field.shape ∨
          (naming.typeOf registry field.shape).references = [] := by
        cases placeholder : registry.isPlaceholder field.shape with
        | true => exact .inl rfl
        | false => exact .inr (by simpa [placeholder] using notStructured)
      split at typed
      · next declared =>
        obtain rfl := Except.ok.inj typed
        exact .bound ⟨named, loose, .inl declared⟩ declared
      · next undeclared =>
        cases policy with
        | error => cases typed
        | keep =>
          obtain rfl := Except.ok.inj typed
          exact .kept ⟨named, loose, .inr rfl⟩ rfl
        | drop =>
          obtain rfl := Except.ok.inj typed
          exact .dropped named undeclared rfl

/-- **A type is that of the target if the field is bound,** and natural otherwise. -/
theorem fieldType_cases (typed : naming.fieldType registry policy raw field = .ok found) :
    (found.type = naming.typeOf registry field.shape ∧
        ∀ target, ¬ naming.Binds registry policy field target) ∨
      ∃ target, naming.Binds registry policy field target ∧
        found.type = registry.boundType field.shape target ∧
        (naming.isDeclared target ∨ policy = .keep ∧ found.undeclared = some target) := by
  cases typedAs_of_fieldType typed with
  | plain noTarget => exact .inl ⟨rfl, fun target binds => by cases noTarget.symm.trans binds.named⟩
  | structured solid mentions =>
    refine .inl ⟨rfl, fun target binds => binds.loose.elim (fun placeholder => ?_) mentions⟩
    cases solid.symm.trans placeholder
  | bound binds declared => exact .inr ⟨_, binds, rfl, .inl declared⟩
  | kept binds keeps => exact .inr ⟨_, binds, rfl, .inr ⟨keeps, rfl⟩⟩
  | dropped named undeclared drops =>
    refine .inl ⟨rfl, fun other binds => ?_⟩
    obtain rfl := Option.some.inj (named.symm.trans binds.named)
    obtain declared | keeps := binds.known
    · exact undeclared declared
    · cases drops.symm.trans keeps

/-- A dropped target takes the mark with it. -/
theorem kind_of_fieldType (typed : naming.fieldType registry policy raw field = .ok found) :
    found.kind = field.key.mark.fieldKind ∨ found.kind = .plain := by
  cases typedAs_of_fieldType typed with
  | plain | structured | bound | kept => exact .inl rfl
  | dropped => exact .inr rfl

theorem isName_of_isDeclared {name : String} (declared : naming.isDeclared name) :
    naming.IsName name := by
  obtain ⟨entry, member, same⟩ := List.any_eq_true.mp declared
  exact List.mem_map.mpr ⟨entry, member, of_decide_eq_true (Bool.and_eq_true_iff.mp same).1⟩

/-- **A type mentions names, and targets that the policy keeps.** -/
theorem isName_or_undeclared (typed : naming.fieldType registry policy raw field = .ok found)
    {name : String} (mentioned : name ∈ found.type.references) :
    naming.IsName name ∨ policy = .keep ∧ found.undeclared = some name := by
  rcases fieldType_cases typed with ⟨natural, _⟩ | ⟨target, _, bound, known⟩
  · rw [natural] at mentioned
    exact .inl (isName_of_mem_references mentioned)
  · rw [bound] at mentioned
    rw [Registry.mem_references_boundType mentioned]
    exact known.imp_left isName_of_isDeclared

end Naming

/-! ### Findings -/

namespace Findings

/-- Findings are only added to, and parents are declarations that `declares` holds of. -/
structure Extends (declares : String → Prop) (before after : Findings) : Prop where
  /-- Warnings stay. -/
  warnings : ∀ warning ∈ before.warnings, warning ∈ after.warnings
  /-- Every new parent is a declaration, and not that of its child. -/
  parents : ∀ child parent, after.parents.get? child = some parent →
    before.parents.get? child = some parent ∨ child ≠ parent ∧ declares parent

variable {declares wider : String → Prop} {before middle after : Findings}

theorem Extends.refl (before : Findings) : Extends declares before before :=
  ⟨fun _ member => member, fun _ _ found => .inl found⟩

theorem Extends.trans (first : Extends declares before middle)
    (second : Extends declares middle after) : Extends declares before after where
  warnings warning member := second.warnings warning (first.warnings warning member)
  parents child parent found :=
    (second.parents child parent found).elim (first.parents child parent) .inr

theorem Extends.mono (extension : Extends declares before after)
    (more : ∀ name, declares name → wider name) : Extends wider before after where
  warnings := extension.warnings
  parents child parent found :=
    (extension.parents child parent found).imp_right fun ⟨apart, declared⟩ =>
      ⟨apart, more parent declared⟩

/-- Nothing but warnings is added. -/
structure Warns (before after : Findings) : Prop where
  /-- Children keep their parents. -/
  parents_eq : after.parents = before.parents
  /-- Warnings stay. -/
  warnings : ∀ warning ∈ before.warnings, warning ∈ after.warnings

theorem Warns.refl (before : Findings) : Warns before before :=
  ⟨rfl, fun _ member => member⟩

theorem Warns.trans (first : Warns before middle) (second : Warns middle after) :
    Warns before after :=
  ⟨second.parents_eq.trans first.parents_eq, fun warning member =>
    second.warnings warning (first.warnings warning member)⟩

theorem Warns.extends (warns : Warns before after) : Extends declares before after :=
  ⟨warns.warnings, fun _ _ found => .inl (warns.parents_eq ▸ found)⟩

theorem warns_warn (before : Findings) (warning : Warning) : Warns before (before.warn warning) :=
  ⟨rfl, fun _ member => List.mem_cons_of_mem _ member⟩

theorem extends_addParent (before : Findings) (type : TypeRef) {parent : String}
    (declared : declares parent) : Extends declares before (before.addParent type parent) := by
  unfold addParent
  split
  · exact .refl before
  · next child _ =>
    split
    · exact .refl before
    · next apart =>
      split
      · refine ⟨fun _ member => member, fun other found here => ?_⟩
        rw [Table.get?_put] at here
        split at here
        · next same =>
          obtain rfl := Option.some.inj here
          rw [same]
          exact .inr ⟨apart, declared⟩
        · exact .inl here
      · split
        · exact .refl before
        · exact (warns_warn before _).extends

end Findings

/-! ### Fields -/

namespace Declaring

variable {setting : Declaring} {before after : Findings}

/-- The key that a field is declared under. -/
def declaredKey (setting : Declaring) (raw : String) (field : Field) : String :=
  if raw ≠ field.key.name && 1 < setting.keys.count field.key.name then raw else field.key.name

/-- What a field is declared as, once the warnings are known. -/
structure Declares (setting : Declaring) (warnings : List Warning) (entry : String × Field)
    (found : FieldType) (declared : DeclaredField) : Prop where
  /-- The type is that of the field. -/
  typed : setting.naming.fieldType setting.registry setting.policy entry.1 entry.2 = .ok found
  /-- Null is taken out of it. -/
  declared_eq : declared = ⟨setting.declaredKey entry.1 entry.2, found.type.collapseNull.1,
    entry.2.optional || found.type.collapseNull.2, found.kind⟩
  /-- A target that is kept although nothing declares it is warned of. -/
  warned : ∀ target, found.undeclared = some target →
    .unresolvedReference setting.name entry.2.key.name target ∈ warnings

/-- A field is resolved to a declared field. -/
def Resolves (setting : Declaring) (warnings : List Warning) (entry : String × Field)
    (declared : DeclaredField) : Prop :=
  ∃ found, setting.Declares warnings entry found declared

theorem Resolves.more {warnings others : List Warning} {entry : String × Field}
    {declared : DeclaredField} (resolves : setting.Resolves warnings entry declared)
    (more : ∀ warning ∈ warnings, warning ∈ others) : setting.Resolves others entry declared := by
  obtain ⟨found, declares⟩ := resolves
  exact ⟨found, declares.typed, declares.declared_eq, fun target undeclared =>
    more _ (declares.warned target undeclared)⟩

/-- **What is done with a field:** it is typed, then warned of, and then its claim is added. -/
theorem field_cases {raw : String} {field : Field} {declared : DeclaredField}
    (resolved : setting.field before raw field = .ok (declared, after)) :
    ∃ warned, setting.Resolves warned.warnings (raw, field) declared ∧ before.Warns warned ∧
      after = if declared.kind = .subclass then warned.addParent declared.type setting.name
        else warned := by
  unfold Declaring.field at resolved
  obtain ⟨found, typed, resolved⟩ := exists_of_bind_eq_ok resolved
  obtain ⟨rfl, rfl⟩ := Prod.mk.inj (Except.ok.inj resolved)
  -- A mark that is shown comes last among the warnings.
  have shown : ∀ findings : Findings, Findings.Warns findings
      (if raw ≠ field.key.name && 1 < setting.keys.count field.key.name then
        findings.warn (.duplicateKey setting.name raw) else findings) := by
    intro findings
    split
    · exact Findings.warns_warn _ _
    · exact .refl _
  refine ⟨_, ⟨found, typed, rfl, fun target undeclared => (shown _).warnings _ ?_⟩,
    .trans ?_ (shown _), rfl⟩
  · rw [undeclared]
    exact List.mem_cons_self
  · cases found.undeclared with
    | none => exact .refl _
    | some missing => exact Findings.warns_warn _ _

/-- Fields are resolved one by one. -/
theorem fields_cons {raw : String} {field : Field} {rest : List (String × Field)}
    {declared : List DeclaredField}
    (resolved : setting.fields before ((raw, field) :: rest) = .ok (declared, after)) :
    ∃ one others middle, declared = one :: others ∧
      setting.field before raw field = .ok (one, middle) ∧
      setting.fields middle rest = .ok (others, after) := by
  unfold Declaring.fields at resolved
  obtain ⟨⟨one, middle⟩, first, resolved⟩ := exists_of_bind_eq_ok resolved
  obtain ⟨⟨others, last⟩, second, resolved⟩ := exists_of_bind_eq_ok resolved
  obtain ⟨rfl, rfl⟩ := Prod.mk.inj (Except.ok.inj resolved)
  exact ⟨one, others, middle, rfl, first, second⟩

/-- **What a field is resolved to.** -/
theorem field_spec {raw : String} {field : Field} {declared : DeclaredField}
    (resolved : setting.field before raw field = .ok (declared, after)) :
    setting.Resolves after.warnings (raw, field) declared ∧
      Findings.Extends (· = setting.name) before after := by
  obtain ⟨warned, resolves, warns, rfl⟩ := field_cases resolved
  have claims : Findings.Extends (· = setting.name) warned
      (if declared.kind = .subclass then warned.addParent declared.type setting.name
        else warned) := by
    split
    · exact Findings.extends_addParent warned _ rfl
    · exact .refl warned
  exact ⟨resolves.more claims.warnings, warns.extends.trans claims⟩

/-- **What fields are resolved to.** -/
theorem fields_spec {entries : List (String × Field)} {declared : List DeclaredField}
    (resolved : setting.fields before entries = .ok (declared, after)) :
    List.Forall₂ (setting.Resolves after.warnings) entries declared ∧
      Findings.Extends (fun name => name = setting.name ∧ declared ≠ []) before after := by
  induction entries generalizing before declared with
  | nil =>
    obtain ⟨rfl, rfl⟩ := Prod.mk.inj (Except.ok.inj resolved)
    exact ⟨.nil, .refl _⟩
  | cons entry rest step =>
    obtain ⟨one, others, middle, rfl, first, second⟩ := fields_cons resolved
    obtain ⟨resolves, grows⟩ := field_spec first
    obtain ⟨all, growsLast⟩ := step second
    refine ⟨.cons (resolves.more growsLast.warnings) all, ?_⟩
    exact (grows.mono fun name same => ⟨same, List.cons_ne_nil one others⟩).trans
      (growsLast.mono fun name declared => ⟨declared.1, List.cons_ne_nil one others⟩)

end Declaring

/-! ### Declarations -/

namespace Naming

variable {naming : Naming} {registry : Registry} {policy : ReferencePolicy}
  {before after : Findings}

/-- The setting in which the fields of a named object are resolved. -/
def settingOf (naming : Naming) (registry : Registry) (policy : ReferencePolicy) (name : String)
    (fields : Table String Field) : Declaring :=
  ⟨naming, registry, policy, name, fields.values.map (·.key.name)⟩

/-- A named object becomes a declaration of its name, field by field. -/
def DeclaredAs (naming : Naming) (registry : Registry) (policy : ReferencePolicy)
    (warnings : List Warning) (entry : Nat × String) (declaration : Declaration) : Prop :=
  declaration.name = entry.2 ∧ ∃ fields, registry.fields? (.node entry.1) = some fields ∧
    List.Forall₂ ((naming.settingOf registry policy entry.2 fields).Resolves warnings)
      fields.entries declaration.fields

/-- The name is that of a declaration with a field. -/
def IsParentAmong (declarations : List Declaration) (name : String) : Prop :=
  ∃ declaration ∈ declarations, declaration.name = name ∧ declaration.fields ≠ []

/-- Objects are declared one by one. -/
theorem declare_of_fields? {index : Nat} {name : String} {rest : List (Nat × String)}
    {fields : Table String Field} (found : registry.fields? (.node index) = some fields) :
    naming.declare registry policy before ((index, name) :: rest) = (do
      let (one, middle) ←
        (naming.settingOf registry policy name fields).fields before fields.entries
      let (others, after) ← naming.declare registry policy middle rest
      return (⟨name, one⟩ :: others, after)) := by
  have shape : registry.shapeAt? index = some (.object fields) :=
    Registry.fields?_eq_some_iff.mp found
  rw [declare, shape]
  rfl

/-- What is no object is passed over. -/
theorem declare_of_not_object {index : Nat} {name : String} {rest : List (Nat × String)}
    (noObject : registry.fields? (.node index) = none) :
    naming.declare registry policy before ((index, name) :: rest) =
      naming.declare registry policy before rest := by
  rw [declare]
  split
  · next fields shape => cases noObject.symm.trans (Registry.fields?_eq_some_iff.mpr shape)
  · rfl

/-- **What is done with a named object.** -/
theorem declare_cons {index : Nat} {name : String} {rest : List (Nat × String)}
    {declarations : List Declaration}
    (declared : naming.declare registry policy before ((index, name) :: rest) =
      .ok (declarations, after)) :
    (∃ fields one others middle, registry.fields? (.node index) = some fields ∧
        declarations = ⟨name, one⟩ :: others ∧
        (naming.settingOf registry policy name fields).fields before fields.entries =
          .ok (one, middle) ∧
        naming.declare registry policy middle rest = .ok (others, after)) ∨
      registry.fields? (.node index) = none ∧
        naming.declare registry policy before rest = .ok (declarations, after) := by
  cases found : registry.fields? (.node index) with
  | some fields =>
    rw [declare_of_fields? found] at declared
    obtain ⟨⟨one, middle⟩, first, declared⟩ := exists_of_bind_eq_ok declared
    obtain ⟨⟨others, last⟩, second, declared⟩ := exists_of_bind_eq_ok declared
    obtain ⟨rfl, rfl⟩ := Prod.mk.inj (Except.ok.inj declared)
    exact .inl ⟨fields, one, others, middle, rfl, rfl, first, second⟩
  | none =>
    rw [declare_of_not_object found] at declared
    exact .inr ⟨rfl, declared⟩

/-- **Every named object is declared.** -/
theorem declare_spec {entries : List (Nat × String)} {declarations : List Declaration}
    (objects : ∀ entry ∈ entries, (registry.fields? (.node entry.1)).isSome)
    (declared : naming.declare registry policy before entries = .ok (declarations, after)) :
    List.Forall₂ (naming.DeclaredAs registry policy after.warnings) entries declarations ∧
      Findings.Extends (IsParentAmong declarations) before after := by
  induction entries generalizing before declarations with
  | nil =>
    obtain ⟨rfl, rfl⟩ := Prod.mk.inj (Except.ok.inj declared)
    exact ⟨.nil, .refl _⟩
  | cons entry rest step =>
    rw [List.forall_mem_cons] at objects
    rcases declare_cons declared with
      ⟨fields, one, others, middle, found, rfl, first, second⟩ | ⟨noObject, _⟩
    · obtain ⟨resolves, grows⟩ := Declaring.fields_spec first
      obtain ⟨all, growsLast⟩ := step objects.2 second
      refine ⟨.cons ⟨rfl, fields, found, resolves.imp fun _ _ resolves =>
        resolves.more growsLast.warnings⟩ all, ?_⟩
      refine (grows.mono ?_).trans (growsLast.mono ?_)
      · rintro _ ⟨rfl, some⟩
        exact ⟨_, List.mem_cons_self, rfl, some⟩
      · rintro _ ⟨declaration, member, same⟩
        exact ⟨declaration, List.mem_cons_of_mem _ member, same⟩
    · rw [noObject] at objects
      cases objects.1

end Naming

/-- **What is left of the declarations in the end.** -/
theorem ShapeGraph.resolve_eq_ok {graph : ShapeGraph} {naming : Naming} {policy : ReferencePolicy}
    {resolution : Resolution} (resolved : graph.resolve naming policy = .ok resolution) :
    ∃ declarations findings, naming.declare graph.registry policy ⟨∅, naming.warnings.reverse⟩
        naming.entries = .ok (declarations, findings) ∧
      resolution =
        { declarations := declarations.filter (·.name ∈
            Declaration.reachable declarations (naming.entries.head?.map Prod.snd))
          parents := findings.parents.filter (· ∈
            Declaration.reachable declarations (naming.entries.head?.map Prod.snd))
          warnings := findings.warnings.reverse } := by
  unfold resolve at resolved
  obtain ⟨⟨declarations, findings⟩, declared, resolved⟩ := exists_of_bind_eq_ok resolved
  exact ⟨declarations, findings, declared, (Except.ok.inj resolved).symm⟩

end SampleShapes
