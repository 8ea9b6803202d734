/-
**What the policies agree on.**

Which references are unresolved is settled by the names of the objects, before any policy comes in.
Dropping and keeping them warns of each one in order, and fails on none; the strict policy fails at
the first one. Where there is none, the policy makes no difference at all.

* `fieldType_of_undeclared?_eq_none`, `fieldType_drop`, `fieldType_keep`, `fieldType_error`: where
  the policy comes in;
* `fields_warns`, `declare_warns`: **a lenient run warns of every unresolved reference in order**;
* `fields_fails`, `declare_fails`: **the strict run fails at the first one**;
* `fields_congr`, `declare_congr`: **without one, policies lead to the same**;
* `ShapeGraph.policies_agree`: the same of the resolutions of one graph.
-/

import SampleShapes.Proofs.Resolution.Closedness

namespace SampleShapes

/-! ### Unresolved references -/

/-- A reference to a target that nothing declares. -/
structure Unresolved where
  /-- The name of the declaration that it stands in. -/
  declaration : String
  /-- The raw key of the field. -/
  raw : String
  /-- The key of the field without its mark. -/
  name : String
  /-- The target. -/
  target : String

/-- The warning of an unresolved reference. -/
def Unresolved.warning (reference : Unresolved) : Warning :=
  .unresolvedReference reference.declaration reference.name reference.target

/-- The failure at an unresolved reference. -/
def Unresolved.failure (reference : Unresolved) : Failure :=
  .unresolvedReference reference.raw reference.target

/-- The warning is of an unresolved reference. -/
def Warning.isUnresolved : Warning → Bool
  | unresolvedReference _ _ _ => true
  | _ => false

/-- The warnings of unresolved references, in order. -/
def Resolution.unresolved (resolution : Resolution) : List Warning :=
  resolution.warnings.filter Warning.isUnresolved

/-- The warnings of unresolved references, in order. -/
def Findings.unresolved (findings : Findings) : List Warning :=
  findings.warnings.reverse.filter Warning.isUnresolved

namespace Findings

theorem unresolved_warn (findings : Findings) (warning : Warning) :
    (findings.warn warning).unresolved =
      findings.unresolved ++ if warning.isUnresolved then [warning] else [] := by
  unfold unresolved warn
  rw [List.reverse_cons, List.filter_append, List.filter_singleton, Bool.cond_eq_ite]

/-- A parent is no unresolved reference. -/
theorem unresolved_addParent (findings : Findings) (type : TypeRef) (parent : String) :
    (findings.addParent type parent).unresolved = findings.unresolved := by
  unfold addParent
  split
  · rfl
  · split
    · rfl
    · split
      · rfl
      · split
        · rfl
        · rw [unresolved_warn]
          exact List.append_nil _

end Findings

/-! ### Types of fields -/

namespace Naming

variable {naming : Naming} {registry : Registry} {policy : ReferencePolicy} {raw target : String}
  {field : Field}

/-- The target of a field, if the field would be bound to it and nothing declares it. -/
def undeclared? (naming : Naming) (registry : Registry) (field : Field) : Option String :=
  match field.key.target? with
  | none => none
  | some target =>
    if !registry.isPlaceholder field.shape &&
      !(naming.typeOf registry field.shape).references.isEmpty
    then none
    else if naming.isDeclared target then none else some target

/-- **The policy has no say** in the type of a field whose target is resolved. -/
theorem fieldType_of_undeclared?_eq_none (resolved : naming.undeclared? registry field = none) :
    ∃ found, found.undeclared = none ∧
      ∀ policy raw, naming.fieldType registry policy raw field = .ok found := by
  unfold undeclared? at resolved
  unfold fieldType
  cases named : field.key.target? with
  | none => exact ⟨_, rfl, fun _ _ => rfl⟩
  | some target =>
    rw [named] at resolved
    dsimp only at resolved ⊢
    split at resolved
    · next structured =>
      simp only [structured, if_true]
      exact ⟨_, rfl, fun _ _ => rfl⟩
    · next loose =>
      split at resolved
      · next declared =>
        simp only [loose, declared, if_true]
        exact ⟨_, rfl, fun _ _ => rfl⟩
      · cases resolved

/-- **What the policies make of an unresolved reference:** it is dropped with a warning, kept with a
warning, or a failure. -/
theorem fieldType_of_undeclared? (missing : naming.undeclared? registry field = some target)
    (raw : String) :
    naming.fieldType registry .drop raw field =
        .ok ⟨naming.typeOf registry field.shape, .plain, some target⟩ ∧
      naming.fieldType registry .keep raw field =
        .ok ⟨registry.boundType field.shape target, field.key.mark.fieldKind, some target⟩ ∧
      naming.fieldType registry .error raw field = .error (.unresolvedReference raw target) := by
  unfold undeclared? at missing
  unfold fieldType
  cases named : field.key.target? with
  | none =>
    rw [named] at missing
    cases missing
  | some own =>
    rw [named] at missing
    dsimp only at missing ⊢
    split at missing
    · cases missing
    · next loose =>
      split at missing
      · cases missing
      · next undeclared =>
        obtain rfl := Option.some.inj missing
        refine ⟨?_, ?_, ?_⟩ <;> rw [if_neg loose, if_neg undeclared]

/-- An unresolved target is the one that the key names. -/
theorem target?_of_undeclared? (missing : naming.undeclared? registry field = some target) :
    field.key.target? = some target := by
  unfold undeclared? at missing
  cases named : field.key.target? with
  | none =>
    rw [named] at missing
    cases missing
  | some own =>
    rw [named] at missing
    dsimp only at missing
    split at missing
    · cases missing
    · split at missing
      · cases missing
      · exact missing

end Naming

/-! ### Fields -/

namespace Declaring

variable {setting : Declaring} {findings : Findings} {raw : String} {field : Field}

/-- The same setting under another policy. -/
def under (setting : Declaring) (policy : ReferencePolicy) : Declaring := { setting with policy }

/-- What is unresolved about one field. -/
def unresolved? (setting : Declaring) (raw : String) (field : Field) : Option Unresolved :=
  (setting.naming.undeclared? setting.registry field).map fun target =>
    ⟨setting.name, raw, field.key.name, target⟩

/-- What is unresolved about some fields, in order. -/
def unresolved (setting : Declaring) (entries : List (String × Field)) : List Unresolved :=
  entries.filterMap fun entry => setting.unresolved? entry.1 entry.2

/-- Once a field is typed it is declared, and warned of if its target is missing. -/
theorem field_of_typed {found : FieldType}
    (typed : setting.naming.fieldType setting.registry setting.policy raw field = .ok found) :
    ∃ declared after, setting.field findings raw field = .ok (declared, after) ∧
      after.unresolved = findings.unresolved ++
        (found.undeclared.map (.unresolvedReference setting.name field.key.name ·)).toList := by
  -- Neither a clash of keys nor a parent is an unresolved reference.
  have shown : ∀ findings : Findings,
      (if raw ≠ field.key.name && 1 < setting.keys.count field.key.name then
        findings.warn (.duplicateKey setting.name raw) else findings).unresolved =
      findings.unresolved := by
    intro findings
    split
    · rw [Findings.unresolved_warn]
      exact List.append_nil _
    · rfl
  have claimed : ∀ (findings : Findings) (type : TypeRef),
      (if found.kind = .subclass then findings.addParent type setting.name
        else findings).unresolved = findings.unresolved := by
    intro findings type
    split
    · exact Findings.unresolved_addParent findings type setting.name
    · rfl
  unfold Declaring.field
  rw [typed]
  refine ⟨_, _, rfl, ?_⟩
  rw [claimed, shown]
  cases found.undeclared with
  | none => exact (List.append_nil _).symm
  | some target => exact Findings.unresolved_warn findings _

/-- **A lenient policy warns of an unresolved field,** and of no other. -/
theorem field_warns (setting : Declaring) (lenient : setting.policy ≠ .error)
    (findings : Findings) (raw : String) (field : Field) :
    ∃ declared after, setting.field findings raw field = .ok (declared, after) ∧
      after.unresolved = findings.unresolved ++
        ((setting.unresolved? raw field).map Unresolved.warning).toList := by
  unfold unresolved?
  cases missing : setting.naming.undeclared? setting.registry field with
  | none =>
    obtain ⟨found, known, typed⟩ := Naming.fieldType_of_undeclared?_eq_none missing
    have declared := @field_of_typed setting findings raw field found (typed setting.policy raw)
    rw [known] at declared
    exact declared
  | some target =>
    obtain ⟨drops, keeps, _⟩ := Naming.fieldType_of_undeclared? missing raw
    cases policy : setting.policy with
    | drop => exact field_of_typed (policy ▸ drops)
    | keep => exact field_of_typed (policy ▸ keeps)
    | error => exact absurd policy lenient

/-- **Policies agree on a field that is resolved.** -/
theorem field_congr (resolved : setting.unresolved? raw field = none)
    (policy other : ReferencePolicy) :
    (setting.under policy).field findings raw field =
      (setting.under other).field findings raw field := by
  obtain ⟨found, _, typed⟩ :=
    Naming.fieldType_of_undeclared?_eq_none (Option.map_eq_none_iff.mp resolved)
  unfold Declaring.field under
  dsimp only
  rw [typed policy raw, typed other raw]

/-- **The strict policy fails at an unresolved field.** -/
theorem field_fails {reference : Unresolved}
    (missing : setting.unresolved? raw field = some reference) :
    (setting.under .error).field findings raw field = .error reference.failure := by
  obtain ⟨target, found, rfl⟩ := Option.map_eq_some_iff.mp missing
  unfold Declaring.field under
  dsimp only
  rw [(Naming.fieldType_of_undeclared? found raw).2.2]
  rfl

/-- **A lenient run warns of every unresolved field in order.** -/
theorem fields_warns (setting : Declaring) (lenient : setting.policy ≠ .error)
    (findings : Findings) (entries : List (String × Field)) :
    ∃ declared after, setting.fields findings entries = .ok (declared, after) ∧
      after.unresolved = findings.unresolved ++
        (setting.unresolved entries).map Unresolved.warning := by
  induction entries generalizing findings with
  | nil => exact ⟨[], findings, rfl, (List.append_nil _).symm⟩
  | cons entry rest step =>
    obtain ⟨raw, field⟩ := entry
    obtain ⟨one, middle, first, warned⟩ := setting.field_warns lenient findings raw field
    obtain ⟨others, after, second, warnedLast⟩ := step middle
    refine ⟨one :: others, after, ?_, ?_⟩
    · rw [Declaring.fields, first]
      show (setting.fields middle rest >>= _) = _
      rw [second]
      rfl
    · rw [warnedLast, warned, List.append_assoc]
      unfold unresolved
      rw [List.filterMap_cons]
      cases setting.unresolved? raw field <;> rfl

/-- **Without unresolved fields, policies lead to the same.** -/
theorem fields_congr {entries : List (String × Field)} (resolved : setting.unresolved entries = [])
    (policy other : ReferencePolicy) (findings : Findings) :
    (setting.under policy).fields findings entries =
      (setting.under other).fields findings entries := by
  induction entries generalizing findings with
  | nil => rfl
  | cons entry rest step =>
    obtain ⟨raw, field⟩ := entry
    obtain ⟨first, others⟩ := List.forall_mem_cons.mp (List.filterMap_eq_nil_iff.mp resolved)
    rw [Declaring.fields, Declaring.fields, field_congr first policy other]
    refine congrArg _ (funext fun result => ?_)
    obtain ⟨one, middle⟩ := result
    dsimp only
    rw [step (List.filterMap_eq_nil_iff.mpr others)]

/-- **The strict run fails at the first unresolved field.** -/
theorem fields_fails {entries : List (String × Field)} {reference : Unresolved}
    {rest : List Unresolved} (missing : setting.unresolved entries = reference :: rest)
    (findings : Findings) :
    (setting.under .error).fields findings entries = .error reference.failure := by
  induction entries generalizing findings with
  | nil => cases missing
  | cons entry others step =>
    obtain ⟨raw, field⟩ := entry
    unfold unresolved at missing
    rw [List.filterMap_cons] at missing
    rw [Declaring.fields]
    cases first : setting.unresolved? raw field with
    | some own =>
      rw [first] at missing
      rw [field_fails first, (List.cons.inj missing).1]
      rfl
    | none =>
      rw [first] at missing
      obtain ⟨one, middle, done, _⟩ :=
        (setting.under .drop).field_warns (fun same => by cases same) findings raw field
      rw [field_congr first .error .drop, done]
      show ((setting.under .error).fields middle others >>= _) = _
      rw [step missing middle]
      rfl

end Declaring

/-! ### Declarations -/

namespace Naming

variable {naming : Naming} {registry : Registry}

/-- What is unresolved about some named objects, in order. -/
def unresolved (naming : Naming) (registry : Registry) (entries : List (Nat × String)) :
    List Unresolved :=
  entries.flatMap fun entry =>
    match registry.fields? (.node entry.1) with
    | some fields =>
      (naming.settingOf registry .drop entry.2 fields).unresolved fields.entries
    | none => []

theorem unresolved_of_fields? {index : Nat} {name : String} {rest : List (Nat × String)}
    {fields : Table String Field} (found : registry.fields? (.node index) = some fields) :
    naming.unresolved registry ((index, name) :: rest) =
      (naming.settingOf registry .drop name fields).unresolved fields.entries ++
        naming.unresolved registry rest := by
  unfold unresolved
  rw [List.flatMap_cons, found]

theorem unresolved_of_not_object {index : Nat} {name : String} {rest : List (Nat × String)}
    (noObject : registry.fields? (.node index) = none) :
    naming.unresolved registry ((index, name) :: rest) = naming.unresolved registry rest := by
  unfold unresolved
  rw [List.flatMap_cons, noObject]
  rfl

/-- **A lenient run warns of every unresolved reference in order.** -/
theorem declare_warns (naming : Naming) (registry : Registry) {policy : ReferencePolicy}
    (lenient : policy ≠ .error) (findings : Findings) (entries : List (Nat × String)) :
    ∃ declarations after,
      naming.declare registry policy findings entries = .ok (declarations, after) ∧
        after.unresolved = findings.unresolved ++
          (naming.unresolved registry entries).map Unresolved.warning := by
  induction entries generalizing findings with
  | nil => exact ⟨[], findings, rfl, (List.append_nil _).symm⟩
  | cons entry rest step =>
    obtain ⟨index, name⟩ := entry
    cases found : registry.fields? (.node index) with
    | none =>
      rw [declare_of_not_object found, unresolved_of_not_object found]
      exact step findings
    | some fields =>
      obtain ⟨one, middle, first, warned⟩ :=
        (naming.settingOf registry policy name fields).fields_warns lenient findings fields.entries
      obtain ⟨others, after, second, warnedLast⟩ := step middle
      refine ⟨⟨name, one⟩ :: others, after, ?_, ?_⟩
      · rw [declare_of_fields? found, first]
        show (naming.declare registry policy middle rest >>= _) = _
        rw [second]
        rfl
      · rw [warnedLast, warned, unresolved_of_fields? found, List.map_append, List.append_assoc]
        rfl

/-- **Without unresolved references, policies lead to the same.** -/
theorem declare_congr {entries : List (Nat × String)}
    (resolved : naming.unresolved registry entries = []) (policy other : ReferencePolicy)
    (findings : Findings) :
    naming.declare registry policy findings entries =
      naming.declare registry other findings entries := by
  induction entries generalizing findings with
  | nil => rfl
  | cons entry rest step =>
    obtain ⟨index, name⟩ := entry
    cases found : registry.fields? (.node index) with
    | none =>
      rw [unresolved_of_not_object found] at resolved
      rw [declare_of_not_object found, declare_of_not_object found]
      exact step resolved findings
    | some fields =>
      rw [unresolved_of_fields? found] at resolved
      obtain ⟨here, later⟩ := List.append_eq_nil_iff.mp resolved
      have first : (naming.settingOf registry policy name fields).fields findings fields.entries =
          (naming.settingOf registry other name fields).fields findings fields.entries :=
        Declaring.fields_congr here policy other findings
      rw [declare_of_fields? found, declare_of_fields? found, first]
      refine congrArg _ (funext fun result => ?_)
      obtain ⟨one, middle⟩ := result
      dsimp only
      rw [step later middle]

/-- **The strict run fails at the first unresolved reference.** -/
theorem declare_fails {entries : List (Nat × String)} {reference : Unresolved}
    {rest : List Unresolved} (missing : naming.unresolved registry entries = reference :: rest)
    (findings : Findings) :
    naming.declare registry .error findings entries = .error reference.failure := by
  induction entries generalizing findings with
  | nil => cases missing
  | cons entry others step =>
    obtain ⟨index, name⟩ := entry
    cases found : registry.fields? (.node index) with
    | none =>
      rw [unresolved_of_not_object found] at missing
      rw [declare_of_not_object found]
      exact step missing findings
    | some fields =>
      rw [unresolved_of_fields? found] at missing
      rw [declare_of_fields? found]
      cases here : (naming.settingOf registry .drop name fields).unresolved fields.entries with
      | cons own more =>
        rw [here] at missing
        have failed : (naming.settingOf registry .error name fields).fields findings
            fields.entries = .error own.failure := Declaring.fields_fails here findings
        rw [failed, (List.cons.inj missing).1]
        rfl
      | nil =>
        rw [here] at missing
        obtain ⟨one, middle, done, _⟩ :=
          (naming.settingOf registry .drop name fields).fields_warns (fun same => by cases same)
            findings fields.entries
        have first : (naming.settingOf registry .error name fields).fields findings
            fields.entries = .ok (one, middle) :=
          (Declaring.fields_congr here .error .drop findings).trans done
        rw [first]
        show (naming.declare registry .error middle others >>= _) = _
        rw [step missing middle]
        rfl

/-- The raw key is one of the object that is declared under the name. -/
def HasRawKey (naming : Naming) (registry : Registry) (name raw : String) : Prop :=
  ∃ index fields, (index, name) ∈ naming.entries ∧
    registry.fields? (.node index) = some fields ∧ raw ∈ fields.keys

/-- **What an unresolved reference says** is what its raw key says. -/
theorem of_mem_unresolved (sound : registry.Sound) {entries : List (Nat × String)}
    {reference : Unresolved} (member : reference ∈ naming.unresolved registry entries) :
    ∃ index fields, (index, reference.declaration) ∈ entries ∧
      registry.fields? (.node index) = some fields ∧ reference.raw ∈ fields.keys ∧
      (Key.parse reference.raw).name = reference.name ∧
      (Key.parse reference.raw).target? = some reference.target := by
  obtain ⟨⟨index, name⟩, listed, member⟩ := List.mem_flatMap.mp member
  split at member
  · next fields found =>
    obtain ⟨⟨raw, field⟩, inside, missing⟩ := List.mem_filterMap.mp member
    obtain ⟨target, undeclared, rfl⟩ := Option.map_eq_some_iff.mp missing
    have under := Table.get?_eq_some_iff.mpr inside
    rw [← sound.keyed found raw field under]
    exact ⟨index, fields, listed, found, Table.mem_keys_of_get? under, rfl,
      target?_of_undeclared? undeclared⟩
  · exact absurd member List.not_mem_nil

/-- What a choice warns of is a collision. -/
theorem of_mem_warnings_name {assignment : Assignment} {index : Nat} {hint : Hint}
    {warning : Warning} (member : warning ∈ (assignment.name index hint).warnings) :
    warning ∈ assignment.warnings ∨
      ∃ target assigned, warning = .nameCollision target assigned := by
  obtain ⟨collides, same⟩ : ∃ collides : Bool, (assignment.name index hint).warnings =
      if collides then .nameCollision hint.name
        (uniqueName hint.name (assignment.named.map Prod.snd)) :: assignment.warnings
      else assignment.warnings := ⟨_, rfl⟩
  rw [same] at member
  split at member
  · exact (List.mem_cons.mp member).symm.imp_right fun same => ⟨_, _, same⟩
  · exact .inl member

/-- **Naming objects warns of no reference.** -/
theorem isUnresolved_of_mem_warnings {graph : ShapeGraph} {rootName : String} {warning : Warning}
    (member : warning ∈ (ofGraph graph rootName).warnings) : warning.isUnresolved = false := by
  have each : ∀ (choices : List (Nat × Hint)) (assignment : Assignment),
      warning ∈ (nameAll choices assignment).warnings →
        warning ∈ assignment.warnings ∨ warning.isUnresolved = false := by
    intro choices
    induction choices with
    | nil => exact fun _ member => .inl member
    | cons choice rest step =>
      intro assignment member
      rcases step (assignment.name choice.1 choice.2) member with earlier | other
      · refine (of_mem_warnings_name earlier).imp_right ?_
        rintro ⟨target, assigned, rfl⟩
        rfl
      · exact .inr other
  exact (each (choosing (Walk.ofGraph graph rootName)) ⟨[], [], [], []⟩
    (List.mem_reverse.mp member)).resolve_left List.not_mem_nil

end Naming

/-! ### Resolutions -/

namespace ShapeGraph

variable {graph : ShapeGraph} {options : Options} {sample : Json}

/-- What the policies make of the references of one graph. -/
structure PoliciesAgree (graph : ShapeGraph) (naming : Naming) (dropped kept : Resolution) :
    Prop where
  /-- Dropping unresolved references leads to a resolution. -/
  drops : graph.resolve naming .drop = .ok dropped
  /-- And so does keeping them. -/
  keeps : graph.resolve naming .keep = .ok kept
  /-- Both warn of the same references in the same order. -/
  warned : kept.unresolved = dropped.unresolved
  /-- The strict policy fails if there is one. -/
  fails_iff : (∃ failure, graph.resolve naming .error = .error failure) ↔ dropped.unresolved ≠ []
  /-- And then at the first one: at a field of its declaration with its target, whose key without
  its mark is the one that is warned of. -/
  first : ∀ declaration name target rest,
    dropped.unresolved = .unresolvedReference declaration name target :: rest →
      ∃ raw, naming.HasRawKey graph.registry declaration raw ∧ (Key.parse raw).name = name ∧
        graph.resolve naming .error = .error (.unresolvedReference raw target)
  /-- Without any, the three resolutions are the same. -/
  same : dropped.unresolved = [] → kept = dropped ∧ graph.resolve naming .error = .ok dropped

/-- A lenient policy leads to a resolution that warns of every unresolved reference in order. -/
theorem resolve_warns {policy : ReferencePolicy} (lenient : policy ≠ .error) (graph : ShapeGraph)
    (rootName : String) :
    ∃ resolution, graph.resolve (Naming.ofGraph graph rootName) policy = .ok resolution ∧
      resolution.unresolved =
        ((Naming.ofGraph graph rootName).unresolved graph.registry
          (Naming.ofGraph graph rootName).entries).map Unresolved.warning := by
  obtain ⟨declarations, after, declared, warned⟩ :=
    (Naming.ofGraph graph rootName).declare_warns graph.registry lenient
      ⟨∅, (Naming.ofGraph graph rootName).warnings.reverse⟩ (Naming.ofGraph graph rootName).entries
  have nothing : (⟨∅, (Naming.ofGraph graph rootName).warnings.reverse⟩ : Findings).unresolved =
      [] := by
    unfold Findings.unresolved
    rw [List.reverse_reverse, List.filter_eq_nil_iff]
    intro warning member
    rw [Naming.isUnresolved_of_mem_warnings member]
    exact Bool.false_ne_true
  rw [nothing, List.nil_append] at warned
  unfold resolve
  rw [declared]
  exact ⟨_, rfl, warned⟩

/-- Without unresolved references, the policy makes no difference. -/
theorem resolve_congr {naming : Naming}
    (resolved : naming.unresolved graph.registry naming.entries = [])
    (policy other : ReferencePolicy) :
    graph.resolve naming policy = graph.resolve naming other := by
  unfold resolve
  rw [Naming.declare_congr resolved policy other]

/-- At the first unresolved reference, the strict policy fails. -/
theorem resolve_fails {naming : Naming} {reference : Unresolved} {rest : List Unresolved}
    (missing : naming.unresolved graph.registry naming.entries = reference :: rest) :
    graph.resolve naming .error = .error reference.failure := by
  unfold resolve
  rw [Naming.declare_fails missing]
  rfl

/-- **Resolving fails at most at an unresolved reference,** and then only if the policy is
strict. -/
theorem resolve_cases (graph : ShapeGraph) (rootName : String) (policy : ReferencePolicy) :
    (∃ resolution, graph.resolve (Naming.ofGraph graph rootName) policy = .ok resolution) ∨
      policy = .error ∧ ∃ reference : Unresolved,
        graph.resolve (Naming.ofGraph graph rootName) policy = .error reference.failure := by
  by_cases lenient : policy = .error
  · obtain ⟨dropped, drops, _⟩ :=
      resolve_warns (fun same : ReferencePolicy.drop = .error => by cases same) graph rootName
    subst lenient
    cases missing : (Naming.ofGraph graph rootName).unresolved graph.registry
        (Naming.ofGraph graph rootName).entries with
    | nil => exact .inl ⟨dropped, (resolve_congr missing .error .drop).trans drops⟩
    | cons reference rest => exact .inr ⟨rfl, reference, resolve_fails missing⟩
  · obtain ⟨resolution, resolved, _⟩ := resolve_warns lenient graph rootName
    exact .inl ⟨resolution, resolved⟩

/-- **The policies agree on what is unresolved.** -/
theorem policies_agree (inferred : infer options sample = .ok graph) (rootName : String) :
    ∃ dropped kept, graph.PoliciesAgree (Naming.ofGraph graph rootName) dropped kept := by
  have sound := (represents_of_infer inferred).registry
  obtain ⟨dropped, drops, warned⟩ :=
    resolve_warns (fun same : ReferencePolicy.drop = .error => by cases same) graph rootName
  obtain ⟨kept, keeps, warned'⟩ :=
    resolve_warns (fun same : ReferencePolicy.keep = .error => by cases same) graph rootName
  have agreed := warned'.trans warned.symm
  obtain ⟨references, missing⟩ : ∃ references, (Naming.ofGraph graph rootName).unresolved
      graph.registry (Naming.ofGraph graph rootName).entries = references := ⟨_, rfl⟩
  rw [missing] at warned
  cases references with
  | nil =>
    have strict := (resolve_congr missing .error .drop).trans drops
    have same := Except.ok.inj (keeps.symm.trans ((resolve_congr missing .keep .drop).trans drops))
    refine ⟨dropped, kept, drops, keeps, agreed, ?_, ?_, fun _ => ⟨same, strict⟩⟩
    · refine iff_of_false (fun ⟨_, failed⟩ => ?_) (not_not_intro warned)
      cases strict.symm.trans failed
    · intro declaration name target rest here
      cases warned.symm.trans here
  | cons reference others =>
    have strict := resolve_fails missing
    refine ⟨dropped, kept, drops, keeps, agreed, ?_, ?_, fun nothing => ?_⟩
    · refine iff_of_true ⟨_, strict⟩ ?_
      rw [warned]
      exact List.cons_ne_nil _ _
    · intro declaration name target rest here
      obtain ⟨same, _⟩ := List.cons.inj (warned.symm.trans here)
      obtain ⟨rfl, rfl, rfl⟩ := Warning.unresolvedReference.inj same
      obtain ⟨index, fields, entry, found, key, named, _⟩ := Naming.of_mem_unresolved sound
        (missing ▸ List.mem_cons_self : reference ∈ _)
      exact ⟨reference.raw, ⟨index, fields, entry, found, key⟩, named, strict⟩
    · cases warned.symm.trans nothing

/-- One target is declared, and two are not: an empty object and null refer to them. -/
theorem policies_agree_on_two_targets :
    ∃ graph dropped kept,
      infer {} (.object [("a[A]", .object [("x", .null)]), ("b[B]", .object []), ("+c[C]", .null),
        ("d[A]", .array [])]) = .ok graph ∧
      graph.PoliciesAgree (Naming.ofGraph graph "Root") dropped kept ∧
      dropped.unresolved =
        [.unresolvedReference "Root" "b" "B", .unresolvedReference "Root" "c" "C"] := by
  have resolved : ((infer {} (.object [("a[A]", .object [("x", .null)]), ("b[B]", .object []),
      ("+c[C]", .null), ("d[A]", .array [])])).bind fun graph =>
        graph.resolve (Naming.ofGraph graph "Root") .drop).toOption.map (·.unresolved) =
      some [.unresolvedReference "Root" "b" "B", .unresolvedReference "Root" "c" "C"] := by
    decide +kernel
  cases inferred : infer {} (.object [("a[A]", .object [("x", .null)]), ("b[B]", .object []),
      ("+c[C]", .null), ("d[A]", .array [])]) with
  | error failure =>
    rw [inferred] at resolved
    cases resolved
  | ok graph =>
    obtain ⟨dropped, kept, agree⟩ := policies_agree inferred "Root"
    rw [inferred, Except.bind, agree.drops] at resolved
    exact ⟨graph, dropped, kept, rfl, agree, Option.some.inj resolved⟩

end ShapeGraph

end SampleShapes
