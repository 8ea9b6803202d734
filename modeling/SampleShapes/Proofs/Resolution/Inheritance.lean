/-
**Who extends whom.**

A field of a declaration may say that the declaration of its type extends it. The first to say so
wins, and only what extends itself at once is turned down; whether the parent extends the child
already is not asked.

Objects lie above the objects inside of them, so that a child is below its parent as long as the
field leads to the child itself. It does not if it is bound to a declaration by the name of its
target alone, or if the object inside of it stands for a merge: then a parent may come to extend its
own child.

* `field_gains`, `fields_gains`, `declare_gains`: parents come from fields that claim children;
* `below_of_claims`: a field that leads to its child itself claims a child below its parent;
* `acyclic_of_grounded`: **nothing extends itself if every such field leads to its child**;
* `not_acyclic_of_declarations`: **and it may without that.**
-/

import Mathlib.Logic.Relation
import SampleShapes.Proofs.Naming.Positions
import SampleShapes.Proofs.Resolution.Closedness

namespace SampleShapes

/-! ### Claims -/

/-- A field of the declaration says that the declaration of `child` extends it. -/
def Declaration.Claims (declaration : Declaration) (child : String) : Prop :=
  ∃ field ∈ declaration.fields, field.kind = .subclass ∧ field.type.named? = some child

namespace Findings

/-- Every parent that is new is one that claims its child. -/
def Gains (claims : String → String → Prop) (before after : Findings) : Prop :=
  ∀ child parent, after.parents.get? child = some parent →
    before.parents.get? child = some parent ∨ claims child parent

variable {claims wider : String → String → Prop} {before middle after : Findings}

theorem Gains.refl (before : Findings) : Gains claims before before := fun _ _ found => .inl found

theorem Gains.trans (first : Gains claims before middle) (second : Gains claims middle after) :
    Gains claims before after :=
  fun child parent found => (second child parent found).elim (first child parent) .inr

theorem Gains.mono (gains : Gains claims before after)
    (more : ∀ child parent, claims child parent → wider child parent) :
    Gains wider before after :=
  fun child parent found => (gains child parent found).imp_right (more child parent)

theorem gains_addParent (before : Findings) (type : TypeRef) (parent : String) :
    Gains (fun child owner => owner = parent ∧ type.named? = some child) before
      (before.addParent type parent) := by
  unfold addParent
  split
  · exact .refl before
  · next child named =>
    split
    · exact .refl before
    · split
      · intro other owner found
        rw [Table.get?_put] at found
        split at found
        · next same =>
          rw [same]
          exact .inr ⟨(Option.some.inj found).symm, named⟩
        · exact .inl found
      · split
        · exact .refl before
        · exact .refl before

end Findings

namespace Declaring

variable {setting : Declaring} {before after : Findings}

/-- **A field that is resolved adds no parent but its own declaration,** which claims a child. -/
theorem field_gains {raw : String} {field : Field} {declared : DeclaredField}
    (resolved : setting.field before raw field = .ok (declared, after)) :
    Findings.Gains (fun child parent => parent = setting.name ∧ declared.kind = .subclass ∧
      declared.type.named? = some child) before after := by
  obtain ⟨warned, _, warns, rfl⟩ := field_cases resolved
  intro child parent here
  rw [← warns.parents_eq]
  split at here
  · next kind =>
    rcases Findings.gains_addParent _ _ _ child parent here with old | ⟨owner, named⟩
    · exact .inl old
    · exact .inr ⟨owner, kind, named⟩
  · exact .inl here

/-- **Fields that are resolved add no parent but their declaration.** -/
theorem fields_gains {entries : List (String × Field)} {declared : List DeclaredField}
    (resolved : setting.fields before entries = .ok (declared, after)) :
    Findings.Gains (fun child parent => parent = setting.name ∧
      (⟨setting.name, declared⟩ : Declaration).Claims child) before after := by
  induction entries generalizing before declared with
  | nil =>
    obtain ⟨rfl, rfl⟩ := Prod.mk.inj (Except.ok.inj resolved)
    exact .refl _
  | cons entry rest step =>
    obtain ⟨one, others, middle, rfl, first, second⟩ := fields_cons resolved
    refine ((field_gains first).mono ?_).trans ((step second).mono ?_)
    · rintro child parent ⟨same, kind, named⟩
      exact ⟨same, one, List.mem_cons_self, kind, named⟩
    · rintro child parent ⟨same, field, member, claims⟩
      exact ⟨same, field, List.mem_cons_of_mem _ member, claims⟩

end Declaring

/-- **Parents are declarations that claim their children.** -/
theorem Naming.declare_gains {naming : Naming} {registry : Registry} {policy : ReferencePolicy}
    {entries : List (Nat × String)} {declarations : List Declaration} {before after : Findings}
    (declared : naming.declare registry policy before entries = .ok (declarations, after)) :
    Findings.Gains (fun child parent => ∃ declaration ∈ declarations,
      declaration.name = parent ∧ declaration.Claims child) before after := by
  induction entries generalizing before declarations with
  | nil =>
    obtain ⟨rfl, rfl⟩ := Prod.mk.inj (Except.ok.inj declared)
    exact .refl _
  | cons entry rest step =>
    rcases declare_cons declared with
      ⟨fields, one, others, middle, _, rfl, first, second⟩ | ⟨_, declared⟩
    · refine ((Declaring.fields_gains first).mono ?_).trans ((step second).mono ?_)
      · rintro child parent ⟨rfl, claims⟩
        exact ⟨_, List.mem_cons_self, rfl, claims⟩
      · rintro child parent ⟨declaration, member, claims⟩
        exact ⟨declaration, List.mem_cons_of_mem _ member, claims⟩
    · exact step declared

/-! ### Objects in types -/

theorem TypeRef.mem_references_of_named? {type : TypeRef} {name : String}
    (named : type.named? = some name) : name ∈ type.references := by
  fun_induction TypeRef.named? type with
  | case1 own =>
    rw [TypeRef.references, Option.some.inj named]
    exact List.mem_singleton_self name
  | case2 element step =>
    rw [TypeRef.references]
    exact step named
  | case3 => cases named

namespace ShapeGraph

variable {graph : ShapeGraph} {rootName : String}

/-- The fields of an object that say that the declarations of their types extend its own. -/
def subclassFields (graph : ShapeGraph) (index : Nat) : List Field :=
  match graph.registry.fields? (.node index) with
  | some fields => fields.values.filter (·.key.mark.fieldKind = .subclass)
  | none => []

/-- The field leads to the child that it claims: it holds an object with fields, and the objects
with fields that it holds stand for themselves. -/
def Leads (graph : ShapeGraph) (field : Field) : Prop :=
  graph.registry.boundObjects field.shape.ceiling field.shape ≠ [] ∧
    ∀ id ∈ graph.registry.boundObjects field.shape.ceiling field.shape, graph.canonical id = id

/-- Every field of a declaration that claims a child leads to it. -/
def Grounded (graph : ShapeGraph) (rootName : String) : Prop :=
  ∀ entry ∈ (Naming.ofGraph graph rootName).entries, ∀ field ∈ graph.subclassFields entry.1,
    graph.Leads field

instance (field : Field) : Decidable (graph.Leads field) :=
  inferInstanceAs (Decidable (_ ∧ _))

instance : Decidable (graph.Grounded rootName) :=
  inferInstanceAs (Decidable (∀ entry ∈ _, ∀ field ∈ _, _))

end ShapeGraph

/-! ### Children below their parents -/

/-- The object of the one name lies below the object of the other. -/
def Naming.Below (naming : Naming) (child parent : String) : Prop :=
  ∃ lower upper, (lower, child) ∈ naming.entries ∧ (upper, parent) ∈ naming.entries ∧
    lower < upper

namespace DeclaresGraph

variable {graph : ShapeGraph} {naming : Naming} {rootName : String} {policy : ReferencePolicy}
  {warnings : List Warning} {all : List Declaration} {declaration : Declaration}
  {child name : String}

section

variable (declares : DeclaresGraph graph naming rootName policy warnings all)
include declares

/-- Names are distinct, so that what lies below something is found by its name. -/
theorem below_trans {middle : String} (first : naming.Below child middle)
    (second : naming.Below middle name) : naming.Below child name := by
  obtain ⟨lowest, own, lower, entry, below⟩ := first
  obtain ⟨same, highest, entry', upper, above⟩ := second
  have only := List.inj_on_of_nodup_map declares.named.distinct entry entry' rfl
  obtain rfl := (Prod.mk.inj only).1
  exact ⟨lowest, highest, lower, upper, Nat.lt_trans below above⟩

theorem not_below_self : ¬ naming.Below name name := by
  rintro ⟨lower, upper, entry, entry', below⟩
  have only := List.inj_on_of_nodup_map declares.named.distinct entry entry' rfl
  exact absurd (Prod.mk.inj only).1 (Nat.ne_of_lt below)

/-- What an object leads to is named. -/
theorem exists_entry_of_link {parent index : Nat} {under : Bool} {fields : Table String Field}
    (entry : (parent, name) ∈ naming.entries)
    (object : graph.registry.fields? (.node parent) = some fields) {raw : String} {field : Field}
    (found : fields.get? raw = some field)
    (member : (index, under) ∈ graph.objectsAt (graph.registry.capacity + 1) false field.shape) :
    ∃ own, (index, own) ∈ naming.entries := by
  have reached := (declares.named.named parent).mp (List.mem_map_of_mem entry)
  have leads : index ∈ Walk.successors graph parent :=
    List.mem_map.mpr ⟨_, ShapeGraph.mem_links_iff.mpr
      ⟨fields, field, under, object, Table.mem_values_iff.mpr ⟨raw, found⟩, member, rfl⟩, rfl⟩
  obtain ⟨⟨_, own⟩, there, rfl⟩ :=
    List.mem_map.mp ((declares.named.named index).mpr (.step reached leads))
  exact ⟨own, there⟩

/-- A field that holds an object with fields has the type of what it holds. -/
theorem type_of_bound {parent : Nat} {fields : Table String Field}
    (entry : (parent, name) ∈ naming.entries)
    (object : graph.registry.fields? (.node parent) = some fields) {raw : String} {field : Field}
    (found : fields.get? raw = some field) {type : FieldType}
    (typed : naming.fieldType graph.registry policy raw field = .ok type)
    (holds : graph.registry.boundObjects field.shape.ceiling field.shape ≠ []) :
    type.type = naming.typeOf graph.registry field.shape := by
  obtain ⟨id, bound⟩ := List.exists_mem_of_ne_nil _ holds
  obtain ⟨own, here, notEmpty⟩ := Registry.hasFields_of_mem_boundObjects bound
  obtain ⟨index, rfl, _⟩ := Registry.shape?_eq_some_iff.mp (Registry.fields?_eq_some_iff.mp here)
  have held := (declares.sound.registry.field object found).1
  have inside :=
    ((Registry.mem_boundObjects_iff declares.sound.registry held _ (Nat.le_refl _)).mp bound).1
  obtain ⟨under, member⟩ := (ShapeGraph.mem_objectsAt_field_iff declares.sound object
    (Table.mem_values_iff.mpr ⟨raw, found⟩)).mpr ⟨index, inside, rfl⟩
  obtain ⟨called, known⟩ := declares.exists_entry_of_link entry object found member
  -- What the object stands for has fields as well.
  have merge : graph.registry.HasFields (.node (graph.canonicalNode index)) := by
    rcases graph.canonical_cases (.node index) with same | ⟨_, merge, _, leads, same⟩
    · rw [ShapeId.node.inj same]
      exact ⟨own, here, notEmpty⟩
    · rw [ShapeId.node.inj same]
      exact declares.sound.merge _ merge leads
  obtain ⟨others, there, notEmpty⟩ := merge
  exact declares.type_of_link typed held member known there notEmpty

/-- **A field that leads to its child claims a child below its parent.** -/
theorem below_of_claims (grounded : ∀ entry ∈ naming.entries,
      ∀ field ∈ graph.subclassFields entry.1, graph.Leads field)
    (member : declaration ∈ all) (claims : declaration.Claims child) :
    naming.Below child declaration.name := by
  obtain ⟨⟨parent, own⟩, entry, same, fields, object, each⟩ :=
    Lists.exists_mem_of_forall₂_right declares.each member
  obtain ⟨declared, inside, kind, named⟩ := claims
  obtain ⟨⟨raw, field⟩, listed, type, typed, rfl, _⟩ :=
    Lists.exists_mem_of_forall₂_right each inside
  have found := Table.get?_eq_some_iff.mpr listed
  obtain ⟨held, lower⟩ := declares.sound.registry.field object found
  have subclass : field ∈ graph.subclassFields parent := by
    unfold ShapeGraph.subclassFields
    rw [object]
    refine List.mem_filter.mpr ⟨Table.mem_values_iff.mpr ⟨raw, found⟩, decide_eq_true ?_⟩
    rcases Naming.kind_of_fieldType typed with marked | plain
    · exact marked.symm.trans kind
    · cases plain.symm.trans kind
  obtain ⟨holds, itself⟩ := grounded _ entry field subclass
  have natural := declares.type_of_bound entry object found typed holds
  have mentioned := TypeRef.mem_references_collapseNull_iff.mp
    (TypeRef.mem_references_of_named? named)
  rw [natural] at mentioned
  obtain ⟨index, within, called⟩ :=
    (Naming.mem_references_typeOf_iff declares.sound.registry held).mp mentioned
  have below := within.ceiling_le declares.sound.registry
  change index + 1 ≤ field.shape.ceiling at below
  -- What the child is named by is the object itself, which lies below the field.
  have canonical : graph.canonical (.node index) = .node index := by
    obtain ⟨inner, object'⟩ := Option.isSome_iff_exists.mp within.isSome_fields?
    cases empty : inner.isEmpty with
    | true => exact declares.sound.canonical_of_isEmpty object' empty
    | false =>
      exact itself _ ((Registry.mem_boundObjects_iff declares.sound.registry held _
        (Nat.le_refl _)).mpr ⟨within, inner, object', empty⟩)
  have entry' := declares.named.nameOf?_eq_some_iff.mp called
  rw [ShapeId.node.inj canonical] at entry'
  rw [same]
  have lower' : field.shape.ceiling < parent + 1 := lower
  exact ⟨index, parent, entry', entry, by omega⟩

end

end DeclaresGraph

/-! ### Resolutions -/

namespace Resolution

variable {resolution : Resolution} {options : Options} {sample : Json} {graph : ShapeGraph}

/-- The declaration of `child` extends that of `parent`. -/
def IsChild (resolution : Resolution) (child parent : String) : Prop :=
  resolution.parents.get? child = some parent

/-- No declaration extends itself, at once or through others. -/
def Acyclic (resolution : Resolution) : Prop :=
  ∀ name, ¬ Relation.TransGen resolution.IsChild name name

/-- **Nothing extends itself if every field that claims a child leads to it.** -/
theorem acyclic_of_grounded (inferred : ShapeGraph.infer options sample = .ok graph)
    (grounded : graph.Grounded options.rootName)
    (declared : SampleShapes.declarations options sample = .ok resolution) :
    resolution.Acyclic := by
  obtain ⟨_, all, findings, inferred', run, made⟩ := exists_run declared
  obtain rfl := Except.ok.inj (inferred.symm.trans inferred')
  have below : ∀ child parent, resolution.IsChild child parent →
      (Naming.ofGraph graph options.rootName).Below child parent := by
    intro child parent extends_
    unfold IsChild at extends_
    rw [made.resolution_eq, Table.get?_filter] at extends_
    split at extends_
    · rcases Naming.declare_gains run child parent extends_ with before | claimed
      · cases before
      · obtain ⟨declaration, member, rfl, claims⟩ := claimed
        exact made.declares.below_of_claims grounded member claims
    · cases extends_
  intro name cycle
  refine made.declares.not_below_self (?_ : (Naming.ofGraph graph options.rootName).Below name name)
  -- The induction is on the length of the chain from a declaration to what it extends in the end.
  have chain : ∀ last, Relation.TransGen resolution.IsChild name last →
      (Naming.ofGraph graph options.rootName).Below name last := by
    intro last extends_
    induction extends_ with
    | single first => exact below _ _ first
    | tail _ last step => exact made.declares.below_trans step (below _ _ last)
  exact chain name cycle

/-- A chain of two children, each of which is held by the field that claims it. -/
theorem acyclic_of_two_children :
    ∃ graph resolution, ShapeGraph.infer {} (.object [("+a[A]", .object [("x", .null),
        ("+b[B]", .object [("y", .null)])])]) = .ok graph ∧ graph.Grounded "RootObject" ∧
      SampleShapes.declarations {} (.object [("+a[A]", .object [("x", .null),
        ("+b[B]", .object [("y", .null)])])]) = .ok resolution ∧
      resolution.IsChild "B" "A" ∧ resolution.IsChild "A" "RootObject" ∧ resolution.Acyclic := by
  have declared : SampleShapes.declarations {} (.object [("+a[A]", .object [("x", .null),
      ("+b[B]", .object [("y", .null)])])]) = .ok
        { declarations := [
            ⟨"RootObject", [⟨"a", .named "A", false, .subclass⟩]⟩,
            ⟨"A", [⟨"x", .any, true, .plain⟩, ⟨"b", .named "B", false, .subclass⟩]⟩,
            ⟨"B", [⟨"y", .any, true, .plain⟩]⟩]
          parents := .ofList [("A", "RootObject"), ("B", "A")]
          warnings := [] } := by
    decide +kernel
  have grounded : (ShapeGraph.infer {} (.object [("+a[A]", .object [("x", .null),
      ("+b[B]", .object [("y", .null)])])])).toOption.any
        (fun graph => decide (graph.Grounded "RootObject")) = true := by
    decide +kernel
  cases inferred : ShapeGraph.infer {} (.object [("+a[A]", .object [("x", .null),
      ("+b[B]", .object [("y", .null)])])]) with
  | error failure =>
    rw [inferred] at grounded
    cases grounded
  | ok graph =>
    rw [inferred] at grounded
    have grounded := of_decide_eq_true grounded
    exact ⟨graph, _, rfl, grounded, declared, rfl, rfl,
      acyclic_of_grounded inferred grounded declared⟩

/-- **A declaration may extend its own child.** The field inside of the child holds no object with
fields, so that it is bound to the declaration around it, and what it claims is recorded: that
declaration does not extend itself at once. -/
theorem not_acyclic_of_declarations :
    ∃ resolution, SampleShapes.declarations {} (.object [("a[A]", .object [("x", .null),
        ("+b[B]", .object [("y", .null), ("+a[A]", .object [])])])]) = .ok resolution ∧
      resolution.IsChild "B" "A" ∧ resolution.IsChild "A" "B" ∧ ¬ resolution.Acyclic := by
  have declared : SampleShapes.declarations {} (.object [("a[A]", .object [("x", .null),
      ("+b[B]", .object [("y", .null), ("+a[A]", .object [])])])]) = .ok
        { declarations := [
            ⟨"RootObject", [⟨"a", .named "A", false, .reference⟩]⟩,
            ⟨"A", [⟨"x", .any, true, .plain⟩, ⟨"b", .named "B", false, .subclass⟩]⟩,
            ⟨"B", [⟨"y", .any, true, .plain⟩, ⟨"a", .named "A", false, .subclass⟩]⟩]
          parents := .ofList [("B", "A"), ("A", "B")]
          warnings := [] } := by
    decide +kernel
  exact ⟨_, declared, rfl, rfl, fun acyclic =>
    acyclic "A" (.tail (.single (rfl : _ = some "B")) rfl)⟩

end Resolution

end SampleShapes
