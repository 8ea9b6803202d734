/-
**Resolutions are closed.**

What is declared in the end is what the declaration of the root mentions, directly or not. An object
with fields is always among it: whatever leads to it is declared with its natural type, because a
field is only bound to a target if its value has no such object inside. So neither a mention nor a
parent is lost.

* `Declaration.mem_reachable_iff`: what is live is what the root mentions, directly or not;
* `DeclaresGraph.live_of_mentions`: a live declaration mentions live declarations only;
* `DeclaresGraph.live_of_fields`: **an object with fields is declared in the end**;
* `ShapeGraph.Sound.exists_declares`: what is left in the end, for any naming and policy;
* `closed_of_declarations`: **a resolution is closed.**
-/

import SampleShapes.Declare
import SampleShapes.Proofs.Resolution.Declarations

namespace SampleShapes

/-! ### Live declarations -/

namespace Declaration

variable {all : List Declaration} {declaration : Declaration} {name : String}
  {root : Option String}

theorem mem_mentioned_iff (distinct : (all.map Declaration.name).Nodup)
    (member : declaration ∈ all) :
    name ∈ mentioned all declaration.name ↔
      (∃ field ∈ declaration.fields, name ∈ field.type.references) ∧
        name ∈ all.map Declaration.name := by
  have found : all.find? (·.name = declaration.name) = some declaration := by
    cases first : all.find? (·.name = declaration.name) with
    | none =>
      have absent := List.find?_eq_none.mp first declaration member
      simp at absent
    | some other =>
      have same := List.find?_some first
      rw [List.inj_on_of_nodup_map distinct (List.mem_of_find?_eq_some first) member
        (of_decide_eq_true same)]
  unfold mentioned
  rw [found]
  simp [List.mem_flatMap]

/-- **What is live is what the root mentions,** directly or not. -/
theorem mem_reachable_iff :
    name ∈ reachable all root ↔
      Reach.Reached (mentioned all) (root.toList.filter (· ∈ all.map Declaration.name)) name := by
  refine Reach.mem_explore_iff (all.map Declaration.name) (fun place leads => ?_) (by simp)
  unfold mentioned at leads
  split at leads
  · next found =>
    have same := List.find?_some found
    rw [← of_decide_eq_true same]
    exact List.mem_map_of_mem (List.mem_of_find?_eq_some found)
  · exact absurd rfl leads

theorem mem_names_of_mem_reachable (live : name ∈ reachable all root) :
    name ∈ all.map Declaration.name := by
  cases mem_reachable_iff.mp live with
  | start start => exact of_decide_eq_true (List.mem_filter.mp start).2
  | @step place _ _ mentions =>
    unfold mentioned at mentions
    split at mentions
    · have declared := (List.mem_filter.mp mentions).2
      obtain ⟨declaration, member, same⟩ := List.any_eq_true.mp declared
      exact List.mem_map.mpr ⟨declaration, member, of_decide_eq_true same⟩
    · exact absurd mentions List.not_mem_nil

end Declaration

/-! ### Keys of declared fields -/

/-- The key is that of the field, with its mark or without. -/
def DeclaredField.HasKey (field : DeclaredField) (key : String) : Prop :=
  key = field.key ∨ key = (Key.parse field.key).name

/-- A field has the key that it is warned of under. -/
theorem Declaring.hasKey_declaredKey {setting : Declaring} {raw : String} {source : Field}
    {type : TypeRef} {optional : Bool} {kind : FieldKind} (keyed : source.key = Key.parse raw) :
    (⟨setting.declaredKey raw source, type, optional, kind⟩ : DeclaredField).HasKey
      source.key.name := by
  unfold declaredKey DeclaredField.HasKey
  split
  · exact .inr (congrArg Key.name keyed)
  · exact .inl rfl

/-! ### Declarations of a graph -/

/-- The declarations of the named objects of a graph. -/
structure DeclaresGraph (graph : ShapeGraph) (naming : Naming) (rootName : String)
    (policy : ReferencePolicy) (warnings : List Warning) (all : List Declaration) : Prop where
  sound : graph.Sound
  named : naming.Sound graph rootName
  each : List.Forall₂ (naming.DeclaredAs graph.registry policy warnings) naming.entries all

namespace DeclaresGraph

variable {graph : ShapeGraph} {naming : Naming} {rootName : String} {policy : ReferencePolicy}
  {warnings : List Warning} {all : List Declaration} {declaration : Declaration} {name : String}
  {index : Nat}

/-- The name of a declaration that is left in the end. -/
abbrev Live (naming : Naming) (all : List Declaration) (name : String) : Prop :=
  name ∈ Declaration.reachable all (naming.entries.head?.map Prod.snd)

section

variable (declares : DeclaresGraph graph naming rootName policy warnings all)
include declares

theorem names_eq : all.map Declaration.name = naming.entries.map Prod.snd := by
  have each := declares.each
  clear declares
  generalize naming.entries = entries at each
  induction each with
  | nil => rfl
  | cons first _ step => rw [List.map_cons, List.map_cons, step, first.1]

theorem distinct : (all.map Declaration.name).Nodup := by
  rw [declares.names_eq]
  exact declares.named.distinct

/-- The declaration of the root comes first, under the name that it is given. -/
theorem exists_root : ∃ first rest, all = first :: rest ∧ first.name = rootName ∧
    Live naming all rootName := by
  obtain ⟨index, others, _, _, front⟩ := declares.named.root
  have each := declares.each
  rw [front] at each
  cases each with
  | @cons _ first _ rest declared others =>
    refine ⟨first, rest, rfl, declared.1, Declaration.mem_reachable_iff.mpr (.start ?_)⟩
    rw [front]
    refine List.mem_filter.mpr ⟨by simp, decide_eq_true ?_⟩
    exact List.mem_map.mpr ⟨first, List.mem_cons_self, declared.1⟩

/-- **A live declaration mentions live declarations only,** among those that are declared. -/
theorem live_of_mentions (member : declaration ∈ all) (live : Live naming all declaration.name)
    {field : DeclaredField} (inside : field ∈ declaration.fields)
    (mentioned : name ∈ field.type.references) (declared : name ∈ all.map Declaration.name) :
    Live naming all name :=
  Declaration.mem_reachable_iff.mpr <| .step (Declaration.mem_reachable_iff.mp live) <|
    (Declaration.mem_mentioned_iff declares.distinct member).mpr
      ⟨⟨field, inside, mentioned⟩, declared⟩

theorem exists_declaration (entry : (index, name) ∈ naming.entries) :
    ∃ declaration ∈ all,
      naming.DeclaredAs graph.registry policy warnings (index, name) declaration :=
  Lists.exists_mem_of_forall₂ declares.each entry

/-- A field whose value has an object with fields inside keeps its natural type. -/
theorem type_of_link {raw : String} {field : Field} {type : FieldType}
    (typed : naming.fieldType graph.registry policy raw field = .ok type)
    (held : graph.registry.Holds field.shape) {under : Bool}
    (member : (index, under) ∈
      graph.objectsAt (graph.registry.capacity + 1) false field.shape)
    (entry : (index, name) ∈ naming.entries) {fields : Table String Field}
    (found : graph.registry.fields? (.node index) = some fields)
    (notEmpty : fields.isEmpty = false) :
    type.type = naming.typeOf graph.registry field.shape := by
  have mentioned := Naming.mem_references_of_mem_objectsAt declares.sound declares.named entry held
    member
  rcases Naming.fieldType_cases typed with ⟨natural, _⟩ | ⟨target, binds, _⟩
  · exact natural
  · rcases binds.loose with placeholder | nothing
    · rw [declares.sound.isEmpty_of_isPlaceholder placeholder member found] at notEmpty
      cases notEmpty
    · rw [nothing] at mentioned
      exact absurd mentioned List.not_mem_nil

theorem mem_references_of_link {setting : Declaring} {raw : String} {field : Field}
    {declared : DeclaredField} (settingOf : setting.naming = naming)
    (registryOf : setting.registry = graph.registry) (policyOf : setting.policy = policy)
    (resolves : setting.Resolves warnings (raw, field) declared)
    (held : graph.registry.Holds field.shape) {under : Bool}
    (member : (index, under) ∈
      graph.objectsAt (graph.registry.capacity + 1) false field.shape)
    (entry : (index, name) ∈ naming.entries) {fields : Table String Field}
    (found : graph.registry.fields? (.node index) = some fields)
    (notEmpty : fields.isEmpty = false) : name ∈ declared.type.references := by
  obtain ⟨type, typed, rfl, _⟩ := resolves
  rw [TypeRef.mem_references_collapseNull_iff]
  rw [settingOf, registryOf, policyOf] at typed
  rw [declares.type_of_link typed held member entry found notEmpty]
  exact Naming.mem_references_of_mem_objectsAt declares.sound declares.named entry held member

/-- **An object with fields is declared in the end.** -/
theorem live_of_fields (entry : (index, name) ∈ naming.entries) {fields : Table String Field}
    (found : graph.registry.fields? (.node index) = some fields)
    (notEmpty : fields.isEmpty = false) : Live naming all name := by
  -- The induction is on how the walk came to the object, from the root on.
  have reached := (declares.named.named index).mp (List.mem_map_of_mem entry)
  induction reached generalizing name fields with
  | @start place start =>
    obtain ⟨index, others, _, starts, front⟩ := declares.named.root
    rw [starts, List.mem_singleton] at start
    subst start
    have root : (place, rootName) ∈ naming.entries := by
      rw [front]
      exact List.mem_cons_self
    obtain ⟨_, _, _, _, live⟩ := declares.exists_root
    have same := List.inj_on_of_nodup_map declares.named.once entry root rfl
    rw [(Prod.mk.inj same).2]
    exact live
  | @step parent place reached leads step =>
    obtain ⟨⟨place, hint⟩, linked, rfl⟩ := List.mem_map.mp leads
    obtain ⟨own, field, under, object, inside, member, _⟩ := ShapeGraph.mem_links_iff.mp linked
    obtain ⟨⟨_, parentName⟩, parentEntry, rfl⟩ :=
      List.mem_map.mp ((declares.named.named parent).mpr reached)
    obtain ⟨raw, under⟩ := Table.mem_values_iff.mp inside
    -- The parent has a field, so that it is declared in the end itself.
    have live := step parentEntry object (Table.isEmpty_eq_false_of_get? under)
    obtain ⟨declaration, declared, rfl, fields', here, each⟩ :=
      declares.exists_declaration parentEntry
    obtain rfl := Option.some.inj (object.symm.trans here)
    obtain ⟨typed, listed, resolves⟩ :=
      Lists.exists_mem_of_forall₂ each (Table.get?_eq_some_iff.mp under)
    refine declares.live_of_mentions declared live listed ?_ ?_
    · exact declares.mem_references_of_link rfl rfl rfl resolves
        (declares.sound.registry.field object under).1 member entry found notEmpty
    · rw [declares.names_eq]
      exact List.mem_map_of_mem entry

/-- **What a live declaration mentions** is live, or a target that the policy keeps and that is
warned of for the field that mentions it. -/
theorem live_or_warned_of_field (member : declaration ∈ all)
    (live : Live naming all declaration.name) {field : DeclaredField}
    (inside : field ∈ declaration.fields) (mentioned : name ∈ field.type.references) :
    Live naming all name ∨ policy = .keep ∧ ∃ key, field.HasKey key ∧
      .unresolvedReference declaration.name key name ∈ warnings := by
  obtain ⟨⟨index, own⟩, entry, same, fields, found, each⟩ :=
    Lists.exists_mem_of_forall₂_right declares.each member
  obtain ⟨⟨raw, source⟩, listed, type, typed, rfl, warned⟩ :=
    Lists.exists_mem_of_forall₂_right each inside
  have known := Naming.isName_or_undeclared typed
    (TypeRef.mem_references_collapseNull_iff.mp mentioned)
  rcases known with isName | ⟨keep, undeclared⟩
  · refine .inl (declares.live_of_mentions member live inside mentioned ?_)
    rw [declares.names_eq]
    exact isName
  · have keyed := declares.sound.registry.keyed found raw source (Table.get?_eq_some_iff.mpr listed)
    refine .inr ⟨keep, source.key.name, Declaring.hasKey_declaredKey keyed, ?_⟩
    rw [same]
    exact warned name undeclared

theorem live_or_warned (member : declaration ∈ all) (live : Live naming all declaration.name)
    {field : DeclaredField} (inside : field ∈ declaration.fields)
    (mentioned : name ∈ field.type.references) :
    Live naming all name ∨ policy = .keep ∧
      ∃ key, .unresolvedReference declaration.name key name ∈ warnings :=
  (declares.live_or_warned_of_field member live inside mentioned).imp_right
    fun ⟨keep, key, _, warned⟩ => ⟨keep, key, warned⟩

/-- A parent is declared in the end. -/
theorem live_of_isParent (parent : Naming.IsParentAmong all name) : Live naming all name := by
  obtain ⟨declaration, member, rfl, some⟩ := parent
  obtain ⟨⟨index, own⟩, entry, same, fields, found, each⟩ :=
    Lists.exists_mem_of_forall₂_right declares.each member
  rw [same]
  refine declares.live_of_fields entry found ?_
  obtain ⟨field, inside⟩ := List.exists_mem_of_ne_nil _ some
  obtain ⟨⟨raw, source⟩, under, _⟩ := Lists.exists_mem_of_forall₂_right each inside
  exact Table.isEmpty_eq_false_of_get? (Table.get?_eq_some_iff.mpr under)

end

end DeclaresGraph

/-- **What is left in the end** are the live ones among the declarations of all named objects. -/
theorem ShapeGraph.Sound.exists_declares {graph : ShapeGraph} {rootName : String}
    {policy : ReferencePolicy} {resolution : Resolution} (sound : graph.Sound)
    (resolved : graph.resolve (Naming.ofGraph graph rootName) policy = .ok resolution) :
    ∃ all findings, (Naming.ofGraph graph rootName).declare graph.registry policy
        ⟨∅, (Naming.ofGraph graph rootName).warnings.reverse⟩
        (Naming.ofGraph graph rootName).entries = .ok (all, findings) ∧
      DeclaresGraph graph (Naming.ofGraph graph rootName) rootName policy findings.warnings all ∧
      Findings.Extends (Naming.IsParentAmong all)
        ⟨∅, (Naming.ofGraph graph rootName).warnings.reverse⟩ findings ∧
      resolution =
        { declarations := all.filter (·.name ∈ Declaration.reachable all
            ((Naming.ofGraph graph rootName).entries.head?.map Prod.snd))
          parents := findings.parents.filter (· ∈ Declaration.reachable all
            ((Naming.ofGraph graph rootName).entries.head?.map Prod.snd))
          warnings := findings.warnings.reverse } := by
  obtain ⟨all, findings, made, same⟩ := ShapeGraph.resolve_eq_ok resolved
  have named := Naming.ofGraph_sound sound rootName
  have objects : ∀ entry ∈ (Naming.ofGraph graph rootName).entries,
      (graph.registry.fields? (.node entry.1)).isSome := by
    intro entry member
    have entered : entry.1 ∈ (Walk.ofGraph graph rootName).order :=
      Walk.mem_order_iff.mpr ((named.named entry.1).mp (List.mem_map_of_mem member))
    exact Walk.isObject_of_mem_order entered
  obtain ⟨each, extends_⟩ := Naming.declare_spec objects made
  exact ⟨all, findings, made, ⟨sound, named, each⟩, extends_, same⟩

/-! ### Resolutions -/

namespace Resolution

/-- The name is that of a declaration. -/
def Declares (resolution : Resolution) (name : String) : Prop :=
  name ∈ resolution.declarations.map Declaration.name

/-- The resolution is what is left of all declarations of a graph. -/
structure MadeFrom (resolution : Resolution) (options : Options) (graph : ShapeGraph)
    (all : List Declaration) (findings : Findings) : Prop where
  /-- The declarations are those of the graph. -/
  declares : DeclaresGraph graph (Naming.ofGraph graph options.rootName) options.rootName
    options.references findings.warnings all
  /-- Parents are declarations with fields, and not those of their children. -/
  parents : ∀ child parent, findings.parents.get? child = some parent →
    child ≠ parent ∧ Naming.IsParentAmong all parent
  /-- Only live declarations are left. -/
  resolution_eq : resolution =
    { declarations := all.filter (·.name ∈ Declaration.reachable all
        ((Naming.ofGraph graph options.rootName).entries.head?.map Prod.snd))
      parents := findings.parents.filter (· ∈ Declaration.reachable all
        ((Naming.ofGraph graph options.rootName).entries.head?.map Prod.snd))
      warnings := findings.warnings.reverse }

variable {resolution : Resolution} {options : Options} {sample : Json} {graph : ShapeGraph}
  {all : List Declaration} {findings : Findings} {name : String}

/-- **How a resolution is made:** from a graph, by a run over the names of its objects. -/
theorem exists_run (declared : SampleShapes.declarations options sample = .ok resolution) :
    ∃ graph all findings, ShapeGraph.infer options sample = .ok graph ∧
      (Naming.ofGraph graph options.rootName).declare graph.registry options.references
        ⟨∅, (Naming.ofGraph graph options.rootName).warnings.reverse⟩
        (Naming.ofGraph graph options.rootName).entries = .ok (all, findings) ∧
      resolution.MadeFrom options graph all findings := by
  unfold SampleShapes.declarations at declared
  obtain ⟨graph, inferred, resolved⟩ := exists_of_bind_eq_ok declared
  have sound := (ShapeGraph.represents_of_infer inferred).toSound
  obtain ⟨all, findings, made, declares, extends_, same⟩ := sound.exists_declares resolved
  refine ⟨graph, all, findings, inferred, made, declares, ?_, same⟩
  intro child parent found
  rcases extends_.parents child parent found with before | added
  · cases before
  · exact added

theorem exists_madeFrom (declared : SampleShapes.declarations options sample = .ok resolution) :
    ∃ graph all findings, graph.Represents sample ∧
      resolution.MadeFrom options graph all findings := by
  obtain ⟨graph, all, findings, inferred, _, made⟩ := exists_run declared
  exact ⟨graph, all, findings, ShapeGraph.represents_of_infer inferred, made⟩

/-- There is one graph that a resolution is made from. -/
theorem exists_madeFrom_of_infer (inferred : ShapeGraph.infer options sample = .ok graph)
    (declared : SampleShapes.declarations options sample = .ok resolution) :
    ∃ all findings, resolution.MadeFrom options graph all findings := by
  obtain ⟨_, all, findings, inferred', _, made⟩ := exists_run declared
  obtain rfl := Except.ok.inj (inferred.symm.trans inferred')
  exact ⟨all, findings, made⟩

namespace MadeFrom

variable (made : resolution.MadeFrom options graph all findings)
include made

theorem mem_declarations_iff {declaration : Declaration} :
    declaration ∈ resolution.declarations ↔ declaration ∈ all ∧
      DeclaresGraph.Live (Naming.ofGraph graph options.rootName) all declaration.name := by
  rw [made.resolution_eq, List.mem_filter, decide_eq_true_iff]

/-- Every declaration that is left is that of a named object. -/
theorem exists_declaredAs {declaration : Declaration}
    (member : declaration ∈ resolution.declarations) :
    ∃ index, (index, declaration.name) ∈ (Naming.ofGraph graph options.rootName).entries ∧
      (Naming.ofGraph graph options.rootName).DeclaredAs graph.registry options.references
        findings.warnings (index, declaration.name) declaration := by
  obtain ⟨⟨index, own⟩, entry, declared⟩ :=
    Lists.exists_mem_of_forall₂_right made.declares.each (made.mem_declarations_iff.mp member).1
  obtain rfl : declaration.name = own := declared.1
  exact ⟨index, entry, declared⟩

/-- What is declared in the end is what is live. -/
theorem declares_iff :
    resolution.Declares name ↔
      DeclaresGraph.Live (Naming.ofGraph graph options.rootName) all name := by
  constructor
  · intro declared
    obtain ⟨declaration, member, rfl⟩ := List.mem_map.mp declared
    exact (made.mem_declarations_iff.mp member).2
  · intro live
    obtain ⟨declaration, member, rfl⟩ :=
      List.mem_map.mp (Declaration.mem_names_of_mem_reachable live)
    exact List.mem_map_of_mem (made.mem_declarations_iff.mpr ⟨member, live⟩)

/-- The declaration of the root comes first. -/
theorem exists_first : ∃ first rest others, resolution.declarations = first :: rest ∧
    all = first :: others ∧ first.name = options.rootName := by
  obtain ⟨first, others, front, named, live⟩ := made.declares.exists_root
  have head : resolution.declarations.head? = some first := by
    have kept : DeclaresGraph.Live (Naming.ofGraph graph options.rootName) all first.name := by
      rw [named]
      exact live
    rw [made.resolution_eq]
    dsimp only
    rw [front] at kept ⊢
    rw [List.filter_cons, if_pos (decide_eq_true kept), List.head?_cons]
  obtain ⟨rest, split⟩ := List.head?_eq_some_iff.mp head
  exact ⟨first, rest, others, split, front, named⟩

/-- **Children and their parents are declared,** and no child is its own parent. -/
theorem declares_of_parents {child parent : String}
    (found : resolution.parents.get? child = some parent) :
    resolution.Declares child ∧ resolution.Declares parent ∧ child ≠ parent := by
  rw [made.resolution_eq, Table.get?_filter] at found
  split at found
  · next live =>
    obtain ⟨apart, isParent⟩ := made.parents child parent found
    exact ⟨made.declares_iff.mpr (of_decide_eq_true live),
      made.declares_iff.mpr (made.declares.live_of_isParent isParent), apart⟩
  · cases found

end MadeFrom

/-- No name is declared twice, the declaration of the root comes first, and neither a mention nor
an extension leads out of the declarations, unless the policy keeps it and it is warned of. -/
structure Closed (resolution : Resolution) (options : Options) : Prop where
  /-- No name is declared twice. -/
  distinct : (resolution.declarations.map Declaration.name).Nodup
  /-- The first declaration has the name of the root. -/
  root : ∃ first rest, resolution.declarations = first :: rest ∧ first.name = options.rootName
  /-- What is mentioned is declared, unless the policy keeps targets. -/
  mentions : options.references ≠ .keep → ∀ declaration ∈ resolution.declarations,
    ∀ field ∈ declaration.fields, ∀ name ∈ field.type.references, resolution.Declares name
  /-- If it does, a declaration that mentions what is not declared is warned of. -/
  kept : options.references = .keep → ∀ declaration ∈ resolution.declarations,
    ∀ field ∈ declaration.fields, ∀ name ∈ field.type.references, ¬ resolution.Declares name →
      ∃ key, .unresolvedReference declaration.name key name ∈ resolution.warnings
  /-- Children and their parents are declared, and no child is its own parent. -/
  parents : ∀ child parent, resolution.parents.get? child = some parent →
    resolution.Declares child ∧ resolution.Declares parent ∧ child ≠ parent

/-- **A resolution is closed.** -/
theorem closed_of_declarations
    (declared : SampleShapes.declarations options sample = .ok resolution) :
    resolution.Closed options := by
  obtain ⟨graph, all, findings, _, made⟩ := exists_madeFrom declared
  have mentions : ∀ declaration ∈ resolution.declarations, ∀ field ∈ declaration.fields,
      ∀ name ∈ field.type.references, resolution.Declares name ∨ options.references = .keep ∧
        ∃ key, .unresolvedReference declaration.name key name ∈ resolution.warnings := by
    intro declaration member field inside name mentioned
    obtain ⟨member, live⟩ := made.mem_declarations_iff.mp member
    refine (made.declares.live_or_warned member live inside mentioned).imp made.declares_iff.mpr ?_
    rintro ⟨keep, key, warned⟩
    refine ⟨keep, key, ?_⟩
    rw [made.resolution_eq]
    exact List.mem_reverse.mpr warned
  refine ⟨?_, ?_, fun policy declaration member field inside name mentioned => ?_,
    fun _ declaration member field inside name mentioned undeclared => ?_,
    fun _ _ => made.declares_of_parents⟩
  · rw [made.resolution_eq]
    exact made.declares.distinct.sublist (List.filter_sublist.map _)
  · obtain ⟨first, rest, _, front, _, named⟩ := made.exists_first
    exact ⟨first, rest, front, named⟩
  · rcases mentions declaration member field inside name mentioned with declared | ⟨keep, _⟩
    · exact declared
    · exact absurd keep policy
  · rcases mentions declaration member field inside name mentioned with declared | ⟨_, warned⟩
    · exact absurd declared undeclared
    · exact warned

/-- A target that an object is declared for, and that an empty list refers to. -/
theorem closed_of_two_references :
    ∃ resolution, SampleShapes.declarations {} (.object [("+a[T]", .object [("x", .null)]),
        ("b[T]", .array [])]) = .ok resolution ∧ resolution.parents.size = 1 ∧
      resolution.Closed {} := by
  have declared : SampleShapes.declarations {} (.object [("+a[T]", .object [("x", .null)]),
      ("b[T]", .array [])]) = .ok
        { declarations := [
            ⟨"RootObject", [⟨"a", .named "T", false, .subclass⟩,
              ⟨"b", .array (.named "T"), false, .reference⟩]⟩,
            ⟨"T", [⟨"x", .any, true, .plain⟩]⟩]
          parents := .ofList [("T", "RootObject")]
          warnings := [] } := by
    decide +kernel
  exact ⟨_, declared, rfl, closed_of_declarations declared⟩

end Resolution

end SampleShapes
