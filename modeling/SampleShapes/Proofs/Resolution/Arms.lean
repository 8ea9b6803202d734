/-
**Arms of unions.**

Merging keeps every member of a union once, but types do not tell all shapes apart, and nothing
removes repetition once a shape has become a type. So an arm stands twice exactly where two members
of one union look alike: objects that stand for one, or a list of nothing beside a list of null, on
their own or inside of other lists. The type of a bound field does not come from its shape and has
no arms to repeat. Without references and null no shapes look alike, and every arm stands once.

* `TypeRef.armsDistinct_ofArms_iff`: what has its arms once, one level at a time;
* `ShapeGraph.armsDistinct_typeOf_iff`: **a type has its arms once exactly if the members of every
  union in the shape can be told apart**;
* `Declaring.armsDistinct_iff_of_resolves`: so has a declared field, or it is bound;
* `Resolution.distinct_arms`: **when arms are distinct, and that they are without references and
  null**;
* `Resolution.exists_arm_twice`: **an arm may stand twice.**
-/

import SampleShapes.Proofs.Naming.Alternatives
import SampleShapes.Proofs.NullFree

namespace SampleShapes

/-! ### Types -/

namespace TypeRef

variable {type element : TypeRef} {arms : List TypeRef}

/-- No union that stands in the type has an arm twice. -/
def ArmsDistinct (type : TypeRef) : Prop := ∀ arms, .union arms ∈ type.parts → arms.Nodup

theorem armsDistinct_iff_everywhere :
    type.ArmsDistinct ↔ type.Everywhere fun part => ∀ arms, part = .union arms → arms.Nodup := by
  constructor
  · rintro distinct part member arms rfl
    exact distinct arms member
  · exact fun everywhere arms member => everywhere (.union arms) member arms rfl

@[simp] theorem armsDistinct_primitive (kind : Primitive) : (primitive kind).ArmsDistinct :=
  fun arms member => absurd (List.mem_singleton.mp member) (by simp)

@[simp] theorem armsDistinct_date : date.ArmsDistinct :=
  fun arms member => absurd (List.mem_singleton.mp member) (by simp)

@[simp] theorem armsDistinct_named (name : String) : (named name).ArmsDistinct :=
  fun arms member => absurd (List.mem_singleton.mp member) (by simp)

@[simp] theorem armsDistinct_array_iff : (array element).ArmsDistinct ↔ element.ArmsDistinct := by
  rw [armsDistinct_iff_everywhere, armsDistinct_iff_everywhere, everywhere_array]
  exact and_iff_right fun arms same => by cases same

@[simp] theorem armsDistinct_union_iff :
    (union arms).ArmsDistinct ↔ arms.Nodup ∧ ∀ arm ∈ arms, arm.ArmsDistinct := by
  simp only [armsDistinct_iff_everywhere, everywhere_union, union.injEq, forall_eq']

/-- **Arms are distinct** if none stands twice and they are so inside of each. -/
theorem armsDistinct_ofArms_iff :
    (ofArms arms).ArmsDistinct ↔ arms.Nodup ∧ ∀ arm ∈ arms, arm.ArmsDistinct := by
  match arms with
  | [] => simp [ofArms]
  | [arm] => simp [ofArms]
  | first :: second :: rest => exact armsDistinct_union_iff

theorem armsDistinct_ofElement_iff : type.ofElement.ArmsDistinct ↔ type.ArmsDistinct := by
  unfold ofElement
  split
  · next isNull => simp [isNull]
  · rfl

end TypeRef

/-! ### Shapes -/

namespace Registry

variable {registry : Registry} {part position : ShapeId}

/-- The shape stands in the position, or inside of the lists and unions that stand there. -/
inductive StandsIn (registry : Registry) (part : ShapeId) : ShapeId → Prop where
  /-- A shape stands in its own position. -/
  | here : StandsIn registry part part
  /-- What stands in an element stands in the list. -/
  | element {list element : ShapeId} {elements : IdSet}
      (found : registry.elements? list = some elements) (member : element ∈ elements)
      (inside : StandsIn registry part element) : StandsIn registry part list
  /-- What stands in an alternative stands in the union. -/
  | member {union alternative : ShapeId} {members : IdSet}
      (found : registry.members? union = some members) (member : alternative ∈ members)
      (inside : StandsIn registry part alternative) : StandsIn registry part union

end Registry

namespace ShapeGraph

open Registry

variable {graph : ShapeGraph} {naming : Naming} {id position : ShapeId} {members : IdSet}

/-- The shapes cannot be mistaken for each other. -/
def Distinguishes (graph : ShapeGraph) (ids : List ShapeId) : Prop :=
  ∀ first ∈ ids, ∀ second ∈ ids, graph.LooksAlike first second → first = second

/-- No two members of a union that stands in the position look alike. -/
def TellsApart (graph : ShapeGraph) (position : ShapeId) : Prop :=
  ∀ union members, graph.registry.StandsIn union position →
    graph.registry.members? union = some members → graph.Distinguishes members.toList

theorem tellsApart_of_leaf (notList : graph.registry.elements? position = none)
    (notUnion : graph.registry.members? position = none) : graph.TellsApart position := by
  intro union members stands found
  cases stands with
  | here => cases notUnion.symm.trans found
  | element list => cases notList.symm.trans list
  | member own => cases notUnion.symm.trans own

theorem tellsApart_of_elements?_iff {element : ShapeId}
    (found : graph.registry.elements? position = some (.singleton element)) :
    graph.TellsApart position ↔ graph.TellsApart element := by
  constructor
  · intro apart union members stands
    exact apart union members (.element found (List.mem_singleton_self element) stands)
  · intro apart union members stands union'
    have noUnion := members?_eq_none_of_elements? (Option.isSome_of_eq_some found)
    cases stands with
    | here => cases noUnion.symm.trans union'
    | element list member inside =>
      obtain rfl := Option.some.inj (found.symm.trans list)
      rw [List.mem_singleton.mp member] at inside
      exact apart union members inside union'
    | member own => cases noUnion.symm.trans own

theorem tellsApart_of_members?_iff
    (found : graph.registry.members? position = some members) :
    graph.TellsApart position ↔
      graph.Distinguishes members.toList ∧ ∀ member ∈ members, graph.TellsApart member := by
  constructor
  · intro apart
    exact ⟨apart position members .here found, fun member inside union others stands =>
      apart union others (.member found inside stands)⟩
  · rintro ⟨own, each⟩ union others stands union'
    cases stands with
    | here =>
      obtain rfl := Option.some.inj (found.symm.trans union')
      exact own
    | element list =>
      cases (members?_eq_none_of_elements? (Option.isSome_of_eq_some list)).symm.trans found
    | member here member inside =>
      obtain rfl := Option.some.inj (found.symm.trans here)
      exact each _ member union others inside union'

/-- What looks like null is null, so that null need not be asked about. -/
theorem distinguishes_filter_iff {ids : List ShapeId} :
    graph.Distinguishes (ids.filter (· ≠ .null)) ↔ graph.Distinguishes ids := by
  constructor
  · intro apart first member second member' alike
    by_cases solid : first ≠ .null ∧ second ≠ .null
    · exact apart first (List.mem_filter.mpr ⟨member, decide_eq_true solid.1⟩) second
        (List.mem_filter.mpr ⟨member', decide_eq_true solid.2⟩) alike
    · rw [not_and_or, not_ne_iff, not_ne_iff] at solid
      refine alike.eq_of_leaf (solid.imp ?_ ?_) <;> rintro rfl <;> rfl
  · exact fun apart first member second member' =>
      apart first (List.mem_of_mem_filter member) second (List.mem_of_mem_filter member')

/-- **A position tells shapes apart** exactly if its solid alternatives are told apart and tell
shapes apart themselves. -/
theorem tellsApart_iff_solid :
    graph.TellsApart position ↔ graph.Distinguishes (graph.registry.solid position) ∧
      ∀ alternative ∈ graph.registry.solid position, graph.TellsApart alternative := by
  have null : graph.TellsApart .null := tellsApart_of_leaf rfl rfl
  cases found : graph.registry.members? position with
  | none =>
    unfold solid
    rw [alternatives_of_flat found, distinguishes_filter_iff]
    by_cases isNull : position = .null
    · simp [isNull, null, Distinguishes]
    · simp [isNull, Distinguishes]
  | some members =>
    unfold solid
    rw [alternatives_of_members? found, distinguishes_filter_iff,
      tellsApart_of_members?_iff found]
    refine and_congr_right fun _ =>
      ⟨fun each alternative member => ?_, fun each member inside => ?_⟩
    · exact each alternative (List.mem_of_mem_filter member)
    · by_cases isNull : member = .null
      · rw [isNull]
        exact null
      · exact each member (List.mem_filter.mpr ⟨inside, decide_eq_true isNull⟩)

/-! ### Types of shapes -/

section Inferred

variable {options : Options} {sample : Json} {rootName : String}
  (inferred : infer options sample = .ok graph)
include inferred

theorem nodup_map_typeOf_iff {ids : List ShapeId} (distinct : ids.Nodup)
    (types : ∀ id ∈ ids, graph.Types (Naming.ofGraph graph rootName) id) :
    (ids.map ((Naming.ofGraph graph rootName).typeOf graph.registry)).Nodup ↔
      graph.Distinguishes ids := by
  rw [List.nodup_map_iff_inj_on distinct]
  refine forall₂_congr fun first member => forall₂_congr fun second member' => ?_
  rw [looksAlike_iff inferred (types first member) (types second member')]

/-- **A type has its arms once** exactly if the members of every union in the shape can be told
apart. -/
theorem armsDistinct_typeOf_iff (types : graph.Types (Naming.ofGraph graph rootName) id) :
    ((Naming.ofGraph graph rootName).typeOf graph.registry id).ArmsDistinct ↔
      graph.TellsApart id := by
  have sound := (represents_of_infer inferred).registry
  have normal := (produced_of_infer inferred).normal
  have definite := (produced_of_infer inferred).definite
  suffices all : graph.Types (Naming.ofGraph graph rootName) id →
      (((Naming.ofGraph graph rootName).typeOf graph.registry id).ArmsDistinct ↔
        graph.TellsApart id) from all types
  refine sound.induct_children (fun id held step types => ?_) types.held
  have hasType := types.hasType sound normal
  generalize (Naming.ofGraph graph rootName).typeOf graph.registry id = type at hasType ⊢
  cases hasType with
  | primitive isKind =>
    exact iff_of_true (by simp) (isKind ▸ tellsApart_of_leaf rfl rfl)
  | date isDate => exact iff_of_true (by simp) (isDate ▸ tellsApart_of_leaf rfl rfl)
  | object isNode object entry =>
    exact iff_of_true (by simp) (tellsApart_of_leaf (elements?_eq_none_of_fields? object)
      (members?_eq_none_of_fields? object))
  | @list element found =>
    have member := List.mem_singleton_self element
    rw [TypeRef.armsDistinct_array_iff, TypeRef.armsDistinct_ofElement_iff,
      tellsApart_of_elements?_iff found]
    exact step _ (elements?_eq_some_iff.mp found) element member
      (types.element sound definite found member)
  | nothing found =>
    refine iff_of_true (by simp) ((tellsApart_of_members?_iff found).mpr ⟨?_, ?_⟩) <;>
      exact fun _ member => absurd member List.not_mem_nil
  | @union members found several =>
    have inside : ∀ member ∈ members.toList, graph.Types (Naming.ofGraph graph rootName) member :=
      fun member listed => types.member sound definite found listed
    rw [TypeRef.armsDistinct_union_iff, nodup_map_typeOf_iff inferred members.nodup_toList inside,
      tellsApart_of_members?_iff found, List.forall_mem_map]
    refine and_congr_right fun _ => forall₂_congr fun member listed => ?_
    exact step _ (members?_eq_some_iff.mp found) member listed (inside member listed)

/-- **The type of a field has its arms once** under the same condition: null is told from everything
else. -/
theorem armsDistinct_collapseNull_typeOf_iff
    (types : graph.Types (Naming.ofGraph graph rootName) id) :
    ((Naming.ofGraph graph rootName).typeOf graph.registry id).collapseNull.1.ArmsDistinct ↔
      graph.TellsApart id := by
  have sound := (represents_of_infer inferred).registry
  have produced := produced_of_infer inferred
  have inside : ∀ alternative ∈ graph.registry.solid id,
      graph.Types (Naming.ofGraph graph rootName) alternative := fun alternative member =>
    (types.of_mem_solid sound produced.normal produced.definite member).1
  rw [collapseNull_typeOf sound produced.normal types.held, TypeRef.armsDistinct_ofArms_iff,
    nodup_map_typeOf_iff inferred (graph.registry.nodup_solid id) inside, tellsApart_iff_solid,
    List.forall_mem_map]
  exact and_congr_right fun _ => forall₂_congr fun alternative member =>
    armsDistinct_typeOf_iff inferred (inside alternative member)

end Inferred

end ShapeGraph

/-! ### Fields -/

/-- The type of a bound field has no arms to repeat. -/
theorem Registry.armsDistinct_collapseNull_boundType (registry : Registry) (id : ShapeId)
    (target : String) : (registry.boundType id target).collapseNull.1.ArmsDistinct := by
  unfold boundType
  split
  · exact TypeRef.armsDistinct_array_iff.mpr (TypeRef.armsDistinct_named target)
  · split
    · have named : (TypeRef.union [.named target, .null]).collapseNull.1 = .named target := by
        simp [TypeRef.collapseNull, TypeRef.ofArms]
      rw [named]
      exact TypeRef.armsDistinct_named target
    · exact TypeRef.armsDistinct_named target

/-- **When a declared field has its arms once.** -/
theorem Declaring.armsDistinct_iff_of_resolves {graph : ShapeGraph} {options : Options}
    {sample : Json} {rootName name : String} {keys : List String} {policy : ReferencePolicy}
    {warnings : List Warning} {entry : String × Field} {declared : DeclaredField}
    (inferred : ShapeGraph.infer options sample = .ok graph)
    (types : graph.Types (Naming.ofGraph graph rootName) entry.2.shape)
    (resolves : Declaring.Resolves ⟨Naming.ofGraph graph rootName, graph.registry, policy, name,
      keys⟩ warnings entry declared) :
    declared.type.ArmsDistinct ↔
      ((∀ target, ¬ (Naming.ofGraph graph rootName).Binds graph.registry policy entry.2 target) →
        graph.TellsApart entry.2.shape) := by
  obtain ⟨found, typed, rfl, _⟩ := resolves
  rcases Naming.fieldType_cases typed with ⟨natural, free⟩ | ⟨target, binds, bound, _⟩
  · rw [natural]
    refine (ShapeGraph.armsDistinct_collapseNull_typeOf_iff inferred types).trans ?_
    exact ⟨fun apart _ => apart, fun apart => apart free⟩
  · rw [bound]
    exact iff_of_true (graph.registry.armsDistinct_collapseNull_boundType _ target)
      fun free => absurd binds (free target)

/-! ### Resolutions -/

namespace Resolution

open ShapeGraph

variable {resolution : Resolution} {options : Options} {sample : Json} {graph : ShapeGraph}

/-- **When arms are distinct:** a field that is declared has no arm twice exactly if no two members
of a union in its shape look alike, or it is bound; and no field has without references and null. -/
theorem distinct_arms (inferred : infer options sample = .ok graph)
    (declared : SampleShapes.declarations options sample = .ok resolution)
    {declaration : Declaration} (member : declaration ∈ resolution.declarations) :
    (∃ index fields,
      (index, declaration.name) ∈ (Naming.ofGraph graph options.rootName).entries ∧
      graph.registry.fields? (.node index) = some fields ∧
      List.Forall₂ (fun entry declared => declared.type.ArmsDistinct ↔
          ((∀ target, ¬ (Naming.ofGraph graph options.rootName).Binds graph.registry
              options.references entry.2 target) →
            graph.TellsApart entry.2.shape))
        fields.entries declaration.fields) ∧
    (sample.KeysDistinct → sample.Unmarked → sample.NullFree →
      ∀ field ∈ declaration.fields, field.type.ArmsDistinct) := by
  obtain ⟨all, findings, made⟩ := exists_madeFrom_of_infer inferred declared
  obtain ⟨index, entry, _, fields, found, each⟩ := made.exists_declaredAs member
  have iffs := Lists.forall₂_imp_of_mem (fun source listed field _ resolves =>
    Declaring.armsDistinct_iff_of_resolves inferred
      (types_of_infer inferred entry found (List.mem_map_of_mem listed)) resolves) each
  refine ⟨⟨index, fields, entry, found, iffs⟩, fun distinct unmarked nullFree field inside => ?_⟩
  obtain ⟨source, listed, arms⟩ := Lists.exists_mem_of_forall₂_right iffs inside
  refine arms.mpr fun _ union members _ found first member second _ alike => ?_
  exact eq_of_looksAlike_of_infer distinct unmarked nullFree inferred
    ((represents_of_infer inferred).registry.member found member).1 alike

/-- A union of a text, a list and an object, and a union in the list; without references and null
every arm stands once. -/
theorem distinct_arms_of_mixed_list :
    ∃ graph resolution declaration,
      infer {} (.object [("x", .array [.string "s", .array [.bool true, .string "s"],
        .object [("p", .bool true)], .object [("q", .bool true)]])]) = .ok graph ∧
      SampleShapes.declarations {} (.object [("x", .array [.string "s",
        .array [.bool true, .string "s"], .object [("p", .bool true)],
          .object [("q", .bool true)]])]) = .ok resolution ∧
      declaration ∈ resolution.declarations ∧
      declaration.fields.map DeclaredField.type = [.array (.union [.primitive .string,
        .array (.union [.primitive .string, .primitive .boolean]), .named "X", .named "X2"])] ∧
      (∃ index fields,
        (index, declaration.name) ∈ (Naming.ofGraph graph "RootObject").entries ∧
        graph.registry.fields? (.node index) = some fields ∧
        List.Forall₂ (fun entry declared => declared.type.ArmsDistinct ↔
            ((∀ target, ¬ (Naming.ofGraph graph "RootObject").Binds graph.registry .drop
                entry.2 target) →
              graph.TellsApart entry.2.shape))
          fields.entries declaration.fields) ∧
      ∀ field ∈ declaration.fields, field.type.ArmsDistinct := by
  have declared : SampleShapes.declarations {} (.object [("x", .array [.string "s",
      .array [.bool true, .string "s"], .object [("p", .bool true)],
        .object [("q", .bool true)]])]) = .ok
      { declarations := [
          ⟨"RootObject", [⟨"x", .array (.union [.primitive .string,
            .array (.union [.primitive .string, .primitive .boolean]), .named "X", .named "X2"]),
              false, .plain⟩]⟩,
          ⟨"X", [⟨"p", .primitive .boolean, false, .plain⟩]⟩,
          ⟨"X2", [⟨"q", .primitive .boolean, false, .plain⟩]⟩]
        parents := ∅
        warnings := [] } := by
    decide +kernel
  obtain ⟨graph, _, _, inferred, _⟩ := exists_run declared
  obtain ⟨iffs, clean⟩ := distinct_arms inferred declared List.mem_cons_self
  exact ⟨graph, _, _, inferred, declared, List.mem_cons_self, rfl, iffs,
    clean (by decide +kernel) (by decide +kernel) (by decide +kernel)⟩

/-- **An arm may stand twice:** two objects under one target have its name, whether they were alike
or not, and a list of nothing and one of null have one type. -/
theorem exists_arm_twice :
    (∃ resolution, SampleShapes.declarations {} (.object [("x[T]", .array
        [.object [("a", .bool true)], .object [("b", .bool true)], .string "s"])]) =
          .ok resolution ∧
      ∃ declaration ∈ resolution.declarations, ∃ field ∈ declaration.fields,
        ¬ field.type.ArmsDistinct) ∧
    ∃ resolution, SampleShapes.declarations {} (.object [("x",
        .array [.array [], .array [.null], .string "s"])]) = .ok resolution ∧
      ∃ declaration ∈ resolution.declarations, ∃ field ∈ declaration.fields,
        ¬ field.type.ArmsDistinct := by
  have merged : SampleShapes.declarations {} (.object [("x[T]", .array
      [.object [("a", .bool true)], .object [("b", .bool true)], .string "s"])]) = .ok
        { declarations := [
            ⟨"RootObject", [⟨"x", .array (.union [.primitive .string, .named "T", .named "T"]),
              false, .reference⟩]⟩,
            ⟨"T", [⟨"a", .primitive .boolean, true, .plain⟩,
              ⟨"b", .primitive .boolean, true, .plain⟩]⟩]
          parents := ∅
          warnings := [] } := by
    decide +kernel
  have bare : SampleShapes.declarations {} (.object [("x",
      .array [.array [], .array [.null], .string "s"])]) = .ok
        { declarations := [
            ⟨"RootObject", [⟨"x", .array (.union [.primitive .string, .array .any, .array .any]),
              false, .plain⟩]⟩]
          parents := ∅
          warnings := [] } := by
    decide +kernel
  refine ⟨⟨_, merged, _, List.mem_cons_self, _, List.mem_cons_self, fun distinct => ?_⟩,
    ⟨_, bare, _, List.mem_cons_self, _, List.mem_cons_self, fun distinct => ?_⟩⟩
  · exact absurd (distinct [.primitive .string, .named "T", .named "T"] (by decide)) (by decide)
  · exact absurd (distinct [.primitive .string, .array .any, .array .any] (by decide)) (by decide)

end Resolution

end SampleShapes
