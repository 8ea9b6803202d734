/-
**Scalars inside of arrays count as a set of kinds.**

No scalar touches the registry. Its identity is its kind, which is the same for every scalar of the
kind, and a merge looks at the kinds among its candidates as a set. So two samples that differ in
their scalars only, and in where these stand in arrays and how often, are observed alike in every
step: their containers are interned in the same order, and what is merged is in step. Everything
behind the observation, down to the numbers behind names and the order of warnings, is the same.

* `elements_weave`: what is observed in elements is what is observed in the containers among them,
  with the kinds of scalars woven in;
* `value_eq_of_interchanged`: **values that differ in scalars only are observed alike;**
* `declarations_eq_of_interchanged`: **and are declared alike, or fail alike.**
-/

import SampleShapes.Declare
import SampleShapes.Proofs.Json.Interchange
import SampleShapes.Proofs.Lockstep
import SampleShapes.Proofs.Registry.Interchange

namespace SampleShapes

namespace Observing

open Registry

variable {options : Options} {depth : Nat} {sample other : Json} {elements others : List Json}

/-! ### Values -/

/-- Where values stand too deep, every value fails alike. -/
theorem value_of_deep (deep : options.maxDepth < depth) (sample : Json) :
    value options depth sample = throw (.depthLimitExceeded options.maxDepth) := by
  unfold value
  rw [if_pos deep]
  rfl

theorem value_of_isScalar (within : ¬ options.maxDepth < depth) (scalar : sample.isScalar = true) :
    value options depth sample = pure (sample.scalarId options.detectDates) := by
  cases sample with
  | array elements => cases scalar
  | object members => cases scalar
  | _ =>
    unfold value
    rw [if_neg within]

theorem value_of_array (within : ¬ options.maxDepth < depth) (elements : List Json) :
    value options depth (.array elements) =
      Observing.elements options (depth + 1) elements >>= fun ids =>
        merge ids >>= fun element => intern (.list (.singleton element)) := by
  rw [value, if_neg within]

theorem value_of_object (within : ¬ options.maxDepth < depth) (members : List (String × Json)) :
    value options depth (.object members) =
      Observing.members options (depth + 1) members >>= fun fields =>
        intern (.object (.ofList fields)) := by
  rw [value, if_neg within]

/-! ### Elements -/

/-- The identities are those of the nodes, in their order, with kinds of scalars woven in. -/
structure Weaves (kinds nodes ids : List ShapeId) : Prop where
  order : ids.filter ShapeId.isNode = nodes.filter ShapeId.isNode
  mem_iff : ∀ id, id ∈ ids ↔ id ∈ nodes ∨ id ∈ kinds

theorem Weaves.inStep {kinds kinds' nodes ids ids' : List ShapeId} (weaves : Weaves kinds nodes ids)
    (weaves' : Weaves kinds' nodes ids') (same : ∀ id, id ∈ kinds ↔ id ∈ kinds') :
    InStep ids ids' where
  nodes := weaves.order.trans weaves'.order.symm
  mem_iff id := by rw [weaves.mem_iff, weaves'.mem_iff, same]

theorem scalarId_isNode (detectDates : Bool) (sample : Json) :
    (sample.scalarId detectDates).isNode = false := by
  unfold Json.scalarId
  split <;> rfl

/-- What is observed in elements is what is observed in the containers among them, with the kinds of
scalars woven in. -/
theorem elements_weave (within : ¬ options.maxDepth < depth) (elements : List Json) :
    Lockstep (Weaves (Json.kinds options.detectDates elements))
      (Observing.elements options depth (Json.containers elements))
      (Observing.elements options depth elements) := by
  induction elements with
  | nil => exact .pure ⟨rfl, fun id => by simp [Json.kinds]⟩
  | cons element rest step =>
    cases scalar : element.isScalar with
    | true =>
      rw [Json.containers_cons_of_isScalar scalar, Observing.elements,
        value_of_isScalar within scalar, pure_bind, ← bind_pure (Observing.elements options depth
          (Json.containers rest))]
      refine step.bind fun nodes ids weaves => .pure ⟨?_, fun id => ?_⟩
      · rw [List.filter_cons_of_neg (by rw [scalarId_isNode]; decide), weaves.order]
      · rw [Json.kinds_cons_of_isScalar scalar, List.mem_cons, List.mem_cons, weaves.mem_iff,
          or_left_comm]
    | false =>
      rw [Json.containers_cons_of_not_isScalar scalar, Observing.elements, Observing.elements]
      refine (Lockstep.refl _).bind fun first _ same => ?_
      subst same
      refine step.bind fun nodes ids weaves => .pure ⟨?_, fun id => ?_⟩
      · rw [List.filter_cons, List.filter_cons, weaves.order]
      · rw [Json.kinds_cons_of_not_isScalar scalar, List.mem_cons, List.mem_cons, weaves.mem_iff,
          or_assoc]

/-- Where elements stand too deep, the first of them fails. -/
theorem elements_of_deep (deep : options.maxDepth < depth) (nonempty : elements ≠ []) :
    Observing.elements options depth elements =
      throw (.depthLimitExceeded options.maxDepth) := by
  obtain ⟨first, rest, rfl⟩ := List.exists_cons_of_ne_nil nonempty
  rw [Observing.elements, value_of_deep deep]
  rfl

theorem elements_congr
    (each : List.Forall₂ (fun element other =>
      value options depth element = value options depth other) elements others) :
    Observing.elements options depth elements = Observing.elements options depth others := by
  induction each with
  | nil => rfl
  | cons same _ step => rw [Observing.elements, Observing.elements, same, step]

/-- Elements whose containers are observed alike, and whose scalars are of the same kinds, come to
identities in step. -/
theorem elements_inStep (empty : elements = [] ↔ others = [])
    (each : List.Forall₂ (fun element other =>
      value options depth element = value options depth other)
      (Json.containers elements) (Json.containers others))
    (same : ∀ id, id ∈ Json.kinds options.detectDates elements ↔
      id ∈ Json.kinds options.detectDates others) :
    Lockstep InStep (Observing.elements options depth elements)
      (Observing.elements options depth others) := by
  by_cases deep : options.maxDepth < depth
  · by_cases none : elements = []
    · rw [none, empty.mp none]
      exact .pure (.refl [])
    · rw [elements_of_deep deep none, elements_of_deep deep (mt empty.mpr none)]
      exact fun observer => .failed _ observer
  · intro observer
    have weaves := elements_weave deep elements observer
    rw [elements_congr each] at weaves
    exact weaves.of_common (elements_weave deep others observer)
      fun nodes ids ids' weaves weaves' => weaves.inStep weaves' same

/-! ### Members -/

theorem bindList_of_isScalar (target : Option String) (scalar : sample.isScalar = true)
    (observe : Observing ShapeId) : bindList target sample observe = observe := by
  cases sample with
  | array elements => cases scalar
  | object members => cases scalar
  | _ => cases target <;> rfl

theorem bindList_of_array (target : Option String) (empty : elements = [] ↔ others = [])
    (observe : Observing ShapeId) :
    bindList target (.array elements) observe = bindList target (.array others) observe := by
  match elements, others with
  | [], [] => rfl
  | [], first :: rest => cases empty.mp rfl
  | first :: rest, [] => cases empty.mpr rfl
  | first :: rest, first' :: rest' => cases target <;> rfl

/-- References are bound alike by values that differ in scalars only. -/
theorem bindList_eq_of_interchanged {detectDates : Bool} (target : Option String)
    (interchanged : sample.Interchanged detectDates other) (observe : Observing ShapeId) :
    bindList target sample observe = bindList target other observe := by
  cases interchanged with
  | scalar scalar scalar' =>
    rw [bindList_of_isScalar target scalar, bindList_of_isScalar target scalar']
  | array inside same =>
    exact bindList_of_array target (Json.eq_nil_iff_of_interchanged inside same) observe
  | object => cases target <;> rfl

theorem members_eq_of_interchanged {members members' : List (String × Json)}
    (each : List.Forall₂ (fun member member' =>
      Json.InterchangedMember options.detectDates member member' ∧
        value options depth member.2 = value options depth member'.2) members members') :
    Observing.members options depth members = Observing.members options depth members' := by
  induction each with
  | nil => rfl
  | cons first _ step =>
    obtain ⟨⟨inside⟩, same⟩ := first
    dsimp only at same
    rw [Observing.members, Observing.members, same, bindList_eq_of_interchanged _ inside, step]

/-! ### Observations -/

/-- **Values that differ in scalars only are observed alike.** -/
theorem value_eq_of_interchanged
    (interchanged : sample.Interchanged options.detectDates other) :
    value options depth sample = value options depth other := by
  induction sample using Json.induct generalizing other depth with
  | step sample parts =>
    by_cases deep : options.maxDepth < depth
    · rw [value_of_deep deep, value_of_deep deep]
    · cases interchanged with
      | scalar scalar scalar' same =>
        rw [value_of_isScalar deep scalar, value_of_isScalar deep scalar', same]
      | array inside same =>
        have both := (List.forall₂_and_left _ _).mpr ⟨fun element listed => listed, inside⟩
        rw [value_of_array deep, value_of_array deep]
        refine (elements_inStep (Json.eq_nil_iff_of_interchanged inside same)
          (both.imp fun element other ⟨listed, interchanged⟩ =>
            parts element (Json.mem_containers_iff.mp listed).1 interchanged) same).bind_eq
              fun ids ids' inStep => ?_
        have merged : merge ids = merge ids' := by
          unfold merge
          simp only [merge_eq_of_inStep inStep]
        rw [merged]
      | object inside =>
        have both := (List.forall₂_and_left _ _).mpr ⟨fun member listed => listed, inside⟩
        rw [value_of_object deep, value_of_object deep,
          members_eq_of_interchanged (both.imp fun member member' ⟨listed, interchanged⟩ => ?_)]
        obtain ⟨inside⟩ := id interchanged
        exact ⟨interchanged, parts _ (Json.parts_inside listed) inside⟩

end Observing

/-! ### Declarations -/

variable {sample other : Json} {detectDates : Bool}

/-- The graphs of samples that differ in scalars only are the same graph. -/
theorem ShapeGraph.infer_eq_of_interchanged {options : Options}
    (interchanged : sample.Interchanged options.detectDates other) :
    ShapeGraph.infer options sample = ShapeGraph.infer options other := by
  unfold ShapeGraph.infer checkRoot Observer.observe
  rw [interchanged.refusedRoot?_eq, Observing.value_eq_of_interchanged interchanged]

/-- **Samples that differ in scalars only are declared alike, or fail alike:** by scalars of one
kind in place of each other, and by where scalars stand among the elements of arrays and how often.
Dates need to be told from other texts only where the options do so. -/
theorem declarations_eq_of_interchanged (interchanged : sample.Interchanged detectDates other)
    (options : Options) (finer : options.detectDates = true → detectDates = true) :
    declarations options sample = declarations options other ∧
      renderedDeclarations options sample = renderedDeclarations options other := by
  have inferred := ShapeGraph.infer_eq_of_interchanged (interchanged.coarsen finer)
  have declared : declarations options sample = declarations options other := by
    unfold declarations
    rw [inferred]
  refine ⟨declared, ?_⟩
  unfold renderedDeclarations
  rw [declared]

/-- Scalars change places with an object and a list, and those of one kind with each other. -/
theorem declarations_eq_of_scalars_moved :
    renderedDeclarations { detectDates := true } (.object [("xs[C]", .array
        [.string "2020-01-31", .object [("a", .number "1")], .string "x", .array [.null],
          .string "y"])]) =
      .ok ["interface RootObject \x7b\n  xs: (string | Date | C | any[])[];\n\x7d",
        "interface C \x7b\n  a: number;\n\x7d"] ∧
    renderedDeclarations { detectDates := true } (.object [("xs[C]", .array
        [.string "2020-01-31", .object [("a", .number "1")], .string "x", .array [.null],
          .string "y"])]) =
      renderedDeclarations { detectDates := true } (.object [("xs[C]", .array
        [.object [("a", .number "2")], .string "z", .array [.null, .null],
          .string "1999-12-01"])]) := by
  have nulls : Json.Interchanged true (.array [.null]) (.array [.null, .null]) :=
    .array .nil fun id => by simp [Json.kinds, Json.isScalar]
  have numbers : Json.Interchanged true (.object [("a", .number "1")])
      (.object [("a", .number "2")]) :=
    .object (.cons (.under (.scalar rfl rfl rfl)) .nil)
  have first : Json.kinds true [.string "2020-01-31", .object [("a", .number "1")], .string "x",
      .array [.null], .string "y"] = [.date, .primitive .string, .primitive .string] := by
    decide +kernel
  have second : Json.kinds true [.object [("a", .number "2")], .string "z", .array [.null, .null],
      .string "1999-12-01"] = [.primitive .string, .date] := by
    decide +kernel
  have lists : Json.Interchanged true
      (.array [.string "2020-01-31", .object [("a", .number "1")], .string "x", .array [.null],
        .string "y"])
      (.array [.object [("a", .number "2")], .string "z", .array [.null, .null],
        .string "1999-12-01"]) :=
    .array (.cons numbers (.cons nulls .nil)) fun id => by
      rw [first, second]
      simp [or_comm]
  refine ⟨by decide +kernel, ?_⟩
  exact (declarations_eq_of_interchanged (.object (.cons (.under lists) .nil))
    { detectDates := true } id).2

end SampleShapes
