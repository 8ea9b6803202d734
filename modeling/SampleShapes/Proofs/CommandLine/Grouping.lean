/-
**Grouping samples into documents.**

Samples come one by one or in lists, and all of them are combined into one list, except that a
single document is left as it is. So a lone object is looked at as such, and the list of it one
level higher: the object stands one level deeper, and the list gets a node of its own behind those
of the object. Everything that comes after it moves up by one node, the walks come to the list
first, and the hint for the root leads through a list. None of this shows in the declarations.

* `Observing.value_eq`: a value is observed alike at every depth that leaves room for it;
* `ShapeGraph.exists_relocates`: the graph of the list keeps the shapes of the object's own graph;
* `declarations_array_singleton`: **a lone object has the declarations of the list of it;**
* `Documents.combine_cases`: documents combine to the list of their samples, or to a lone one;
* `Documents.declarations_eq_of_splits`: **however samples are grouped into documents, their
  declarations are the same.**
-/

import SampleShapes.CommandLine.Documents
import SampleShapes.Proofs.Nesting
import SampleShapes.Proofs.Resolution.Policies
import SampleShapes.Proofs.Resolution.Relocating

namespace SampleShapes

/-! ### Observation -/

namespace Observing

variable {options : Options} {depth depth' : Nat}

theorem elements_eq {elements : List Json}
    (same : ∀ element ∈ elements, value options depth element = value options depth' element) :
    Observing.elements options depth elements = Observing.elements options depth' elements := by
  induction elements with
  | nil => rfl
  | cons element rest step =>
    rw [List.forall_mem_cons] at same
    rw [Observing.elements, Observing.elements, same.1, step same.2]

theorem members_eq {members : List (String × Json)}
    (same : ∀ member ∈ members, value options depth member.2 = value options depth' member.2) :
    Observing.members options depth members = Observing.members options depth' members := by
  induction members with
  | nil => rfl
  | cons member rest step =>
    obtain ⟨raw, member⟩ := member
    rw [List.forall_mem_cons] at same
    rw [Observing.members, Observing.members, same.1, step same.2]

/-- **A value is observed alike at every depth that leaves room for it.** -/
theorem value_eq (sample : Json) (room : depth + sample.height ≤ options.maxDepth)
    (room' : depth' + sample.height ≤ options.maxDepth) :
    value options depth sample = value options depth' sample := by
  induction sample using Json.induct generalizing depth depth' with
  | step sample parts =>
    have deeper : ∀ part ∈ sample.parts,
        value options (depth + 1) part = value options (depth' + 1) part := by
      intro part member
      have inside := Json.height_le_iff.mp (Nat.le_refl sample.height) part member
      exact parts part member (by omega) (by omega)
    unfold value
    rw [if_neg (by omega), if_neg (by omega)]
    cases sample with
    | array elements =>
      have same : Observing.elements options (depth + 1) elements =
          Observing.elements options (depth' + 1) elements := elements_eq deeper
      dsimp only
      rw [same]
    | object members =>
      dsimp only
      rw [members_eq fun member listed => deeper member.2 (Json.parts_inside listed)]
    | _ => rfl

end Observing

/-! ### The list of one object -/

/-- **The list of one object is observed as the object is,** and interned behind it. -/
theorem Observer.observe_array_singleton {options : Options} {sample : Json}
    {observer after : Observer} {id : ShapeId} (room : sample.height + 1 ≤ options.maxDepth)
    (observed : observer.observe options sample = (.ok id, after)) :
    observer.observe options (.array [sample]) =
      (.ok (after.registry.intern (.list (.singleton id))).1,
        { after with registry := (after.registry.intern (.list (.singleton id))).2 }) := by
  have lower : Observing.value options 1 sample = Observing.value options 0 sample :=
    Observing.value_eq sample (by omega) (by omega)
  change (Observing.value options 0 sample).run.run observer = _ at observed
  show (Observing.value options 0 (.array [sample])).run.run observer = _
  rw [Observing.value, if_neg (Nat.not_lt_zero _)]
  dsimp only
  rw [Observing.elements, lower, Observing.run_bind, Observing.run_bind, observed]
  rfl

namespace ShapeGraph

open Registry

variable {options : Options} {members : List (String × Json)}

/-- **The graph of the list of one object** keeps the shapes of the object's own graph under other
nodes. -/
theorem exists_relocates {graph : ShapeGraph}
    (room : (Json.object members).height + 1 ≤ options.maxDepth)
    (inferred : infer options (.object members) = .ok graph) :
    ∃ copy nodes, infer options (.array [.object members]) = .ok copy ∧
      graph.Relocates nodes copy := by
  have sound := (represents_of_infer inferred).toSound
  obtain ⟨_, root, observed, rfl⟩ := infer_eq_ok_iff.mp inferred
  obtain ⟨after, run⟩ :
      ∃ after, Observer.empty.observe options (.object members) = (.ok root, after) :=
    ⟨_, Prod.ext observed rfl⟩
  have soundAfter := Observer.observe_sound Observer.sound_empty options (.object members)
  have object := (Observer.observe_sees Observer.sound_empty observed).object members rfl
  change (Observer.empty.observe options _).2.Sound at soundAfter
  change ((Observer.empty.observe options _).2.registry.fields? root).isSome at object
  rw [run] at sound object soundAfter ⊢
  dsimp only at sound object soundAfter ⊢
  obtain ⟨fields, found⟩ := Option.isSome_iff_exists.mp object
  obtain ⟨top, rfl, _⟩ := shape?_eq_some_iff.mp (fields?_eq_some_iff.mp found)
  obtain ⟨move, rfl, listed, copies⟩ := Registry.exists_copies soundAfter.registry object
  have run' := Observer.observe_array_singleton room run
  rw [listed] at run'
  have inferred' : infer options (.array [.object members]) =
      .ok (ofObserver (.node move.listed)
        { after with registry :=
            (after.registry.intern (.list (.singleton (.node move.top)))).2 }) :=
    infer_eq_ok_iff.mpr ⟨rfl, .node move.listed, by rw [run'], by rw [run']⟩
  exact ⟨_, move.nodes, inferred', .of_copies copies object sound
    (represents_of_infer inferred').toSound⟩

end ShapeGraph

/-- **A lone object has the declarations of the list of it.** -/
theorem declarations_array_singleton {options : Options} {members : List (String × Json)}
    (room : (Json.object members).height + 1 ≤ options.maxDepth) :
    declarations options (.array [.object members]) = declarations options (.object members) := by
  have low := Nat.le_trans ((Json.object members).readHeight_bounds []).1 (Nat.le_of_succ_le room)
  obtain ⟨graph, inferred⟩ := ShapeGraph.exists_infer_of_le rfl low
  obtain ⟨copy, nodes, inferred', relocates⟩ := ShapeGraph.exists_relocates room inferred
  unfold declarations
  rw [inferred, inferred']
  exact relocates.resolve_eq options.rootName options.references

/-! ### Documents -/

namespace CommandLine.Documents

variable {documents documents' samples : List Json} {options : Options}

/-- The documents hold the samples one after the other, each document one of them or several in a
list. -/
inductive Splits : List Json → List Json → Prop where
  /-- No documents hold no samples. -/
  | nil : Splits [] []
  /-- A document that is a sample. -/
  | lone {documents samples : List Json} (sample : Json) (rest : Splits documents samples) :
    Splits (sample :: documents) (sample :: samples)
  /-- A document that is a list of samples. -/
  | several {documents samples : List Json} (group : List Json) (rest : Splits documents samples) :
    Splits (.array group :: documents) (group ++ samples)

/-- The documents add their samples in order. -/
theorem Splits.flatMap_samples (splits : Splits documents samples)
    (objects : ∀ sample ∈ samples, sample.isObject) :
    documents.flatMap Documents.samples = samples := by
  induction splits with
  | nil => rfl
  | lone sample _ step =>
    rw [List.forall_mem_cons] at objects
    have itself : Documents.samples sample = [sample] := by
      cases sample with
      | array elements => exact absurd objects.1 Bool.false_ne_true
      | _ => rfl
    rw [List.flatMap_cons, itself, step objects.2]
    rfl
  | several group _ step =>
    have rest := step fun sample member => objects sample (List.mem_append_right _ member)
    rw [List.flatMap_cons, rest]
    rfl

/-- **Documents combine to the list of their samples,** except that a lone sample is left as it
is. -/
theorem Splits.combine_cases (splits : Splits documents samples)
    (objects : ∀ sample ∈ samples, sample.isObject) (nonempty : samples ≠ []) :
    combine documents = .ok (.array samples) ∨
      ∃ sample, samples = [sample] ∧ combine documents = .ok sample := by
  rcases documents with _ | ⟨document, _ | ⟨second, others⟩⟩
  · cases splits
    exact absurd rfl nonempty
  · cases splits with
    | lone sample rest =>
      cases rest
      exact .inr ⟨document, rfl, rfl⟩
    | several group rest =>
      cases rest
      rw [List.append_nil]
      exact .inl rfl
  · have all := splits.flatMap_samples objects
    exact .inl (congrArg (fun samples => Except.ok (Json.array samples)) all)

/-- What documents combine to has the declarations of the list of their samples. -/
theorem Splits.declarations_eq (splits : Splits documents samples)
    (objects : ∀ sample ∈ samples, sample.isObject) (nonempty : samples ≠ [])
    (room : ∀ sample ∈ samples, sample.height + 1 ≤ options.maxDepth) :
    ∃ combined, combine documents = .ok combined ∧
      declarations options combined = declarations options (.array samples) := by
  rcases splits.combine_cases objects nonempty with list | ⟨sample, rfl, lone⟩
  · exact ⟨_, list, rfl⟩
  · refine ⟨sample, lone, ?_⟩
    rw [List.forall_mem_singleton] at objects room
    cases sample with
    | object members => exact (declarations_array_singleton room).symm
    | _ => exact absurd objects Bool.false_ne_true

/-- **However samples are grouped into documents, their declarations are the same,** and so is their
text. There are some, unless the policy is strict and a reference is not resolved. -/
theorem declarations_eq_of_splits (splits : Splits documents samples)
    (splits' : Splits documents' samples) (objects : ∀ sample ∈ samples, sample.isObject)
    (nonempty : samples ≠ [])
    (room : ∀ sample ∈ samples, sample.height + 1 ≤ options.maxDepth) :
    ∃ combined combined', combine documents = .ok combined ∧ combine documents' = .ok combined' ∧
      declarations options combined' = declarations options combined ∧
      renderedDeclarations options combined' = renderedDeclarations options combined ∧
      ((∃ resolution, declarations options combined = .ok resolution) ∨
        options.references = .error ∧ ∃ field target,
          declarations options combined = .error (.unresolvedReference field target)) := by
  obtain ⟨combined, done, same⟩ := splits.declarations_eq objects nonempty room
  obtain ⟨combined', done', same'⟩ := splits'.declarations_eq objects nonempty room
  refine ⟨combined, combined', done, done', same'.trans same.symm, ?_, ?_⟩
  · unfold renderedDeclarations
    rw [same, same']
  · have accepted : refusedRoot? (.array samples) = none := by
      cases samples with
      | nil => exact absurd rfl nonempty
      | cons first rest => exact if_pos (List.all_eq_true.mpr objects)
    have low := (Json.array samples).readHeight_bounds []
    have height := Json.heightAmong_le_iff.mpr room
    obtain ⟨graph, inferred⟩ := ShapeGraph.exists_infer_of_le accepted (Nat.le_trans low.1 height)
    have declared : declarations options (.array samples) =
        graph.resolve (Naming.ofGraph graph options.rootName) options.references := by
      unfold declarations
      rw [inferred]
      rfl
    rw [same, declared]
    refine (graph.resolve_cases options.rootName options.references).imp_right ?_
    rintro ⟨strict, reference, failed⟩
    exact ⟨strict, reference.raw, reference.target, failed⟩

/-- An object with references stands alone, or in a list. -/
theorem declarations_eq_of_two_references :
    declarations {} (.array
        [.object [("owner[User]", .object [("name", .null)]), ("last[User]", .null)]]) =
      declarations {}
        (.object [("owner[User]", .object [("name", .null)]), ("last[User]", .null)]) ∧
    renderedDeclarations {} (.array
        [.object [("owner[User]", .object [("name", .null)]), ("last[User]", .null)]]) =
      renderedDeclarations {}
        (.object [("owner[User]", .object [("name", .null)]), ("last[User]", .null)]) := by
  obtain ⟨sample, isSample⟩ : ∃ sample : Json, .object
      [("owner[User]", .object [("name", .null)]), ("last[User]", .null)] = sample := ⟨_, rfl⟩
  have objects : ∀ part ∈ [sample], part.isObject := by
    rw [← isSample]
    decide
  have room : ∀ part ∈ [sample], part.height + 1 ≤ ({} : Options).maxDepth := by
    rw [← isSample]
    decide +kernel
  rw [isSample]
  obtain ⟨combined, combined', done, done', same, text, _⟩ :=
    declarations_eq_of_splits (.lone sample .nil) (.several [sample] .nil) objects
      (List.cons_ne_nil _ _) room
  -- The lone document is left as it is, and the list is, too.
  obtain rfl := Except.ok.inj done
  obtain rfl := Except.ok.inj done'
  exact ⟨same, text⟩

end CommandLine.Documents

end SampleShapes
