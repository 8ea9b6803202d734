/-
**What resolving discards.**

A declaration that nothing mentions any more is left out in the end. That happens to the empty
object alone: an object with fields is mentioned wherever the walk found it, and so is the empty
object where a field keeps its natural type. Only a field that is bound to its target hides what it
held, and then its value is the empty object and nothing around it.

* `DeclaresGraph.shape_of_hidden`: **what a field hides is the empty object, behind a target**;
* `DeclaresGraph.discardable_of_not_live`: what is left out is hidden by all that leads to it;
* `ShapeGraph.keeps_all_but_one`: **one placeholder at most is discarded, and every other named
  object is declared, in order and field by field.**
-/

import SampleShapes.Proofs.Resolution.Closedness

namespace SampleShapes

/-! ### What may be discarded -/

/-- A field of a named object leads to the object at `index`. -/
structure Naming.LeadsTo (naming : Naming) (graph : ShapeGraph) (field : Field) (index : Nat) :
    Prop where
  /-- The field belongs to a named object. -/
  owned : ∃ parent ∈ naming.entries, ∃ fields,
    graph.registry.fields? (.node parent.1) = some fields ∧ field ∈ fields.values
  /-- The walk comes from the field to the object. -/
  leads : index ∈ (graph.objectsAt (graph.registry.capacity + 1) false field.shape).map Prod.fst

/-- A named object that may be discarded. -/
structure Naming.Discardable (naming : Naming) (graph : ShapeGraph) (entry : Nat × String) :
    Prop where
  /-- The object is named. -/
  named : entry ∈ naming.entries
  /-- It has no fields. -/
  empty : ∃ fields, graph.registry.fields? (.node entry.1) = some fields ∧ fields.isEmpty
  /-- Every field that leads to it names a target, and holds it as it is. -/
  hidden : ∀ field, naming.LeadsTo graph field entry.1 →
    field.key.target?.isSome ∧ field.shape = .node entry.1

namespace DeclaresGraph

variable {graph : ShapeGraph} {naming : Naming} {rootName : String} {policy : ReferencePolicy}
  {warnings : List Warning} {all : List Declaration} {name : String} {index : Nat}
  (declares : DeclaresGraph graph naming rootName policy warnings all)
include declares

/-- **What a field hides is the empty object, behind a target:** a field that leads to an object
mentions its name, unless a target took the place of that very object. -/
theorem shape_of_hidden {raw : String} {field : Field} {type : FieldType}
    (typed : naming.fieldType graph.registry policy raw field = .ok type)
    (held : graph.registry.Holds field.shape) (entry : (index, name) ∈ naming.entries)
    (leads : index ∈ (graph.objectsAt (graph.registry.capacity + 1) false field.shape).map Prod.fst)
    (hidden : name ∉ type.type.references) :
    field.key.target?.isSome ∧ field.shape = .node index := by
  obtain ⟨⟨index, under⟩, member, rfl⟩ := List.mem_map.mp leads
  have mentioned := Naming.mem_references_of_mem_objectsAt declares.sound declares.named entry held
    member
  rcases Naming.fieldType_cases typed with ⟨natural, _⟩ | ⟨target, binds, _⟩
  · rw [natural] at hidden
    exact absurd mentioned hidden
  · refine ⟨Option.isSome_of_eq_some binds.named, ?_⟩
    have placeholder : graph.registry.isPlaceholder field.shape := by
      refine binds.loose.resolve_right fun nothing => ?_
      rw [nothing] at mentioned
      exact absurd mentioned List.not_mem_nil
    exact (declares.sound.of_isPlaceholder placeholder member).1

/-- A named object that is not live has no fields. -/
theorem isEmpty_of_not_live (entry : (index, name) ∈ naming.entries)
    (discarded : ¬ Live naming all name) :
    ∃ fields, graph.registry.fields? (.node index) = some fields ∧ fields.isEmpty := by
  obtain ⟨_, _, _, fields, found, _⟩ := declares.exists_declaration entry
  refine ⟨fields, found, ?_⟩
  cases empty : fields.isEmpty with
  | true => rfl
  | false => exact absurd (declares.live_of_fields entry found empty) discarded

/-- **What is left out is hidden by all that leads to it.** -/
theorem discardable_of_not_live (entry : (index, name) ∈ naming.entries)
    (discarded : ¬ Live naming all name) : naming.Discardable graph (index, name) := by
  refine ⟨entry, declares.isEmpty_of_not_live entry discarded, ?_⟩
  rintro field ⟨⟨⟨parent, own⟩, parentEntry, fields, found, inside⟩, leads⟩
  obtain ⟨raw, under⟩ := Table.mem_values_iff.mp inside
  obtain ⟨declaration, declared, rfl, fields', here, each⟩ :=
    declares.exists_declaration parentEntry
  obtain rfl := Option.some.inj (found.symm.trans here)
  obtain ⟨resolved, listed, type, typed, rfl, _⟩ :=
    Lists.exists_mem_of_forall₂ each (Table.get?_eq_some_iff.mp under)
  refine declares.shape_of_hidden typed (declares.sound.registry.field found under).1 entry leads ?_
  -- The object that the field belongs to has a field, so that what it mentions stays.
  intro mentioned
  refine discarded (declares.live_of_mentions declared ?_ listed
    (TypeRef.mem_references_collapseNull_iff.mpr mentioned) ?_)
  · exact declares.live_of_fields parentEntry found (Table.isEmpty_eq_false_of_get? under)
  · rw [declares.names_eq]
    exact List.mem_map_of_mem entry

/-- One named object at most is not live. -/
theorem eq_of_not_live {first second : Nat × String} (member : first ∈ naming.entries)
    (discarded : ¬ Live naming all first.2) (member' : second ∈ naming.entries)
    (discarded' : ¬ Live naming all second.2) : first = second := by
  obtain ⟨fields, found, empty⟩ := declares.isEmpty_of_not_live member discarded
  obtain ⟨others, found', empty'⟩ := declares.isEmpty_of_not_live member' discarded'
  have same := declares.sound.registry.eq_of_isEmpty found empty found' empty'
  exact List.inj_on_of_nodup_map declares.named.once member member' same

/-- What is live is all that is named, but for one object without fields at most. -/
theorem exists_discarded : ∃ discarded : Option (Nat × String),
    (∀ entry ∈ discarded, naming.Discardable graph entry) ∧
      ∀ entry ∈ naming.entries, Live naming all entry.2 ↔ some entry ≠ discarded := by
  by_cases lost : ∃ entry ∈ naming.entries, ¬ Live naming all entry.2
  · obtain ⟨entry, member, notLive⟩ := lost
    refine ⟨some entry, ?_, fun other member' => ⟨?_, fun apart => ?_⟩⟩
    · rintro _ ⟨⟩
      exact declares.discardable_of_not_live member notLive
    · rintro live same
      exact notLive (Option.some.inj same ▸ live)
    · by_contra notLive'
      exact apart (congrArg some (declares.eq_of_not_live member' notLive' member notLive))
  · refine ⟨none, by simp, fun entry member => ⟨fun _ => by simp, fun _ => ?_⟩⟩
    by_contra notLive
    exact lost ⟨entry, member, notLive⟩

end DeclaresGraph

/-! ### What is kept -/

namespace ShapeGraph

variable {graph : ShapeGraph} {options : Options} {sample : Json}

/-- All named objects but the discarded one are declared in the order of their names, each with a
declared field for every field of its object, in the same order. -/
structure KeepsAllBut (graph : ShapeGraph) (naming : Naming) (policy : ReferencePolicy)
    (resolution : Resolution) (discarded : Option (Nat × String)) : Prop where
  /-- No object is named twice. -/
  once : (naming.entries.map Prod.fst).Nodup
  /-- What is discarded may be. -/
  discardable : ∀ entry ∈ discarded, naming.Discardable graph entry
  /-- Everything else is declared. -/
  declared : List.Forall₂ (naming.DeclaredAs graph.registry policy resolution.warnings)
    (naming.entries.filter (some · ≠ discarded)) resolution.declarations

/-- **One placeholder at most is discarded,** and every other named object is declared. -/
theorem keeps_all_but_one (inferred : infer options sample = .ok graph) {rootName : String}
    {policy : ReferencePolicy} {resolution : Resolution}
    (resolved : graph.resolve (Naming.ofGraph graph rootName) policy = .ok resolution) :
    ∃ discarded,
      graph.KeepsAllBut (Naming.ofGraph graph rootName) policy resolution discarded := by
  have sound := (represents_of_infer inferred).toSound
  obtain ⟨all, findings, _, declares, _, rfl⟩ := sound.exists_declares resolved
  obtain ⟨discarded, discardable, live_iff⟩ := declares.exists_discarded
  refine ⟨discarded, declares.named.once, discardable, ?_⟩
  have left : (Naming.ofGraph graph rootName).entries.filter (some · ≠ discarded) =
      (Naming.ofGraph graph rootName).entries.filter (·.2 ∈ Declaration.reachable all
        ((Naming.ofGraph graph rootName).entries.head?.map Prod.snd)) :=
    List.filter_congr fun entry member => decide_eq_decide.mpr (live_iff entry member).symm
  rw [left]
  -- Entries and declarations are filtered by the same names.
  refine List.rel_filter ?_ (declares.each.imp fun entry declaration declared => ?_)
  · rintro entry declaration ⟨named, _⟩
    simp only [decide_eq_true_eq, named]
  · obtain ⟨named, fields, found, each⟩ := declared
    refine ⟨named, fields, found, each.imp fun _ _ resolves => ?_⟩
    exact resolves.more fun warning member => List.mem_reverse.mpr member

/-- Two objects are referred to by the one target, and one of them is empty. -/
theorem keeps_all_but_one_of_placeholder :
    ∃ graph resolution,
      infer {} (.object [("a[T]", .object []), ("b[T]", .object [("x", .null)])]) = .ok graph ∧
      graph.resolve (Naming.ofGraph graph "Root") .error = .ok resolution ∧
      (Naming.ofGraph graph "Root").entries.length = 3 ∧ resolution.declarations.length = 2 ∧
      ∃ discarded, graph.KeepsAllBut (Naming.ofGraph graph "Root") .error resolution discarded := by
  have counted : ((infer {} (.object [("a[T]", .object []), ("b[T]", .object [("x", .null)])])).bind
      fun graph => (graph.resolve (Naming.ofGraph graph "Root") .error).map fun resolution =>
        ((Naming.ofGraph graph "Root").entries.length, resolution.declarations.length)).toOption =
      some (3, 2) := by
    decide +kernel
  cases inferred : infer {} (.object [("a[T]", .object []), ("b[T]", .object [("x", .null)])]) with
  | error failure =>
    rw [inferred] at counted
    cases counted
  | ok graph =>
    rw [inferred, Except.bind] at counted
    cases resolved : graph.resolve (Naming.ofGraph graph "Root") .error with
    | error failure =>
      rw [resolved] at counted
      cases counted
    | ok resolution =>
      rw [resolved] at counted
      obtain ⟨named, left⟩ := Prod.mk.inj (Option.some.inj counted)
      exact ⟨graph, resolution, rfl, resolved, named, left, keeps_all_but_one inferred resolved⟩

end ShapeGraph

end SampleShapes
