/-
**Observing again.**

An observer that has seen a value without references knows its shape. If it sees the value again,
whatever it has seen in between and in whatever order the parts of the value come now, every shape
that the second observation comes to is one that mirrors what is seen, and so one that the first
observation has interned: each merge of elements joins what was joined before, and each object has
the fields that it had. The second observation comes back with the same identity and leaves the
observer as it was. A sample that is repeated inside of an array therefore adds a candidate that is
there already, which no merge counts.

* `Finds.bind`: steps that find what they come back with follow each other;
* `value_finds`: **a value whose shape is known is found,** in any order of its parts;
* `after_grows`: what is observed stays while more is observed;
* `elements_concat_tracks`: one more element that is known adds its identity and nothing else;
* `observe_again`: **observing a value again changes nothing,** and neither does repeating it inside
  of a sample.
-/

import SampleShapes.Declare
import SampleShapes.Proofs.Lockstep
import SampleShapes.Proofs.Mirroring
import SampleShapes.Proofs.Registry.Repeating

namespace SampleShapes

namespace Registry

variable {registry : Registry} {candidates : List ShapeId} {id : ShapeId}

/-- A candidate that is there already does not count once more. -/
theorem merge_concat_of_mem (registry : Registry) (member : id ∈ candidates) :
    registry.merge (candidates ++ [id]) = registry.merge candidates := by
  have level : ceiling (candidates ++ [id]) = ceiling candidates := by
    refine ceiling_eq_of_mem_iff fun candidate => ?_
    rw [List.mem_append, List.mem_singleton]
    exact or_iff_left_of_imp fun same => same ▸ member
  have once : (candidates ++ [id]).eraseDups = candidates.eraseDups := by
    rw [Lists.eraseDups_concat, if_pos (List.mem_eraseDups.mpr member)]
  rw [merge, merge, level, ← mergeBelow_eraseDups, once, mergeBelow_eraseDups]

end Registry

/-! ### Steps that change nothing -/

namespace Observing

open Registry

variable {α β : Type} {observer : Observer} {options : Options} {depth : Nat}

/-- The step comes back with the result and leaves the observer as it is. -/
def Finds (observer : Observer) (step : Observing α) (result : α) : Prop :=
  step.run.run observer = (.ok result, observer)

theorem finds_pure (observer : Observer) (result : α) : Finds observer (pure result) result := rfl

/-- **Steps that follow each other.** -/
theorem Finds.bind {first : Observing α} {next : α → Observing β} {result : α} {last : β}
    (finds : Finds observer first result) (onward : Finds observer (next result) last) :
    Finds observer (first >>= next) last := by
  unfold Finds at finds onward ⊢
  rw [run_bind, finds]
  exact onward

/-- What a check does not refuse goes on. -/
theorem finds_check {exceeded : Prop} [Decidable exceeded] {failure : Failure}
    {next : Unit → Observing α} {result : α} (fine : ¬ exceeded)
    (finds : Finds observer (next ()) result) :
    Finds observer (if exceeded then throw failure >>= next else next ()) result := by
  rwa [if_neg fine]

/-- A shape with the fingerprint of a kept one is found. -/
theorem intern_finds (indexed : observer.registry.Indexed) {id : ShapeId} {kept shape : Shape}
    (found : observer.registry.shape? id = some kept)
    (same : kept.fingerprint = shape.fingerprint) : Finds observer (intern shape) id := by
  have interned := indexed.intern_of_fingerprint_eq found same
  show (Except.ok (observer.registry.intern shape).1,
    ({ observer with registry := (observer.registry.intern shape).2 } : Observer)) = _
  rw [interned]

/-- A join that is kept is found. -/
theorem merge_finds (ordered : observer.registry.Ordered) {candidates : List ShapeId}
    {joined : ShapeId} (joins : observer.registry.Joins candidates joined) :
    Finds observer (merge candidates) joined := by
  have merged := joins.merge_eq ordered
  show (Except.ok (observer.registry.merge candidates).1,
    ({ observer with registry := (observer.registry.merge candidates).2 } : Observer)) = _
  rw [merged]

theorem elements_find {elements : List Json} {ids : List ShapeId}
    (all : List.Forall₂ (fun element => Finds observer (value options depth element))
      elements ids) : Finds observer (Observing.elements options depth elements) ids := by
  induction all with
  | nil => exact finds_pure observer []
  | cons first _ step =>
    rw [Observing.elements]
    exact first.bind (step.bind (finds_pure observer _))

theorem members_find {members : List (String × Json)} {entries : List (String × Field)}
    (plain : ∀ member ∈ members, (Key.parse member.1).mark = .plain)
    (all : List.Forall₂ (ReadsMember fun sample => Finds observer (value options depth sample))
      members entries) : Finds observer (Observing.members options depth members) entries := by
  induction all with
  | nil => exact finds_pure observer []
  | @cons member entry members entries first _ step =>
    rw [List.forall_mem_cons] at plain
    obtain ⟨raw, sample⟩ := member
    obtain ⟨raw', key, shape, optional⟩ := entry
    obtain ⟨sameRaw, sameKey, required, finds⟩ := first
    dsimp only at sameRaw sameKey required finds
    subst sameRaw sameKey required
    rw [Observing.members]
    refine Finds.bind ?_ ((step plain.2).bind (finds_pure observer _))
    rwa [bindList_of_plain plain.1]

/-! ### Values that are known -/

/-- The fields of what mirrors an object make up the entries of its members, in any order. -/
theorem exists_entries (good : Json → ShapeId → Prop)
    {members between others : List (String × Json)} {fields : Table String Field}
    (inside : List.Forall₂ Json.ReorderedMember members between)
    (moved : between.Perm others) (keyed : Shape.Keyed fields)
    (keys : ∀ raw, raw ∈ fields.keys ↔ raw ∈ members.map Prod.fst)
    (each : ∀ member ∈ members, ∀ field, fields.get? member.1 = some field →
      field.optional = false ∧ ∀ other ∈ others, member.2.Reordered other.2 →
        good other.2 field.shape) :
    ∃ entries, List.Forall₂ (ReadsMember good) others entries ∧
      ∀ raw, fields.get? raw = (Table.ofList entries).get? raw := by
  have read : ∀ other ∈ others, ∃ entry : String × Field, ReadsMember good other entry ∧
      fields.get? entry.1 = some entry.2 := by
    intro other listed
    obtain ⟨member, among, same⟩ := Json.Reordered.exists_member_back inside moved listed
    obtain ⟨field, under⟩ :=
      Table.exists_get?_of_mem_keys ((keys member.1).mpr (List.mem_map_of_mem among))
    obtain ⟨required, isGood⟩ := each member among field under
    rw [same.key_eq] at under
    exact ⟨(other.1, field), ⟨rfl, keyed _ field under, required,
      isGood other listed same.value⟩, under⟩
  obtain ⟨entries, all⟩ := Lists.exists_forall₂ read
  refine ⟨entries, all.imp fun _ _ own => own.1, fun raw => ?_⟩
  cases listed : (Table.ofList entries).get? raw with
  | some field =>
    obtain ⟨_, _, _, under⟩ :=
      Lists.exists_mem_of_forall₂_right all (Table.mem_of_get?_ofList listed)
    exact under
  | none =>
    refine Table.get?_eq_none_of_not_mem_keys fun key => ?_
    -- Every key is that of a member, which an entry was read from.
    rw [keys, (Json.Reordered.keys_perm inside moved).mem_iff] at key
    obtain ⟨other, among, rfl⟩ := List.mem_map.mp key
    obtain ⟨entry, inEntries, own, _⟩ := Lists.exists_mem_of_forall₂ all among
    have known : other.1 ∈ (Table.ofList entries).keys :=
      Table.mem_keys_ofList.mpr (own.raw ▸ List.mem_map_of_mem inEntries)
    rw [← Table.isSome_get?_iff, listed] at known
    cases known

/-- **A value whose shape is known is found,** in any order of its parts. -/
theorem value_finds (sound : observer.Sound) {sample other : Json} {id : ShapeId}
    (reordered : sample.Reordered other) (unmarked : other.Unmarked)
    (shallow : other.Shallow options.maxDepth depth)
    (mirrors : observer.registry.Mirrors options.detectDates sample id) :
    Finds observer (value options depth other) id := by
  have ordered := sound.registry.ordered
  induction sample using Json.induct generalizing other depth id with
  | step sample parts =>
    obtain ⟨here, deeper⟩ := Json.shallow_iff.mp shallow
    have within := Nat.not_lt.mpr here
    cases reordered with
    | scalar notArray notObject =>
      cases mirrors with
      | list => exact absurd rfl (notArray _)
      | object => exact absurd rfl (notObject _)
      | scalar =>
        unfold value
        split
        · exact absurd rfl (notArray _)
        · exact absurd rfl (notObject _)
        · exact finds_check within (finds_pure observer _)
    | @array elements between others inside moved =>
      have unmarked := Json.unmarked_array.mp unmarked
      obtain ⟨ids, element, each, joins, found⟩ := mirrors.exists_element
      have all : List.Forall₂ (fun part => Finds observer (value options (depth + 1) part))
          between ids :=
        Lists.forall₂_of_forall₂ inside each fun part listed other among id same mirrors =>
          have among := moved.mem_iff.mp among
          parts part listed same (unmarked other among) (deeper other among) mirrors
      obtain ⟨ids', all', perm⟩ := List.perm_comp_forall₂ moved.symm all
      have joins := joins.of_mem_iff fun _ => perm.mem_iff
      unfold value
      refine finds_check within ((elements_find all').bind ((merge_finds ordered joins).bind ?_))
      exact intern_finds ordered.toIndexed (elements?_eq_some_iff.mp found) rfl
    | @object members between others inside moved =>
      have unmarked := Json.unmarked_object.mp unmarked
      obtain ⟨fields, found, keys, each⟩ := mirrors.exists_fields
      obtain ⟨entries, all, same⟩ := exists_entries
        (fun part => Finds observer (value options (depth + 1) part)) inside moved
        (sound.registry.keyed found) keys fun member among field under => by
          obtain ⟨required, mirrors⟩ := each member.1 member.2 field among under
          refine ⟨required, fun other listed same => ?_⟩
          exact parts member.2 (Json.parts_inside among) same (unmarked other listed).2
            (deeper other.2 (Json.parts_inside listed)) mirrors
      have marks : (Shape.object fields).fingerprint =
          (Shape.object (.ofList entries)).fingerprint :=
        Shape.fingerprint_object_eq_iff.mpr fun raw => by rw [same raw]
      unfold value
      refine finds_check within
        ((members_find (fun member listed => (unmarked member listed).1) all).bind ?_)
      exact intern_finds ordered.toIndexed (fields?_eq_some_iff.mp found) marks

/-! ### One more element -/

/-- What is known of a value once it is observed, unless a key of it refers to a target. -/
structure Knows (options : Options) (depth : Nat) (registry : Registry) (sample : Json)
    (id : ShapeId) : Prop where
  /-- The shape mirrors the value. -/
  mirrors : sample.KeysDistinct → sample.Unmarked → registry.Mirrors options.detectDates sample id
  /-- The value does not nest too deep. -/
  shallow : sample.Unmarked → sample.Shallow options.maxDepth depth

theorem knows_lasts (options : Options) (depth : Nat) : Lasts (Knows options depth) :=
  fun _ _ _ _ sound grows knows => ⟨fun distinct unmarked =>
    (knows.mirrors distinct unmarked).grow sound grows, knows.shallow⟩

theorem value_knows (options : Options) (depth : Nat) (sample : Json) (sound : observer.Sound) :
    Yields observer (value options depth sample) fun registry =>
      Knows options depth registry sample where
  sound := (value_yields options depth sample sound).sound
  grows := (value_yields options depth sample sound).grows
  good id observed :=
    ⟨fun distinct unmarked =>
      (value_mirrors options depth sample distinct unmarked sound).good id observed,
    fun unmarked => (succeeds_value_iff options depth sample unmarked).mp ⟨id, observed⟩⟩

theorem elements_concat (options : Options) (depth : Nat) (samples : List Json) (sample : Json) :
    Observing.elements options depth (samples ++ [sample]) =
      Observing.elements options depth samples >>= fun ids =>
        value options depth sample >>= fun id => pure (ids ++ [id]) := by
  induction samples with
  | nil => simp [Observing.elements]
  | cons first rest step => simp [Observing.elements, step]

variable {sample other : Json} {samples : List Json}

section Repeated

variable (sound : observer.Sound) (distinct : sample.KeysDistinct) (unmarked : sample.Unmarked)
  (reordered : sample.Reordered other) (member : sample ∈ samples)
include sound distinct unmarked reordered member

/-- **One more element that is known adds its identity and nothing else.** -/
theorem elements_concat_tracks (options : Options) (depth : Nat) :
    Tracks (fun ids ids' => ∃ id ∈ ids, ids' = ids ++ [id])
      ((Observing.elements options depth samples).run.run observer)
      ((Observing.elements options depth (samples ++ [other])).run.run observer) := by
  have yields := elements_yields (knows_lasts options depth) samples
    (fun element _ _ sound => value_knows options depth element sound) sound
  rw [elements_concat, run_bind]
  rcases ran : (Observing.elements options depth samples).run.run observer with
    ⟨failure | ids, later⟩
  · exact .failed failure later
  · obtain ⟨soundLater, _, seen⟩ := yields
    rw [ran] at soundLater seen
    obtain ⟨id, inside, knows⟩ := Lists.exists_mem_of_forall₂ (seen ids rfl) member
    have finds : Finds later (value options depth other) id :=
      value_finds soundLater reordered (reordered.unmarked unmarked)
        (reordered.shallow_iff.mp (knows.shallow unmarked)) (knows.mirrors distinct unmarked)
    have last : ((value options depth other >>= fun id => pure (ids ++ [id])).run.run later) =
        (.ok (ids ++ [id]), later) := finds.bind (finds_pure later _)
    dsimp only
    rw [last]
    exact .done ⟨id, inside, rfl⟩

/-- An array is observed alike with one more element that is known. -/
theorem run_array_concat (options : Options) (depth : Nat) :
    (value options depth (.array (samples ++ [other]))).run.run observer =
      (value options depth (.array samples)).run.run observer := by
  unfold value
  dsimp only
  split
  · rfl
  · have tracks := elements_concat_tracks sound distinct unmarked reordered member options
      (depth + 1)
    refine (Tracks.eq (tracks.bind ?_)).symm
    rintro ids _ later ⟨id, inside, rfl⟩
    have merged : merge (ids ++ [id]) = merge ids := by
      unfold merge
      simp only [merge_concat_of_mem _ inside]
    rw [merged]
    exact Lockstep.refl _ later

end Repeated

end Observing

/-! ### Observations -/

namespace Observer

variable {sample other : Json}

theorem after_concat (options : Options) (samples : List Json) (sample : Json) :
    after options (samples ++ [sample]) = ((after options samples).observe options sample).2 := by
  unfold after
  rw [List.foldl_append]
  rfl

/-- What is observed stays while more is observed. -/
theorem after_grows (options : Options) (samples more : List Json) :
    (after options samples).registry.Grows (after options (samples ++ more)).registry := by
  induction more using List.reverseRecOn with
  | nil =>
    rw [List.append_nil]
    exact .refl _
  | append_singleton more last step =>
    rw [← List.append_assoc, after_concat]
    exact step.trans (Observing.value_yields options 0 last (after_sound options _)).grows

/-- A sample with an element that is repeated has the graph of the sample. -/
theorem infer_concat (distinct : sample.KeysDistinct) (unmarked : sample.Unmarked)
    (reordered : sample.Reordered other) (options : Options) {samples : List Json}
    (member : sample ∈ samples) :
    ShapeGraph.infer options (.array (samples ++ [other])) =
      ShapeGraph.infer options (.array samples) := by
  have objects : (samples ++ [other]).all Json.isObject = samples.all Json.isObject := by
    rw [List.all_append, List.all_cons, List.all_nil, Bool.and_true, ← reordered.isObject_eq,
      Bool.and_eq_left_iff_imp, List.all_eq_true]
    exact fun all => all sample member
  have accepted : refusedRoot? (.array (samples ++ [other])) = refusedRoot? (.array samples) := by
    obtain ⟨first, rest, rfl⟩ := List.exists_cons_of_ne_nil (List.ne_nil_of_mem member)
    show (if _ then _ else _) = (if _ then _ else _)
    rw [objects]
  have observed : Observer.empty.observe options (.array (samples ++ [other])) =
      Observer.empty.observe options (.array samples) :=
    Observing.run_array_concat sound_empty distinct unmarked reordered member options 0
  unfold ShapeGraph.infer checkRoot
  rw [accepted, observed]

/-- **Observing a value again changes nothing:** once a value without references was observed, it is
found again in any order of its parts, whatever was observed in between, and its repetition inside
of a sample is not noticed. -/
theorem observe_again (distinct : sample.KeysDistinct) (unmarked : sample.Unmarked)
    (reordered : sample.Reordered other) (options : Options) :
    (∀ before between id, ((after options before).observe options sample).1 = .ok id →
        (after options (before ++ sample :: between)).observe options other =
          (.ok id, after options (before ++ sample :: between))) ∧
      ∀ samples, sample ∈ samples →
        renderedDeclarations options (.array (samples ++ [other])) =
          renderedDeclarations options (.array samples) := by
  refine ⟨fun before between id observed => ?_, fun samples member => ?_⟩
  · have sound := after_sound options before
    have mirrors := (Observing.value_mirrors options 0 sample distinct unmarked sound).good id
      observed
    have shallow := (Observing.succeeds_value_iff options 0 sample unmarked).mp ⟨id, observed⟩
    have grows := after_grows options (before ++ [sample]) between
    have soundSeen := after_sound options (before ++ [sample])
    rw [after_concat] at grows soundSeen
    rw [List.append_assoc, List.singleton_append] at grows
    exact Observing.value_finds (after_sound options _) reordered (reordered.unmarked unmarked)
      (reordered.shallow_iff.mp shallow) (mirrors.grow soundSeen.registry grows)
  · unfold renderedDeclarations declarations
    rw [infer_concat distinct unmarked reordered options member]

/-- An object whose members and elements change places comes back between other observations, and
behind another object. -/
theorem observe_again_in_another_order :
    (after {} [.object [("xs[C]", .array [.null])],
          .object [("a", .array [.null, .object []]), ("b", .null)],
          .object [("b", .object [("xs[C]", .array [])])]]).observe {}
        (.object [("b", .null), ("a", .array [.object [], .null])]) =
      (.ok (.node 5), after {} [.object [("xs[C]", .array [.null])],
          .object [("a", .array [.null, .object []]), ("b", .null)],
          .object [("b", .object [("xs[C]", .array [])])]]) ∧
    renderedDeclarations {} (.array [.object [("a", .array [.null, .object []]), ("b", .null)],
        .object [("xs[C]", .array [])], .object [("b", .null), ("a", .array [.object [], .null])]]) =
      renderedDeclarations {} (.array [.object [("a", .array [.null, .object []]), ("b", .null)],
        .object [("xs[C]", .array [])]]) := by
  have swapped : List.Forall₂ Json.Reordered [.null, .object []] [.null, .object []] :=
    .cons (.refl .null) (.cons (.refl (.object [])) .nil)
  have reordered : Json.Reordered (.object [("a", .array [.null, .object []]), ("b", .null)])
      (.object [("b", .null), ("a", .array [.object [], .null])]) :=
    .object (.cons (.under (.array swapped (.swap _ _ []))) (.cons (.under (.refl .null)) .nil))
      (.swap _ _ [])
  obtain ⟨found, repeated⟩ :=
    observe_again (by decide +kernel) (by decide +kernel) reordered {}
  exact ⟨found [.object [("xs[C]", .array [.null])]]
    [.object [("b", .object [("xs[C]", .array [])])]] (.node 5) (by decide +kernel),
    repeated [.object [("a", .array [.null, .object []]), ("b", .null)],
      .object [("xs[C]", .array [])]] List.mem_cons_self⟩

end Observer

end SampleShapes
