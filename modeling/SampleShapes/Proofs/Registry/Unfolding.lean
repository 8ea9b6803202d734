/-
**Unfolding of shapes.**

An identity unfolds to a tree without identities of nodes: an object to what is under each of its
raw keys, a list or a union to the set of what its members unfold to. Trees are compared the way
finite maps and sets are, so that neither the order of keys nor a repetition counts.

A registry looks shapes up by fingerprints, which compare identities and no trees. As long as
shapes rest on shapes further down, this comes to the same: identities are equal exactly if what
they unfold to is.

* `tree_of_shape?`: a tree is built from the trees of what its shape points at;
* `unfolding_eq_iff_of_objects`, `unfolding_eq_iff_of_lists`, `unfolding_eq_iff_of_unions`: objects
  are compared as finite maps, lists and unions as sets;
* `exists_shape?`: what unfolds like a shape is one;
* `eq_of_unfolding_eq`: **one unfolding, one identity**, in every sound registry;
* `Produced.sound`: a registry that observations, unification and pruning lead to is sound;
* `Produced.unfolding_eq_iff`: **identities are equal exactly if their unfoldings are**, in it.
-/

import Mathlib.Data.Set.Image
import SampleShapes.Proofs.Observation
import SampleShapes.Proofs.Registry.Unification

namespace SampleShapes

/-! ### Trees -/

/-- A shape without identities of nodes. -/
inductive Tree : Type 1 where
  /-- A kind, or a date. -/
  | leaf (id : ShapeId)
  /-- An object: the raw key of each entry, whether it is optional, and what is under it. -/
  | object {Entry : Type} (raw : Entry → String) (optional : Entry → Bool) (under : Entry → Tree)
  /-- The elements of a list, or the alternatives of a union. -/
  | set (isUnion : Bool) {Part : Type} (part : Part → Tree)

namespace Tree

/-- The trees are equal as maps and sets are, all the way down. -/
def Same : Tree → Tree → Prop
  | leaf id, leaf other => id = other
  | object raw optional under, object raw' optional' under' =>
    (∀ entry, ∃ other, raw entry = raw' other ∧ optional entry = optional' other ∧
      Same (under entry) (under' other)) ∧
    ∀ other, ∃ entry, raw entry = raw' other ∧ optional entry = optional' other ∧
      Same (under entry) (under' other)
  | set isUnion part, set isUnion' part' =>
    isUnion = isUnion' ∧ (∀ here, ∃ there, Same (part here) (part' there)) ∧
      ∀ there, ∃ here, Same (part here) (part' there)
  | _, _ => False

theorem Same.refl (tree : Tree) : Same tree tree := by
  induction tree with
  | leaf id => rfl
  | object raw optional under step =>
    exact ⟨fun entry => ⟨entry, rfl, rfl, step entry⟩, fun entry => ⟨entry, rfl, rfl, step entry⟩⟩
  | set isUnion part step =>
    exact ⟨rfl, fun here => ⟨here, step here⟩, fun here => ⟨here, step here⟩⟩

theorem Same.symm {tree other : Tree} (same : Same tree other) : Same other tree := by
  induction tree generalizing other with
  | leaf id =>
    cases other with
    | leaf => exact Eq.symm same
    | object => exact same
    | set => exact same
  | object raw optional under step =>
    cases other with
    | leaf => exact same
    | object =>
      refine ⟨fun entry => ?_, fun entry => ?_⟩
      · obtain ⟨back, key, marked, inside⟩ := same.2 entry
        exact ⟨back, key.symm, marked.symm, step back inside⟩
      · obtain ⟨back, key, marked, inside⟩ := same.1 entry
        exact ⟨back, key.symm, marked.symm, step entry inside⟩
    | set => exact same
  | set isUnion part step =>
    cases other with
    | leaf => exact same
    | object => exact same
    | set =>
      refine ⟨same.1.symm, fun there => ?_, fun here => ?_⟩
      · obtain ⟨here, inside⟩ := same.2.2 there
        exact ⟨here, step here inside⟩
      · obtain ⟨there, inside⟩ := same.2.1 here
        exact ⟨there, step here inside⟩

theorem Same.trans {tree other last : Tree} (same : Same tree other) (same' : Same other last) :
    Same tree last := by
  induction tree generalizing other last with
  | leaf id =>
    cases other with
    | leaf =>
      obtain rfl : id = _ := same
      exact same'
    | object => exact same.elim
    | set => exact same.elim
  | object raw optional under step =>
    cases other with
    | leaf => exact same.elim
    | object =>
      cases last with
      | leaf => exact same'
      | object =>
        refine ⟨fun entry => ?_, fun final => ?_⟩
        · obtain ⟨middle, key, marked, inside⟩ := same.1 entry
          obtain ⟨final, key', marked', inside'⟩ := same'.1 middle
          exact ⟨final, key.trans key', marked.trans marked', step entry inside inside'⟩
        · obtain ⟨middle, key', marked', inside'⟩ := same'.2 final
          obtain ⟨entry, key, marked, inside⟩ := same.2 middle
          exact ⟨entry, key.trans key', marked.trans marked', step entry inside inside'⟩
      | set => exact same'
    | set => exact same.elim
  | set isUnion part step =>
    cases other with
    | leaf => exact same.elim
    | object => exact same.elim
    | set =>
      cases last with
      | leaf => exact same'
      | object => exact same'
      | set =>
        refine ⟨same.1.trans same'.1, fun here => ?_, fun final => ?_⟩
        · obtain ⟨middle, inside⟩ := same.2.1 here
          obtain ⟨final, inside'⟩ := same'.2.1 middle
          exact ⟨final, step here inside inside'⟩
        · obtain ⟨middle, inside'⟩ := same'.2.2 final
          obtain ⟨here, inside⟩ := same.2.2 middle
          exact ⟨here, step here inside inside'⟩

instance setoid : Setoid Tree := ⟨Same, Same.refl, Same.symm, Same.trans⟩

end Tree

/-- A tree, up to the order of entries and repetitions. -/
def Unfolding : Type 1 := Quotient Tree.setoid

namespace Registry

variable {registry later : Registry} {id other : ShapeId}

/-! ### What an identity unfolds to -/

/-- The tree over `depth` levels of nodes. -/
def treeWithin (registry : Registry) : Nat → ShapeId → Tree
  | 0, id => .leaf id
  | depth + 1, id =>
    match registry.shape? id with
    | some (.object fields) =>
      .object (fun entry : { entry // entry ∈ fields.entries } => entry.val.1)
        (fun entry => entry.val.2.optional)
        (fun entry => registry.treeWithin depth entry.val.2.shape)
    | some (.list elements) =>
      .set false fun element : { element // element ∈ elements } =>
        registry.treeWithin depth element.val
    | some (.union members) =>
      .set true fun member : { member // member ∈ members } => registry.treeWithin depth member.val
    | none => .leaf id

/-- What an identity unfolds to: the levels below a node are bounded by its index. -/
def tree (registry : Registry) (id : ShapeId) : Tree := registry.treeWithin id.ceiling id

/-- The unfolding of an identity. -/
def unfolding (registry : Registry) (id : ShapeId) : Unfolding := ⟦registry.tree id⟧

theorem unfolding_eq_iff_same :
    registry.unfolding id = later.unfolding other ↔
      (registry.tree id).Same (later.tree other) :=
  Quotient.eq

theorem treeWithin_of_shape?_eq_none (found : registry.shape? id = none) (depth : Nat) :
    registry.treeWithin depth id = .leaf id := by
  cases depth with
  | zero => rfl
  | succ depth =>
    unfold treeWithin
    rw [found]

/-- Levels beyond the index of a node add nothing. -/
theorem treeWithin_eq (sound : registry.Sound) (depth more : Nat) (enough : id.ceiling ≤ depth)
    (enough' : id.ceiling ≤ more) : registry.treeWithin depth id = registry.treeWithin more id := by
  induction depth generalizing id more with
  | zero =>
    have found : registry.shape? id = none := by
      cases id with
      | node index => exact absurd enough (Nat.not_succ_le_zero index)
      | primitive kind => rfl
      | date => rfl
    rw [treeWithin_of_shape?_eq_none found, treeWithin_of_shape?_eq_none found]
  | succ depth step =>
    cases found : registry.shape? id with
    | none => rw [treeWithin_of_shape?_eq_none found, treeWithin_of_shape?_eq_none found]
    | some shape =>
      obtain ⟨index, rfl, _⟩ := shape?_eq_some_iff.mp found
      obtain _ | more := more
      · exact absurd enough' (Nat.not_succ_le_zero index)
      -- Children lie further down, so that one level less is enough for them.
      have deeper : ∀ child ∈ shape.children,
          registry.treeWithin depth child = registry.treeWithin more child := by
        intro child member
        have below := (sound.child found member).2
        exact step more (by omega) (by omega)
      unfold treeWithin
      rw [found]
      cases shape with
      | object fields =>
        refine congrArg (Tree.object _ _) (funext fun entry => deeper _ ?_)
        exact List.mem_map_of_mem (List.mem_map_of_mem entry.property)
      | list elements =>
        exact congrArg (Tree.set false) (funext fun element => deeper _ element.property)
      | union members =>
        exact congrArg (Tree.set true) (funext fun member => deeper _ member.property)

/-- What an object with these fields unfolds to. -/
def objectTree (registry : Registry) (fields : Table String Field) : Tree :=
  .object (fun entry : { entry // entry ∈ fields.entries } => entry.val.1)
    (fun entry => entry.val.2.optional) (fun entry => registry.tree entry.val.2.shape)

/-- What a list or a union over these identities unfolds to. -/
def setTree (registry : Registry) (isUnion : Bool) (ids : IdSet) : Tree :=
  .set isUnion fun part : { part // part ∈ ids } => registry.tree part.val

/-- What a shape unfolds to. -/
def shapeTree (registry : Registry) : Shape → Tree
  | .object fields => registry.objectTree fields
  | .list elements => registry.setTree false elements
  | .union members => registry.setTree true members

theorem tree_of_shape?_eq_none (found : registry.shape? id = none) : registry.tree id = .leaf id :=
  treeWithin_of_shape?_eq_none found _

/-- **A tree is built from the trees of what its shape points at.** -/
theorem tree_of_shape? (sound : registry.Sound) {shape : Shape}
    (found : registry.shape? id = some shape) : registry.tree id = registry.shapeTree shape := by
  obtain ⟨index, rfl, _⟩ := shape?_eq_some_iff.mp found
  have deeper : ∀ child ∈ shape.children,
      registry.treeWithin index child = registry.tree child := by
    intro child member
    have below : child.ceiling < index + 1 := (sound.child found member).2
    exact treeWithin_eq sound _ _ (by omega) (by omega)
  unfold tree ShapeId.ceiling treeWithin
  rw [found]
  cases shape with
  | object fields =>
    refine congrArg (Tree.object _ _) (funext fun entry => deeper _ ?_)
    exact List.mem_map_of_mem (List.mem_map_of_mem entry.property)
  | list elements =>
    exact congrArg (Tree.set false) (funext fun element => deeper _ element.property)
  | union members =>
    exact congrArg (Tree.set true) (funext fun member => deeper _ member.property)

/-! ### Comparing unfoldings -/

/-- What an object says under each raw key: whether it is optional, and what is unfolded there. -/
def entriesAt (registry : Registry) (fields : Table String Field) (raw : String) :
    Option (Bool × Unfolding) :=
  (fields.get? raw).map fun field => (field.optional, registry.unfolding field.shape)

/-- Every entry of an object in the first registry is one of an object in the second. -/
def EntriesWithin (registry later : Registry) (fields others : Table String Field) : Prop :=
  ∀ entry ∈ fields.entries, ∃ other ∈ others.entries, entry.1 = other.1 ∧
    entry.2.optional = other.2.optional ∧
    registry.unfolding entry.2.shape = later.unfolding other.2.shape

theorem EntriesWithin.entriesAt_eq {fields others : Table String Field}
    (within : registry.EntriesWithin later fields others) {raw : String}
    {entry : Bool × Unfolding} (found : registry.entriesAt fields raw = some entry) :
    later.entriesAt others raw = some entry := by
  obtain ⟨field, under, rfl⟩ := Option.map_eq_some_iff.mp found
  obtain ⟨⟨_, other⟩, listed, rfl, marked, inside⟩ :=
    within (raw, field) (Table.get?_eq_some_iff.mp under)
  refine Option.map_eq_some_iff.mpr ⟨other, Table.get?_eq_some_iff.mpr listed, ?_⟩
  exact Prod.ext marked.symm inside.symm

theorem EntriesWithin.of_entriesAt_eq {fields others : Table String Field}
    (same : ∀ raw, registry.entriesAt fields raw = later.entriesAt others raw) :
    registry.EntriesWithin later fields others := by
  rintro ⟨raw, field⟩ listed
  have under := Table.get?_eq_some_iff.mpr listed
  have here := (same raw).symm.trans (Option.map_eq_some_iff.mpr ⟨field, under, rfl⟩)
  obtain ⟨other, under', equal⟩ := Option.map_eq_some_iff.mp here
  obtain ⟨marked, inside⟩ := Prod.mk.inj equal
  exact ⟨(raw, other), Table.get?_eq_some_iff.mp under', rfl, marked.symm, inside.symm⟩

theorem same_objectTree_iff {fields others : Table String Field} :
    (registry.objectTree fields).Same (later.objectTree others) ↔
      ∀ raw, registry.entriesAt fields raw = later.entriesAt others raw := by
  constructor
  · rintro ⟨forth, back⟩ raw
    have within : registry.EntriesWithin later fields others := fun entry listed => by
      obtain ⟨⟨other, there⟩, key, marked, inside⟩ := forth ⟨entry, listed⟩
      exact ⟨other, there, key, marked, unfolding_eq_iff_same.mpr inside⟩
    have within' : later.EntriesWithin registry others fields := fun other there => by
      obtain ⟨⟨entry, listed⟩, key, marked, inside⟩ := back ⟨other, there⟩
      exact ⟨entry, listed, key.symm, marked.symm, (unfolding_eq_iff_same.mpr inside).symm⟩
    exact Option.ext fun entry => ⟨within.entriesAt_eq, within'.entriesAt_eq⟩
  · intro same
    refine ⟨fun entry => ?_, fun other => ?_⟩
    · obtain ⟨other, there, key, marked, inside⟩ :=
        EntriesWithin.of_entriesAt_eq same entry.val entry.property
      exact ⟨⟨other, there⟩, key, marked, unfolding_eq_iff_same.mp inside⟩
    · obtain ⟨entry, listed, key, marked, inside⟩ :=
        EntriesWithin.of_entriesAt_eq (fun raw => (same raw).symm) other.val other.property
      exact ⟨⟨entry, listed⟩, key.symm, marked.symm, unfolding_eq_iff_same.mp inside.symm⟩

/-- The unfoldings of the members of a set. -/
def unfoldings (registry : Registry) (ids : IdSet) : Set Unfolding :=
  registry.unfolding '' { id | id ∈ ids }

theorem same_setTree_iff {isUnion isUnion' : Bool} {ids others : IdSet} :
    (registry.setTree isUnion ids).Same (later.setTree isUnion' others) ↔
      isUnion = isUnion' ∧ registry.unfoldings ids = later.unfoldings others := by
  refine and_congr_right fun _ => ⟨?_, fun same => ⟨fun here => ?_, fun there => ?_⟩⟩
  · rintro ⟨forth, back⟩
    refine Set.Subset.antisymm ?_ ?_
    · rintro _ ⟨id, member, rfl⟩
      obtain ⟨⟨other, inside⟩, same⟩ := forth ⟨id, member⟩
      exact ⟨other, inside, (unfolding_eq_iff_same.mpr same).symm⟩
    · rintro _ ⟨other, member, rfl⟩
      obtain ⟨⟨id, inside⟩, same⟩ := back ⟨other, member⟩
      exact ⟨id, inside, unfolding_eq_iff_same.mpr same⟩
  · have member : registry.unfolding here.val ∈ later.unfoldings others := by
      rw [← same]
      exact ⟨here.val, here.property, rfl⟩
    obtain ⟨other, inside, equal⟩ := member
    exact ⟨⟨other, inside⟩, unfolding_eq_iff_same.mp equal.symm⟩
  · have member : later.unfolding there.val ∈ registry.unfoldings ids := by
      rw [same]
      exact ⟨there.val, there.property, rfl⟩
    obtain ⟨id, inside, equal⟩ := member
    exact ⟨⟨id, inside⟩, unfolding_eq_iff_same.mp equal⟩

/-- No shape unfolds to what a kind does. -/
theorem not_same_leaf_shapeTree {shape : Shape} :
    ¬ (Tree.leaf id).Same (registry.shapeTree shape) := by
  intro same
  cases shape <;> exact same.elim

section Across

variable (sound : registry.Sound) (soundLater : later.Sound)
include sound soundLater

/-- **Objects are compared as finite maps,** also across registries. -/
theorem unfolding_eq_iff_of_objects {fields others : Table String Field}
    (found : registry.fields? id = some fields) (found' : later.fields? other = some others) :
    registry.unfolding id = later.unfolding other ↔
      ∀ raw, registry.entriesAt fields raw = later.entriesAt others raw := by
  rw [unfolding_eq_iff_same, tree_of_shape? sound (fields?_eq_some_iff.mp found),
    tree_of_shape? soundLater (fields?_eq_some_iff.mp found')]
  exact same_objectTree_iff

/-- **Lists are compared as sets.** -/
theorem unfolding_eq_iff_of_lists {elements others : IdSet}
    (found : registry.elements? id = some elements)
    (found' : later.elements? other = some others) :
    registry.unfolding id = later.unfolding other ↔
      registry.unfoldings elements = later.unfoldings others := by
  rw [unfolding_eq_iff_same, tree_of_shape? sound (elements?_eq_some_iff.mp found),
    tree_of_shape? soundLater (elements?_eq_some_iff.mp found')]
  exact same_setTree_iff.trans (and_iff_right rfl)

/-- **Unions are compared as sets.** -/
theorem unfolding_eq_iff_of_unions {members others : IdSet}
    (found : registry.members? id = some members)
    (found' : later.members? other = some others) :
    registry.unfolding id = later.unfolding other ↔
      registry.unfoldings members = later.unfoldings others := by
  rw [unfolding_eq_iff_same, tree_of_shape? sound (members?_eq_some_iff.mp found),
    tree_of_shape? soundLater (members?_eq_some_iff.mp found')]
  exact same_setTree_iff.trans (and_iff_right rfl)

end Across

/-- Kinds and dates unfold to the same in all registries. -/
theorem unfolding_eq_of_shape?_eq_none (found : registry.shape? id = none)
    (found' : later.shape? id = none) : registry.unfolding id = later.unfolding id := by
  unfold unfolding
  rw [tree_of_shape?_eq_none found, tree_of_shape?_eq_none found']

section Alike

variable (sound : registry.Sound) (soundLater : later.Sound)
  (same : registry.unfolding id = later.unfolding other)
include soundLater same

/-- What unfolds like a kind or a date is one. -/
theorem eq_of_shape?_eq_none (found : registry.shape? id = none) : other = id := by
  have trees := unfolding_eq_iff_same.mp same
  rw [tree_of_shape?_eq_none found] at trees
  cases found' : later.shape? other with
  | none =>
    rw [tree_of_shape?_eq_none found'] at trees
    exact Eq.symm trees
  | some shape =>
    rw [tree_of_shape? soundLater found'] at trees
    exact absurd trees not_same_leaf_shapeTree

include sound

/-- What unfolds like a shape is one, and they unfold alike. -/
theorem exists_shape? {shape : Shape} (found : registry.shape? id = some shape) :
    ∃ shape', later.shape? other = some shape' ∧
      (registry.shapeTree shape).Same (later.shapeTree shape') := by
  have trees := unfolding_eq_iff_same.mp same
  rw [tree_of_shape? sound found] at trees
  cases found' : later.shape? other with
  | none =>
    rw [tree_of_shape?_eq_none found'] at trees
    exact absurd trees.symm not_same_leaf_shapeTree
  | some shape' =>
    rw [tree_of_shape? soundLater found'] at trees
    exact ⟨shape', rfl, trees⟩

end Alike

/-! ### One unfolding, one identity -/

/-- Objects whose entries unfold alike have one fingerprint, if identities below do not clash. -/
theorem fingerprint_eq_of_entriesAt_eq {fields others : Table String Field}
    (below : ∀ raw field other, fields.get? raw = some field → others.get? raw = some other →
      registry.unfolding field.shape = registry.unfolding other.shape → field.shape = other.shape)
    (same : ∀ raw, registry.entriesAt fields raw = registry.entriesAt others raw) :
    (Shape.object fields).fingerprint = (Shape.object others).fingerprint := by
  refine Shape.fingerprint_object_eq_iff.mpr fun raw => ?_
  have here := same raw
  unfold entriesAt at here
  cases under : fields.get? raw with
  | none =>
    rw [under] at here
    rw [Option.map_eq_none_iff.mp here.symm]
  | some field =>
    rw [under] at here
    obtain ⟨other, under', equal⟩ := Option.map_eq_some_iff.mp here.symm
    obtain ⟨marked, inside⟩ := Prod.mk.inj equal
    rw [under']
    exact congrArg some (Prod.ext marked.symm (below raw field other under under' inside.symm))

/-- Sets whose members unfold alike are equal, if identities below do not clash. -/
theorem eq_of_unfoldings_eq {ids others : IdSet}
    (below : ∀ id ∈ ids, ∀ other ∈ others,
      registry.unfolding id = registry.unfolding other → id = other)
    (same : registry.unfoldings ids = registry.unfoldings others) : ids = others := by
  refine IdSet.eq_of_mem_iff fun id => ⟨fun member => ?_, fun member => ?_⟩
  · have image : registry.unfolding id ∈ registry.unfoldings others := by
      rw [← same]
      exact ⟨id, member, rfl⟩
    obtain ⟨other, inside, equal⟩ := image
    rw [below id member other inside equal.symm]
    exact inside
  · have image : registry.unfolding id ∈ registry.unfoldings ids := by
      rw [same]
      exact ⟨id, member, rfl⟩
    obtain ⟨other, inside, equal⟩ := image
    rw [← below other inside id member equal]
    exact inside

/-- Shapes that unfold alike have one fingerprint, if identities below do not clash. -/
theorem fingerprint_eq_of_same {shape other : Shape}
    (below : ∀ child ∈ shape.children, ∀ child' ∈ other.children,
      registry.unfolding child = registry.unfolding child' → child = child')
    (same : (registry.shapeTree shape).Same (registry.shapeTree other)) :
    shape.fingerprint = other.fingerprint := by
  cases shape with
  | object fields =>
    cases other with
    | object others =>
      refine fingerprint_eq_of_entriesAt_eq (fun raw field field' under under' => ?_)
        (same_objectTree_iff.mp same)
      exact below _ (List.mem_map_of_mem (Table.mem_values_iff.mpr ⟨raw, under⟩)) _
        (List.mem_map_of_mem (Table.mem_values_iff.mpr ⟨raw, under'⟩))
    | list => exact same.elim
    | union => exact same.elim
  | list elements =>
    cases other with
    | object => exact same.elim
    | list others => rw [eq_of_unfoldings_eq below (same_setTree_iff.mp same).2]
    | union => exact absurd (same_setTree_iff.mp same).1 (by decide)
  | union members =>
    cases other with
    | object => exact same.elim
    | list => exact absurd (same_setTree_iff.mp same).1 (by decide)
    | union others => rw [eq_of_unfoldings_eq below (same_setTree_iff.mp same).2]

/-- **One unfolding, one identity.** -/
theorem eq_of_unfolding_eq (sound : registry.Sound)
    (same : registry.unfolding id = registry.unfolding other) : id = other := by
  -- The fingerprints of nodes agree once no identities further down clash.
  induction level : id.ceiling using Nat.strong_induction_on generalizing id other with
  | h level step =>
    subst level
    cases found : registry.shape? id with
    | none => exact (eq_of_shape?_eq_none sound same found).symm
    | some shape =>
      obtain ⟨shape', found', trees⟩ := exists_shape? sound sound same found
      have marks := fingerprint_eq_of_same (fun child member child' _ equal =>
        step child.ceiling (sound.child found member).2 equal rfl) trees
      obtain ⟨index, rfl, kept⟩ := shape?_eq_some_iff.mp found
      obtain ⟨index', rfl, kept'⟩ := shape?_eq_some_iff.mp found'
      exact congrArg ShapeId.node (sound.eq_of_fingerprint_eq kept kept' marks)

/-! ### The registries that arise -/

end Registry

/-- The observer that observing some values one after the other leads to, whether the observations
succeed or not. -/
def Observer.after (options : Options) (samples : List Json) : Observer :=
  samples.foldl (fun observer sample => (observer.observe options sample).2) ∅

theorem Observer.after_sound (options : Options) (samples : List Json) :
    (Observer.after options samples).Sound :=
  List.foldlRecOn samples _ Observer.sound_empty fun _ sound sample _ =>
    Observer.observe_sound sound options sample

namespace Registry

variable {options : Options} {registry : Registry} {first second : ShapeId}

/-- The registries that observations lead to, with unification and pruning after them. -/
inductive Produced (options : Options) : Registry → Prop where
  /-- What observations leave behind. -/
  | observed (samples : List Json) : Produced options (Observer.after options samples).registry
  /-- What unifying explicit references leaves of it. -/
  | unified {registry : Registry} (before : Produced options registry) (root : ShapeId) :
      Produced options (registry.unifyTargets root).2
  /-- What dropping leaves of it. -/
  | pruned {registry : Registry} (before : Produced options registry) (roots : List ShapeId) :
      Produced options (registry.prune roots)

theorem Produced.sound (produced : Produced options registry) : registry.Sound := by
  induction produced with
  | observed samples => exact (Observer.after_sound options samples).registry
  | unified _ root sound => exact (unifyTargets_sound sound root).1
  | pruned _ roots sound => exact sound.prune roots

/-- **Identities are equal exactly if their unfoldings are.** -/
theorem Produced.unfolding_eq_iff (produced : Produced options registry) :
    registry.unfolding first = registry.unfolding second ↔ first = second :=
  ⟨eq_of_unfolding_eq produced.sound, fun same => by rw [same]⟩

/-- An object under a target and what it is merged into unfold differently. -/
theorem unfolding_ne_of_two_references :
    ∃ registry : Registry, Produced {} registry ∧ registry.size = 4 ∧
      registry.unfolding (.node 0) ≠ registry.unfolding (.node 3) := by
  have observed : Produced {} _ := .observed [.object [("a[T]", .object [("x", .null)]),
    ("b[T]", .object [("y", .null)])]]
  have produced := (observed.unified (.node 2)).pruned [.node 2, .node 3]
  refine ⟨_, produced, by decide +kernel, fun same => ?_⟩
  exact absurd (produced.unfolding_eq_iff.mp same) (by decide)

end Registry

end SampleShapes
