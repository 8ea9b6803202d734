/-
**Copies of a registry.**

A copy keeps the shapes of a registry under other nodes, which stand in the same order, and it may
keep one more: the list of some object. Interning goes along with the copy, and hands out the same
nodes under their names in the copy. The list more is never asked for, as long as the object in it
is higher than anything that is interned.

* `Embeds.shape?_rename`, `Embeds.flatten_rename`: what is kept is read alike under other nodes;
* `Copies.lookup_rename`: shapes that are low enough are found alike;
* `Copies.intern`: **interning a shape that is low enough goes along with the copy;**
* `exists_copies`: interning the list of an object makes a copy.
-/

import SampleShapes.Proofs.Registry.Height
import SampleShapes.Proofs.Shape.Renaming

namespace SampleShapes.Registry

variable {move : Relocation} {id : ShapeId} {registry copy later : Registry}

/-! ### Shapes under other nodes -/

/-- What is kept in `registry` is kept in `copy` under other nodes. -/
def Embeds (registry : Registry) (nodes : Nat ↪o Nat) (copy : Registry) : Prop :=
  ∀ index shape, registry.shapeAt? index = some shape →
    copy.shapeAt? (nodes index) = some (shape.rename nodes)

namespace Embeds

variable {nodes : Nat ↪o Nat} (embeds : registry.Embeds nodes copy)
include embeds

theorem shape?_rename (held : registry.Holds id) :
    copy.shape? (id.rename nodes) = (registry.shape? id).map (Shape.rename nodes) := by
  cases id with
  | node index =>
    obtain ⟨shape, found⟩ := held
    show copy.shapeAt? (nodes index) = (registry.shapeAt? index).map _
    rw [embeds index shape found, found]
    rfl
  | primitive kind => rfl
  | date => rfl

theorem fields?_rename (held : registry.Holds id) :
    copy.fields? (id.rename nodes) =
      (registry.fields? id).map (Table.map (Field.rename nodes)) := by
  unfold fields?
  rw [embeds.shape?_rename held]
  cases registry.shape? id with
  | none => rfl
  | some shape => exact Shape.fields?_rename

theorem elements?_rename (held : registry.Holds id) :
    copy.elements? (id.rename nodes) = (registry.elements? id).map (IdSet.rename nodes) := by
  unfold elements?
  rw [embeds.shape?_rename held]
  cases registry.shape? id with
  | none => rfl
  | some shape => exact Shape.elements?_rename

theorem members?_rename (held : registry.Holds id) :
    copy.members? (id.rename nodes) = (registry.members? id).map (IdSet.rename nodes) := by
  unfold members?
  rw [embeds.shape?_rename held]
  cases registry.shape? id with
  | none => rfl
  | some shape => exact Shape.members?_rename

/-- Candidates are the same objects under other nodes, null aside. -/
theorem mapM_fields?_rename {ids : List ShapeId} (held : ∀ id ∈ ids, registry.Holds id) :
    ((ids.map (ShapeId.rename nodes)).filter (· ≠ .null)).mapM copy.fields? =
      ((ids.filter (· ≠ .null)).mapM registry.fields?).map
        (List.map (Table.map (Field.rename nodes))) := by
  rw [ShapeId.filter_rename]
  exact Lists.mapM_map fun id member =>
    embeds.fields?_rename (held id (List.mem_of_mem_filter member))

/-- They are the same lists, too. -/
theorem mapM_elements?_rename {ids : List ShapeId} (held : ∀ id ∈ ids, registry.Holds id) :
    ((ids.map (ShapeId.rename nodes)).filter (· ≠ .null)).mapM copy.elements? =
      ((ids.filter (· ≠ .null)).mapM registry.elements?).map
        (List.map (IdSet.rename nodes)) := by
  rw [ShapeId.filter_rename]
  exact Lists.mapM_map fun id member =>
    embeds.elements?_rename (held id (List.mem_of_mem_filter member))

theorem alternatives_rename (held : registry.Holds id) :
    copy.alternatives (id.rename nodes) =
      (registry.alternatives id).map (ShapeId.rename nodes) := by
  unfold alternatives
  rw [embeds.members?_rename held]
  cases registry.members? id <;> rfl

/-- **Flat candidates are the same under other nodes.** -/
theorem flatten_rename {candidates : List ShapeId}
    (held : ∀ candidate ∈ candidates, registry.Holds candidate) :
    copy.flatten (candidates.map (ShapeId.rename nodes)) =
      (registry.flatten candidates).map (ShapeId.rename nodes) := by
  have held : ∀ candidate ∈ candidates.eraseDups, registry.Holds candidate :=
    fun candidate member => held candidate (List.mem_eraseDups.mp member)
  unfold flatten
  rw [Lists.eraseDups_map ShapeId.rename_injective]
  generalize candidates.eraseDups = ids at held
  match ids with
  | [] => rfl
  | [only] => rfl
  | first :: second :: rest =>
    show ((List.map _ (first :: second :: rest)).flatMap copy.alternatives).eraseDups =
      List.map _ ((first :: second :: rest).flatMap registry.alternatives).eraseDups
    rw [← Lists.eraseDups_map ShapeId.rename_injective, List.flatMap_map, List.map_flatMap]
    refine congrArg List.eraseDups (List.flatMap_congr fun candidate member => ?_)
    exact embeds.alternatives_rename (held candidate member)

end Embeds

/-! ### Copies -/

/-- Where a copy keeps the shapes of a registry, and what it keeps more. -/
structure Relocation where
  /-- The node in the copy for each node. -/
  nodes : Nat ↪o Nat
  /-- The node of the object whose list the copy keeps. -/
  top : Nat
  /-- The node of the list in the copy. -/
  listed : Nat
  /-- How high a shape may be to be merged, which is less than the height of the object. -/
  limit : Nat

/-- `copy` keeps what `registry` keeps, and the list of the top, if that is not kept anyway. -/
structure Copies (move : Relocation) (registry copy : Registry) : Prop where
  /-- What is copied is sound. -/
  sound : registry.Sound
  /-- The copy finds what it keeps. -/
  indexed : copy.Indexed
  /-- What is kept is copied. -/
  kept : registry.Embeds move.nodes copy
  /-- The list of the top is in the copy. -/
  listed : copy.shapeAt? move.listed = some (.list (.singleton (.node (move.nodes move.top))))
  /-- Nothing else is. -/
  copied : ∀ index shape, copy.shapeAt? index = some shape →
    (∃ old kept, move.nodes old = index ∧ registry.shapeAt? old = some kept) ∨ index = move.listed
  /-- The next slots correspond. -/
  next : ∀ more, move.nodes (registry.capacity + more) = copy.capacity + more
  /-- The top is kept. -/
  holds : registry.Holds (.node move.top)
  /-- It is too high to be merged. -/
  high : ¬ registry.NoHigher move.limit (.node move.top)
  /-- But what is inside of it is not. -/
  least : registry.NoHigher (move.limit + 1) (.node move.top)

/-- The result is the same in the copy. -/
structure Copied (move : Relocation) (result result' : ShapeId × Registry) : Prop where
  /-- The identity has the name of the other one. -/
  same : result'.1 = result.1.rename move.nodes
  /-- And what is left behind is copied. -/
  copies : Copies move result.2 result'.2

namespace Copies

variable (copies : Copies move registry copy)
include copies

/-- A shape whose children are low enough is found in the copy where it is found in the registry. -/
theorem lookup_rename {shape : Shape}
    (low : ∀ child ∈ shape.children, registry.NoHigher move.limit child) :
    copy.index.lookup (shape.rename move.nodes).fingerprint =
      (registry.index.lookup shape.fingerprint).map move.nodes := by
  refine Option.ext fun index => ?_
  rw [copies.indexed.lookup_eq_some_iff, Option.map_eq_some_iff]
  constructor
  · rintro ⟨other, found, same⟩
    rcases copies.copied index other found with ⟨old, kept, rfl, here⟩ | rfl
    · obtain rfl := Option.some.inj ((copies.kept old kept here).symm.trans found)
      refine ⟨old, copies.sound.lookup_eq_some_iff.mpr ⟨kept, here, ?_⟩, rfl⟩
      exact Shape.fingerprint_rename_eq_iff.mp same
    · -- The list of the top is none of the shapes with low children.
      have list : shape.rename move.nodes = .list (.singleton (.node (move.nodes move.top))) :=
        Shape.eq_list_of_fingerprint (Option.some.inj (found.symm.trans copies.listed) ▸ same.symm)
      have member : (ShapeId.node move.top).rename move.nodes ∈
          (shape.rename move.nodes).children := by
        rw [list]
        exact List.mem_singleton_self _
      rw [Shape.children_rename, List.mem_map_of_injective ShapeId.rename_injective] at member
      exact absurd (low _ member) copies.high
  · rintro ⟨old, found, rfl⟩
    obtain ⟨kept, here, same⟩ := copies.sound.lookup_eq_some_iff.mp found
    exact ⟨kept.rename move.nodes, copies.kept old kept here,
      Shape.fingerprint_rename_eq_iff.mpr same⟩

/-- **Interning a shape that is low enough goes along with the copy.** -/
theorem intern {shape : Shape} (carries : registry.Carries shape)
    (low : ∀ child ∈ shape.children, registry.NoHigher move.limit child) :
    Copied move (registry.intern shape) (copy.intern (shape.rename move.nodes)) := by
  have looked := copies.lookup_rename low
  have grows := grows_intern shape registry
  have high : ¬ (registry.intern shape).2.NoHigher move.limit (.node move.top) := by
    rw [noHigher_grow_iff copies.sound grows copies.holds]
    exact copies.high
  cases known : registry.index.lookup shape.fingerprint with
  | some index =>
    rw [known] at looked
    rw [intern_of_lookup_eq_some known, intern_of_lookup_eq_some looked]
    exact ⟨rfl, copies⟩
  | none =>
    rw [known] at looked
    have fresh := shapeAt?_intern_of_lookup_eq_none known
    have fresh' := shapeAt?_intern_of_lookup_eq_none looked
    have last : move.nodes registry.capacity = copy.capacity := copies.next 0
    refine ⟨?_, ⟨copies.sound.intern carries, copies.indexed.intern _, fun index kept found => ?_,
      (grows_intern _ copy).within _ _ copies.listed, fun index kept found => ?_, fun more => ?_,
      grows.holds copies.holds, high,
      (noHigher_grow_iff copies.sound grows copies.holds).mpr copies.least⟩⟩
    · rw [fst_intern_of_lookup_eq_none known, fst_intern_of_lookup_eq_none looked]
      exact congrArg ShapeId.node last.symm
    · rw [fresh] at found
      rw [fresh']
      split at found
      · next here =>
        rw [here, if_pos last, ← Option.some.inj found]
      · next before =>
        rw [if_neg fun here => before (move.nodes.injective (here.trans last.symm))]
        exact copies.kept index kept found
    · rw [fresh'] at found
      split at found
      · next here =>
        refine .inl ⟨registry.capacity, shape, last.trans here.symm, ?_⟩
        rw [fresh, if_pos rfl]
      · refine (copies.copied index kept found).imp_left ?_
        rintro ⟨old, before, rfl, here⟩
        exact ⟨old, before, rfl, grows.within old before here⟩
    · rw [capacity_intern_of_lookup_eq_none known, capacity_intern_of_lookup_eq_none looked,
        Nat.add_assoc, Nat.add_assoc]
      exact copies.next (1 + more)

end Copies

/-! ### The list of an object -/

/-- **Interning the list of an object makes a copy,** whether the list is new or not. -/
theorem exists_copies (sound : registry.Sound) {top : Nat}
    (object : (registry.fields? (.node top)).isSome) :
    ∃ move : Relocation, move.top = top ∧
      (registry.intern (.list (.singleton (.node top)))).1 = .node move.listed ∧
      registry.Copies move (registry.intern (.list (.singleton (.node top)))).2 := by
  obtain ⟨fields, found⟩ := Option.isSome_iff_exists.mp object
  obtain ⟨limit, least, high⟩ := sound.exists_least_height found
  have holds := holds_of_fields? object
  have below := ceiling_le_capacity holds
  have elements := sound.elements?_intern (.singleton (.node top))
  obtain ⟨list, isList⟩ : ∃ list, Shape.list (.singleton (.node top)) = list := ⟨_, rfl⟩
  rw [isList] at elements ⊢
  obtain ⟨listed, isNode, there⟩ := shape?_eq_some_iff.mp (elements?_eq_some_iff.mp elements)
  have grows := grows_intern list registry
  have indexed := sound.toIndexed.intern list
  have room := capacity_le_intern list registry
  -- Whatever comes next moves up if the list is new, and stays otherwise.
  obtain ⟨more, up⟩ : ∃ more, (registry.intern list).2.capacity = registry.capacity + more :=
    Nat.exists_eq_add_of_le room
  refine ⟨⟨shiftFrom registry.capacity more, top, listed, limit⟩, rfl, isNode, ?_⟩
  refine ⟨sound, indexed, fun index shape kept => ?_, ?_, fun index shape kept => ?_,
    fun offset => ?_, holds, high, least⟩
  · have fixed : ∀ child ∈ shape.children,
        child.rename (shiftFrom registry.capacity more) = child := fun child member =>
      ShapeId.rename_shiftFrom (ceiling_le_capacity ((sound.carries index shape kept).holds child
        member)) more
    rw [shiftFrom_of_lt (lt_capacity_of_shapeAt? kept), Shape.rename_eq_self fixed]
    exact grows.within index shape kept
  · rw [there, shiftFrom_of_lt below]
  · rcases shapeAt?_intern_cases kept with old | ⟨_, rfl⟩
    · exact .inl ⟨index, shape, shiftFrom_of_lt (lt_capacity_of_shapeAt? old) _, old⟩
    · rw [isList] at there
      exact .inr (indexed.eq_of_fingerprint_eq kept there rfl)
  · rw [shiftFrom_add, up, Nat.add_right_comm]

end SampleShapes.Registry
