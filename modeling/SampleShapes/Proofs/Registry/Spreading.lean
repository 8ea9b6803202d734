/-
**Spreading candidates.**

A union counts as its members when candidates are merged, unless it is the only candidate. Where
every shape is normal this makes no difference: a union is what its members join to.

* `flatten_of_flat`: candidates without unions are flat;
* `joins_members`: a normal union joins its members;
* `Joins.spread`: **candidates join to what the members of their unions join to.**
-/

import SampleShapes.Proofs.Registry.Normality

namespace SampleShapes.Registry

variable {registry later : Registry} {candidates : List ShapeId} {id joined : ShapeId}

/-! ### Spread candidates -/

/-- The candidates, each once, with the members of unions in place of unions, also of one that is
alone. -/
def spread (registry : Registry) (candidates : List ShapeId) : List ShapeId :=
  (candidates.eraseDups.flatMap registry.alternatives).eraseDups

theorem mem_spread_iff :
    id ∈ registry.spread candidates ↔
      ∃ candidate ∈ candidates, id ∈ registry.alternatives candidate := by
  unfold spread
  rw [List.mem_eraseDups, List.mem_flatMap]
  exact exists_congr fun candidate => and_congr_left fun _ => List.mem_eraseDups

/-- No identity is that of a union. -/
def Flat (registry : Registry) (ids : List ShapeId) : Prop :=
  ∀ id ∈ ids, registry.members? id = none

theorem alternatives_of_members? {members : IdSet} (found : registry.members? id = some members) :
    registry.alternatives id = members.toList := by
  unfold alternatives
  rw [found]

theorem alternatives_of_flat (flat : registry.members? id = none) :
    registry.alternatives id = [id] := by
  unfold alternatives
  rw [flat]

/-- What a nullable shape spreads to, if what is solid of it is no union. -/
theorem IsNullable.mem_alternatives_iff {ids : List ShapeId} {solid : ShapeId}
    (nullable : registry.IsNullable ids solid joined) (notUnion : registry.members? solid = none) :
    id ∈ registry.alternatives joined ↔ id = solid ∨ id = .null ∧ .null ∈ ids := by
  unfold IsNullable at nullable
  split at nullable
  · next null =>
    rw [alternatives_of_members? nullable]
    simp [null]
  · next solidOnly =>
    rw [nullable, alternatives_of_flat notUnion]
    simp [solidOnly]

theorem flat_spread (normal : registry.Normal) (candidates : List ShapeId) :
    registry.Flat (registry.spread candidates) := by
  intro id member
  obtain ⟨candidate, _, inside⟩ := mem_spread_iff.mp member
  cases found : registry.members? candidate with
  | none =>
    rw [alternatives_of_flat found] at inside
    rwa [List.mem_singleton.mp inside]
  | some members =>
    rw [alternatives_of_members? found] at inside
    exact (normal.union found).flat id inside

theorem flatten_of_flat (flat : registry.Flat candidates) :
    registry.flatten candidates = candidates.eraseDups := by
  have same : candidates.eraseDups.flatMap registry.alternatives = candidates.eraseDups := by
    have each : ∀ id ∈ candidates.eraseDups, registry.alternatives id = [id] := fun id member =>
      alternatives_of_flat (flat id (List.mem_eraseDups.mp member))
    rw [List.flatMap_congr each, List.flatMap_singleton']
  unfold flatten
  split
  · next only alone => exact alone.symm
  · rw [same, Lists.eraseDups_eraseDups]

theorem flatten_spread (normal : registry.Normal) (candidates : List ShapeId) :
    registry.flatten (registry.spread candidates) = registry.spread candidates :=
  (flatten_of_flat (flat_spread normal candidates)).trans (Lists.eraseDups_eraseDups _)

theorem flatten_eq (registry : Registry) (candidates : List ShapeId) :
    registry.flatten candidates =
      if candidates.eraseDups.length = 1 then candidates.eraseDups
      else registry.spread candidates := by
  unfold flatten
  split
  · next only alone => rw [alone, if_pos List.length_singleton]
  · next notAlone =>
    rw [if_neg fun single => ?_]
    · rfl
    · obtain ⟨only, alone⟩ := List.length_eq_one_iff.mp single
      exact notAlone only alone

/-- Flat candidates are spread, unless one is alone. -/
theorem flatten_cases (registry : Registry) (candidates : List ShapeId) :
    registry.flatten candidates = registry.spread candidates ∨
      ∃ only, candidates.eraseDups = [only] ∧ registry.flatten candidates = [only] := by
  unfold flatten
  split
  · next only alone => exact .inr ⟨only, alone, rfl⟩
  · exact .inl rfl

/-- A candidate is alone if its candidates are not spread. -/
theorem flatten_cases_of_mem (member : id ∈ candidates) :
    registry.flatten candidates = [id] ∨
      registry.flatten candidates = registry.spread candidates := by
  rcases flatten_cases registry candidates with flat | ⟨only, alone, flat⟩
  · exact .inr flat
  · rw [flat, (Lists.eraseDups_eq_singleton_iff.mp alone).2 id member]
    exact .inl rfl

theorem flatten_of_ne {other : ShapeId} (member : id ∈ candidates) (member' : other ∈ candidates)
    (apart : id ≠ other) : registry.flatten candidates = registry.spread candidates := by
  rcases flatten_cases registry candidates with same | ⟨only, alone, _⟩
  · exact same
  · have single := (Lists.eraseDups_eq_singleton_iff.mp alone).2
    exact absurd ((single id member).trans (single other member').symm) apart

theorem flatten_of_several (several : 2 ≤ (registry.flatten candidates).length) :
    registry.flatten candidates = registry.spread candidates := by
  rcases flatten_cases registry candidates with same | ⟨only, _, flat⟩
  · exact same
  · rw [flat] at several
    exact absurd several (Nat.not_succ_le_self 1)

/-- Several flat candidates do not come from one candidate. -/
theorem exists_ne_of_several (several : 2 ≤ (registry.flatten candidates).length)
    (id : ShapeId) : ∃ candidate ∈ candidates, candidate ≠ id := by
  by_contra! same
  cases candidates with
  | nil => exact absurd several (Nat.not_succ_le_zero 1)
  | cons first rest =>
    have alone : (first :: rest).eraseDups = [first] :=
      Lists.eraseDups_eq_singleton_iff.mpr ⟨List.mem_cons_self, fun other inside =>
        (same other inside).trans (same first List.mem_cons_self).symm⟩
    unfold flatten at several
    rw [alone] at several
    exact absurd several (Nat.not_succ_le_self 1)

/-- An identity is the only flat one if there is nothing else to spread. -/
theorem flatten_of_only (member : id ∈ candidates) (flat : registry.members? id = none)
    (only : ∀ other ∈ registry.spread candidates, other = id) :
    registry.flatten candidates = [id] := by
  rcases flatten_cases_of_mem member with alone | same
  · exact alone
  · have spread : id ∈ registry.spread candidates :=
      mem_spread_iff.mpr ⟨id, member, by rw [alternatives_of_flat flat]; exact List.mem_cons_self⟩
    rw [same]
    exact Lists.eq_singleton_of_nodup (Lists.nodup_eraseDups _) spread only

/-- A union among its members and what spreads to some of them, or what spreads to all of them
without it, is flat like its members, unless the union is alone. -/
theorem flatten_cases_of_union {ids : List ShapeId}
    (found : registry.members? joined = some (.ofList ids)) (once : ids.Nodup)
    (within : ∀ other ∈ candidates, other ≠ joined → ∀ id ∈ registry.alternatives other, id ∈ ids)
    (covers : joined ∈ candidates ∨ registry.flatten candidates = registry.spread candidates ∧
      ∀ id ∈ ids, id ∈ registry.spread candidates) :
    registry.flatten candidates = [joined] ∨ (registry.flatten candidates).Perm ids := by
  have members : ∀ id, id ∈ registry.alternatives joined ↔ id ∈ ids := fun id => by
    rw [alternatives_of_members? found, IdSet.mem_toList, IdSet.mem_ofList]
  have perm_of_covers (flat : registry.flatten candidates = registry.spread candidates)
      (all : ∀ id ∈ ids, id ∈ registry.spread candidates) :
      (registry.flatten candidates).Perm ids := by
    refine (List.perm_ext_iff_of_nodup (nodup_flatten _ _) once).mpr fun id => ?_
    rw [flat]
    refine ⟨fun spread => ?_, all id⟩
    obtain ⟨candidate, among, alternative⟩ := mem_spread_iff.mp spread
    by_cases same : candidate = joined
    · exact (members id).mp (same ▸ alternative)
    · exact within candidate among same id alternative
  rcases covers with among | ⟨flat, all⟩
  · refine (flatten_cases_of_mem among).imp_right fun flat => perm_of_covers flat ?_
    exact fun id inside => mem_spread_iff.mpr ⟨joined, among, (members id).mpr inside⟩
  · exact .inr (perm_of_covers flat all)

/-- There is nothing else to spread if an identity is the only flat one. -/
theorem spread_of_only (flat : registry.members? id = none)
    (only : registry.flatten candidates = [id]) : registry.spread candidates = [id] := by
  rcases flatten_cases registry candidates with same | ⟨other, alone, flatAlone⟩
  · exact same.symm.trans only
  · obtain rfl := List.singleton_injective (flatAlone.symm.trans only)
    unfold spread
    rw [alone, List.flatMap_singleton, alternatives_of_flat flat]
    rfl

theorem holds_spread (sound : registry.Sound)
    (held : ∀ candidate ∈ candidates, registry.Holds candidate) :
    ∀ id ∈ registry.spread candidates, registry.Holds id := by
  intro id member
  obtain ⟨candidate, inside, alternative⟩ := mem_spread_iff.mp member
  cases found : registry.members? candidate with
  | none =>
    rw [alternatives_of_flat found, List.mem_singleton] at alternative
    rw [alternative]
    exact held candidate inside
  | some members =>
    rw [alternatives_of_members? found] at alternative
    exact (sound.member found alternative).1

theorem spread_grow (grows : registry.Grows later)
    (held : ∀ candidate ∈ candidates, registry.Holds candidate) :
    later.spread candidates = registry.spread candidates := by
  refine congrArg List.eraseDups (List.flatMap_congr fun candidate member => ?_)
  unfold alternatives
  rw [grows.members?_eq (held candidate (List.mem_eraseDups.mp member))]

/-! ### Unions -/

/-- The fields are those of objects that are joined. -/
def Composes (registry : Registry) (objects : List (Table String Field))
    (fields : Table String Field) : Prop :=
  Unites objects fields ∧ ∀ raw field, fields.get? raw = some field →
    registry.Joins (shapesUnder objects raw) field.shape

theorem composes_self (registry : Registry) (fields : Table String Field) :
    registry.Composes [fields] fields := by
  refine ⟨⟨by simp, fun raw field found => by simp [found]⟩, fun raw field found => .alone ?_⟩
  have under : shapesUnder [fields] raw = [field.shape] := by simp [shapesUnder, found]
  rw [under]
  rfl

theorem joins_self (id : ShapeId) : registry.Joins [id] id := .alone rfl

/-- A set of several identities, all but null the same, has null and one more. -/
theorem OneSolid.exists_nullable {members : IdSet} (one : OneSolid members)
    (several : 2 ≤ members.toList.length) :
    ∃ solid, solid ≠ .null ∧ members = .ofList [solid, .null] ∧
      members.toList.filter (· ≠ .null) = [solid] := by
  have distinct := members.nodup_toList
  obtain ⟨solid, member, notNull⟩ := Lists.exists_ne_of_nodup distinct several .null
  obtain ⟨other, member', apart⟩ := Lists.exists_ne_of_nodup distinct several solid
  have null : other = .null := by
    by_contra notNull'
    exact apart (one other member' solid member notNull' notNull)
  subst null
  refine ⟨solid, notNull, IdSet.eq_of_mem_iff fun id => ?_, ?_⟩
  · rw [IdSet.mem_ofList, List.mem_cons, List.mem_singleton]
    constructor
    · intro inside
      by_cases isNull : id = .null
      · exact .inr isNull
      · exact .inl (one id inside solid member isNull notNull)
    · rintro (rfl | rfl)
      · exact member
      · exact member'
  · refine Lists.eq_singleton_of_nodup (distinct.filter _)
      (List.mem_filter.mpr ⟨member, decide_eq_true notNull⟩) fun id inside => ?_
    obtain ⟨inside, solid'⟩ := List.mem_filter.mp inside
    exact one id inside solid member (of_decide_eq_true solid') notNull

/-- **A union joins its members,** if it is normal. -/
theorem joins_members (normal : registry.Normal) {members : IdSet}
    (found : registry.members? id = some members) : registry.Joins members.toList id := by
  have isNormal := normal.union found
  have flat : registry.flatten members.toList = members.toList :=
    (flatten_of_flat isNormal.flat).trans (Lists.eraseDups_of_nodup members.nodup_toList)
  rcases Nat.lt_or_ge members.toList.length 2 with few | several
  · match only : members.toList with
    | [] =>
      refine .nothing rfl (found.trans (congrArg some (IdSet.eq_of_mem_iff fun id => ?_)))
      rw [← IdSet.mem_toList, only]
      exact Iff.rfl
    | [single] =>
      refine absurd (IdSet.eq_of_mem_iff fun id => ?_) (isNormal.notAlone single)
      rw [← IdSet.mem_toList, only]
      exact Iff.rfl
    | _ :: _ :: _ =>
      rw [only, List.length_cons, List.length_cons] at few
      omega
  have enough : 2 ≤ (registry.flatten members.toList).length := by
    rw [flat]
    exact several
  have nullable : ∀ solid, members = .ofList [solid, .null] →
      registry.IsNullable (registry.flatten members.toList) solid id := by
    intro solid same
    have null : .null ∈ members.toList := by
      rw [IdSet.mem_toList, same]
      simp
    rw [IsNullable, flat, if_pos null, found, same]
  -- Objects or lists alone are one, which null has made nullable.
  cases objects : (members.toList.filter (· ≠ .null)).mapM registry.fields? with
  | some tables =>
    have one : OneSolid members := isNormal.objects fun id member solid => by
      obtain ⟨_, _, here⟩ := exists_result_of_mem objects member solid
      exact Option.isSome_of_eq_some here
    obtain ⟨solid, _, same, alone⟩ := one.exists_nullable several
    rw [alone] at objects
    obtain ⟨fields, here⟩ : ∃ fields, registry.fields? solid = some fields := by
      obtain ⟨fields, _, here⟩ := Lists.exists_mem_of_mapM objects (List.mem_singleton_self solid)
      exact ⟨fields, here⟩
    have composes := composes_self registry fields
    refine .objects enough ?_ here composes.1 composes.2 (nullable solid same)
    rw [flat, alone]
    simp [here]
  | none =>
    cases lists : (members.toList.filter (· ≠ .null)).mapM registry.elements? with
    | some sets =>
      have one : OneSolid members := isNormal.lists fun id member solid => by
        obtain ⟨_, _, here⟩ := exists_result_of_mem lists member solid
        exact Option.isSome_of_eq_some here
      obtain ⟨solid, _, same, alone⟩ := one.exists_nullable several
      rw [alone] at lists
      obtain ⟨elements, _, here⟩ := Lists.exists_mem_of_mapM lists
        (List.mem_singleton_self solid)
      obtain ⟨element, rfl⟩ := normal.singleton here
      have all : ((registry.flatten members.toList).filter (· ≠ .null)).mapM registry.elements? =
          some [.singleton element] := by
        rw [flat, alone]
        simp [here]
      exact .lists enough all here (joins_self element) (nullable solid same)
    | none =>
      refine .mixed enough (by rw [flat]; exact objects) (by rw [flat]; exact lists) ?_
      rw [found, flat]
      exact congrArg some (IdSet.eq_of_mem_iff fun id => IdSet.mem_ofList.symm)

/-- **Candidates join to what the members of their unions join to,** also a union that is alone. -/
theorem Joins.spread (normal : registry.Normal) (joins : registry.Joins candidates joined) :
    registry.Joins (registry.spread candidates) joined := by
  rcases flatten_cases registry candidates with same | ⟨only, alone, flat⟩
  · exact joins.congr ((flatten_spread normal candidates).trans same.symm)
  · obtain rfl := joins.of_singleton flat
    have spread : registry.spread candidates = (registry.alternatives joined).eraseDups := by
      unfold Registry.spread
      rw [alone, List.flatMap_singleton]
    rw [spread]
    cases found : registry.members? joined with
    | none =>
      rw [alternatives_of_flat found]
      exact .alone rfl
    | some members =>
      rw [alternatives_of_members? found]
      exact (joins_members normal found).congr (flatten_eraseDups _ _)

end SampleShapes.Registry
