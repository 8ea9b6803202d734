/-
**How deep a value may nest.**

A value is refused if it nests deeper than the limit, but not every part of it is looked at: an
empty array takes over the list that its target is bound to, and how deep it stands itself is never
asked. So the guard is exact for the height of what is looked at, which is at most one level less
than the height of the value.

* `shallow_iff_height_le`: a value stands high enough if the limit leaves room for its height;
* `readHeight_bounds`: what is looked at is at most one level less high;
* `value_guards`: **a value is refused exactly if what is looked at nests too deep**;
* `infer_fails_iff`: the same of the inference from a sample;
* `guard_exact_iff`: when the guard is exact for the height of the sample.
-/

import SampleShapes.Proofs.Inference
import SampleShapes.Proofs.Json.Reordering

namespace SampleShapes

namespace Json

/-! ### Heights -/

mutual

/-- How deep a value nests: values without structure and empty containers not at all, any other
container one level deeper than the deepest of its parts. -/
def height : Json → Nat
  | array elements => heightAmong elements
  | object members => heightUnder members
  | _ => 0

/-- How deep a container of the elements nests. -/
def heightAmong : List Json → Nat
  | [] => 0
  | element :: rest => max (element.height + 1) (heightAmong rest)

/-- How deep a container of the members nests. -/
def heightUnder : List (String × Json) → Nat
  | [] => 0
  | (_, member) :: rest => max (member.height + 1) (heightUnder rest)

end

theorem heightAmong_le_iff {elements : List Json} {limit : Nat} :
    heightAmong elements ≤ limit ↔ ∀ element ∈ elements, element.height + 1 ≤ limit := by
  induction elements with
  | nil => simp [heightAmong]
  | cons element rest step => rw [heightAmong, Nat.max_le, step, List.forall_mem_cons]

theorem heightUnder_le_iff {members : List (String × Json)} {limit : Nat} :
    heightUnder members ≤ limit ↔ ∀ member ∈ members, member.2.height + 1 ≤ limit := by
  induction members with
  | nil => simp [heightUnder]
  | cons member rest step =>
    obtain ⟨raw, value⟩ := member
    rw [heightUnder, Nat.max_le, step, List.forall_mem_cons]

/-- The height of a value bounds that of its parts, and is no more than they ask for. -/
theorem height_le_iff {value : Json} {limit : Nat} :
    value.height ≤ limit ↔ ∀ part ∈ value.parts, part.height + 1 ≤ limit := by
  cases value with
  | array elements => exact heightAmong_le_iff
  | object members =>
    show heightUnder members ≤ limit ↔ ∀ part ∈ members.map Prod.snd, _
    rw [heightUnder_le_iff, List.forall_mem_map]
  | _ => simp [height, parts]

/-- **A value stands high enough if the limit leaves room for its height.** -/
theorem shallow_iff_height_le {limit depth : Nat} {value : Json} :
    value.Shallow limit depth ↔ depth + value.height ≤ limit := by
  induction value using Json.induct generalizing depth with
  | step value parts =>
    rw [shallow_iff]
    constructor
    · rintro ⟨here, inside⟩
      have room : value.height ≤ limit - depth := height_le_iff.mpr fun part member => by
        have deeper := (parts part member).mp (inside part member)
        omega
      omega
    · intro room
      refine ⟨by omega, fun part member => (parts part member).mpr ?_⟩
      have deeper := height_le_iff.mp (Nat.le_refl value.height) part member
      omega

/-! ### What is looked at -/

/-- The targets that a value binds in the place of a field: that of its key, if it is an array with
elements. -/
def ownTargets (target : Option String) : Json → List String
  | array (_ :: _) => target.toList
  | _ => []

mutual

/-- The targets that are bound to lists inside of a value. -/
def listTargets : Json → List String
  | array elements => listTargetsAmong elements
  | object members => listTargetsUnder members
  | _ => []

/-- The targets that are bound inside of the elements. -/
def listTargetsAmong : List Json → List String
  | [] => []
  | element :: rest => element.listTargets ++ listTargetsAmong rest

/-- The targets that are bound inside of the members, and by them. -/
def listTargetsUnder : List (String × Json) → List String
  | [] => []
  | (raw, member) :: rest =>
    (member.listTargets ++ member.ownTargets (Key.parse raw).target?) ++ listTargetsUnder rest

end

@[simp] theorem ownTargets_none (value : Json) : value.ownTargets none = [] := by
  unfold ownTargets
  split <;> rfl

/-- The value is an empty array, and takes over the list that the target of its key is bound to. -/
def takesOver (bound : List String) (target : Option String) : Json → Bool
  | array [] => target.any (· ∈ bound)
  | _ => false

@[simp] theorem takesOver_none (bound : List String) (value : Json) :
    value.takesOver bound none = false := by
  unfold takesOver
  split <;> rfl

theorem eq_nil_of_takesOver {bound : List String} {target : Option String} {value : Json}
    (taken : value.takesOver bound target) : value = .array [] := by
  unfold takesOver at taken
  split at taken
  · rfl
  · cases taken

mutual

/-- How deep what is looked at in a value nests, where the targets in `bound` are bound before. -/
def readHeight (bound : List String) : Json → Nat
  | array elements => readHeightAmong bound elements
  | object members => readHeightUnder bound members
  | _ => 0

/-- How deep what is looked at in a container of the elements nests. -/
def readHeightAmong (bound : List String) : List Json → Nat
  | [] => 0
  | element :: rest =>
    max (element.readHeight bound + 1) (readHeightAmong (bound ++ element.listTargets) rest)

/-- How deep what is looked at in a container of the members nests. -/
def readHeightUnder (bound : List String) : List (String × Json) → Nat
  | [] => 0
  | (raw, member) :: rest =>
    let target := (Key.parse raw).target?
    max (if member.takesOver bound target then 0 else member.readHeight bound + 1)
      (readHeightUnder (bound ++ (member.listTargets ++ member.ownTargets target)) rest)

end

/-- **What is looked at is at most one level less high than the value.** -/
theorem readHeight_bounds (bound : List String) (value : Json) :
    value.readHeight bound ≤ value.height ∧ value.height ≤ value.readHeight bound + 1 := by
  induction value using Json.induct generalizing bound with
  | step value parts =>
    cases value with
    | array elements =>
      rw [readHeight, height]
      induction elements generalizing bound with
      | nil => exact ⟨Nat.zero_le _, Nat.zero_le _⟩
      | cons element rest step =>
        rw [readHeightAmong, heightAmong]
        have first := parts element List.mem_cons_self bound
        have others := step (bound ++ element.listTargets) fun part member =>
          parts part (List.mem_cons_of_mem _ member)
        omega
    | object members =>
      rw [readHeight, height]
      induction members generalizing bound with
      | nil => exact ⟨Nat.zero_le _, Nat.zero_le _⟩
      | cons member rest step =>
        obtain ⟨raw, value⟩ := member
        rw [readHeightUnder, heightUnder]
        have first := parts value List.mem_cons_self bound
        have others := step
          (bound ++ (value.listTargets ++ value.ownTargets (Key.parse raw).target?))
          fun part member => parts part (List.mem_cons_of_mem _ member)
        split
        · next taken =>
          have flat : value.height = 0 := by rw [eq_nil_of_takesOver taken]; rfl
          omega
        · omega
    | _ => exact ⟨Nat.zero_le _, Nat.zero_le _⟩

end Json

/-! ### Observation -/

/-- Just the targets in `bound` are bound. -/
def Observer.Binds (observer : Observer) (bound : List String) : Prop :=
  ∀ target, (observer.bindings.get? target).isSome ↔ target ∈ bound

theorem Observer.binds_empty : (∅ : Observer).Binds [] :=
  fun _ => iff_of_false Bool.false_ne_true List.not_mem_nil

theorem Observer.Binds.bind {observer : Observer} {bound : List String}
    (binds : observer.Binds bound) (target : String) (id : ShapeId) :
    ({ observer with bindings := observer.bindings.putNew target id } : Observer).Binds
      (bound ++ [target]) := by
  intro other
  show ((observer.bindings.putNew target id).get? other).isSome ↔ _
  rw [Table.get?_putNew, List.mem_append, List.mem_singleton]
  split
  · next same => exact iff_of_true rfl (.inr same)
  · next apart => rw [binds other, or_iff_left apart]

namespace Observing

variable {α β : Type} {options : Options} {observer : Observer} {bound later : List String}
  {fits fits' all : Prop}

/-- From `observer` the step succeeds exactly if `fits`, and then just the targets in `bound` are
bound; otherwise it is refused for its depth. -/
structure Guards (options : Options) (observer : Observer) (step : Observing α) (fits : Prop)
    (bound : List String) : Prop where
  done : fits → ∃ result after, step.run.run observer = (.ok result, after) ∧ after.Binds bound
  refused : ¬ fits →
    (step.run.run observer).1 = .error (.depthLimitExceeded options.maxDepth)

theorem Guards.of_iff {step : Observing α} (guards : Guards options observer step fits bound)
    (same : fits ↔ fits') : Guards options observer step fits' bound :=
  ⟨fun holds => guards.done (same.mpr holds), fun fails => guards.refused (mt same.mp fails)⟩

theorem guards_done {step : Observing α} {result : α} {after : Observer}
    (run : step.run.run observer = (.ok result, after)) (binds : after.Binds bound) :
    Guards options observer step True bound :=
  ⟨fun _ => ⟨result, after, run, binds⟩, fun fails => absurd trivial fails⟩

/-- **Steps that follow each other** succeed if all of them fit. -/
theorem Guards.bind {first : Observing α} {next : α → Observing β}
    (guards : Guards options observer first fits bound) (both : fits ∧ fits' ↔ all)
    (onward : ∀ result after, after.Binds bound → Guards options after (next result) fits' later) :
    Guards options observer (first >>= next) all later := by
  refine Guards.of_iff ?_ both
  by_cases holds : fits
  · obtain ⟨result, after, run, binds⟩ := guards.done holds
    obtain ⟨done, refused⟩ := onward result after binds
    have runs := run_bind first next observer
    rw [run] at runs
    refine ⟨fun both => ?_, fun fails => ?_⟩
    · rw [runs]
      exact done both.2
    · rw [runs]
      exact refused fun holds' => fails ⟨holds, holds'⟩
  · refine ⟨fun both => absurd both.1 holds, fun _ => ?_⟩
    have failed := guards.refused holds
    rw [run_bind]
    rcases ran : first.run.run observer with ⟨failure | result, after⟩
    · rw [ran] at failed
      exact congrArg Except.error (Except.error.inj failed)
    · rw [ran] at failed
      cases failed

/-- A step that never fails changes nothing about what fits. -/
theorem Guards.andThen {first : Observing α} {next : α → Observing β}
    (guards : Guards options observer first fits bound)
    (onward : ∀ result after, after.Binds bound → Guards options after (next result) True later) :
    Guards options observer (first >>= next) fits later :=
  guards.bind (and_iff_left trivial) onward

/-- The check comes first. -/
theorem guards_check {depth : Nat} {next : Unit → Observing α}
    (guards : depth ≤ options.maxDepth → Guards options observer (next ()) fits bound) :
    Guards options observer
      (if options.maxDepth < depth then
        throw (.depthLimitExceeded options.maxDepth) >>= next else next ())
      (depth ≤ options.maxDepth ∧ fits) bound := by
  split
  · next exceeded =>
    refine ⟨fun both => absurd exceeded (Nat.not_lt.mpr both.1), fun _ => ?_⟩
    rw [run_bind]
    rfl
  · next room =>
    have room := Nat.not_lt.mp room
    exact (guards room).of_iff (and_iff_right room).symm

theorem guards_get {next : Observer → Observing α}
    (guards : Guards options observer (next observer) fits bound) :
    Guards options observer (get >>= next) fits bound := ⟨guards.done, guards.refused⟩

/-- An empty array is not looked at if it takes over a list. -/
theorem bindList_guards {target : Option String} {member : Json} {observe : Observing ShapeId}
    (binds : observer.Binds bound)
    (guards : Guards options observer observe fits (bound ++ member.listTargets)) :
    Guards options observer (bindList target member observe)
      (member.takesOver bound target ∨ fits)
      (bound ++ (member.listTargets ++ member.ownTargets target)) := by
  unfold bindList
  split
  · next target =>
    have nothing : bound ++ ((Json.array []).listTargets ++
        (Json.array []).ownTargets (some target)) = bound := List.append_nil bound
    have takes : target ∈ bound ∨ fits ↔
        (Json.array []).takesOver bound (some target) = true ∨ fits := by simp [Json.takesOver]
    refine Guards.of_iff (guards_get ?_) takes
    rw [nothing, ← binds target]
    cases found : observer.bindings.get? target with
    | some list => exact (guards_done rfl binds).of_iff (iff_of_true trivial (.inl rfl))
    | none =>
      rw [Json.listTargets, Json.listTargetsAmong, List.append_nil] at guards
      exact guards.of_iff (or_iff_right Bool.false_ne_true).symm
  · next target first rest =>
    rw [← List.append_assoc]
    have plain : fits ∧ True ↔
        (Json.array (first :: rest)).takesOver bound (some target) = true ∨ fits := by
      simp [Json.takesOver]
    refine guards.bind plain fun id after binds => ?_
    exact guards_done rfl (binds.bind target id)
  · next noEmpty noList =>
    -- Without a target, or without an array, the field has the shape of its value.
    have plain : member.takesOver bound target = false ∧ member.ownTargets target = [] := by
      cases target with
      | none => exact ⟨Json.takesOver_none bound member, Json.ownTargets_none member⟩
      | some target =>
        cases member with
        | array elements =>
          cases elements with
          | nil => exact (noEmpty target rfl rfl).elim
          | cons first rest => exact (noList target first rest rfl rfl).elim
        | _ => exact ⟨rfl, rfl⟩
    rw [plain.1, plain.2, List.append_nil]
    exact guards.of_iff (or_iff_right Bool.false_ne_true).symm

/-- What is looked at among the elements fits if there is room for all of it. -/
theorem elements_guards {depth : Nat} (room : depth ≤ options.maxDepth) (elements : List Json)
    (each : ∀ element ∈ elements, ∀ {observer : Observer} {bound : List String},
      observer.Binds bound →
        Guards options observer (value options (depth + 1) element)
          (depth + 1 + element.readHeight bound ≤ options.maxDepth) (bound ++ element.listTargets))
    (binds : observer.Binds bound) :
    Guards options observer (Observing.elements options (depth + 1) elements)
      (depth + Json.readHeightAmong bound elements ≤ options.maxDepth)
      (bound ++ Json.listTargetsAmong elements) := by
  induction elements generalizing observer bound with
  | nil =>
    rw [Json.listTargetsAmong, List.append_nil]
    exact (guards_done rfl binds).of_iff (iff_of_true trivial room)
  | cons element rest step =>
    rw [List.forall_mem_cons] at each
    rw [Observing.elements, Json.listTargetsAmong, Json.readHeightAmong, ← List.append_assoc]
    refine (each.1 binds).bind ?_ fun id after binds =>
      (step each.2 binds).andThen fun ids last binds => guards_done rfl binds
    rw [← Nat.add_max_add_left, Nat.max_le]
    omega

/-- What is looked at among the members fits if there is room for all of it. -/
theorem members_guards {depth : Nat} (room : depth ≤ options.maxDepth)
    (members : List (String × Json))
    (each : ∀ member ∈ members, ∀ {observer : Observer} {bound : List String},
      observer.Binds bound →
        Guards options observer (value options (depth + 1) member.2)
          (depth + 1 + member.2.readHeight bound ≤ options.maxDepth)
          (bound ++ member.2.listTargets))
    (binds : observer.Binds bound) :
    Guards options observer (Observing.members options (depth + 1) members)
      (depth + Json.readHeightUnder bound members ≤ options.maxDepth)
      (bound ++ Json.listTargetsUnder members) := by
  induction members generalizing observer bound with
  | nil =>
    rw [Json.listTargetsUnder, List.append_nil]
    exact (guards_done rfl binds).of_iff (iff_of_true trivial room)
  | cons member rest step =>
    obtain ⟨raw, member⟩ := member
    rw [List.forall_mem_cons] at each
    rw [Observing.members, Json.listTargetsUnder, Json.readHeightUnder]
    refine (bindList_guards binds (each.1 binds)).bind ?_ fun id after binds =>
      (step each.2 binds).andThen fun fields last binds => ?_
    rotate_left
    · rw [List.append_assoc] at binds
      exact guards_done rfl binds
    dsimp only
    rw [← Nat.add_max_add_left, Nat.max_le]
    split
    · next taken => exact ⟨fun both => by omega, fun _ => ⟨.inl taken, by omega⟩⟩
    · next apart => rw [or_iff_right apart]; omega

/-- **A value is refused exactly if what is looked at nests too deep.** -/
theorem value_guards (options : Options) (depth : Nat) (sample : Json)
    (binds : observer.Binds bound) :
    Guards options observer (value options depth sample)
      (depth + sample.readHeight bound ≤ options.maxDepth) (bound ++ sample.listTargets) := by
  induction sample using Json.induct generalizing depth observer bound with
  | step sample parts =>
    unfold value
    split
    · next elements =>
      rw [Json.readHeight, Json.listTargets]
      refine Guards.of_iff (guards_check fun room => (elements_guards room elements
        (fun element listed _ _ binds => parts element listed (depth + 1) binds) binds).andThen
          fun ids after binds => ?_) ?_
      · exact guards_done rfl binds
      · omega
    · next members =>
      rw [Json.readHeight, Json.listTargets]
      refine Guards.of_iff (guards_check fun room => (members_guards room members
        (fun member listed _ _ binds =>
          parts member.2 (Json.parts_inside listed) (depth + 1) binds) binds).andThen
            fun fields after binds => ?_) ?_
      · exact guards_done rfl binds
      · omega
    · next notArray notObject =>
      have nothing : sample.readHeight bound = 0 ∧ sample.listTargets = [] := by
        cases sample with
        | array elements => exact absurd rfl (notArray elements)
        | object members => exact absurd rfl (notObject members)
        | _ => exact ⟨rfl, rfl⟩
      rw [nothing.1, nothing.2, List.append_nil]
      exact (guards_check fun _ => guards_done rfl binds).of_iff (and_iff_left trivial)

end Observing

/-! ### Inference -/

namespace ShapeGraph

variable {options : Options} {sample : Json}

/-- A sample has a graph if what is looked at does not nest too deep. -/
theorem exists_infer_of_le (accepted : refusedRoot? sample = none)
    (room : sample.readHeight [] ≤ options.maxDepth) :
    ∃ graph, infer options sample = .ok graph := by
  rw [← Nat.zero_add (sample.readHeight [])] at room
  obtain ⟨root, after, run, _⟩ :=
    (Observing.value_guards options 0 sample Observer.binds_empty).done room
  exact ⟨_, infer_eq_ok_iff.mpr ⟨accepted, root, congrArg Prod.fst run, rfl⟩⟩

/-- **A sample is refused for its depth exactly if what is looked at nests too deep.** -/
theorem infer_fails_iff (accepted : refusedRoot? sample = none) :
    infer options sample = .error (.depthLimitExceeded options.maxDepth) ↔
      options.maxDepth < sample.readHeight [] := by
  constructor
  · intro failed
    refine Nat.not_le.mp fun room => ?_
    obtain ⟨graph, inferred⟩ := exists_infer_of_le accepted room
    cases failed.symm.trans inferred
  · intro deep
    have refused := (Observing.value_guards options 0 sample Observer.binds_empty).refused
    rw [Nat.zero_add] at refused
    have failed : (Observer.empty.observe options sample).1 = _ := refused (Nat.not_le.mpr deep)
    unfold infer checkRoot
    rw [accepted]
    revert failed
    rcases Observer.empty.observe options sample with ⟨result, observer⟩
    rintro rfl
    rfl

/-- **When the guard is exact.** A sample is refused exactly if it is too high, except where it is
one level too high and all that stands on this level are empty arrays that take over a list. -/
theorem guard_exact_iff (accepted : refusedRoot? sample = none) :
    (infer options sample = .error (.depthLimitExceeded options.maxDepth) ↔
        options.maxDepth < sample.height) ↔
      ¬ (sample.height = options.maxDepth + 1 ∧ sample.readHeight [] = options.maxDepth) := by
  rw [infer_fails_iff accepted]
  have bounds := sample.readHeight_bounds []
  omega

/-- Two levels too high: an empty array that takes over a list stands on the lower one. -/
theorem guard_exact_of_two_levels :
    (infer { maxDepth := 1 } (.object [("x[T]", .array [.null]),
        ("y", .object [("z", .object [("w[T]", .array [])])])]) = .error (.depthLimitExceeded 1) ↔
      1 < (Json.object [("x[T]", .array [.null]),
        ("y", .object [("z", .object [("w[T]", .array [])])])]).height) ∧
    (Json.object [("x[T]", .array [.null]),
        ("y", .object [("z", .object [("w[T]", .array [])])])]).height = 3 := by
  refine ⟨(@guard_exact_iff { maxDepth := 1 } _ rfl).mpr ?_, by decide +kernel⟩
  decide +kernel

/-- **An empty array below the limit is not refused** once it takes over a list. -/
theorem exists_depth_unguarded :
    ∃ sample, refusedRoot? sample = none ∧ 2 < sample.height ∧
      infer { maxDepth := 2 } sample ≠ .error (.depthLimitExceeded 2) := by
  refine ⟨.object [("x[T]", .array [.null]), ("y", .object [("z", .object [("w[T]", .array [])])])],
    rfl, by decide +kernel, fun failed => ?_⟩
  have observed : (infer { maxDepth := 2 } (.object [("x[T]", .array [.null]),
      ("y", .object [("z", .object [("w[T]", .array [])])])])).toOption.isSome := by
    decide +kernel
  rw [failed] at observed
  cases observed

end ShapeGraph

end SampleShapes
