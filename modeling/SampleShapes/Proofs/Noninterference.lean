/-
**What an observation leaves to the next one.**

Shapes that are left behind, also by an observation that fails, change no later result: another
identity may come back, but it unfolds to the same. With bindings it is different. A list stays
bound to its target even if the observation fails later on, and an empty array under the target
takes it over. So an observation shows through where an empty array stands under a target that it
was the first to bind, and nowhere else.

* `Observer.Agrees`: two observers bind targets to lists that unfold alike;
* `Parallel.bind`: steps that follow each other come to the same if each of them does;
* `value_parallel`: **observers that agree on the targets of empty arrays come to the same**;
* `Observer.observe_after`: **an earlier observation does not change a later one** unless it binds
  such a target;
* `Observer.exists_observation_changed`: **and in that case it may.**
-/

import SampleShapes.Proofs.Mirroring
import SampleShapes.Proofs.Registry.Liveness

namespace SampleShapes

/-! ### Targets of empty arrays -/

namespace Json

/-- The value is an array without elements. -/
def isEmptyArray : Json → Bool
  | array [] => true
  | _ => false

/-- Every target passes the test that an empty array inside of the value stands under. -/
def EmptyTargets (test : String → Bool) (value : Json) : Prop :=
  value.everyObject fun members => members.all fun member =>
    !member.2.isEmptyArray || (Key.parse member.1).target?.all test

instance (test : String → Bool) (value : Json) : Decidable (value.EmptyTargets test) :=
  inferInstanceAs (Decidable (_ = true))

variable {test : String → Bool}

theorem emptyTargets_array {elements : List Json} :
    (array elements).EmptyTargets test ↔ ∀ element ∈ elements, element.EmptyTargets test :=
  everyObject_array

theorem emptyTargets_object {members : List (String × Json)} :
    (object members).EmptyTargets test ↔ ∀ member ∈ members,
      (member.2 = .array [] → ∀ target, (Key.parse member.1).target? = some target → test target) ∧
        member.2.EmptyTargets test := by
  have here : ∀ member : String × Json,
      (!member.2.isEmptyArray || (Key.parse member.1).target?.all test) = true ↔
        (member.2 = .array [] →
          ∀ target, (Key.parse member.1).target? = some target → test target) := by
    rintro ⟨raw, value⟩
    rw [Bool.or_eq_true_iff, Option.all_eq_true]
    constructor
    · rintro (notEmpty | all) rfl
      · cases notEmpty
      · exact all
    · intro all
      cases empty : value.isEmptyArray with
      | false => exact .inl rfl
      | true =>
        refine .inr (all ?_)
        unfold isEmptyArray at empty
        split at empty
        · rfl
        · cases empty
  unfold EmptyTargets
  rw [everyObject_object, List.all_eq_true, ← forall₂_and]
  simp only [here]

end Json

/-! ### Shapes that are alike -/

namespace Registry

variable {registry later registry' later' : Registry} {id other : ShapeId}

/-- The shapes are kept, each in its registry, and they unfold to the same. -/
structure Alike (registry later : Registry) (id other : ShapeId) : Prop where
  holds : registry.Holds id
  holdsOther : later.Holds other
  same : registry.unfolding id = later.unfolding other

/-- What is alike stays so while both registries grow. -/
theorem Alike.grow (alike : registry.Alike later id other) (sound : registry.Sound)
    (sound' : registry'.Sound) (grows : registry.Grows registry') (soundLater : later.Sound)
    (soundLater' : later'.Sound) (growsLater : later.Grows later') :
    registry'.Alike later' id other where
  holds := grows.holds alike.holds
  holdsOther := growsLater.holds alike.holdsOther
  same := by
    rw [← grows.within.unfolding_eq sound sound' alike.holds,
      ← growsLater.within.unfolding_eq soundLater soundLater' alike.holdsOther]
    exact alike.same

theorem matches_of_alike {ids others : List ShapeId}
    (alike : List.Forall₂ (registry.Alike later) ids others) :
    registry.Matches later ids others where
  forth id member := by
    obtain ⟨other, inside, alike⟩ := Lists.exists_mem_of_forall₂ alike member
    exact ⟨other, inside, alike.same⟩
  back other member := by
    obtain ⟨id, inside, alike⟩ := Lists.exists_mem_of_forall₂_right alike member
    exact ⟨id, inside, alike.same⟩

/-- The fields have one raw key, read, and their shapes are alike. -/
structure AlikeField (registry later : Registry) (entry other : String × Field) : Prop where
  /-- They have one raw key. -/
  raw : entry.1 = other.1
  /-- The one key is read from it. -/
  key : entry.2.key = Key.parse entry.1
  /-- So is the other. -/
  keyOther : other.2.key = Key.parse other.1
  /-- Objects go without both or none. -/
  optional : entry.2.optional = other.2.optional
  /-- The shapes are alike. -/
  shape : registry.Alike later entry.2.shape other.2.shape

section Fields

variable {entries others : List (String × Field)}
  (alike : List.Forall₂ (registry.AlikeField later) entries others)
include alike

theorem carries_of_alike : registry.Carries (.object (.ofList entries)) :=
  carries_ofList fun _ member => by
    obtain ⟨_, _, alike⟩ := Lists.exists_mem_of_forall₂ alike member
    exact ⟨alike.key, alike.shape.holds⟩

theorem carries_of_alike_right : later.Carries (.object (.ofList others)) :=
  carries_ofList fun _ member => by
    obtain ⟨_, _, alike⟩ := Lists.exists_mem_of_forall₂_right alike member
    exact ⟨alike.keyOther, alike.shape.holdsOther⟩

theorem lookup_of_alike (raw : String) :
    (entries.lookup raw).map (fun field => (field.optional, registry.unfolding field.shape)) =
      (others.lookup raw).map fun field => (field.optional, later.unfolding field.shape) := by
  induction alike with
  | nil => rfl
  | @cons entry other _ _ first _ step =>
    rw [List.lookup_cons, List.lookup_cons, ← first.raw]
    split
    · exact congrArg some (Prod.ext first.optional first.shape.same)
    · exact step

/-- **Objects over fields that are alike say the same.** -/
theorem entriesAt_of_alike (raw : String) :
    registry.entriesAt (.ofList entries) raw = later.entriesAt (.ofList others) raw := by
  unfold entriesAt
  rw [Table.get?_ofList, Table.get?_ofList]
  exact lookup_of_alike (List.rel_reverse alike) raw

end Fields

end Registry

/-! ### Observers that agree -/

namespace Observer

variable {test : String → Bool} {observer other : Observer} {registry registry' : Registry}

/-- Both observers are sound, and each target that passes the test is bound by both or none, to
lists that unfold to the same. -/
structure Agrees (test : String → Bool) (observer other : Observer) : Prop where
  sound : observer.Sound
  soundOther : other.Sound
  bindings : ∀ target, test target →
    (observer.bindings.get? target).map observer.registry.unfolding =
      (other.bindings.get? target).map other.registry.unfolding

/-- What a target is bound to unfolds to the same while the registry grows. -/
theorem Sound.map_unfolding (sound : observer.Sound) (sound' : registry.Sound)
    (grows : observer.registry.Grows registry) (target : String) :
    (observer.bindings.get? target).map registry.unfolding =
      (observer.bindings.get? target).map observer.registry.unfolding :=
  Option.map_congr fun _ found =>
    (grows.within.unfolding_eq sound.registry sound' (sound.holds_bound found)).symm

/-- Observers go on to agree while their registries grow. -/
theorem Agrees.grow (agrees : observer.Agrees test other) (sound : registry.Sound)
    (grows : observer.registry.Grows registry) (sound' : registry'.Sound)
    (grows' : other.registry.Grows registry') :
    ({ observer with registry } : Observer).Agrees test { other with registry := registry' } where
  sound := agrees.sound.grow sound grows
  soundOther := agrees.soundOther.grow sound' grows'
  bindings target passes := by
    dsimp only
    rw [agrees.sound.map_unfolding sound grows, agrees.soundOther.map_unfolding sound' grows']
    exact agrees.bindings target passes

/-- **Observers go on to agree when they bind a target to lists that unfold alike.** -/
theorem Agrees.bind (agrees : observer.Agrees test other) (target : String) {id id' : ShapeId}
    (list : (observer.registry.elements? id).isSome)
    (list' : (other.registry.elements? id').isSome)
    (same : observer.registry.unfolding id = other.registry.unfolding id') :
    ({ observer with bindings := observer.bindings.putNew target id } : Observer).Agrees test
      { other with bindings := other.bindings.putNew target id' } where
  sound := agrees.sound.bind list
  soundOther := agrees.soundOther.bind list'
  bindings bound passes := by
    dsimp only
    rw [Table.get?_putNew, Table.get?_putNew]
    have before := agrees.bindings bound passes
    split
    · next here =>
      -- A target that is bound already keeps its list, which both have or none.
      rw [here] at before
      cases found : observer.bindings.get? target with
      | none =>
        rw [found] at before
        rw [Option.map_eq_none_iff.mp before.symm]
        exact congrArg some same
      | some kept =>
        rw [found] at before
        obtain ⟨kept', found', equal⟩ := Option.map_eq_some_iff.mp before.symm
        rw [found']
        exact congrArg some equal.symm
    · exact before

end Observer

/-! ### Two runs -/

namespace Observing

open Registry

variable {α β : Type} {test : String → Bool} {observer other later later' last last' : Observer}

/-- Two runs come to the same: they fail alike, or what they come back with and what they leave
behind is as it should be. -/
inductive Outcome (good : α → Observer → α → Observer → Prop) :
    Except Failure α × Observer → Except Failure α × Observer → Prop where
  /-- Both fail alike. -/
  | failed (failure : Failure) (later later' : Observer) :
      Outcome good (.error failure, later) (.error failure, later')
  /-- Both succeed. -/
  | done {result result' : α} {later later' : Observer}
      (isGood : good result later result' later') :
      Outcome good (.ok result, later) (.ok result', later')

/-- Two observers lead to others that agree, while their registries grow. -/
structure Leads (test : String → Bool) (observer other later later' : Observer) : Prop where
  agrees : later.Agrees test later'
  grows : observer.registry.Grows later.registry
  growsOther : other.registry.Grows later'.registry

theorem Leads.refl (agrees : observer.Agrees test other) :
    Leads test observer other observer other :=
  ⟨agrees, .refl _, .refl _⟩

theorem Leads.trans (first : Leads test observer other later later')
    (second : Leads test later later' last last') : Leads test observer other last last' :=
  ⟨second.agrees, first.grows.trans second.grows, first.growsOther.trans second.growsOther⟩

theorem Leads.alike (leads : Leads test observer other later later')
    (agrees : observer.Agrees test other) {id id' : ShapeId}
    (alike : observer.registry.Alike other.registry id id') :
    later.registry.Alike later'.registry id id' :=
  alike.grow agrees.sound.registry leads.agrees.sound.registry leads.grows
    agrees.soundOther.registry leads.agrees.soundOther.registry leads.growsOther

/-- Work on the registries alone leads to observers that agree. -/
theorem leads_safe {result result' : ShapeId × Registry} (agrees : observer.Agrees test other)
    (safe : observer.registry.Safe result) (safe' : other.registry.Safe result') :
    Leads test observer other { observer with registry := result.2 }
      { other with registry := result'.2 } :=
  ⟨agrees.grow safe.sound safe.grows safe'.sound safe'.grows, safe.grows, safe'.grows⟩

/-- From `observer` and from `other`, the steps fail alike, or they lead to observers that agree
with results that are `alike` there. -/
def Parallel (test : String → Bool) (observer other : Observer) (step step' : Observing α)
    (alike : Registry → Registry → α → α → Prop) : Prop :=
  Outcome (fun result later result' later' => Leads test observer other later later' ∧
    alike later.registry later'.registry result result')
    (step.run.run observer) (step'.run.run other)

variable {step step' : Observing α} {alike weaker : Registry → Registry → α → α → Prop}

theorem Parallel.imp (parallel : Parallel test observer other step step' alike)
    (weaken : ∀ registry later result result', alike registry later result result' →
      weaker registry later result result') : Parallel test observer other step step' weaker := by
  unfold Parallel at parallel ⊢
  generalize step.run.run observer = run, step'.run.run other = run' at parallel ⊢
  cases parallel with
  | failed => exact .failed _ _ _
  | done both => exact .done ⟨both.1, weaken _ _ _ _ both.2⟩

/-- **Steps that follow each other** come to the same if each of them does. -/
theorem Parallel.bind {next next' : α → Observing β} {best : Registry → Registry → β → β → Prop}
    (parallel : Parallel test observer other step step' alike)
    (onward : ∀ result result' later later', Leads test observer other later later' →
      alike later.registry later'.registry result result' →
        Parallel test later later' (next result) (next' result') best) :
    Parallel test observer other (step >>= next) (step' >>= next') best := by
  unfold Parallel at parallel ⊢
  rw [run_bind, run_bind]
  generalize step.run.run observer = run, step'.run.run other = run' at parallel ⊢
  cases parallel with
  | failed => exact .failed _ _ _
  | @done result result' later later' both =>
    dsimp only
    have rest := onward result result' later later' both.1 both.2
    unfold Parallel at rest
    generalize (next result).run.run later = run, (next' result').run.run later' = run' at rest ⊢
    cases rest with
    | failed => exact .failed _ _ _
    | done both' => exact .done ⟨both.1.trans both'.1, both'.2⟩

/-- What each run yields by itself may be added. -/
theorem Parallel.and_yields {good good' : Registry → α → Prop}
    (parallel : Parallel test observer other step step' alike)
    (yields : Yields observer step good) (yields' : Yields other step' good') :
    Parallel test observer other step step' fun registry later result result' =>
      alike registry later result result' ∧ good registry result ∧ good' later result' := by
  have isGood := yields.good
  have isGood' := yields'.good
  unfold Parallel at parallel ⊢
  generalize step.run.run observer = run, step'.run.run other = run' at *
  cases parallel with
  | failed => exact .failed _ _ _
  | done both => exact .done ⟨both.1, both.2, isGood _ rfl, isGood' _ rfl⟩

theorem parallel_pure (agrees : observer.Agrees test other) {result result' : α}
    (isAlike : alike observer.registry other.registry result result') :
    Parallel test observer other (pure result) (pure result') alike :=
  .done ⟨.refl agrees, isAlike⟩

/-- Nothing follows a check that fails. -/
theorem parallel_check {exceeded : Prop} [Decidable exceeded] {failure : Failure}
    {next next' : Unit → Observing α}
    (parallel : Parallel test observer other (next ()) (next' ()) alike) :
    Parallel test observer other (if exceeded then throw failure >>= next else next ())
      (if exceeded then throw failure >>= next' else next' ()) alike := by
  split
  · exact .failed failure observer other
  · exact parallel

theorem parallel_get {next next' : Observer → Observing α}
    (parallel : Parallel test observer other (next observer) (next' other) alike) :
    Parallel test observer other (get >>= next) (get >>= next') alike := parallel

/-- Steps that work on the registries alone. -/
theorem parallel_safe {steps steps' : Observing ShapeId} {result result' : ShapeId × Registry}
    (agrees : observer.Agrees test other) (safe : observer.registry.Safe result)
    (safe' : other.registry.Safe result') (same : result.2.unfolding result.1 =
      result'.2.unfolding result'.1)
    (run : steps.run.run observer = (.ok result.1, { observer with registry := result.2 }))
    (run' : steps'.run.run other = (.ok result'.1, { other with registry := result'.2 })) :
    Parallel test observer other steps steps' Alike := by
  unfold Parallel
  rw [run, run']
  exact .done ⟨leads_safe agrees safe safe', safe.holds, safe'.holds, same⟩

/-- **Merging what is alike comes to what is alike.** -/
theorem merge_parallel {candidates candidates' : List ShapeId}
    (agrees : observer.Agrees test other)
    (all : List.Forall₂ (observer.registry.Alike other.registry) candidates candidates') :
    Parallel test observer other (merge candidates) (merge candidates') Alike := by
  have merged := merge_merged agrees.sound.registry fun id member => by
    obtain ⟨_, _, one⟩ := Lists.exists_mem_of_forall₂ all member
    exact one.holds
  have merged' := merge_merged agrees.soundOther.registry fun id member => by
    obtain ⟨_, _, one⟩ := Lists.exists_mem_of_forall₂_right all member
    exact one.holdsOther
  have leads := leads_safe agrees merged.toSafe merged'.toSafe
  have grown := all.imp fun _ _ one => leads.alike agrees one
  exact parallel_safe agrees merged.toSafe merged'.toSafe
    (merged.joins.unfolding_eq merged.sound merged'.sound merged'.joins (matches_of_alike grown))
    rfl rfl

/-- So does interning the list of one. -/
theorem list_parallel {element element' : ShapeId} (agrees : observer.Agrees test other)
    (one : observer.registry.Alike other.registry element element') :
    Parallel test observer other (intern (.list (.singleton element)))
      (intern (.list (.singleton element'))) Alike := by
  have safe := safe_intern agrees.sound.registry (carries_list one.holds)
  have safe' := safe_intern agrees.soundOther.registry (carries_list one.holdsOther)
  have grown := (leads_safe agrees safe safe').alike agrees one
  refine parallel_safe agrees safe safe' ?_ rfl rfl
  refine (unfolding_eq_iff_of_lists safe.sound safe'.sound
    (agrees.sound.registry.elements?_intern _)
    (agrees.soundOther.registry.elements?_intern _)).mpr ?_
  exact Matches.toList_iff.mp (Matches.singletons_iff.mpr grown.same)

/-- And so does interning an object over fields that are alike. -/
theorem object_parallel {entries entries' : List (String × Field)}
    (agrees : observer.Agrees test other)
    (all : List.Forall₂ (observer.registry.AlikeField other.registry) entries entries') :
    Parallel test observer other (intern (.object (.ofList entries)))
      (intern (.object (.ofList entries'))) Alike := by
  have carries := carries_of_alike all
  have carries' := carries_of_alike_right all
  have safe := safe_intern agrees.sound.registry carries
  have safe' := safe_intern agrees.soundOther.registry carries'
  obtain ⟨fields, found, kept⟩ := agrees.sound.registry.fields?_intern carries
  obtain ⟨fields', found', kept'⟩ := agrees.soundOther.registry.fields?_intern carries'
  have leads := leads_safe agrees safe safe'
  have grown := all.imp fun _ _ one => { one with shape := leads.alike agrees one.shape }
  refine parallel_safe agrees safe safe' ?_ rfl rfl
  refine (unfolding_eq_iff_of_objects safe.sound safe'.sound found found').mpr fun raw => ?_
  have same := entriesAt_of_alike grown raw
  unfold entriesAt at same ⊢
  rw [kept, kept']
  exact same

/-! ### Values -/

/-- What is seen in one value from two observers: shapes that are alike. -/
structure SeenAlike (sample : Json) (registry later : Registry) (id other : ShapeId) : Prop where
  sees : registry.Sees sample id
  seesOther : later.Sees sample other
  same : registry.unfolding id = later.unfolding other

theorem SeenAlike.toAlike {sample : Json} {registry later : Registry} {id other : ShapeId}
    (seen : SeenAlike sample registry later id other) : registry.Alike later id other :=
  ⟨seen.sees.holds, seen.seesOther.holds, seen.same⟩

/-- **The list of a field:** an empty array takes over what its target is bound to, which is alike
in observers that agree on the target. -/
theorem bindList_parallel {target : Option String} {sample : Json} {observe : Observing ShapeId}
    (agrees : observer.Agrees test other)
    (allowed : sample = .array [] → ∀ own, target = some own → test own)
    (parallel : Parallel test observer other observe observe (SeenAlike sample)) :
    Parallel test observer other (bindList target sample observe)
      (bindList target sample observe) (SeenAlike sample) := by
  unfold bindList
  split
  · next target =>
    have agreed := agrees.bindings target (allowed rfl target rfl)
    refine parallel_get ?_
    cases found : observer.bindings.get? target with
    | none =>
      rw [found] at agreed
      rw [Option.map_eq_none_iff.mp agreed.symm]
      exact parallel
    | some bound =>
      rw [found] at agreed
      obtain ⟨bound', found', same⟩ := Option.map_eq_some_iff.mp agreed.symm
      rw [found']
      exact parallel_pure agrees ⟨sees_nil (agrees.sound.bound target bound found),
        sees_nil (agrees.soundOther.bound target bound' found'), same.symm⟩
  · next target first rest =>
    refine parallel.bind fun id id' later later' leads seen => ?_
    have list := seen.sees.list _ rfl
    have list' := seen.seesOther.list _ rfl
    exact .done ⟨⟨leads.agrees.bind target list list' seen.same, .refl _, .refl _⟩,
      { seen with }⟩
  · exact parallel

theorem elements_parallel {options : Options} {depth : Nat} (elements : List Json)
    (each : ∀ element ∈ elements, ∀ {observer other : Observer}, observer.Agrees test other →
      Parallel test observer other (value options depth element) (value options depth element)
        (SeenAlike element))
    (agrees : observer.Agrees test other) :
    Parallel test observer other (Observing.elements options depth elements)
      (Observing.elements options depth elements) fun registry later =>
        List.Forall₂ (registry.Alike later) := by
  induction elements generalizing observer other with
  | nil => exact parallel_pure agrees .nil
  | cons element rest step =>
    rw [List.forall_mem_cons] at each
    rw [Observing.elements]
    refine (each.1 agrees).bind fun id id' later later' leads first => ?_
    refine (step each.2 leads.agrees).bind fun ids ids' last last' leadsLast others => ?_
    exact parallel_pure leadsLast.agrees
      (.cons (leadsLast.alike leads.agrees first.toAlike) others)

theorem members_parallel {options : Options} {depth : Nat} (members : List (String × Json))
    (each : ∀ member ∈ members, ∀ {observer other : Observer}, observer.Agrees test other →
      Parallel test observer other
        (bindList (Key.parse member.1).target? member.2 (value options depth member.2))
        (bindList (Key.parse member.1).target? member.2 (value options depth member.2))
        (SeenAlike member.2))
    (agrees : observer.Agrees test other) :
    Parallel test observer other (Observing.members options depth members)
      (Observing.members options depth members) fun registry later =>
        List.Forall₂ (registry.AlikeField later) := by
  induction members generalizing observer other with
  | nil => exact parallel_pure agrees .nil
  | cons member rest step =>
    obtain ⟨raw, sample⟩ := member
    rw [List.forall_mem_cons] at each
    rw [Observing.members]
    refine (each.1 agrees).bind fun id id' later later' leads first => ?_
    refine (step each.2 leads.agrees).bind fun fields fields' last last' leadsLast others => ?_
    exact parallel_pure leadsLast.agrees
      (.cons ⟨rfl, rfl, rfl, rfl, leadsLast.alike leads.agrees first.toAlike⟩ others)

/-- **Observers that agree on the targets of empty arrays come to the same.** -/
theorem value_parallel (options : Options) (depth : Nat) (sample : Json)
    (allowed : sample.EmptyTargets test) (agrees : observer.Agrees test other) :
    Parallel test observer other (value options depth sample) (value options depth sample)
      (SeenAlike sample) := by
  induction sample using Json.induct generalizing depth observer other with
  | step sample parts =>
    suffices run : Parallel test observer other (value options depth sample)
        (value options depth sample) Alike from
      (run.and_yields (value_yields options depth sample agrees.sound)
        (value_yields options depth sample agrees.soundOther)).imp
          fun _ _ _ _ ⟨alike, sees, sees'⟩ => ⟨sees, sees', alike.same⟩
    unfold value
    split
    · next elements =>
      have allowed := Json.emptyTargets_array.mp allowed
      refine parallel_check ((elements_parallel elements (fun element listed =>
        parts element listed (depth + 1) (allowed element listed)) agrees).bind
          fun ids ids' later later' leads all => ?_)
      exact (merge_parallel leads.agrees all).bind fun _ _ _ _ leads one =>
        list_parallel leads.agrees one
    · next members =>
      have allowed := Json.emptyTargets_object.mp allowed
      refine parallel_check ((members_parallel members (fun member listed _ _ agrees =>
        bindList_parallel agrees (allowed member listed).1
          (parts member.2 (Json.parts_inside listed) (depth + 1) (allowed member listed).2
            agrees)) agrees).bind fun entries entries' later later' leads all => ?_)
      exact object_parallel leads.agrees all
    · next notArray notObject =>
      refine parallel_check (parallel_pure agrees ?_)
      have sees : ∀ registry : Registry,
          registry.Sees sample (sample.scalarId options.detectDates) := fun _ =>
        sees_scalar notArray notObject
      exact ⟨(sees _).holds, (sees _).holds,
        unfolding_eq_of_shape?_eq_none (shape?_scalarId _) (shape?_scalarId _)⟩

end Observing

/-! ### Observations -/

namespace Observer

variable {observer : Observer}

/-- An observation is agreed on as far as it binds no target. -/
theorem agrees_observe (sound : observer.Sound) (options : Options) (sample : Json) :
    observer.Agrees
      (fun target => (observer.observe options sample).2.bindings.get? target =
        observer.bindings.get? target)
      (observer.observe options sample).2 := by
  obtain ⟨soundLater, grows, _⟩ := Observing.value_yields options 0 sample sound
  refine ⟨sound, soundLater, fun target same => ?_⟩
  have same := of_decide_eq_true same
  rw [same]
  exact (sound.map_unfolding soundLater.registry grows target).symm

/-- **An earlier observation does not change a later one,** whether it fails or not, unless it binds
a target that an empty array stands under. -/
theorem observe_after (options : Options) (samples : List Json) (earlier sample : Json)
    (unbound : sample.EmptyTargets fun target =>
      ((after options samples).observe options earlier).2.bindings.get? target =
        (after options samples).bindings.get? target) :
    ((∃ id, (((after options samples).observe options earlier).2.observe options sample).1 =
          .ok id) ↔
        ∃ id, ((after options samples).observe options sample).1 = .ok id) ∧
      ∀ id id',
        (((after options samples).observe options earlier).2.observe options sample).1 = .ok id →
        ((after options samples).observe options sample).1 = .ok id' →
        (((after options samples).observe options earlier).2.observe options
            sample).2.registry.unfolding id =
          ((after options samples).observe options sample).2.registry.unfolding id' := by
  have agrees := agrees_observe (after_sound options samples) options earlier
  have parallel := Observing.value_parallel options 0 sample unbound agrees
  unfold Observing.Parallel at parallel
  unfold observe at parallel ⊢
  generalize (Observing.value options 0 sample).run.run (after options samples) = direct at *
  generalize (Observing.value options 0 sample).run.run
    ((Observing.value options 0 earlier).run.run (after options samples)).2 = later at *
  cases parallel with
  | failed => exact ⟨⟨nofun, nofun⟩, nofun⟩
  | done both =>
    refine ⟨⟨fun _ => ⟨_, rfl⟩, fun _ => ⟨_, rfl⟩⟩, fun id id' same same' => ?_⟩
    obtain rfl := Except.ok.inj same
    obtain rfl := Except.ok.inj same'
    exact both.2.same.symm

/-- An observation that fails between two others: the second one comes to another identity, which
unfolds to the same. -/
theorem observe_after_failed :
    (((after { maxDepth := 2 } [.object [("xs[C]", .array [.null])]]).observe { maxDepth := 2 }
        (.object [("a", .object [("y", .null)]),
          ("d", .object [("e", .object [("f", .null)])])])).1 =
      .error (.depthLimitExceeded 2)) ∧
    ∃ id id', id ≠ id' ∧
      (((after { maxDepth := 2 } [.object [("xs[C]", .array [.null])]]).observe { maxDepth := 2 }
        (.object [("a", .object [("y", .null)]),
          ("d", .object [("e", .object [("f", .null)])])])).2.observe { maxDepth := 2 }
        (.object [("xs[C]", .array []), ("z", .null)])).2.registry.unfolding id =
      ((after { maxDepth := 2 } [.object [("xs[C]", .array [.null])]]).observe { maxDepth := 2 }
        (.object [("xs[C]", .array []), ("z", .null)])).2.registry.unfolding id' := by
  refine ⟨by decide +kernel, .node 3, .node 2, by decide, ?_⟩
  exact (observe_after { maxDepth := 2 } [.object [("xs[C]", .array [.null])]]
    (.object [("a", .object [("y", .null)]), ("d", .object [("e", .object [("f", .null)])])])
    (.object [("xs[C]", .array []), ("z", .null)]) (by decide +kernel)).2 _ _
      (by decide +kernel) (by decide +kernel)

/-- **What a failing observation binds changes a later one.** Its list of null is bound to `C`
before it fails, so that the empty array of the later one is not a list of nothing any more. -/
theorem exists_observation_changed :
    ∃ (earlier sample : Json) (id id' : ShapeId),
      ((after { maxDepth := 2 } []).observe { maxDepth := 2 } earlier).1 =
        .error (.depthLimitExceeded 2) ∧
      (((after { maxDepth := 2 } []).observe { maxDepth := 2 } earlier).2.observe
        { maxDepth := 2 } sample).1 = .ok id ∧
      ((after { maxDepth := 2 } []).observe { maxDepth := 2 } sample).1 = .ok id' ∧
      (((after { maxDepth := 2 } []).observe { maxDepth := 2 } earlier).2.observe
          { maxDepth := 2 } sample).2.registry.unfolding id ≠
        ((after { maxDepth := 2 } []).observe { maxDepth := 2 } sample).2.registry.unfolding id' := by
  refine ⟨.object [("xs[C]", .array [.null]), ("d", .object [("e", .object [("f", .null)])])],
    .object [("xs[C]", .array [])], .node 1, .node 2, by decide +kernel, by decide +kernel,
    by decide +kernel, ?_⟩
  have sound := after_sound { maxDepth := 2 } []
  have soundAfter := observe_sound (observe_sound sound { maxDepth := 2 } (.object
    [("xs[C]", .array [.null]), ("d", .object [("e", .object [("f", .null)])])]))
      { maxDepth := 2 } (.object [("xs[C]", .array [])])
  have soundDirect := observe_sound sound { maxDepth := 2 } (.object [("xs[C]", .array [])])
  obtain ⟨later, isLater⟩ : ∃ later, (((after { maxDepth := 2 } []).observe { maxDepth := 2 }
    (.object [("xs[C]", .array [.null]), ("d", .object [("e", .object [("f", .null)])])])).2.observe
      { maxDepth := 2 } (.object [("xs[C]", .array [])])).2 = later := ⟨_, rfl⟩
  obtain ⟨direct, isDirect⟩ : ∃ direct, ((after { maxDepth := 2 } []).observe { maxDepth := 2 }
    (.object [("xs[C]", .array [])])).2 = direct := ⟨_, rfl⟩
  rw [isLater] at soundAfter ⊢
  rw [isDirect] at soundDirect ⊢
  have shaped : (later.registry.fields? (.node 1)).bind (·.get? "xs[C]") =
      some ⟨⟨"xs", .reference "C"⟩, .node 0, false⟩ := by
    rw [← isLater]
    decide +kernel
  have shaped' : (direct.registry.fields? (.node 2)).bind (·.get? "xs[C]") =
      some ⟨⟨"xs", .reference "C"⟩, .node 1, false⟩ := by
    rw [← isDirect]
    decide +kernel
  have list : later.registry.elements? (.node 0) = some (.singleton .null) := by
    rw [← isLater]
    decide +kernel
  have list' : direct.registry.elements? (.node 1) = some (.singleton (.node 0)) := by
    rw [← isDirect]
    decide +kernel
  intro same
  -- The objects have the lists in them, and the lists have null and nothing.
  obtain ⟨fields, found, under⟩ := Option.bind_eq_some_iff.mp shaped
  obtain ⟨fields', found', entries⟩ :=
    Registry.exists_fields? soundAfter.registry soundDirect.registry same found
  obtain ⟨field', under', _, lists⟩ := Registry.exists_get?_of_entriesAt_eq (entries _) under
  rw [found', Option.bind_some] at shaped'
  obtain rfl := Option.some.inj (shaped'.symm.trans under')
  have elements := (Registry.unfolding_eq_iff_of_lists soundAfter.registry soundDirect.registry
    list list').mp lists
  have nothing := Registry.Matches.singletons_iff.mp (Registry.Matches.toList_iff.mpr elements)
  exact absurd (Registry.eq_of_shape?_eq_none soundDirect.registry nothing rfl) (by decide)

end Observer

end SampleShapes
