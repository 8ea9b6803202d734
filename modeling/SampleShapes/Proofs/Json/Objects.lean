/-
**Objects inside of values.**

Many facts about a value are facts about each object inside of it, at any depth. No key stands
twice in an object that was read, whichever text it was read from.

* `Json.induct`: every value rests on its parts;
* `everyObject_array`, `everyObject_object`: a test of all objects, one level at a time;
* `mem_keys_array`, `mem_keys_object`: the keys inside of a value, likewise;
* `Reading.step_keysDistinct`: the reader keeps keys distinct with every token;
* `keysDistinct_of_read?`: **no key stands twice in an object that was read**.
-/

import SampleShapes.Json.Reader
import SampleShapes.Key
import SampleShapes.Proofs.Table

namespace SampleShapes.Json

/-- The values that a value is built from. -/
def parts : Json → List Json
  | array elements => elements
  | object members => members.map Prod.snd
  | _ => []

theorem parts_inside {members : List (String × Json)} {member : String × Json}
    (inside : member ∈ members) : member.2 ∈ (object members).parts :=
  List.mem_map.mpr ⟨member, inside, rfl⟩

/-- **Every value rests on its parts.** -/
theorem induct {motive : Json → Prop}
    (step : ∀ value : Json, (∀ part ∈ value.parts, motive part) → motive value) (value : Json) :
    motive value :=
  @Json.rec motive (fun elements => ∀ element ∈ elements, motive element)
    (fun members => ∀ value ∈ members.map Prod.snd, motive value) (fun member => motive member.2)
    (step null (fun _ member => absurd member List.not_mem_nil))
    (fun value => step (bool value) (fun _ member => absurd member List.not_mem_nil))
    (fun literal => step (number literal) (fun _ member => absurd member List.not_mem_nil))
    (fun text => step (string text) (fun _ member => absurd member List.not_mem_nil))
    (fun elements inside => step (array elements) inside)
    (fun members inside => step (object members) inside)
    (fun _ member => absurd member List.not_mem_nil)
    (fun _ _ head tail => List.forall_mem_cons.mpr ⟨head, tail⟩)
    (fun _ member => absurd member List.not_mem_nil)
    (fun _ _ head tail => List.forall_mem_cons.mpr ⟨head, tail⟩)
    (fun _ _ inside => inside) value

/-! ### A test of all objects -/

mutual

/-- The members of every object inside of a value pass a test. -/
def everyObject (test : List (String × Json) → Bool) : Json → Bool
  | array elements => everyObjectAmong test elements
  | object members => test members && everyObjectUnder test members
  | _ => true

/-- The members of every object inside of some values pass a test. -/
def everyObjectAmong (test : List (String × Json) → Bool) : List Json → Bool
  | [] => true
  | element :: rest => everyObject test element && everyObjectAmong test rest

/-- The members of every object inside of some members pass a test. -/
def everyObjectUnder (test : List (String × Json) → Bool) : List (String × Json) → Bool
  | [] => true
  | (_, member) :: rest => everyObject test member && everyObjectUnder test rest

end

variable {test : List (String × Json) → Bool}

theorem everyObjectAmong_iff {elements : List Json} :
    everyObjectAmong test elements ↔ ∀ element ∈ elements, everyObject test element := by
  induction elements with
  | nil => simp [everyObjectAmong]
  | cons element rest step => simp [everyObjectAmong, step]

theorem everyObjectUnder_iff {members : List (String × Json)} :
    everyObjectUnder test members ↔ ∀ member ∈ members, everyObject test member.2 := by
  induction members with
  | nil => simp [everyObjectUnder]
  | cons member rest step =>
    obtain ⟨raw, value⟩ := member
    simp [everyObjectUnder, step]

/-- **Every object inside of an array** is inside of an element. -/
theorem everyObject_array {elements : List Json} :
    everyObject test (.array elements) ↔ ∀ element ∈ elements, everyObject test element := by
  rw [everyObject, everyObjectAmong_iff]

/-- **Every object inside of an object** is itself, or inside of a member. -/
theorem everyObject_object {members : List (String × Json)} :
    everyObject test (.object members) ↔
      test members ∧ ∀ member ∈ members, everyObject test member.2 := by
  rw [everyObject, Bool.and_eq_true, everyObjectUnder_iff]

theorem everyObject_true (value : Json) : everyObject (fun _ => true) value := by
  induction value using induct with
  | step value parts =>
    cases value with
    | array elements => exact everyObject_array.mpr parts
    | object members =>
      exact everyObject_object.mpr ⟨rfl, fun member inside => parts _ (parts_inside inside)⟩
    | null | bool | number | string => rfl

/-! ### Keys -/

mutual

/-- Every key inside of a value. -/
def keys : Json → List String
  | array elements => keysAmong elements
  | object members => keysUnder members
  | _ => []

/-- Every key inside of some values. -/
def keysAmong : List Json → List String
  | [] => []
  | element :: rest => element.keys ++ keysAmong rest

/-- Every key of some members, and inside of them. -/
def keysUnder : List (String × Json) → List String
  | [] => []
  | (raw, member) :: rest => raw :: (member.keys ++ keysUnder rest)

end

theorem mem_keys_array {raw : String} {elements : List Json} :
    raw ∈ (array elements).keys ↔ ∃ element ∈ elements, raw ∈ element.keys := by
  rw [keys]
  induction elements with
  | nil => simp [keysAmong]
  | cons element rest step => simp [keysAmong, step]

theorem mem_keys_object {raw : String} {members : List (String × Json)} :
    raw ∈ (object members).keys ↔ ∃ member ∈ members, raw = member.1 ∨ raw ∈ member.2.keys := by
  rw [keys]
  induction members with
  | nil => simp [keysUnder]
  | cons member rest step =>
    obtain ⟨first, value⟩ := member
    simp [keysUnder, step, or_assoc]

/-- **The keys of every object inside of a value** are keys inside of the value. -/
theorem everyObject_of_keys {known : String → Bool} {value : Json}
    (all : ∀ raw ∈ value.keys, known raw) :
    everyObject (fun members => members.all fun member => known member.1) value := by
  induction value using induct with
  | step value parts =>
    cases value with
    | array elements =>
      refine everyObject_array.mpr fun element inside => parts element inside fun raw member => ?_
      exact all raw (mem_keys_array.mpr ⟨element, inside, member⟩)
    | object members =>
      refine everyObject_object.mpr ⟨List.all_eq_true.mpr fun member inside => ?_,
        fun member inside => parts _ (parts_inside inside) fun raw under => ?_⟩
      · exact all member.1 (mem_keys_object.mpr ⟨member, inside, .inl rfl⟩)
      · exact all raw (mem_keys_object.mpr ⟨member, inside, .inr under⟩)
    | null | bool | number | string => rfl

/-! ### Distinct keys -/

/-- No object inside of the value has a key twice. -/
def KeysDistinct (value : Json) : Prop :=
  value.everyObject fun members => (members.map Prod.fst).Nodup

instance (value : Json) : Decidable value.KeysDistinct :=
  inferInstanceAs (Decidable (_ = true))

theorem keysDistinct_array {elements : List Json} :
    (array elements).KeysDistinct ↔ ∀ element ∈ elements, element.KeysDistinct :=
  everyObject_array

theorem keysDistinct_object {members : List (String × Json)} :
    (object members).KeysDistinct ↔
      (members.map Prod.fst).Nodup ∧ ∀ member ∈ members, member.2.KeysDistinct := by
  unfold KeysDistinct
  rw [everyObject_object, decide_eq_true_iff]

/-! ### Plain keys -/

/-- No key inside of the value says more than a name. -/
def Unmarked (value : Json) : Prop :=
  value.everyObject fun members => members.all fun member => (Key.parse member.1).mark = .plain

instance (value : Json) : Decidable value.Unmarked :=
  inferInstanceAs (Decidable (_ = true))

theorem unmarked_array {elements : List Json} :
    (array elements).Unmarked ↔ ∀ element ∈ elements, element.Unmarked :=
  everyObject_array

theorem unmarked_object {members : List (String × Json)} :
    (object members).Unmarked ↔
      ∀ member ∈ members, (Key.parse member.1).mark = .plain ∧ member.2.Unmarked := by
  unfold Unmarked
  rw [everyObject_object, List.all_eq_true, ← forall₂_and]
  simp

/-- No key says more than a name inside of what stands under one that does. -/
def Unnested (value : Json) : Prop :=
  value.everyObject fun members => members.all fun member =>
    (Key.parse member.1).mark = .plain ∨ member.2.Unmarked

instance (value : Json) : Decidable value.Unnested :=
  inferInstanceAs (Decidable (_ = true))

theorem unnested_array {elements : List Json} :
    (array elements).Unnested ↔ ∀ element ∈ elements, element.Unnested :=
  everyObject_array

theorem unnested_object {members : List (String × Json)} :
    (object members).Unnested ↔ ∀ member ∈ members,
      ((Key.parse member.1).mark = .plain ∨ member.2.Unmarked) ∧ member.2.Unnested := by
  unfold Unnested
  rw [everyObject_object, List.all_eq_true, ← forall₂_and]
  simp

/-! ### What the reader yields -/

namespace Reading

/-- The members read so far have distinct keys, inside as well. -/
def MembersDistinct (members : List (String × Json)) : Prop :=
  (members.map Prod.fst).Nodup ∧ ∀ member ∈ members, member.2.KeysDistinct

/-- What a frame holds has distinct keys. -/
def FrameDistinct : Frame → Prop
  | .array elements => ∀ element ∈ elements, element.KeysDistinct
  | .object members _ => MembersDistinct members

/-- What is carried along while waiting has distinct keys. -/
def AwaitDistinct : Await → Prop
  | .key members => MembersDistinct members
  | .nothing result => result.KeysDistinct
  | _ => True

/-- All that was read so far has distinct keys. -/
structure KeysDistinct (reading : Reading) : Prop where
  /-- The open containers have. -/
  frames : ∀ frame ∈ reading.frames, FrameDistinct frame
  /-- What is waited with has. -/
  await : AwaitDistinct reading.await

theorem MembersDistinct.put {members : List (String × Json)} (distinct : MembersDistinct members)
    (key : String) {value : Json} (inside : value.KeysDistinct) :
    MembersDistinct (Table.alterEntries key (fun _ => value) members) := by
  refine ⟨Table.nodup_alterEntries key _ distinct.1, ?_⟩
  have all := distinct.2
  clear distinct
  induction members with
  | nil => simpa [Table.alterEntries] using inside
  | cons member rest step =>
    rw [List.forall_mem_cons] at all
    unfold Table.alterEntries
    split
    · exact List.forall_mem_cons.mpr ⟨inside, all.2⟩
    · exact List.forall_mem_cons.mpr ⟨all.1, step all.2⟩

theorem complete_keysDistinct {frames : List Frame} {value : Json}
    (held : ∀ frame ∈ frames, FrameDistinct frame) (inside : value.KeysDistinct) :
    (complete frames value).KeysDistinct := by
  unfold complete
  split
  · exact ⟨by simp, inside⟩
  · obtain ⟨first, rest⟩ := List.forall_mem_cons.mp held
    exact ⟨List.forall_mem_cons.mpr ⟨List.forall_mem_cons.mpr ⟨inside, first⟩, rest⟩, trivial⟩
  · obtain ⟨first, rest⟩ := List.forall_mem_cons.mp held
    exact ⟨List.forall_mem_cons.mpr ⟨MembersDistinct.put first _ inside, rest⟩, trivial⟩

theorem startValue_keysDistinct {limit : Option Nat} {frames : List Frame} {token : Token}
    {later : Reading} (held : ∀ frame ∈ frames, FrameDistinct frame)
    (started : startValue limit frames token = some later) : later.KeysDistinct := by
  unfold startValue at started
  split at started
  · split at started
    · obtain rfl := Option.some.inj started
      exact ⟨List.forall_mem_cons.mpr ⟨fun _ member => absurd member List.not_mem_nil, held⟩,
        trivial⟩
    · simp at started
  · split at started
    · obtain rfl := Option.some.inj started
      exact ⟨held, trivial⟩
    · simp at started
  all_goals first
    | simp at started; done
    | obtain rfl := Option.some.inj started
      exact complete_keysDistinct held rfl

/-- **Keys stay distinct with every token.** -/
theorem step_keysDistinct {limit : Option Nat} {reading later : Reading} {token : Token}
    (distinct : reading.KeysDistinct) (stepped : step limit reading token = some later) :
    later.KeysDistinct := by
  obtain ⟨frames, await⟩ := reading
  obtain ⟨held, waiting⟩ := distinct
  unfold step at stepped
  dsimp only at stepped held waiting
  split at stepped
  · exact startValue_keysDistinct held stepped
  · obtain rfl := Option.some.inj stepped
    exact complete_keysDistinct (List.forall_mem_cons.mp held).2 rfl
  · exact startValue_keysDistinct held stepped
  · obtain rfl := Option.some.inj stepped
    exact complete_keysDistinct held rfl
  · obtain rfl := Option.some.inj stepped
    exact ⟨List.forall_mem_cons.mpr ⟨⟨List.nodup_nil, by simp⟩, held⟩, trivial⟩
  · obtain rfl := Option.some.inj stepped
    exact ⟨List.forall_mem_cons.mpr ⟨waiting, held⟩, trivial⟩
  · obtain rfl := Option.some.inj stepped
    exact ⟨held, trivial⟩
  · obtain rfl := Option.some.inj stepped
    exact ⟨held, trivial⟩
  · obtain rfl := Option.some.inj stepped
    obtain ⟨first, rest⟩ := List.forall_mem_cons.mp held
    exact ⟨rest, first⟩
  · obtain rfl := Option.some.inj stepped
    obtain ⟨first, rest⟩ := List.forall_mem_cons.mp held
    refine complete_keysDistinct rest (keysDistinct_array.mpr fun element member => ?_)
    exact first element (List.mem_reverse.mp member)
  · obtain rfl := Option.some.inj stepped
    obtain ⟨first, rest⟩ := List.forall_mem_cons.mp held
    exact complete_keysDistinct rest (keysDistinct_object.mpr first)
  · simp at stepped

theorem foldlM_step_keysDistinct {limit : Option Nat} (tokens : List Token)
    {reading later : Reading} (distinct : reading.KeysDistinct)
    (read : tokens.foldlM (step limit) reading = some later) : later.KeysDistinct := by
  induction tokens generalizing reading with
  | nil =>
    obtain rfl := Option.some.inj read
    exact distinct
  | cons token rest again =>
    rw [List.foldlM_cons, Option.bind_eq_bind, Option.bind_eq_some_iff] at read
    obtain ⟨next, stepped, read⟩ := read
    exact again (step_keysDistinct distinct stepped) read

end Reading

/-- **No key stands twice in an object that was read.** -/
theorem keysDistinct_of_read? {limit : Option Nat} {text : String} {value : Json}
    (read : read? limit text = some value) : value.KeysDistinct := by
  unfold read? at read
  simp only [Option.bind_eq_bind, Option.bind_eq_some_iff] at read
  obtain ⟨tokens, _, reading, folded, finished⟩ := read
  have start : Reading.KeysDistinct ⟨[], .value⟩ := ⟨by simp, trivial⟩
  have last := (Reading.foldlM_step_keysDistinct tokens start folded).await
  split at finished
  · next result waiting =>
    obtain rfl := Option.some.inj finished
    rw [waiting] at last
    exact last
  · simp at finished

end SampleShapes.Json
