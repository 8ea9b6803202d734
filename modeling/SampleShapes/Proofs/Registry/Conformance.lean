/-
**Values and shapes.**

A value conforms to a shape if it is built the way the shape says. Objects may stand for others,
and a value then has to be built like the object that is stood for. A join of candidates loses no
value that conforms to one of them, so that letting objects stand for what they were merged into
loses none either, at any depth.

* `conforms_primitive_iff`, `conforms_date_iff`, `conforms_union_iff`, `conforms_list_iff`,
  `conforms_object_iff`: what conforming means;
* `Conforms.within`: what conforms does so still when more is kept;
* `Joins.fits`: **a join loses no value of its candidates**;
* `Conforms.of_fits`: nor does standing for what covers, however deep inside;
* `Conforms.prune`: nor does dropping what is not reached.
-/

import SampleShapes.Observer
import SampleShapes.Proofs.Json.Objects
import SampleShapes.Proofs.Registry.Joins

namespace SampleShapes.Registry

variable {registry later : Registry} {candidates : List ShapeId} {id joined : ShapeId}
variable {stand : ShapeId → ShapeId} {value : Json}

/-! ### Conformance -/

/-- The value is built the way the shape says, where every object is read as the one that it stands
for. -/
inductive Conforms (registry : Registry) (stand : ShapeId → ShapeId) : Json → ShapeId → Prop where
  /-- A kind is that of the value; no value is of the kind that says nothing. -/
  | kind {value : Json} {kind : Primitive} (same : value.primitive = kind) (known : kind ≠ .any) :
      Conforms registry stand value (.primitive kind)
  /-- A date is a text that looks like one. -/
  | date {text : String} (dated : Calendar.looksLikeDate text) :
      Conforms registry stand (.string text) .date
  /-- The keys of an object are fields, the required fields are there, and every member conforms to
  its field. -/
  | object {members : List (String × Json)} {id : ShapeId} {fields : Table String Field}
      (object : (registry.fields? id).isSome) (found : registry.fields? (stand id) = some fields)
      (known : ∀ member ∈ members, (fields.get? member.1).isSome)
      (present : ∀ raw field, fields.get? raw = some field → field.optional = false →
        raw ∈ members.map Prod.fst)
      (inside : ∀ member ∈ members, ∀ field, fields.get? member.1 = some field →
        Conforms registry stand member.2 field.shape) :
      Conforms registry stand (.object members) id
  /-- Each element of an array conforms to one of the elements of the list. -/
  | list {values : List Json} {id : ShapeId} {elements : IdSet}
      (found : registry.elements? id = some elements) (element : Json → ShapeId)
      (among : ∀ value ∈ values, element value ∈ elements)
      (inside : ∀ value ∈ values, Conforms registry stand value (element value)) :
      Conforms registry stand (.array values) id
  /-- The value conforms to one of the alternatives. -/
  | union {value : Json} {id alternative : ShapeId} {members : IdSet}
      (found : registry.members? id = some members) (among : alternative ∈ members)
      (inside : Conforms registry stand value alternative) : Conforms registry stand value id

/-- The value conforms to the shape, where every object stands for itself. -/
abbrev Fits (registry : Registry) : Json → ShapeId → Prop :=
  registry.Conforms fun id => id

theorem conforms_primitive_iff {kind : Primitive} :
    registry.Conforms stand value (.primitive kind) ↔ value.primitive = kind ∧ kind ≠ .any := by
  constructor
  · intro conforms
    cases conforms with
    | kind same known => exact ⟨same, known⟩
    | object object => simp [fields?, shape?] at object
    | list found => simp [elements?, shape?] at found
    | union found => simp [members?, shape?] at found
  · rintro ⟨same, known⟩
    exact .kind same known

theorem conforms_date_iff :
    registry.Conforms stand value .date ↔
      ∃ text, value = .string text ∧ Calendar.looksLikeDate text := by
  constructor
  · intro conforms
    cases conforms with
    | date dated => exact ⟨_, rfl, dated⟩
    | object object => simp [fields?, shape?] at object
    | list found => simp [elements?, shape?] at found
    | union found => simp [members?, shape?] at found
  · rintro ⟨text, rfl, dated⟩
    exact .date dated

/-- **What conforms to a union** conforms to one of its alternatives. -/
theorem conforms_union_iff {members : IdSet} (found : registry.members? id = some members) :
    registry.Conforms stand value id ↔
      ∃ alternative ∈ members, registry.Conforms stand value alternative := by
  constructor
  · intro conforms
    cases conforms with
    | kind => simp [members?, shape?] at found
    | date => simp [members?, shape?] at found
    | object object =>
      rw [members?_eq_none_of_fields? object] at found
      simp at found
    | list list =>
      rw [members?, elements?_eq_some_iff.mp list] at found
      simp [Shape.members?] at found
    | union union among inside =>
      obtain rfl := Option.some.inj (union.symm.trans found)
      exact ⟨_, among, inside⟩
  · rintro ⟨alternative, among, inside⟩
    exact .union found among inside

/-- **What conforms to a list** is an array, and each of its elements conforms to one of the list.
-/
theorem conforms_list_iff {elements : IdSet} (found : registry.elements? id = some elements) :
    registry.Conforms stand value id ↔
      ∃ values, value = .array values ∧
        ∀ value ∈ values, ∃ element ∈ elements, registry.Conforms stand value element := by
  constructor
  · intro conforms
    cases conforms with
    | kind => simp [elements?, shape?] at found
    | date => simp [elements?, shape?] at found
    | object object =>
      rw [elements?_eq_none_of_fields? object] at found
      simp at found
    | list list element among inside =>
      obtain rfl := Option.some.inj (list.symm.trans found)
      exact ⟨_, rfl, fun value member => ⟨element value, among value member, inside value member⟩⟩
    | union union =>
      rw [elements?, members?_eq_some_iff.mp union] at found
      simp [Shape.elements?] at found
  · rintro ⟨values, rfl, each⟩
    have : Nonempty ShapeId := ⟨.date⟩
    choose! element among inside using each
    exact .list found element among inside

/-- **What conforms to an object** is one, with the fields of the object that is stood for. -/
theorem conforms_object_iff (object : (registry.fields? id).isSome) :
    registry.Conforms stand value id ↔
      ∃ members fields, value = .object members ∧ registry.fields? (stand id) = some fields ∧
        (∀ member ∈ members, (fields.get? member.1).isSome) ∧
        (∀ raw field, fields.get? raw = some field → field.optional = false →
          raw ∈ members.map Prod.fst) ∧
        ∀ member ∈ members, ∀ field, fields.get? member.1 = some field →
          registry.Conforms stand member.2 field.shape := by
  constructor
  · intro conforms
    cases conforms with
    | kind => simp [fields?, shape?] at object
    | date => simp [fields?, shape?] at object
    | object _ found known present inside => exact ⟨_, _, rfl, found, known, present, inside⟩
    | list list =>
      rw [elements?_eq_none_of_fields? object] at list
      simp at list
    | union union =>
      rw [members?_eq_none_of_fields? object] at union
      simp at union
  · rintro ⟨members, fields, rfl, found, known, present, inside⟩
    exact .object object found known present inside

/-- **What conforms does so still when more is kept.** -/
theorem Conforms.within (within : registry.Within later)
    (conforms : registry.Conforms stand value id) : later.Conforms stand value id := by
  induction conforms with
  | kind same known => exact .kind same known
  | date dated => exact .date dated
  | object object found known present _ step =>
    exact .object (within.isSome_fields? object) (within.fields? found) known present step
  | list found element among _ step => exact .list (within.elements? found) element among step
  | union found among _ step => exact .union (within.members? found) among step

/-! ### Joins -/

/-- What conforms to a candidate conforms to a flat one. -/
theorem exists_fits_flatten (member : id ∈ candidates) (fits : registry.Fits value id) :
    ∃ flat ∈ registry.flatten candidates, registry.Fits value flat := by
  rcases mem_flatten_of_mem_candidates registry member with
    inside | ⟨members, found, all⟩
  · exact ⟨id, inside, fits⟩
  · obtain ⟨alternative, among, fits⟩ := (conforms_union_iff found).mp fits
    exact ⟨alternative, all alternative among, fits⟩

/-- Null conforms to what null made nullable, and so does what conforms to the rest. -/
theorem IsNullable.fits {ids : List ShapeId} {solid : ShapeId} (member : id ∈ ids)
    (fits : registry.Fits value id)
    (solidly : id ∈ ids.filter (· ≠ .null) → registry.Fits value solid)
    (nullable : registry.IsNullable ids solid joined) : registry.Fits value joined := by
  unfold IsNullable at nullable
  by_cases isNull : id = .null
  · subst isNull
    rw [if_pos member] at nullable
    exact .union nullable (IdSet.mem_ofList.mpr (by simp)) fits
  · have solidly := solidly (List.mem_filter.mpr ⟨member, decide_eq_true isNull⟩)
    split at nullable
    · exact .union nullable (IdSet.mem_ofList.mpr (by simp)) solidly
    · rw [nullable]
      exact solidly

/-- A value of one of some objects is one of the object that unites them. -/
theorem Unites.fits {objects : List (Table String Field)} {fields object : Table String Field}
    {solid : ShapeId} (unites : Unites objects fields)
    (found : registry.fields? solid = some fields)
    (each : ∀ raw field, fields.get? raw = some field → ∀ (value : Json) (id : ShapeId),
      id ∈ shapesUnder objects raw → registry.Fits value id → registry.Fits value field.shape)
    (member : object ∈ objects) (here : registry.fields? id = some object)
    (fits : registry.Fits value id) : registry.Fits value solid := by
  have isObject : (registry.fields? id).isSome := Option.isSome_of_eq_some here
  obtain ⟨members, own, rfl, same, known, present, inside⟩ := (conforms_object_iff isObject).mp fits
  obtain rfl := Option.some.inj (here.symm.trans same)
  refine .object (Option.isSome_of_eq_some found) found (fun entry listed => ?_)
    (fun raw field under required => ?_) fun entry listed field under => ?_
  · have key := Table.isSome_get?_iff.mp (known entry listed)
    exact Table.isSome_get?_iff.mpr ((unites.keys entry.1).mpr ⟨object, member, key⟩)
  · obtain ⟨mine, under, required⟩ := (unites.required raw field under).mp required object member
    exact present raw mine under required
  · obtain ⟨mine, under'⟩ := Option.isSome_iff_exists.mp (known entry listed)
    exact each entry.1 field under entry.2 mine.shape
      (mem_shapesUnder_iff.mpr ⟨object, member, mine, under', rfl⟩)
      (inside entry listed mine under')

/-- **A join loses no value of its candidates.** -/
theorem Joins.fits (joins : registry.Joins candidates joined) (member : id ∈ candidates)
    (fits : registry.Fits value id) : registry.Fits value joined := by
  induction joins generalizing value id with
  | nothing flat found =>
    obtain ⟨id, inside, _⟩ := exists_fits_flatten member fits
    rw [flat] at inside
    exact absurd inside List.not_mem_nil
  | alone flat =>
    obtain ⟨id, inside, fits⟩ := exists_fits_flatten member fits
    rw [flat, List.mem_singleton] at inside
    rw [← inside]
    exact fits
  | objects several all found unites _ nullable step =>
    obtain ⟨id, inside, fits⟩ := exists_fits_flatten member fits
    refine nullable.fits inside fits fun isSolid => ?_
    obtain ⟨object, among, here⟩ := Lists.exists_mem_of_mapM all isSolid
    exact unites.fits found (fun raw field under value id => step raw field under) among here fits
  | lists several all found _ nullable step =>
    obtain ⟨id, inside, fits⟩ := exists_fits_flatten member fits
    refine nullable.fits inside fits fun isSolid => ?_
    obtain ⟨list, among, here⟩ := Lists.exists_mem_of_mapM all isSolid
    obtain ⟨values, rfl, each⟩ := (conforms_list_iff here).mp fits
    refine (conforms_list_iff found).mpr ⟨values, rfl, fun value listed => ?_⟩
    obtain ⟨element, part, fits⟩ := each value listed
    exact ⟨_, List.mem_singleton_self _, step (List.mem_flatMap.mpr ⟨list, among, part⟩) fits⟩
  | mixed several _ _ found =>
    obtain ⟨id, inside, fits⟩ := exists_fits_flatten member fits
    exact .union found (IdSet.mem_ofList.mpr inside) fits

/-! ### Standing for others -/

/-- Every object stands for an object that has all of its values. -/
def Covers (registry : Registry) (stand : ShapeId → ShapeId) : Prop :=
  ∀ id, (registry.fields? id).isSome → (registry.fields? (stand id)).isSome ∧
    ∀ value, registry.Fits value id → registry.Fits value (stand id)

/-- What conforms to something else than a union conforms to unions as well. -/
theorem Conforms.of_solid (solid : ∀ id, registry.members? id = none → registry.Fits value id →
    registry.Conforms stand value id) (fits : registry.Fits value id) :
    registry.Conforms stand value id := by
  induction fits with
  | kind same known => exact .kind same known
  | date dated => exact .date dated
  | object object found known present inside _ =>
    exact solid _ (members?_eq_none_of_fields? object) (.object object found known present inside)
  | list found element among inside _ =>
    refine solid _ ?_ (.list found element among inside)
    rw [members?, elements?_eq_some_iff.mp found]
    rfl
  | union found among _ step => exact .union found among (step solid)

/-- **No value is lost when objects stand for what has all of their values,** however deep inside
they are. -/
theorem Conforms.of_fits (covers : registry.Covers stand) (fits : registry.Fits value id) :
    registry.Conforms stand value id := by
  -- The object that is stood for need not lie further down, but its fields have smaller values.
  induction value using Json.induct generalizing id with
  | step value parts =>
    refine of_solid (fun id notUnion fits => ?_) fits
    cases fits with
    | kind same known => exact .kind same known
    | date dated => exact .date dated
    | object object found known present inside =>
      obtain ⟨isObject, covered⟩ := covers id object
      obtain ⟨members, fields, same, found, known, present, inside⟩ :=
        (conforms_object_iff isObject).mp (covered _ (.object object found known present inside))
      obtain rfl := Json.object.inj same
      exact .object object found known present fun member listed field under =>
        parts member.2 (Json.parts_inside listed) (inside member listed field under)
    | list found element among inside =>
      exact .list found element among fun value listed => parts value listed (inside value listed)
    | union found =>
      rw [notUnion] at found
      simp at found

/-! ### Pruning -/

/-- **No value is lost when what is not reached is dropped,** as long as what is stood for stays. -/
theorem Conforms.prune (sound : registry.Sound) {roots : List ShapeId}
    (stays : ∀ id, (registry.prune roots).Holds id → (registry.prune roots).Holds (stand id))
    (conforms : registry.Conforms stand value id) (held : (registry.prune roots).Holds id) :
    (registry.prune roots).Conforms stand value id := by
  have pruned := sound.prune roots
  induction conforms with
  | kind same known => exact .kind same known
  | date dated => exact .date dated
  | object object found known present _ step =>
    rw [← fields?_prune_of_holds held] at object
    rw [← fields?_prune_of_holds (stays _ held)] at found
    exact .object object found known present fun member listed field under =>
      step member listed field under (pruned.field found under).1
  | list found element among _ step =>
    rw [← elements?_prune_of_holds held] at found
    exact .list found element among fun value listed =>
      step value listed (pruned.element found (among value listed)).1
  | union found among _ step =>
    rw [← members?_prune_of_holds held] at found
    exact .union found among (step (pruned.member found among).1)

end SampleShapes.Registry
