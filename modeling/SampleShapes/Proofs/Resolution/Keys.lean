/-
**Keys of declarations.**

A key is declared without its mark, unless another key of its object says the same without its own;
then the marks of both stay. Only keys without their marks are compared: that a key which keeps its
mark, as it is, may be what is left of a third key, whose mark stands behind that one, is not looked
at. So a declaration may have one key twice, and in no other way.

* `Declaring.one_lt_count_iff`: when a key without its mark stands there more than once;
* `Declaring.declaredKey_eq`: a key keeps its mark, or it is declared without it;
* `Declaring.nodup_declaredKeys_iff`: **declared keys are distinct unless one of them is taken**;
* `Table.not_hasTakenKey_of_plain_names`: which needs a mark behind a mark;
* `Resolution.nodup_keys_iff`: **when the keys of a declaration are distinct**;
* `Resolution.exists_key_twice`: **and that they may not be.**
-/

import SampleShapes.Proofs.Resolution.Closedness

namespace SampleShapes

/-! ### Marks that stay -/

/-- A key without a mark is its own name. -/
theorem Key.name_parse {raw : String} (plain : (Key.parse raw).mark = .plain) :
    (Key.parse raw).name = raw := by
  unfold parse at plain ⊢
  split at plain
  · cases plain
  · cases plain
  · cases plain
  · rfl

namespace Table

variable {fields : Table String Field} {first second entry : String × Field}

/-- The key has a mark, and without it it would be what another key is without its own. -/
def KeepsMark (fields : Table String Field) (entry : String × Field) : Prop :=
  entry.1 ≠ entry.2.key.name ∧
    ∃ other ∈ fields.entries, other.1 ≠ entry.1 ∧ other.2.key.name = entry.2.key.name

/-- A key that keeps its mark is, as it is, what is left of a key that does not. -/
def HasTakenKey (fields : Table String Field) : Prop :=
  ∃ first ∈ fields.entries, ∃ second ∈ fields.entries,
    fields.KeepsMark first ∧ ¬ fields.KeepsMark second ∧ second.2.key.name = first.1

instance : Decidable (fields.KeepsMark entry) :=
  inferInstanceAs (Decidable (_ ∧ ∃ other ∈ _, _))

instance : Decidable fields.HasTakenKey :=
  inferInstanceAs (Decidable (∃ first ∈ _, ∃ second ∈ _, _))

theorem eq_of_mem_entries (member : first ∈ fields.entries) (member' : second ∈ fields.entries)
    (same : first.1 = second.1) : first = second :=
  List.inj_on_of_nodup_map fields.distinct member member' same

/-- **A key is only taken by one whose mark stands behind another mark.** -/
theorem not_hasTakenKey_of_plain_names (keyed : ∀ entry ∈ fields.entries,
      entry.2.key = Key.parse entry.1)
    (names : ∀ entry ∈ fields.entries, (Key.parse entry.2.key.name).mark = .plain) :
    ¬ fields.HasTakenKey := by
  rintro ⟨first, member, second, member', ⟨marked, _⟩, _, taken⟩
  have plain := names second member'
  rw [taken] at plain
  have named := Key.name_parse plain
  rw [← keyed first member] at named
  exact marked named.symm

end Table

/-! ### Declared keys -/

namespace Declaring

variable {setting : Declaring} {fields : Table String Field} {entry : String × Field}

/-- **When a key without its mark stands there more than once.** -/
theorem one_lt_count_iff (keys : setting.keys = fields.values.map (·.key.name))
    (member : entry ∈ fields.entries) :
    1 < setting.keys.count entry.2.key.name ↔
      ∃ other ∈ fields.entries, other.1 ≠ entry.1 ∧ other.2.key.name = entry.2.key.name := by
  have counted : setting.keys.count entry.2.key.name =
      (fields.entries.filter fun other => other.2.key.name = entry.2.key.name).length := by
    rw [keys, ← List.countP_eq_length_filter]
    unfold Table.values List.count
    rw [List.map_map, List.countP_map]
    exact List.countP_congr fun other _ => by simp
  have distinct := (List.Nodup.of_map Prod.fst fields.distinct).filter
    fun other => other.2.key.name = entry.2.key.name
  rw [counted, Lists.one_lt_length_iff_exists_ne distinct (List.mem_filter.mpr ⟨member, by simp⟩)]
  constructor
  · rintro ⟨other, inside, apart⟩
    obtain ⟨inside, same⟩ := List.mem_filter.mp inside
    exact ⟨other, inside, fun raw => apart (Table.eq_of_mem_entries inside member raw),
      of_decide_eq_true same⟩
  · rintro ⟨other, inside, apart, same⟩
    exact ⟨other, List.mem_filter.mpr ⟨inside, decide_eq_true same⟩,
      fun equal => apart (congrArg Prod.fst equal)⟩

/-- **A key keeps its mark, or it is declared without it.** -/
theorem declaredKey_eq (keys : setting.keys = fields.values.map (·.key.name))
    (member : entry ∈ fields.entries) :
    setting.declaredKey entry.1 entry.2 =
      if fields.KeepsMark entry then entry.1 else entry.2.key.name := by
  have same : (entry.1 ≠ entry.2.key.name && 1 < setting.keys.count entry.2.key.name) = true ↔
      fields.KeepsMark entry := by
    rw [Bool.and_eq_true_iff, decide_eq_true_iff, decide_eq_true_iff, one_lt_count_iff keys member]
    rfl
  unfold declaredKey
  simp only [same]

/-- **Declared keys are distinct unless one of them is taken.** -/
theorem nodup_declaredKeys_iff (keys : setting.keys = fields.values.map (·.key.name)) :
    (fields.entries.map fun entry => setting.declaredKey entry.1 entry.2).Nodup ↔
      ¬ fields.HasTakenKey := by
  rw [List.nodup_map_iff_inj_on (List.Nodup.of_map Prod.fst fields.distinct)]
  constructor
  · rintro distinct ⟨first, member, second, member', keeps, loses, taken⟩
    have same : setting.declaredKey first.1 first.2 = setting.declaredKey second.1 second.2 := by
      rw [declaredKey_eq keys member, declaredKey_eq keys member', if_pos keeps, if_neg loses,
        taken]
    rw [distinct first member second member' same] at keeps
    exact loses keeps
  · intro free first member second member' same
    refine Table.eq_of_mem_entries member member' ?_
    rw [declaredKey_eq keys member, declaredKey_eq keys member'] at same
    by_cases keeps : fields.KeepsMark first <;> by_cases keeps' : fields.KeepsMark second
    · rwa [if_pos keeps, if_pos keeps'] at same
    · rw [if_pos keeps, if_neg keeps'] at same
      exact absurd ⟨first, member, second, member', keeps, keeps', same.symm⟩ free
    · rw [if_neg keeps, if_pos keeps'] at same
      exact absurd ⟨second, member', first, member, keeps', keeps, same⟩ free
    · -- Neither has a mark, for two keys that say the same without one would keep it.
      rw [if_neg keeps, if_neg keeps'] at same
      by_contra apart
      have unmarked : first.1 = first.2.key.name := by
        by_contra marked
        exact keeps ⟨marked, second, member', Ne.symm apart, same.symm⟩
      have unmarked' : second.1 = second.2.key.name := by
        by_contra marked
        exact keeps' ⟨marked, first, member, apart, same⟩
      exact apart (unmarked.trans (same.trans unmarked'.symm))

end Declaring

/-! ### Resolutions -/

namespace Naming

/-- The keys of a declaration are those that its fields are declared under. -/
theorem DeclaredAs.keys_eq {naming : Naming} {registry : Registry} {policy : ReferencePolicy}
    {warnings : List Warning} {index : Nat} {name : String} {declaration : Declaration}
    {fields : Table String Field}
    (declared : naming.DeclaredAs registry policy warnings (index, name) declaration)
    (found : registry.fields? (.node index) = some fields) :
    declaration.fields.map DeclaredField.key = fields.entries.map fun entry =>
      (naming.settingOf registry policy name fields).declaredKey entry.1 entry.2 := by
  obtain ⟨_, own, here, each⟩ := declared
  obtain rfl := Option.some.inj (found.symm.trans here)
  generalize declaration.fields = declared, fields.entries = entries at each ⊢
  induction each with
  | nil => rfl
  | cons resolves _ step =>
    obtain ⟨_, _, rfl, _⟩ := resolves
    rw [List.map_cons, List.map_cons, step]

end Naming

namespace Resolution

variable {resolution : Resolution} {options : Options} {sample : Json} {graph : ShapeGraph}

/-- **The keys of a declaration are distinct** unless a key of its object is taken. -/
theorem nodup_keys_iff (inferred : ShapeGraph.infer options sample = .ok graph)
    (declared : SampleShapes.declarations options sample = .ok resolution)
    {declaration : Declaration} (member : declaration ∈ resolution.declarations) :
    ∃ index fields,
      (index, declaration.name) ∈ (Naming.ofGraph graph options.rootName).entries ∧
      graph.registry.fields? (.node index) = some fields ∧
      ((declaration.fields.map DeclaredField.key).Nodup ↔ ¬ fields.HasTakenKey) := by
  obtain ⟨_, all, findings, inferred', _, made⟩ := exists_run declared
  obtain rfl := Except.ok.inj (inferred.symm.trans inferred')
  obtain ⟨index, entry, declaredAs⟩ := made.exists_declaredAs member
  obtain ⟨_, fields, found, _⟩ := id declaredAs
  refine ⟨index, fields, entry, found, ?_⟩
  rw [declaredAs.keys_eq found]
  exact Declaring.nodup_declaredKeys_iff rfl

/-- A key that keeps its mark because of the key beside it. -/
theorem nodup_keys_of_two_alike :
    ∃ graph resolution declaration index fields,
      ShapeGraph.infer {} (.object [("a", .null), ("a[X]", .object [("x", .null)])]) = .ok graph ∧
      SampleShapes.declarations {} (.object [("a", .null), ("a[X]", .object [("x", .null)])]) =
        .ok resolution ∧
      declaration ∈ resolution.declarations ∧
      declaration.fields.map DeclaredField.key = ["a", "a[X]"] ∧
      (index, declaration.name) ∈ (Naming.ofGraph graph "RootObject").entries ∧
      graph.registry.fields? (.node index) = some fields ∧
      ((declaration.fields.map DeclaredField.key).Nodup ↔ ¬ fields.HasTakenKey) := by
  have declared : SampleShapes.declarations {}
      (.object [("a", .null), ("a[X]", .object [("x", .null)])]) = .ok
        { declarations := [
            ⟨"RootObject", [⟨"a", .any, true, .plain⟩, ⟨"a[X]", .named "X", false, .reference⟩]⟩,
            ⟨"X", [⟨"x", .any, true, .plain⟩]⟩]
          parents := ∅
          warnings := [.duplicateKey "RootObject" "a[X]"] } := by
    decide +kernel
  obtain ⟨graph, _, _, inferred, _⟩ := exists_run declared
  obtain ⟨index, fields, entry, found, distinct⟩ :=
    nodup_keys_iff inferred declared List.mem_cons_self
  exact ⟨graph, _, _, index, fields, inferred, declared, List.mem_cons_self, rfl, entry, found,
    distinct⟩

/-- **A declaration may have one key twice.** The key `a[X]` keeps its mark beside `a`, and it is
what is left of `a[X][Y]`, which is alone in saying `a[X]` without its mark. -/
theorem exists_key_twice :
    ∃ resolution, SampleShapes.declarations {} (.object [("a", .null),
        ("a[X]", .object [("x", .null)]), ("a[X][Y]", .object [("y", .null)])]) = .ok resolution ∧
      ∃ declaration ∈ resolution.declarations,
        ¬ (declaration.fields.map DeclaredField.key).Nodup := by
  have declared : SampleShapes.declarations {} (.object [("a", .null),
      ("a[X]", .object [("x", .null)]), ("a[X][Y]", .object [("y", .null)])]) = .ok
        { declarations := [
            ⟨"RootObject", [⟨"a", .any, true, .plain⟩, ⟨"a[X]", .named "X", false, .reference⟩,
              ⟨"a[X]", .named "Y", false, .reference⟩]⟩,
            ⟨"X", [⟨"x", .any, true, .plain⟩]⟩,
            ⟨"Y", [⟨"y", .any, true, .plain⟩]⟩]
          parents := ∅
          warnings := [.duplicateKey "RootObject" "a[X]"] } := by
    decide +kernel
  exact ⟨_, declared, _, List.mem_cons_self, by decide⟩

end Resolution

end SampleShapes
