import Criteria.Proofs.Conflict

/-! # Merging

Merging is an operation with the laws of an idempotent monoid. They hold for the entries as they
are stored, with their places and with the forms of their values: a name stands where the
left-most bindings have it, with the value of the right-most.
-/

namespace Criteria.Bindings

/-- Bindings that no call tells apart: the same entries in the same order, in the forms in which
    they are stored, and the same positions in the index. -/
structure Identical (b c : Bindings) : Prop where
  entries : b.entries = c.entries
  index (name : String) : b.index[name]? = c.index[name]?

variable {a b c : Bindings}

/-- The entries determine the index. -/
theorem Indexed.identical (hb : b.Indexed) (hc : c.Indexed) (h : b.toList = c.toList) :
    Identical b c where
  entries := Array.toList_inj.mp h
  index name := by
    apply Option.ext
    intro position
    rw [hb name position, hc name position, names, names, h]

/-- Binding a name to the value that it has changes nothing and is not recorded. -/
theorem Indexed.insert_of_mem (h : b.Indexed) {name : String} {value : Literal}
    (hentry : (name, value) ∈ b.toList) : b.insert name value = ⟨(some value, b), []⟩ := by
  have found := h.get?_eq_some_iff.mpr hentry
  obtain ⟨position, hindex, -⟩ := Option.bind_eq_some_iff.mp found
  obtain ⟨old, hold⟩ := h.entry_of_index hindex
  rw [get?, hindex, Option.bind_some, hold, Option.map_some] at found
  obtain rfl : old = value := Option.some.inj found
  have same : b.entries.modify position (fun entry => (entry.1, old)) = b.entries := by
    apply Array.ext_getElem?
    intro i
    rw [Array.getElem?_modify]
    split
    · subst position
      rw [hold, Option.map_some]
    · rfl
  simp [Bindings.insert, hindex, hold, same, old.agrees_refl]

theorem Indexed.insertAll_of_subset (h : b.Indexed) {entries : List (String × Literal)}
    (hentries : ∀ entry ∈ entries, entry ∈ b.toList) : b.insertAll entries = pure b := by
  induction entries with
  | nil => rfl
  | cons entry rest ih =>
      obtain ⟨first, others⟩ := List.forall_mem_cons.mp hentries
      rw [insertAll_cons, h.insert_of_mem first]
      exact ih others

theorem Indexed.toList_ofList (h : b.Indexed) : (ofList b.toList).value.toList = b.toList := by
  apply (indexed_ofList b.toList).toList_congr h
  · rw [names_ofList, firstNames]
    exact eraseDups_of_nodup h.nodup
  · intro name
    rw [get?_ofList, h.lastValue?_toList]

theorem Indexed.compatible_toList (h : b.Indexed) : Compatible b.toList := by
  rintro ⟨name, v⟩ hv ⟨_, w⟩ hw rfl
  have same : some v = some w := by
    rw [← h.get?_eq_some_iff.mpr hv, ← h.get?_eq_some_iff.mpr hw]
  obtain rfl := Option.some.inj same
  exact v.agrees_refl

theorem Indexed.records_ofList (h : b.Indexed) : (ofList b.toList).records = [] :=
  (records_ofList_eq_nil_iff b.toList).mpr h.compatible_toList

/-- Merging twice binds what both have, one after the other. What is merged first may as well be
    merged into the second before. -/
theorem Indexed.toList_merge_assoc (ha : a.Indexed) (hb : b.Indexed) :
    ((a.merge b).value.merge c).value.toList = (a.merge (b.merge c).value).value.toList := by
  have inner : (ofList (b.toList ++ c.toList)).value.toList = (b.merge c).value.toList := by
    rw [ofList, insertAll_append, Logged.value_bind]
    exact (indexed_ofList b.toList).toList_insertAll_congr hb hb.toList_ofList c.toList
  calc ((a.merge b).value.merge c).value.toList
      = (a.insertAll (b.toList ++ c.toList)).value.toList := by rw [insertAll_append]; rfl
    _ = (a.merge (ofList (b.toList ++ c.toList)).value).value.toList :=
        (ha.toList_merge_ofList _).symm
    _ = (a.merge (b.merge c).value).value.toList := by rw [merge, inner, ← merge]

/-- Merging is associative, nothing is lost or gained by merging with empty bindings, and
    merging a copy or collecting the entries again leaves what was there, without a record. -/
theorem Reachable.merge_idempotent_monoid (ha : Reachable a) (hb : Reachable b)
    (hc : Reachable c) :
    Identical ((a.merge b).value.merge c).value (a.merge (b.merge c).value).value ∧
    a.merge ∅ = pure a ∧ Identical ((∅ : Bindings).merge a).value a ∧
    a.merge a = pure a ∧
    Identical (Bindings.ofList a.toList).value a ∧ (Bindings.ofList a.toList).records = [] := by
  have indexed := ha.indexed
  have collected := (indexed_ofList a.toList).identical indexed indexed.toList_ofList
  refine ⟨?_, rfl, collected, indexed.insertAll_of_subset fun _ h => h, collected,
    indexed.records_ofList⟩
  have left := (Reachable.merge (.merge ha hb) hc).indexed
  have right := (Reachable.merge ha (.merge hb hc)).indexed
  exact left.identical right (indexed.toList_merge_assoc hb.indexed)

/-- The name that two of three bindings share keeps its place and has the form of its last value;
    a copy that is merged again changes neither. -/
theorem merge_idempotent_monoid_of_shared_name :
    Reachable (ofList [("x", .decimal (.zero true)), ("y", .null)]).value ∧
    Reachable (ofList [("z", .integer 1), ("y", .boolean true)]).value ∧
    Reachable (ofList [("x", .decimal (.zero false))]).value ∧
    Identical
      (((ofList [("x", .decimal (.zero true)), ("y", .null)]).value.merge
        (ofList [("z", .integer 1), ("y", .boolean true)]).value).value.merge
          (ofList [("x", .decimal (.zero false))]).value).value
      ((ofList [("x", .decimal (.zero true)), ("y", .null)]).value.merge
        ((ofList [("z", .integer 1), ("y", .boolean true)]).value.merge
          (ofList [("x", .decimal (.zero false))]).value).value).value ∧
    ((ofList [("x", .decimal (.zero true)), ("y", .null)]).value.merge
      (ofList [("x", .decimal (.zero true)), ("y", .null)]).value).records = [] := by
  have first : Reachable (ofList [("x", .decimal (.zero true)), ("y", .null)]).value := .ofList _
  have second : Reachable (ofList [("z", .integer 1), ("y", .boolean true)]).value := .ofList _
  have third : Reachable (ofList [("x", .decimal (.zero false))]).value := .ofList _
  obtain ⟨assoc, -, -, copy, -⟩ := first.merge_idempotent_monoid second third
  exact ⟨first, second, third, assoc, congrArg Logged.records copy⟩

end Criteria.Bindings
