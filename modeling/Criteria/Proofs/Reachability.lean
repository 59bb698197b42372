import Criteria.Proofs.Collection
import Criteria.Proofs.History

/-! # Bindings that can come about

Bindings start empty, from entries or from a criterion, and calls change them. In all that come
about this way the names are distinct and the index is exact. So a position that the index gives
is never past the last entry, and the entry there carries the name that was looked up.
-/

namespace Criteria.Bindings

/-- Bindings that some calls leave. There is no call for a copy, which is the same value. -/
inductive Reachable : Bindings → Prop where
  | empty : Reachable ∅
  | ofList (entries : List (String × Literal)) : Reachable (ofList entries).value
  | ofCriterion (t : Criterion) : Reachable t.bindings.value
  | insert {b : Bindings} (name : String) (value : Literal) :
      Reachable b → Reachable (b.insert name value).value.2
  | insertAll {b : Bindings} (entries : List (String × Literal)) :
      Reachable b → Reachable (b.insertAll entries).value
  | merge {b other : Bindings} : Reachable b → Reachable other → Reachable (b.merge other).value

/-- Every history is one of such calls. -/
theorem History.reachable (h : History) : Reachable h.bindings := by
  induction h with
  | new => exact .empty
  | collected entries => exact .ofList entries
  | inserted before name value ih => exact .insert name value ih
  | extended before entries ih => exact .insertAll entries ih
  | merged before other ihb iho => exact .merge ihb iho

theorem Reachable.indexed {b : Bindings} (h : Reachable b) : b.Indexed := by
  induction h with
  | empty => exact indexed_empty
  | ofList entries => exact indexed_ofList entries
  | ofCriterion t => exact t.indexed_bindings
  | insert name value _ ih => exact ih.insert
  | insertAll entries _ ih => exact ih.insertAll entries
  | merge _ _ ih _ => exact ih.insertAll _

variable {b : Bindings} {name : String} {value : Literal} {position : Nat}

theorem Indexed.index_eq_some_iff (h : b.Indexed) :
    b.index[name]? = some position ↔
      ∃ inside : position < b.entries.size, b.entries[position].1 = name := by
  rw [h name position, getElem?_names, Option.map_eq_some_iff]
  constructor
  · rintro ⟨entry, hentry, rfl⟩
    obtain ⟨inside, rfl⟩ := Array.getElem?_eq_some_iff.mp hentry
    exact ⟨inside, rfl⟩
  · rintro ⟨inside, rfl⟩
    exact ⟨_, Array.getElem?_eq_getElem inside, rfl⟩

/-- The index has the names as its keys, so it is as large as the entries are many. -/
theorem Indexed.size_index (h : b.Indexed) : b.index.size = b.size := by
  have same : b.index.keys.Perm b.names := by
    rw [List.perm_ext_iff_of_nodup Std.HashMap.nodup_keys h.nodup]
    intro name
    rw [Std.HashMap.mem_keys, ← Std.HashMap.contains_iff_mem]
    exact h.contains_iff
  rw [← Std.HashMap.length_keys, same.length_eq, size_eq_length_names]

theorem get?_of_index (inside : position < b.entries.size)
    (hindex : b.index[name]? = some position) : b.get? name = some b.entries[position].2 := by
  rw [get?, hindex, Option.bind_some, Array.getElem?_eq_getElem inside, Option.map_some]

/-- Replacing touches the one entry at the position. -/
theorem Indexed.entries_insert_of_index (h : b.Indexed) (inside : position < b.entries.size)
    (hindex : b.index[name]? = some position) :
    (b.insert name value).value.2.entries = b.entries.set position (name, value) := by
  obtain ⟨_, hname⟩ := h.index_eq_some_iff.mp hindex
  rw [insert_of_index_eq_some hindex]
  apply Array.ext_getElem?
  intro i
  rw [Array.getElem?_modify, Array.getElem?_set]
  split
  · subst position
    simp [Array.getElem?_eq_getElem inside, hname]
  · rfl

/-- The names are distinct and the index gives each of them its position, and nothing else. So
    looking up and replacing read an entry that is there and carries the name. -/
theorem Reachable.index_exact (h : Reachable b) :
    b.names.Nodup ∧ b.index.size = b.size ∧
    (∀ name position, b.index[name]? = some position ↔
      ∃ inside : position < b.entries.size, b.entries[position].1 = name) ∧
    ∀ name position, b.index[name]? = some position →
      ∃ inside : position < b.entries.size, b.entries[position].1 = name ∧
        b.get? name = some b.entries[position].2 ∧
        ∀ value, (b.insert name value).value.1 = some b.entries[position].2 ∧
          (b.insert name value).value.2.entries = b.entries.set position (name, value) := by
  have indexed := h.indexed
  refine ⟨indexed.nodup, indexed.size_index, fun _ _ => indexed.index_eq_some_iff, ?_⟩
  intro name position hindex
  obtain ⟨inside, hname⟩ := indexed.index_eq_some_iff.mp hindex
  have found := get?_of_index inside hindex
  refine ⟨inside, hname, found, fun value => ⟨?_, indexed.entries_insert_of_index inside hindex⟩⟩
  rw [insert_fst, found]

/-- Merging a copy into what it is a copy of leaves two entries and an index for both. -/
theorem index_exact_of_copy_merged :
    Reachable ((ofList [("x", .null), ("y", .boolean true)]).value.merge
      (ofList [("x", .null), ("y", .boolean true)]).value).value ∧
    ((ofList [("x", .null), ("y", .boolean true)]).value.merge
      (ofList [("x", .null), ("y", .boolean true)]).value).value.index["y"]? = some 1 ∧
    ((ofList [("x", .null), ("y", .boolean true)]).value.merge
      (ofList [("x", .null), ("y", .boolean true)]).value).value.entries[1]?.map (·.1) =
        some "y" ∧
    ((ofList [("x", .null), ("y", .boolean true)]).value.merge
      (ofList [("x", .null), ("y", .boolean true)]).value).value.index.size = 2 := by
  have reachable := Reachable.merge (.ofList [("x", .null), ("y", .boolean true)])
    (.ofList [("x", .null), ("y", .boolean true)])
  have hindex : ((ofList [("x", .null), ("y", .boolean true)]).value.merge
      (ofList [("x", .null), ("y", .boolean true)]).value).value.index["y"]? = some 1 := by
    cbv
  obtain ⟨-, size, -, reading⟩ := reachable.index_exact
  obtain ⟨inside, hname, -⟩ := reading "y" 1 hindex
  refine ⟨reachable, hindex, ?_, size.trans (by cbv)⟩
  rw [Array.getElem?_eq_getElem inside, Option.map_some, hname]

end Criteria.Bindings
