import Criteria.Proofs.Insertion
import Mathlib.Data.Finset.Card

/-! # Histories of bindings

However bindings come about, they are what is left of one sequence of insertions, which the
grouping into calls does not show in. A name has the place of its first insertion and the value
of its last one, seen through the entries and through the index alike.
-/

namespace Criteria.Bindings

/-- A way in which bindings come about. -/
inductive History where
  | new
  /-- Made from a sequence of entries. -/
  | collected (entries : List (String × Literal))
  | inserted (before : History) (name : String) (value : Literal)
  | extended (before : History) (entries : List (String × Literal))
  /-- All that another history left is bound again. -/
  | merged (before other : History)

namespace History

/-- Go through a history. The records of what is merged in were made elsewhere. -/
def run : History → Logged Bindings
  | .new => return ∅
  | .collected entries => ofList entries
  | .inserted before name value => do
    let bindings ← before.run
    let (_, bindings) ← bindings.insert name value
    return bindings
  | .extended before entries => do
    let bindings ← before.run
    bindings.insertAll entries
  | .merged before other => do
    let bindings ← before.run
    bindings.merge other.run.value

def bindings (h : History) : Bindings :=
  h.run.value

/-- The insertions of a history, one after the other. -/
def writes : History → List (String × Literal)
  | .new => []
  | .collected entries => entries
  | .inserted before name value => before.writes ++ [(name, value)]
  | .extended before entries => before.writes ++ entries
  | .merged before other => before.writes ++ other.bindings.toList

theorem run_extended (before : History) (entries : List (String × Literal)) :
    (extended before entries).run = before.run >>= (·.insertAll entries) := rfl

theorem run_inserted (before : History) (name : String) (value : Literal) :
    (inserted before name value).run = (extended before [(name, value)]).run := rfl

theorem run_merged (before other : History) :
    (merged before other).run = (extended before other.bindings.toList).run := rfl

/-- The calls of a history leave no trace but their insertions. -/
theorem run_eq_ofList (h : History) : h.run = ofList h.writes := by
  have step (before : History) (entries : List (String × Literal))
      (ih : before.run = ofList before.writes) :
      (extended before entries).run = ofList (before.writes ++ entries) := by
    rw [run_extended, ih, ofList, ofList, insertAll_append]
  induction h with
  | new => rfl
  | collected entries => rfl
  | inserted before name value ih => rw [run_inserted, step before _ ih, writes]
  | extended before entries ih => rw [step before _ ih, writes]
  | merged before other ih _ => rw [run_merged, step before _ ih, writes]

theorem bindings_eq (h : History) : h.bindings = (ofList h.writes).value :=
  congrArg Logged.value h.run_eq_ofList

theorem indexed_bindings (h : History) : h.bindings.Indexed := by
  rw [bindings_eq]
  exact indexed_ofList h.writes

theorem names_bindings (h : History) : h.bindings.names = firstNames h.writes := by
  rw [bindings_eq, names_ofList]

theorem get?_bindings (h : History) (name : String) :
    h.bindings.get? name = lastValue? h.writes name := by
  rw [bindings_eq, get?_ofList]

theorem size_bindings (h : History) : h.bindings.size = (h.writes.map (·.1)).toFinset.card := by
  have distinct : (firstNames h.writes).Nodup := by
    rw [← names_bindings]
    exact h.indexed_bindings.nodup
  rw [size_eq_length_names, names_bindings, ← List.toFinset_card_of_nodup distinct]
  congr 1
  ext name
  simp [firstNames]

theorem mem_names_bindings (h : History) (name : String) :
    name ∈ h.bindings.names ↔ name ∈ h.writes.map (·.1) := by
  rw [names_bindings, firstNames, List.mem_eraseDups]

/-- Every name stands once, in the order of first insertions, and has the value of its last
    insertion, in whatever form that was given. The lookup sees the same. An insertion returns
    the value that was inserted last before it. -/
theorem last_values_in_first_order (h : History) :
    h.bindings.names = firstNames h.writes ∧ h.bindings.names.Nodup ∧
    h.bindings.toList.map (fun entry => (entry.1, some entry.2)) =
      (firstNames h.writes).map (fun name => (name, lastValue? h.writes name)) ∧
    h.bindings.size = (h.writes.map (·.1)).toFinset.card ∧
    (∀ name, h.bindings.get? name = lastValue? h.writes name) ∧
    (∀ name, h.bindings.get? name = none ↔ name ∉ h.writes.map (·.1)) ∧
    (∀ name, h.bindings.contains name = false ↔ name ∉ h.writes.map (·.1)) ∧
    ∀ name value, (h.bindings.insert name value).value.1 = lastValue? h.writes name := by
  have indexed := h.indexed_bindings
  refine ⟨h.names_bindings, indexed.nodup, ?_, h.size_bindings, h.get?_bindings, ?_, ?_, ?_⟩
  · rw [indexed.toList_eq, names_bindings]
    exact List.map_congr_left fun name _ => congrArg (Prod.mk name) (h.get?_bindings name)
  · intro name
    rw [indexed.get?_eq_none_iff, mem_names_bindings]
  · intro name
    rw [← Bool.not_eq_true, indexed.contains_iff, mem_names_bindings]
  · intro name value
    rw [insert_fst, get?_bindings]

end History

end Criteria.Bindings
