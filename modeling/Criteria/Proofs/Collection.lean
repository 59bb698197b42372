import Criteria.Criterion.Bindings
import Criteria.Proofs.Insertion

/-! # What a criterion binds

Collecting carries one mapping through the whole tree. What it leaves, and what it records on the
way, is what inserting the entries of the leaves one after the other leaves and records. So
connectives, nesting and calls make no difference, and a composite binds what its operands bind,
merged from left to right.
-/

namespace Criteria.Criterion

theorem sizeOf_lt_of_mem_operands {t operand : Criterion} (h : operand ∈ t.operands) :
    sizeOf operand < sizeOf t := by
  cases t with
  | rule | call => cases h
  | joined connective first rest =>
      rw [joined.sizeOf_spec]
      rcases List.mem_cons.mp h with rfl | h
      · omega
      · have := List.sizeOf_lt_of_mem h
        omega
  | negated part =>
      obtain rfl := List.mem_singleton.mp h
      rw [negated.sizeOf_spec]
      omega

/-- The bindings of the leaves that are reached through operands, from left to right. -/
def leafBindings : Criterion → List Bindings
  | .rule _ bindings => [bindings]
  | t => t.operands.attach.flatMap fun operand => operand.1.leafBindings
termination_by t => sizeOf t
decreasing_by exact sizeOf_lt_of_mem_operands operand.2

theorem flatMap_attach_operands (t : Criterion) :
    t.operands.attach.flatMap (fun operand => operand.1.leafBindings) =
      t.operands.flatMap leafBindings := by
  rw [List.flatMap_subtype (g := leafBindings) fun _ _ => rfl, List.unattach_attach]

/-- The entries of the leaves, from left to right. -/
def leafEntries (t : Criterion) : List (String × Literal) :=
  t.leafBindings.flatMap Bindings.toList

theorem leafEntries_rule (text : String) (bindings : Bindings) :
    (rule text bindings).leafEntries = bindings.toList := by
  simp [leafEntries, leafBindings]

theorem leafEntries_call (name : String) (arguments : List Literal) :
    (call name arguments).leafEntries = [] := by
  simp [leafEntries, leafBindings, operands]

theorem leafEntries_joined (connective : Connective) (first : Criterion)
    (rest : List Criterion) :
    (joined connective first rest).leafEntries = (first :: rest).flatMap leafEntries := by
  rw [leafEntries, leafBindings, flatMap_attach_operands, List.flatMap_assoc]
  · rfl
  · simp

theorem leafEntries_negated (operand : Criterion) :
    (negated operand).leafEntries = operand.leafEntries := by
  rw [leafEntries, leafBindings, flatMap_attach_operands]
  · simp [operands, leafEntries]
  · simp

mutual
theorem collectInto_eq (collected : Bindings) (t : Criterion) :
    t.collectInto collected = collected.insertAll t.leafEntries := by
  cases t with
  | rule text bindings => rw [collectInto, leafEntries_rule, Bindings.merge]
  | call name arguments =>
      rw [collectInto, leafEntries_call]
      rfl
  | joined connective first rest =>
      rw [collectInto, leafEntries_joined, List.flatMap_cons, Bindings.insertAll_append,
        collectInto_eq collected first]
      exact congrArg _ (funext fun between => collectListInto_eq between rest)
  | negated operand =>
      rw [collectInto, leafEntries_negated, collectInto_eq collected operand]
termination_by sizeOf t

theorem collectListInto_eq (collected : Bindings) (ts : List Criterion) :
    collectListInto collected ts = collected.insertAll (ts.flatMap leafEntries) := by
  cases ts with
  | nil => rfl
  | cons t rest =>
      rw [collectListInto, List.flatMap_cons, Bindings.insertAll_append, collectInto_eq collected t]
      exact congrArg _ (funext fun between => collectListInto_eq between rest)
termination_by sizeOf ts
end

theorem bindings_eq_ofList (t : Criterion) : t.bindings = Bindings.ofList t.leafEntries :=
  collectInto_eq ∅ t

theorem indexed_bindings (t : Criterion) : t.bindings.value.Indexed := by
  rw [bindings_eq_ofList]
  exact Bindings.indexed_ofList t.leafEntries

/-- Merging what some criteria bind, one criterion after the other. -/
def mergeBindings (merged : Bindings) (ts : List Criterion) : Bindings :=
  ts.foldl (fun merged t => (merged.merge t.bindings.value).value) merged

theorem toList_mergeBindings {merged : Bindings} (h : merged.Indexed) (ts : List Criterion) :
    (mergeBindings merged ts).toList =
      (merged.insertAll (ts.flatMap leafEntries)).value.toList := by
  induction ts generalizing merged with
  | nil => rfl
  | cons t rest ih =>
      have hmerge : (merged.merge t.bindings.value).value.toList =
          (merged.insertAll t.leafEntries).value.toList := by
        rw [bindings_eq_ofList, h.toList_merge_ofList]
      have left : (merged.merge t.bindings.value).value.Indexed := h.insertAll _
      calc (mergeBindings merged (t :: rest)).toList
          = (mergeBindings (merged.merge t.bindings.value).value rest).toList := rfl
        _ = ((merged.merge t.bindings.value).value.insertAll
              (rest.flatMap leafEntries)).value.toList := ih left
        _ = ((merged.insertAll t.leafEntries).value.insertAll
              (rest.flatMap leafEntries)).value.toList :=
            left.toList_insertAll_congr (h.insertAll _) hmerge _
        _ = (merged.insertAll ((t :: rest).flatMap leafEntries)).value.toList := by
            rw [List.flatMap_cons, Bindings.insertAll_append, Logged.value_bind]

theorem toList_bindings_joined (connective : Connective) (first : Criterion)
    (rest : List Criterion) :
    (joined connective first rest).bindings.value.toList =
      (mergeBindings first.bindings.value rest).toList := by
  rw [toList_mergeBindings first.indexed_bindings, bindings_eq_ofList, bindings_eq_ofList,
    leafEntries_joined, List.flatMap_cons, Bindings.ofList, Bindings.ofList,
    Bindings.insertAll_append, Logged.value_bind]

/-- What a criterion binds depends on the sequence of its leaves alone. It is what is left when
    the entries of the leaves are inserted one by one, and what is recorded is what those
    insertions record. What a composite binds is what its operands bind, merged from left to
    right. -/
theorem bindings_of_leaves (t : Criterion) :
    t.bindings = Bindings.ofList (t.leafBindings.flatMap Bindings.toList) ∧
    (∀ t' : Criterion, t'.leafBindings.map Bindings.toList = t.leafBindings.map Bindings.toList →
      t'.bindings = t.bindings) ∧
    (∀ connective first rest, (joined connective first rest).bindings.value.toList =
      (mergeBindings ∅ (first :: rest)).toList) ∧
    ∀ connective left right, (joined connective left [right]).bindings.value.toList =
      (left.bindings.value.merge right.bindings.value).value.toList := by
  refine ⟨bindings_eq_ofList t, ?_, ?_, ?_⟩
  · intro t' same
    rw [bindings_eq_ofList, bindings_eq_ofList, leafEntries, leafEntries, List.flatMap_def,
      List.flatMap_def, same]
  · intro connective first rest
    have start : (∅ : Bindings).Indexed := Bindings.indexed_empty
    rw [bindings_eq_ofList, leafEntries_joined]
    exact (toList_mergeBindings start (first :: rest)).symm
  · intro connective left right
    exact toList_bindings_joined connective left [right]

/-- A conjunction with a call and a negation binds what a negated disjunction binds that has the
    same two leaves. -/
theorem bindings_of_leaves_of_negated_disjunction :
    (negated (joined .or (joined .or (rule "p" (Bindings.ofList [("x", .integer 1)]).value) [])
        [rule "q" (Bindings.ofList [("x", .integer 2)]).value])).bindings =
      (joined .and (rule "a" (Bindings.ofList [("x", .integer 1)]).value)
        [call "now" [], negated (rule "b" (Bindings.ofList [("x", .integer 2)]).value)]).bindings :=
  (bindings_of_leaves _).2.1 _ (by simp [leafBindings, operands])

end Criteria.Criterion
