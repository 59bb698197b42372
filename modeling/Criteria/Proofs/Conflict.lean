import Criteria.Proofs.Agreement
import Criteria.Proofs.Reachability

/-! # Conflicts between leaves

Collecting records a value that gives way to one it does not agree with. Nothing is recorded
exactly when all leaves agree about the names they share. Then the order of the leaves does not
matter, and otherwise some order of the same leaves leaves other bindings.
-/

namespace Criteria

namespace Bindings

/-- All values under one name agree. -/
def Compatible (entries : List (String × Literal)) : Prop :=
  ∀ e ∈ entries, ∀ f ∈ entries, e.1 = f.1 → e.2.agrees f.2 = true

theorem compatible_concat_iff {entries : List (String × Literal)} {name : String}
    {value : Literal} :
    Compatible (entries ++ [(name, value)]) ↔
      Compatible entries ∧ ∀ e ∈ entries, e.1 = name → e.2.agrees value = true := by
  simp only [Compatible, List.forall_mem_append, List.forall_mem_singleton]
  constructor
  · rintro ⟨before, -⟩
    exact ⟨fun e he => (before e he).1, fun e he => (before e he).2⟩
  · rintro ⟨among, last⟩
    refine ⟨fun e he => ⟨among e he, last e he⟩, ?_, fun _ => value.agrees_refl⟩
    intro f hf same
    exact Literal.agrees_symm (last f hf same.symm)

variable {b : Bindings} {name : String} {value : Literal}

theorem records_insert_eq_nil_iff :
    (b.insert name value).records = [] ↔
      ∀ old, b.get? name = some old → old.agrees value = true := by
  rw [records_insert]
  cases b.get? name <;> simp

theorem records_ofList_concat (entries : List (String × Literal)) :
    (ofList (entries ++ [(name, value)])).records =
      (ofList entries).records ++ ((ofList entries).value.insert name value).records := by
  rw [ofList, insertAll_append, Logged.records_bind, insertAll_cons, Logged.records_bind]
  exact congrArg _ (List.append_nil _)

/-- Of compatible insertions the last one stands for all of one name. -/
theorem Compatible.lastValue?_agrees_iff {entries : List (String × Literal)}
    (h : Compatible entries) :
    (∀ old, lastValue? entries name = some old → old.agrees value = true) ↔
      ∀ e ∈ entries, e.1 = name → e.2.agrees value = true := by
  constructor
  · rintro last e he rfl
    cases hold : lastValue? entries e.1 with
    | none => exact absurd (List.mem_map_of_mem he) (lastValue?_eq_none_iff.mp hold)
    | some old =>
        exact Literal.agrees_trans (h e he _ (mem_of_lastValue?_eq_some hold) rfl)
          (last old hold)
  · intro all old hold
    exact all _ (mem_of_lastValue?_eq_some hold) rfl

theorem records_ofList_eq_nil_iff (entries : List (String × Literal)) :
    (ofList entries).records = [] ↔ Compatible entries := by
  induction entries using List.reverseRecOn with
  | nil => exact ⟨fun _ _ he => absurd he List.not_mem_nil, fun _ => rfl⟩
  | append_singleton entries entry ih =>
      obtain ⟨name, value⟩ := entry
      rw [records_ofList_concat, List.append_eq_nil_iff, ih, records_insert_eq_nil_iff,
        compatible_concat_iff]
      simp only [get?_ofList]
      exact and_congr_right fun h => h.lastValue?_agrees_iff

/-- Compatible insertions of the same entries leave bindings that agree, in whatever order. -/
theorem Compatible.agrees_of_perm {es fs : List (String × Literal)} (h : Compatible es)
    (perm : fs.Perm es) : (ofList fs).value.agrees (ofList es).value = true := by
  rw [(indexed_ofList fs).agrees_iff (indexed_ofList es)]
  intro name
  rw [get?_ofList, get?_ofList]
  have names := (perm.map Prod.fst).mem_iff (a := name)
  rw [← not_iff_not, ← lastValue?_eq_none_iff, ← lastValue?_eq_none_iff] at names
  cases hv : lastValue? fs name with
  | none =>
      rw [names.mp hv]
      exact .none
  | some v =>
      cases hw : lastValue? es name with
      | none => cases hv.symm.trans (names.mpr hw)
      | some w =>
          exact .some (h (name, v) (perm.mem_iff.mp (mem_of_lastValue?_eq_some hv)) (name, w)
            (mem_of_lastValue?_eq_some hw) rfl)

end Bindings

namespace Criterion

open Bindings (Compatible Reachable lastValue?)

theorem leafBindings_rule (text : String) (bindings : Bindings) :
    (rule text bindings).leafBindings = [bindings] := by
  rw [leafBindings]

theorem leafBindings_call (name : String) (arguments : List Literal) :
    (call name arguments).leafBindings = [] := by
  simp [leafBindings, operands]

theorem leafBindings_joined (connective : Connective) (first : Criterion)
    (rest : List Criterion) :
    (joined connective first rest).leafBindings = (first :: rest).flatMap leafBindings := by
  rw [leafBindings, flatMap_attach_operands]
  · rfl
  · simp

/-- A criterion with these leaves. The call binds nothing, but there has to be an operand. -/
def ofLeaves (leaves : List Bindings) : Criterion :=
  joined .and (call "" []) (leaves.map (rule ""))

theorem leafBindings_ofLeaves (leaves : List Bindings) :
    (ofLeaves leaves).leafBindings = leaves := by
  rw [ofLeaves, leafBindings_joined, List.flatMap_cons, leafBindings_call, List.nil_append,
    List.flatMap_map]
  simp only [leafBindings_rule]
  exact List.flatMap_singleton' leaves

/-- In some order of its leaves, any of them comes last. -/
theorem exists_perm_leaf_last {t : Criterion} {b : Bindings} (h : b ∈ t.leafBindings) :
    ∃ (t' : Criterion) (before : List Bindings),
      t'.leafBindings.Perm t.leafBindings ∧ t'.leafBindings = before ++ [b] := by
  obtain ⟨before, after, hsplit⟩ := List.append_of_mem h
  refine ⟨ofLeaves ((before ++ after) ++ [b]), before ++ after, ?_, leafBindings_ofLeaves _⟩
  rw [leafBindings_ofLeaves, hsplit]
  exact (List.perm_append_singleton b _).trans List.perm_middle.symm

theorem records_bindings_eq_nil_iff (t : Criterion) :
    t.bindings.records = [] ↔ Compatible t.leafEntries := by
  rw [bindings_eq_ofList, Bindings.records_ofList_eq_nil_iff]

theorem compatible_leafEntries_iff {t : Criterion} (h : ∀ b ∈ t.leafBindings, b.Indexed) :
    Compatible t.leafEntries ↔
      ∀ b ∈ t.leafBindings, ∀ c ∈ t.leafBindings, ∀ name v w,
        b.get? name = some v → c.get? name = some w → v.agrees w = true := by
  constructor
  · intro compatible b hb c hc name v w hv hw
    have left : (name, v) ∈ t.leafEntries :=
      List.mem_flatMap.mpr ⟨b, hb, (h b hb).get?_eq_some_iff.mp hv⟩
    have right : (name, w) ∈ t.leafEntries :=
      List.mem_flatMap.mpr ⟨c, hc, (h c hc).get?_eq_some_iff.mp hw⟩
    exact compatible _ left _ right rfl
  · rintro pairwise ⟨name, v⟩ he ⟨_, w⟩ hf rfl
    obtain ⟨b, hb, hv⟩ := List.mem_flatMap.mp he
    obtain ⟨c, hc, hw⟩ := List.mem_flatMap.mp hf
    exact pairwise b hb c hc name v w ((h b hb).get?_eq_some_iff.mpr hv)
      ((h c hc).get?_eq_some_iff.mpr hw)

/-- When no order of the leaves makes a difference, each leaf agrees with the outcome: the order
    in which that leaf comes last leaves its values. -/
theorem agrees_of_leaf {t : Criterion}
    (orderless : ∀ t' : Criterion, t'.leafBindings.Perm t.leafBindings →
      t'.bindings.value.agrees t.bindings.value = true)
    {b : Bindings} (hb : b ∈ t.leafBindings) (indexed : b.Indexed) {name : String} {v : Literal}
    (hv : b.get? name = some v) :
    ∃ u, t.bindings.value.get? name = some u ∧ v.agrees u = true := by
  obtain ⟨t', before, perm, hlast⟩ := exists_perm_leaf_last hb
  have hleaf : t'.bindings.value.get? name = some v := by
    rw [bindings_eq_ofList, Bindings.get?_ofList, leafEntries, hlast, List.flatMap_append,
      List.flatMap_singleton, Bindings.lastValue?_append, indexed.lastValue?_toList, hv,
      Option.some_or]
  have agree := (t'.indexed_bindings.agrees_iff t.indexed_bindings).mp (orderless t' perm) name
  rw [hleaf] at agree
  generalize t.bindings.value.get? name = u at agree
  cases agree with
  | some agree => exact ⟨_, rfl, agree⟩

/-- Nothing is recorded exactly when the order of the leaves makes no difference, and exactly
    when any two leaves that bind a name bind it to literals that agree. -/
theorem silent_iff_order_independent (t : Criterion) (h : ∀ b ∈ t.leafBindings, b.Reachable) :
    (t.bindings.records = [] ↔
      ∀ t' : Criterion, t'.leafBindings.Perm t.leafBindings →
        t'.bindings.value.agrees t.bindings.value = true) ∧
    (t.bindings.records = [] ↔
      ∀ b ∈ t.leafBindings, ∀ c ∈ t.leafBindings, ∀ name v w,
        b.get? name = some v → c.get? name = some w → v.agrees w = true) := by
  have indexed : ∀ b ∈ t.leafBindings, b.Indexed := fun b hb => (h b hb).indexed
  rw [records_bindings_eq_nil_iff]
  refine ⟨⟨?_, ?_⟩, compatible_leafEntries_iff indexed⟩
  · intro compatible t' perm
    rw [bindings_eq_ofList, bindings_eq_ofList]
    exact compatible.agrees_of_perm (perm.flatMap_right Bindings.toList)
  · intro orderless
    rw [compatible_leafEntries_iff indexed]
    intro b hb c hc name v w hv hw
    obtain ⟨u, hu, vu⟩ := agrees_of_leaf orderless hb (indexed b hb) hv
    obtain ⟨u', hu', wu⟩ := agrees_of_leaf orderless hc (indexed c hc) hw
    obtain rfl : u = u' := Option.some.inj (hu.symm.trans hu')
    exact Literal.agrees_trans vu (Literal.agrees_symm wu)

/-- Two leaves that bind a name to the two zeros can change places. Leaves that bind it to a
    number and to a string of its digits are recorded, and changing places leaves the other one. -/
theorem silent_iff_order_independent_of_zeros :
    (∀ b ∈ (joined .or (rule "a" (Bindings.ofList [("x", .decimal (.zero true))]).value)
        [negated (rule "b" (Bindings.ofList [("x", .decimal (.zero false))]).value)]).leafBindings,
      b.Reachable) ∧
    (joined .or (rule "a" (Bindings.ofList [("x", .decimal (.zero true))]).value)
      [negated (rule "b"
        (Bindings.ofList [("x", .decimal (.zero false))]).value)]).bindings.records = [] ∧
    (joined .and (rule "c" (Bindings.ofList [("x", .decimal (.zero false))]).value)
      [rule "d" (Bindings.ofList [("x", .decimal (.zero true))]).value]).bindings.value.agrees
        (joined .or (rule "a" (Bindings.ofList [("x", .decimal (.zero true))]).value)
          [negated (rule "b"
            (Bindings.ofList [("x", .decimal (.zero false))]).value)]).bindings.value = true ∧
    (∀ b ∈ (joined .or (rule "a" (Bindings.ofList [("x", .integer 1)]).value)
        [rule "b" (Bindings.ofList [("x", .string "1")]).value]).leafBindings, b.Reachable) ∧
    (joined .or (rule "a" (Bindings.ofList [("x", .integer 1)]).value)
      [rule "b" (Bindings.ofList [("x", .string "1")]).value]).bindings.records.map Record.text =
        ["DEBUG parameter 'x' overwritten: Integer(1) -> String(\"1\")"] ∧
    (¬ ∀ t' : Criterion, t'.leafBindings.Perm
        (joined .or (rule "a" (Bindings.ofList [("x", .integer 1)]).value)
          [rule "b" (Bindings.ofList [("x", .string "1")]).value]).leafBindings →
      t'.bindings.value.agrees
        (joined .or (rule "a" (Bindings.ofList [("x", .integer 1)]).value)
          [rule "b" (Bindings.ofList [("x", .string "1")]).value]).bindings.value = true) ∧
    (joined .or (rule "b" (Bindings.ofList [("x", .string "1")]).value)
      [rule "a" (Bindings.ofList [("x", .integer 1)]).value]).bindings.value.agrees
        (joined .or (rule "a" (Bindings.ofList [("x", .integer 1)]).value)
          [rule "b" (Bindings.ofList [("x", .string "1")]).value]).bindings.value = false := by
  have leaves : ∀ b ∈ (joined .or
      (rule "a" (Bindings.ofList [("x", .decimal (.zero true))]).value)
      [negated (rule "b" (Bindings.ofList [("x", .decimal (.zero false))]).value)]).leafBindings,
      b.Reachable := by
    simp [leafBindings, operands, Reachable.ofList]
  have silent : (joined .or (rule "a" (Bindings.ofList [("x", .decimal (.zero true))]).value)
      [negated (rule "b"
        (Bindings.ofList [("x", .decimal (.zero false))]).value)]).bindings.records = [] := by
    cbv
  have leaves' : ∀ b ∈ (joined .or (rule "a" (Bindings.ofList [("x", .integer 1)]).value)
      [rule "b" (Bindings.ofList [("x", .string "1")]).value]).leafBindings, b.Reachable := by
    simp [leafBindings, operands, Reachable.ofList]
  have conflict : (joined .or (rule "a" (Bindings.ofList [("x", .integer 1)]).value)
      [rule "b" (Bindings.ofList [("x", .string "1")]).value]).bindings.records =
        [.overwritten "x" (.integer 1) (.string "1")] := by
    cbv
  refine ⟨leaves, silent, (silent_iff_order_independent _ leaves).1.mp silent _ ?_, leaves', ?_,
    ?_, ?_⟩
  · simpa [leafBindings, operands] using List.Perm.swap _ _ []
  · rw [conflict]
    decide +kernel
  · intro orderless
    have quiet := (silent_iff_order_independent _ leaves').1.mpr orderless
    rw [conflict] at quiet
    cases quiet
  · cbv

end Criterion

end Criteria
