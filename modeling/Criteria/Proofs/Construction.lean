import Criteria.Proofs.Collection
import Criteria.Proofs.Making

/-! # How a draft is built

Building goes through the composites of a draft in post-order and stops at the first that has no
operand. The composites whose operands are counted are reported on the way, each when it is made,
and the one that ends the work is reported as rejected. Steps that follow one another go through
their composites one after the other, which is shown once for all steps.
-/

namespace Criteria

/-- A node over a connective: how many operands it joins, and whether these are counted when the
    node is made. -/
structure Composite where
  connective : Connective
  operands : Nat
  counted : Bool

namespace Composite

def announcement (c : Composite) : String :=
  "TRACE built " ++ c.connective.word ++ " composite with " ++ toString c.operands ++ " children"

def rejection (c : Composite) : String :=
  "DEBUG rejected " ++ c.connective.word ++ " composite without children"

end Composite

namespace Criterion

def connective? : Criterion → Option Connective
  | .joined connective _ _ => some connective
  | _ => none

/-- The criterion and all that it is made of, in post-order. -/
def nodes (t : Criterion) : List Criterion :=
  t.operands.attach.flatMap (fun operand => operand.1.nodes) ++ [t]
termination_by sizeOf t
decreasing_by exact sizeOf_lt_of_mem_operands operand.2

/-- The connective of each composite, with the number of operands under it. -/
def composites (t : Criterion) : List (Connective × Nat) :=
  t.nodes.filterMap fun node => node.connective?.map fun connective =>
    (connective, node.operands.length)

theorem nodes_eq (t : Criterion) : t.nodes = t.operands.flatMap nodes ++ [t] := by
  rw [nodes, List.flatMap_subtype (g := nodes) fun _ _ => rfl, List.unattach_attach]

theorem composites_eq (t : Criterion) :
    t.composites = t.operands.flatMap composites ++
      (t.connective?.map fun connective => (connective, t.operands.length)).toList := by
  rw [composites, nodes_eq, List.filterMap_append, List.filterMap_flatMap]
  rfl

theorem operands_ne_nil_of_connective {t : Criterion} (h : t.connective?.isSome) :
    t.operands ≠ [] := by
  cases t with
  | joined connective first rest => exact List.cons_ne_nil first rest
  | rule | call | negated => cases h

theorem composites_ne_zero {t : Criterion} {c : Connective × Nat} (h : c ∈ t.composites) :
    c.2 ≠ 0 := by
  obtain ⟨node, -, hnode⟩ := List.mem_filterMap.mp h
  obtain ⟨connective, hconnective, rfl⟩ := Option.map_eq_some_iff.mp hnode
  have filled := operands_ne_nil_of_connective (Option.isSome_of_mem hconnective)
  simpa using filled

end Criterion

def Record.isComposite : Record → Bool
  | .built _ _ => true
  | .rejected _ => true
  | .overwritten _ _ _ => false

namespace Composite

def built (c : Composite) : Record :=
  .built c.connective c.operands

def rejected (c : Composite) : Record :=
  .rejected c.connective

theorem text_built (c : Composite) : c.built.text = c.announcement :=
  Record.text_eq_foldl "built "
    [c.connective.word, " composite with ", toString c.operands, " children"] rfl rfl

theorem text_rejected (c : Composite) : c.rejected.text = c.rejection :=
  Record.text_eq_foldl "rejected " [c.connective.word, " composite without children"] rfl rfl

theorem map_text_built (cs : List Composite) :
    (cs.map built).map Record.text = cs.map announcement := by
  rw [List.map_map]
  exact List.map_congr_left fun c _ => c.text_built

end Composite

namespace Build

variable {α β : Type}

/-- What a build reports about composites. -/
def reports (build : Build α) : List Record :=
  build.outcome.records.filter Record.isComposite

/-- A build goes through these composites one after the other. -/
inductive Visits (build : Build α) (cs : List Composite) : Prop where
  /-- Each has an operand, and the work is done. -/
  | finished (made : α) : build.outcome.value = .ok made → (∀ c ∈ cs, c.operands ≠ 0) →
      build.reports = (cs.filter (·.counted)).map Composite.built → Visits build cs
  /-- The first without operands ends the work. -/
  | stopped (before : List Composite) (c : Composite) (after : List Composite) :
      cs = before ++ c :: after → (∀ b ∈ before, b.operands ≠ 0) → c.operands = 0 →
      build.outcome.value = .error (.emptyComposite c.connective) →
      build.reports = (before.filter (·.counted)).map Composite.built ++ [c.rejected] →
      Visits build cs

theorem outcome_bind (x : Build α) (f : α → Build β) :
    (x >>= f).outcome =
      match x.outcome.value with
      | .ok a => ⟨(f a).outcome.value, x.outcome.records ++ (f a).outcome.records⟩
      | .error cause => ⟨.error cause, x.outcome.records⟩ := by
  change Logged.mk (ExceptT.bindCont f x.outcome.value).value
    (x.outcome.records ++ (ExceptT.bindCont f x.outcome.value).records) = _
  cases x.outcome.value with
  | ok a => rfl
  | error cause => exact congrArg _ (List.append_nil _)

namespace Visits

variable {cs ds : List Composite}

theorem bind {x : Build α} {f : α → Build β} (hx : Visits x cs)
    (hf : ∀ a, x.outcome.value = .ok a → Visits (f a) ds) : Visits (x >>= f) (cs ++ ds) := by
  have outcome := outcome_bind x f
  cases hx with
  | stopped before c after hcs filled empty value reports =>
      rw [value] at outcome
      refine .stopped before c (after ++ ds) (by simp [hcs]) filled empty (by rw [outcome]) ?_
      rw [Build.reports, outcome]
      exact reports
  | finished a value filled reports =>
      rw [value] at outcome
      have joined : (x >>= f).reports = x.reports ++ (f a).reports := by
        rw [Build.reports, outcome, List.filter_append]
        rfl
      cases hf a value with
      | finished b value' filled' reports' =>
          refine .finished b (by rw [outcome, value'])
            (List.forall_mem_append.mpr ⟨filled, filled'⟩) ?_
          rw [joined, reports, reports', List.filter_append, List.map_append]
      | stopped before c after hds filled' empty value' reports' =>
          refine .stopped (cs ++ before) c after (by simp [hds])
            (List.forall_mem_append.mpr ⟨filled, filled'⟩) empty (by rw [outcome, value']) ?_
          rw [joined, reports, reports', List.filter_append, List.map_append, List.append_assoc]

/-- What is there already reports nothing. -/
theorem pure {a : α} (filled : ∀ c ∈ cs, c.operands ≠ 0) (silent : ∀ c ∈ cs, c.counted = false) :
    Visits (Pure.pure a) cs := by
  refine .finished a rfl filled ?_
  rw [List.filter_eq_nil_iff.mpr fun c hc => by simp [silent c hc]]
  rfl

/-- Making bindings reports nothing about composites. -/
theorem lift {x : Logged α} (overwrites : ∀ r ∈ x.records, r.isComposite = false) :
    Visits (liftM x : Build α) [] := by
  refine .finished x.value rfl (fun _ hc => absurd hc List.not_mem_nil) ?_
  have records : (liftM x : Build α).outcome.records = x.records := List.append_nil _
  rw [reports, records, List.filter_eq_nil_iff.mpr fun r hr => by simp [overwrites r hr]]
  rfl

theorem join (connective : Connective) (operands : List Criterion) :
    Visits (Criterion.join connective operands) [⟨connective, operands.length, true⟩] := by
  cases operands with
  | nil => exact .stopped [] _ [] rfl (fun _ hc => absurd hc List.not_mem_nil) rfl rfl rfl
  | cons first rest => exact .finished (.joined connective first rest) rfl (by simp) rfl

end Visits

end Build

namespace Draft

mutual
/-- The composites of a draft in post-order. What is there already was counted before. -/
def composites : Draft → List Composite
  | .given criterion => criterion.composites.map fun c => ⟨c.1, c.2, false⟩
  | .refused _ => []
  | .compare _ _ _ => []
  | .call _ _ => []
  | .rule _ _ => []
  | .all connective operands =>
    compositesList operands ++ [⟨connective, operands.length, true⟩]
  | .pair connective left right =>
    left.composites ++ right.composites ++ [⟨connective, 2, false⟩]
  | .negated operand => operand.composites

def compositesList : List Draft → List Composite
  | [] => []
  | draft :: rest => draft.composites ++ compositesList rest
end

mutual
/-- The values without a literal form. -/
def refusals : Draft → List Refusal
  | .given _ => []
  | .refused cause => [cause]
  | .compare _ _ _ => []
  | .call _ _ => []
  | .rule _ _ => []
  | .all _ operands => refusalsList operands
  | .pair _ left right => left.refusals ++ right.refusals
  | .negated operand => operand.refusals

def refusalsList : List Draft → List Refusal
  | [] => []
  | draft :: rest => draft.refusals ++ refusalsList rest
end

theorem isComposite_of_mem_records_insertAll (b : Bindings) (entries : List (String × Literal)) :
    ∀ r ∈ (b.insertAll entries).records, r.isComposite = false := by
  induction entries generalizing b with
  | nil => exact fun _ hr => absurd hr List.not_mem_nil
  | cons entry rest ih =>
      obtain ⟨name, value⟩ := entry
      rw [Bindings.insertAll_cons, Logged.records_bind, List.forall_mem_append]
      refine ⟨?_, ih _⟩
      rw [Bindings.records_insert]
      intro r hr
      split at hr
      · cases hr
      · split at hr
        · cases hr
        · rw [List.mem_singleton.mp hr, Record.isComposite]

theorem length_of_makesList {drafts : List Draft} {parts : List Criterion}
    (h : MakesList drafts parts) : parts.length = drafts.length := by
  induction drafts generalizing parts with
  | nil => rw [makesList_nil_iff.mp h, List.length_nil, List.length_nil]
  | cons draft drafts ih =>
      obtain ⟨first, rest, -, hrest, rfl⟩ := makesList_cons_iff.mp h
      rw [List.length_cons, List.length_cons, ih hrest]

mutual
/-- Building goes through the composites of a draft, as long as all values have a form. -/
theorem build_visits (d : Draft) (h : d.refusals = []) : Build.Visits d.build d.composites := by
  cases d with
  | given criterion =>
      apply Build.Visits.pure <;> simp only [composites, List.forall_mem_map]
      · exact fun c hc => Criterion.composites_ne_zero hc
      · exact fun _ _ => trivial
  | refused cause => cases h
  | compare key comparison value => exact .pure (by simp [composites]) (by simp [composites])
  | call name arguments => exact .pure (by simp [composites]) (by simp [composites])
  | rule text entries =>
      exact (Build.Visits.lift (isComposite_of_mem_records_insertAll ∅ entries)).bind
        fun bindings _ => .pure (by simp) (by simp)
  | all connective operands =>
      rw [composites, build]
      refine (buildList_visits operands h).bind fun parts hparts => ?_
      rw [← length_of_makesList hparts]
      exact .join connective parts
  | pair connective left right =>
      obtain ⟨hleft, hright⟩ := List.append_eq_nil_iff.mp h
      rw [composites, List.append_assoc, build]
      exact (build_visits left hleft).bind fun first _ =>
        (build_visits right hright).bind fun second _ => .pure (by simp) (by simp)
  | negated operand =>
      rw [composites, build, ← List.append_nil operand.composites]
      exact (build_visits operand h).bind fun part _ => .pure (by simp) (by simp)
termination_by sizeOf d

theorem buildList_visits (ds : List Draft) (h : refusalsList ds = []) :
    Build.Visits (buildList ds) (compositesList ds) := by
  cases ds with
  | nil => exact .pure (by simp [compositesList]) (by simp [compositesList])
  | cons d ds =>
      obtain ⟨hfirst, hrest⟩ := List.append_eq_nil_iff.mp h
      rw [compositesList, buildList, ← List.append_nil (compositesList ds)]
      exact (build_visits d hfirst).bind fun first _ =>
        (buildList_visits ds hrest).bind fun rest _ => .pure (by simp) (by simp)
termination_by sizeOf ds
end

mutual
/-- A criterion has the composites of the draft that makes it. -/
theorem composites_of_makes {d : Draft} {made : Criterion} (h : d.Makes made) :
    made.composites = d.composites.map fun c => (c.connective, c.operands) := by
  cases d with
  | given criterion =>
      obtain rfl := makes_given_iff.mp h
      rw [composites, List.map_map]
      exact (List.map_id' _).symm
  | refused cause => exact absurd h not_makes_refused
  | compare key comparison value =>
      obtain rfl := makes_compare_iff.mp h
      exact Criterion.composites_eq _
  | call name arguments =>
      obtain rfl := makes_call_iff.mp h
      exact Criterion.composites_eq _
  | rule text entries =>
      obtain rfl := makes_rule_iff.mp h
      exact Criterion.composites_eq _
  | all connective operands =>
      obtain ⟨first, rest, hparts, rfl⟩ := makes_all_iff.mp h
      rw [Criterion.composites_eq, composites, List.map_append, ← composites_of_makesList hparts,
        ← length_of_makesList hparts]
      rfl
  | pair connective left right =>
      obtain ⟨first, second, hleft, hright, rfl⟩ := makes_pair_iff.mp h
      rw [Criterion.composites_eq, composites, List.map_append, List.map_append,
        ← composites_of_makes hleft, ← composites_of_makes hright]
      simp [Criterion.operands, Criterion.connective?]
  | negated operand =>
      obtain ⟨part, hpart, rfl⟩ := makes_negated_iff.mp h
      rw [Criterion.composites_eq, composites, ← composites_of_makes hpart]
      simp [Criterion.operands, Criterion.connective?]
termination_by sizeOf d

theorem composites_of_makesList {ds : List Draft} {parts : List Criterion}
    (h : MakesList ds parts) :
    parts.flatMap Criterion.composites =
      (compositesList ds).map fun c => (c.connective, c.operands) := by
  cases ds with
  | nil =>
      obtain rfl := makesList_nil_iff.mp h
      rfl
  | cons d ds =>
      obtain ⟨first, rest, hfirst, hrest, rfl⟩ := makesList_cons_iff.mp h
      rw [List.flatMap_cons, composites_of_makes hfirst, composites_of_makesList hrest,
        compositesList, List.map_append]
termination_by sizeOf ds
end

/-- A draft makes a criterion exactly when none of its composites is empty. Otherwise the first
    empty one in post-order is the refusal. What is reported are the counted composites that are
    made, in post-order and with the number of their operands, and the one that is refused. In
    what is made, composites at any depth have operands, so each is right to say so unseen. -/
theorem build_reports_composites (d : Draft) (h : d.refusals = []) :
    ((∃ made, d.Makes made) ↔ ∀ c ∈ d.composites, c.operands ≠ 0) ∧
    (∀ cause, d.build.outcome.value = .error cause →
      ∃ before c after, d.composites = before ++ c :: after ∧
        (∀ b ∈ before, b.operands ≠ 0) ∧ c.operands = 0 ∧
        cause = .emptyComposite c.connective ∧
        d.build.reports.map Record.text =
          (before.filter (·.counted)).map Composite.announcement ++ [c.rejection]) ∧
    ∀ made, d.Makes made →
      made.composites = d.composites.map (fun c => (c.connective, c.operands)) ∧
      (∀ node ∈ made.nodes, node.connective?.isSome → node.saysEmpty = node.operands.isEmpty) ∧
      d.build.reports.map Record.text =
        (d.composites.filter (·.counted)).map Composite.announcement := by
  have parts (made : Criterion) (hmade : d.Makes made) := composites_of_makes hmade
  have honest (node : Criterion) (hnode : node.connective?.isSome) :
      node.saysEmpty = node.operands.isEmpty := by
    rw [List.isEmpty_eq_false_iff.mpr (Criterion.operands_ne_nil_of_connective hnode)]
    rfl
  cases build_visits d h with
  | finished made value filled reports =>
      rw [reports, Composite.map_text_built]
      refine ⟨⟨fun _ => filled, fun _ => ⟨made, value⟩⟩, ?_, ?_⟩
      · intro cause herror
        cases value.symm.trans herror
      · exact fun other hother => ⟨parts other hother, fun node _ => honest node, rfl⟩
  | stopped before c after hcs filled empty value reports =>
      have hc : c ∈ d.composites := by simp [hcs]
      rw [reports, List.map_append, Composite.map_text_built, List.map_singleton,
        Composite.text_rejected]
      refine ⟨⟨?_, fun all => absurd empty (all c hc)⟩, ?_, ?_⟩
      · rintro ⟨made, hmade⟩
        cases value.symm.trans hmade
      · intro cause herror
        cases value.symm.trans herror
        exact ⟨before, c, after, hcs, filled, empty, rfl, rfl⟩
      · intro made hmade
        cases value.symm.trans hmade

/-- A disjunction without operands is refused before the conjunction that it is part of, and
    after the disjunction before it is made. Where none is empty, a pair is counted with the
    composites that are made but not reported. -/
theorem build_reports_composites_of_empty_disjunction :
    (all .and [all .or [call "f" []], negated (all .or []), all .and []]).refusals = [] ∧
    (all .and [all .or [call "f" []], negated (all .or []), all .and []]).build.outcome.value =
      .error (.emptyComposite .or) ∧
    (all .and [all .or [call "f" []], negated (all .or []), all .and []]).build.reports.map
      Record.text = ["TRACE built OR composite with 1 children",
        "DEBUG rejected OR composite without children"] ∧
    (all .and [all .or [call "f" []], pair .or (call "g" []) (call "h" []),
      negated (call "k" [])]).refusals = [] ∧
    (∃ made, (all .and [all .or [call "f" []], pair .or (call "g" []) (call "h" []),
        negated (call "k" [])]).Makes made ∧
      made.composites = [(.or, 1), (.or, 2), (.and, 3)]) ∧
    (all .and [all .or [call "f" []], pair .or (call "g" []) (call "h" []),
      negated (call "k" [])]).build.reports.map Record.text =
        ["TRACE built OR composite with 1 children",
          "TRACE built AND composite with 3 children"] := by
  have converted :
      (all .and [all .or [call "f" []], negated (all .or []), all .and []]).refusals = [] := rfl
  have value : (all .and [all .or [call "f" []], negated (all .or []),
      all .and []]).build.outcome.value = .error (.emptyComposite .or) := rfl
  have converted' : (all .and [all .or [call "f" []], pair .or (call "g" []) (call "h" []),
      negated (call "k" [])]).refusals = [] := rfl
  obtain ⟨accepted, -, success⟩ := build_reports_composites _ converted'
  obtain ⟨made, hmade⟩ := accepted.mpr (by simp [composites, compositesList])
  obtain ⟨parts, -, texts⟩ := success made hmade
  obtain ⟨before, c, after, hcs, filled, empty, -, reports⟩ :=
    (build_reports_composites _ converted).2.1 _ value
  refine ⟨converted, value, reports.trans ?_, converted', ⟨made, hmade, parts⟩, texts⟩
  change [⟨.or, 1, true⟩, ⟨.or, 0, true⟩, ⟨.and, 0, true⟩, ⟨.and, 3, true⟩] =
    before ++ c :: after at hcs
  cases before with
  | nil =>
      obtain ⟨rfl, -⟩ := List.cons.inj hcs
      cases empty
  | cons b before =>
      obtain ⟨rfl, rest⟩ := List.cons.inj hcs
      cases before with
      | nil =>
          obtain ⟨rfl, -⟩ := List.cons.inj rest
          rfl
      | cons b before =>
          obtain ⟨rfl, -⟩ := List.cons.inj rest
          exact absurd rfl (filled ⟨.or, 0, true⟩ (by simp))

end Draft

end Criteria
