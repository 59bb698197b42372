import Criteria.Draft

/-! # Which criterion a draft makes

A draft makes a criterion when its build is not refused. The records of the build play no part
here. Each kind of draft makes what its parts make, joined or negated.
-/

namespace Criteria

namespace Build

variable {α β : Type}

/-- A build succeeds when it does so step after step. -/
theorem bind_eq_ok_iff {x : Build α} {f : α → Build β} {b : β} :
    (x >>= f).outcome.value = .ok b ↔
      ∃ a, x.outcome.value = .ok a ∧ (f a).outcome.value = .ok b := by
  have step : (x >>= f).outcome.value =
      x.outcome.value.bind fun a => (f a).outcome.value := by
    change Logged.value (ExceptT.bindCont f x.outcome.value) = _
    cases x.outcome.value <;> rfl
  rw [step]
  cases x.outcome.value with
  | ok a => simp [Except.bind]
  | error cause => simp [Except.bind]

theorem pure_eq_ok_iff {a b : α} : (pure a : Build α).outcome.value = .ok b ↔ b = a :=
  ⟨fun h => (Except.ok.inj h).symm, fun h => congrArg Except.ok h.symm⟩

end Build

namespace Draft

def Makes (draft : Draft) (made : Criterion) : Prop :=
  draft.build.outcome.value = .ok made

def MakesList (drafts : List Draft) (made : List Criterion) : Prop :=
  (buildList drafts).outcome.value = .ok made

variable {made : Criterion}

theorem makes_given_iff {criterion} : (given criterion).Makes made ↔ made = criterion := by
  rw [Makes, build, Build.pure_eq_ok_iff]

theorem not_makes_refused {cause} : ¬ (refused cause).Makes made := by
  intro h
  cases h

theorem makes_compare_iff {key comparison value} :
    (compare key comparison value).Makes made ↔ made = .compare key comparison value := by
  rw [Makes, build, Build.pure_eq_ok_iff]

theorem makes_call_iff {name arguments} :
    (call name arguments).Makes made ↔ made = .call name arguments := by
  rw [Makes, build, Build.pure_eq_ok_iff]

theorem makes_rule_iff {text entries} :
    (rule text entries).Makes made ↔ made = .rule text (Bindings.ofList entries).value :=
  ⟨fun h => (Except.ok.inj h).symm, fun h => congrArg Except.ok h.symm⟩

theorem makes_negated_iff {operand : Draft} :
    (negated operand).Makes made ↔ ∃ part, operand.Makes part ∧ made = .negated part := by
  simp only [Makes, build, Build.bind_eq_ok_iff, Build.pure_eq_ok_iff]

theorem makes_pair_iff {connective} {left right : Draft} :
    (pair connective left right).Makes made ↔
      ∃ first second, left.Makes first ∧ right.Makes second ∧
        made = .joined connective first [second] := by
  simp only [Makes, build, Build.bind_eq_ok_iff, Build.pure_eq_ok_iff]
  constructor
  · rintro ⟨first, hfirst, second, hsecond, rfl⟩
    exact ⟨first, second, hfirst, hsecond, rfl⟩
  · rintro ⟨first, second, hfirst, hsecond, rfl⟩
    exact ⟨first, hfirst, second, hsecond, rfl⟩

/-- Operands are joined when all of them are made and there is at least one. -/
theorem makes_all_iff {connective} {operands : List Draft} :
    (all connective operands).Makes made ↔
      ∃ first rest, MakesList operands (first :: rest) ∧
        made = .joined connective first rest := by
  simp only [Makes, MakesList, build, Build.bind_eq_ok_iff]
  constructor
  · rintro ⟨parts, hparts, hjoin⟩
    cases parts with
    | nil => cases hjoin
    | cons first rest => exact ⟨first, rest, hparts, (Except.ok.inj hjoin).symm⟩
  · rintro ⟨first, rest, hparts, rfl⟩
    exact ⟨first :: rest, hparts, rfl⟩

theorem makesList_nil_iff {parts} : MakesList [] parts ↔ parts = [] := by
  rw [MakesList, buildList, Build.pure_eq_ok_iff]

theorem makesList_cons_iff {draft : Draft} {drafts parts} :
    MakesList (draft :: drafts) parts ↔
      ∃ first rest, draft.Makes first ∧ MakesList drafts rest ∧ parts = first :: rest := by
  simp only [Makes, MakesList, buildList, Build.bind_eq_ok_iff, Build.pure_eq_ok_iff]
  constructor
  · rintro ⟨first, hfirst, rest, hrest, rfl⟩
    exact ⟨first, rest, hfirst, hrest, rfl⟩
  · rintro ⟨first, rest, hfirst, hrest, rfl⟩
    exact ⟨first, hfirst, rest, hrest, rfl⟩

end Draft

end Criteria
