import Criteria.Proofs.Agreement
import Criteria.Proofs.Reachability
import Mathlib.Algebra.Order.Field.Rat

/-! # Equality of values and of bindings

Agreement is computed: decimals crosswise, bindings by their sizes and the lookups of one side.
Here is what it decides. Literals agree when they are of one kind and denote one value, and
bindings agree when a lookup of any name finds nothing on both sides or literals that denote one
value. So the lookups of one side are enough, and the order of the entries plays no part.
-/

namespace Criteria

namespace Decimal

/-- The number that a decimal denotes. -/
def toRat (d : Decimal) : ℚ :=
  (if d.negative then -1 else 1) * (d.mantissa / 10 ^ d.scale)

theorem abs_toRat (d : Decimal) : |d.toRat| = d.mantissa / 10 ^ d.scale := by
  have nonneg : (0 : ℚ) ≤ d.mantissa / 10 ^ d.scale := by positivity
  cases h : d.negative <;> simp [toRat, h, abs_of_nonneg nonneg]

theorem toRat_eq_zero_iff {d : Decimal} : d.toRat = 0 ↔ d.mantissa = 0 := by
  rw [← abs_eq_zero, abs_toRat]
  simp

theorem toRat_neg_iff {d : Decimal} : d.toRat < 0 ↔ d.negative = true ∧ d.mantissa ≠ 0 := by
  have nonneg : (0 : ℚ) ≤ d.mantissa / 10 ^ d.scale := by positivity
  cases h : d.negative <;> simp [toRat, h, nonneg, Nat.pos_iff_ne_zero]

/-- Crosswise products compare the magnitudes. -/
theorem crosswise_iff {a b : Decimal} :
    a.mantissa * 10 ^ b.scale = b.mantissa * 10 ^ a.scale ↔ |a.toRat| = |b.toRat| := by
  rw [abs_toRat, abs_toRat, div_eq_div_iff (by positivity) (by positivity)]
  norm_cast

theorem sameValue_iff_toRat_eq {a b : Decimal} : a.sameValue b = true ↔ a.toRat = b.toRat := by
  rw [sameValue_iff, crosswise_iff]
  constructor
  · rintro ⟨magnitude, sign | zero⟩
    · rw [abs_toRat, abs_toRat] at magnitude
      rw [toRat, toRat, sign, magnitude]
    · have left : a.toRat = 0 := toRat_eq_zero_iff.mpr zero
      rw [left, abs_zero, eq_comm, abs_eq_zero] at magnitude
      rw [left, magnitude]
  · intro same
    refine ⟨congrArg _ same, ?_⟩
    by_cases zero : a.mantissa = 0
    · exact .inr zero
    · have other : b.mantissa ≠ 0 := by rwa [ne_eq, ← toRat_eq_zero_iff, ← same, toRat_eq_zero_iff]
      have sign : a.toRat < 0 ↔ b.toRat < 0 := by rw [same]
      rw [toRat_neg_iff, toRat_neg_iff] at sign
      left
      simpa [zero, other] using sign

end Decimal

namespace Literal

/-- Literals of one kind that denote one value. Lists do so element by element. -/
inductive SameValue : Literal → Literal → Prop where
  | null : SameValue .null .null
  | boolean (value : Bool) : SameValue (.boolean value) (.boolean value)
  | integer (value : Int64) : SameValue (.integer value) (.integer value)
  | decimal {a b : Decimal} : a.toRat = b.toRat → SameValue (.decimal a) (.decimal b)
  | string (value : String) : SameValue (.string value) (.string value)
  | list {vs ws : List Literal} : List.Forall₂ SameValue vs ws → SameValue (.list vs) (.list ws)

mutual
theorem SameValue.of_agrees {v w : Literal} (h : v.agrees w = true) : SameValue v w := by
  cases v with
  | null =>
      cases w with
      | null => exact .null
      | boolean | integer | decimal | string | list => cases h
  | boolean value =>
      cases w with
      | boolean value' =>
          obtain rfl : value = value' := by simpa [agrees] using h
          exact .boolean value
      | null | integer | decimal | string | list => cases h
  | integer value =>
      cases w with
      | integer value' =>
          obtain rfl : value = value' := by simpa [agrees] using h
          exact .integer value
      | null | boolean | decimal | string | list => cases h
  | decimal value =>
      cases w with
      | decimal value' => exact .decimal (Decimal.sameValue_iff_toRat_eq.mp h)
      | null | boolean | integer | string | list => cases h
  | string value =>
      cases w with
      | string value' =>
          obtain rfl : value = value' := by simpa [agrees] using h
          exact .string value
      | null | boolean | integer | decimal | list => cases h
  | list vs =>
      cases w with
      | list ws => exact .list (SameValue.of_agreesList h)
      | null | boolean | integer | decimal | string => cases h
termination_by sizeOf v

theorem SameValue.of_agreesList {vs ws : List Literal} (h : agreesList vs ws = true) :
    List.Forall₂ SameValue vs ws := by
  cases vs with
  | nil =>
      cases ws with
      | nil => exact .nil
      | cons w ws => cases h
  | cons v vs =>
      cases ws with
      | nil => cases h
      | cons w ws =>
          obtain ⟨first, rest⟩ := Bool.and_eq_true_iff.mp h
          exact .cons (SameValue.of_agrees first) (SameValue.of_agreesList rest)
termination_by sizeOf vs
end

mutual
theorem SameValue.agrees {v w : Literal} (h : SameValue v w) : v.agrees w = true := by
  cases h with
  | null => rfl
  | boolean | integer | string => exact agrees_refl _
  | decimal same => exact Decimal.sameValue_iff_toRat_eq.mpr same
  | list all => exact SameValue.agreesList all
termination_by sizeOf v

theorem SameValue.agreesList {vs ws : List Literal} (h : List.Forall₂ SameValue vs ws) :
    Literal.agreesList vs ws = true := by
  cases h with
  | nil => rfl
  | cons first rest =>
      exact Bool.and_eq_true_iff.mpr ⟨SameValue.agrees first, SameValue.agreesList rest⟩
termination_by sizeOf vs
end

theorem agrees_eq_true_iff {v w : Literal} : v.agrees w = true ↔ SameValue v w :=
  ⟨SameValue.of_agrees, SameValue.agrees⟩

end Literal

namespace Bindings

variable {p q r : Bindings}

theorem Indexed.agrees_refl (hp : p.Indexed) : p.agrees p = true := by
  rw [hp.agrees_iff hp]
  intro name
  cases p.get? name with
  | none => exact .none
  | some value => exact .some value.agrees_refl

theorem Indexed.agrees_symm (hp : p.Indexed) (hq : q.Indexed) (h : p.agrees q = true) :
    q.agrees p = true := by
  rw [hp.agrees_iff hq] at h
  rw [hq.agrees_iff hp]
  intro name
  have lookups := h name
  generalize p.get? name = v at lookups
  generalize q.get? name = w at lookups
  cases lookups with
  | none => exact .none
  | some agree => exact .some (Literal.agrees_symm agree)

theorem Indexed.agrees_trans (hp : p.Indexed) (hq : q.Indexed) (hr : r.Indexed)
    (hpq : p.agrees q = true) (hqr : q.agrees r = true) : p.agrees r = true := by
  rw [hp.agrees_iff hq] at hpq
  rw [hq.agrees_iff hr] at hqr
  rw [hp.agrees_iff hr]
  intro name
  have left := hpq name
  have right := hqr name
  generalize p.get? name = u at left
  generalize q.get? name = v at left right
  generalize r.get? name = w at right
  cases left with
  | none => exact right
  | some uv =>
      cases right with
      | some vw => exact .some (Literal.agrees_trans uv vw)

theorem Indexed.agrees_of_perm {p' q' : Bindings} (hp : p.Indexed) (hq : q.Indexed)
    (hp' : p'.Indexed) (hq' : q'.Indexed) (left : p'.toList.Perm p.toList)
    (right : q'.toList.Perm q.toList) : p'.agrees q' = p.agrees q := by
  rw [Bool.eq_iff_iff, hp'.agrees_iff hq', hp.agrees_iff hq]
  simp only [hp'.get?_of_perm hp left, hq'.get?_of_perm hq right]

/-- Bindings agree exactly when every lookup finds nothing on both sides or literals that denote
    one value. That is an equivalence, and it does not see in which order the entries of either
    side were made. -/
theorem Reachable.agrees_extensional (hp : Reachable p) (hq : Reachable q) :
    (p.agrees q = true ↔
      ∀ name, Option.Rel Literal.SameValue (p.get? name) (q.get? name)) ∧
    p.agrees p = true ∧
    (p.agrees q = true → q.agrees p = true) ∧
    (∀ r, Reachable r → p.agrees q = true → q.agrees r = true → p.agrees r = true) ∧
    ∀ p' q', Reachable p' → Reachable q' → p'.toList.Perm p.toList → q'.toList.Perm q.toList →
      p'.agrees q' = p.agrees q := by
  have left := hp.indexed
  have right := hq.indexed
  refine ⟨?_, left.agrees_refl, left.agrees_symm right, ?_, ?_⟩
  · rw [left.agrees_iff right]
    simp only [Literal.agrees_eq_true_iff]
  · intro r hr
    exact left.agrees_trans right hr.indexed
  · intro p' q' hp' hq'
    exact left.agrees_of_perm right hp'.indexed hq'.indexed

/-- Zeros of any sign and scale are one value, and names can be bound in any order. -/
theorem agrees_extensional_of_zeros :
    Reachable (ofList [("x", .decimal (.zero true)), ("y", .list [.null])]).value ∧
    Reachable (ofList [("y", .list [.null]),
      ("x", .decimal ⟨false, 0, 3, by decide, by decide⟩)]).value ∧
    (ofList [("x", .decimal (.zero true)), ("y", .list [.null])]).value.agrees
      (ofList [("y", .list [.null]),
        ("x", .decimal ⟨false, 0, 3, by decide, by decide⟩)]).value = true ∧
    ∀ name, Option.Rel Literal.SameValue
      ((ofList [("x", .decimal (.zero true)), ("y", .list [.null])]).value.get? name)
      ((ofList [("y", .list [.null]),
        ("x", .decimal ⟨false, 0, 3, by decide, by decide⟩)]).value.get? name) := by
  have left : Reachable (ofList [("x", .decimal (.zero true)), ("y", .list [.null])]).value :=
    .ofList _
  have right : Reachable (ofList [("y", .list [.null]),
      ("x", .decimal ⟨false, 0, 3, by decide, by decide⟩)]).value := .ofList _
  have agree : (ofList [("x", .decimal (.zero true)), ("y", .list [.null])]).value.agrees
      (ofList [("y", .list [.null]),
        ("x", .decimal ⟨false, 0, 3, by decide, by decide⟩)]).value = true := by
    cbv
  exact ⟨left, right, agree, (left.agrees_extensional right).1.mp agree⟩

end Bindings

end Criteria
