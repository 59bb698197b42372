import Criteria.Proofs.Insertion
import Mathlib.Data.List.Perm.Subperm
import Mathlib.Tactic.Positivity
import Mathlib.Tactic.Ring

/-! # Agreement

Decimals agree by value and all other literals by form, lists element by element. This is an
equivalence. For decimals that needs an argument, since values of different scale are compared
crosswise and zeros agree whatever their signs. Bindings agree when every name has values that
agree, although only their sizes and the lookups of one side are compared.
-/

namespace Criteria

namespace Decimal

theorem sameValue_iff {a b : Decimal} :
    a.sameValue b = true ↔ a.mantissa * 10 ^ b.scale = b.mantissa * 10 ^ a.scale ∧
      (a.negative = b.negative ∨ a.mantissa = 0) := by
  simp only [sameValue, Bool.and_eq_true, Bool.or_eq_true, beq_iff_eq]

theorem sameValue_refl (d : Decimal) : d.sameValue d = true :=
  sameValue_iff.mpr ⟨rfl, .inl rfl⟩

/-- Of two decimals of one value both are zero or none is. -/
theorem mantissa_eq_zero_of_sameValue {a b : Decimal} (h : a.sameValue b = true) :
    a.mantissa = 0 ↔ b.mantissa = 0 := by
  obtain ⟨crosswise, -⟩ := sameValue_iff.mp h
  have power (n : Nat) : 10 ^ n ≠ 0 := by positivity
  constructor
  · intro zero
    rw [zero, Nat.zero_mul] at crosswise
    exact (Nat.mul_eq_zero.mp crosswise.symm).resolve_right (power _)
  · intro zero
    rw [zero, Nat.zero_mul] at crosswise
    exact (Nat.mul_eq_zero.mp crosswise).resolve_right (power _)

theorem sameValue_symm {a b : Decimal} (h : a.sameValue b = true) : b.sameValue a = true := by
  have zero := mantissa_eq_zero_of_sameValue h
  obtain ⟨crosswise, sign⟩ := sameValue_iff.mp h
  exact sameValue_iff.mpr ⟨crosswise.symm, sign.imp Eq.symm zero.mp⟩

theorem sameValue_trans {a b c : Decimal} (hab : a.sameValue b = true)
    (hbc : b.sameValue c = true) : a.sameValue c = true := by
  have zero := mantissa_eq_zero_of_sameValue hab
  obtain ⟨crossab, signab⟩ := sameValue_iff.mp hab
  obtain ⟨crossbc, signbc⟩ := sameValue_iff.mp hbc
  refine sameValue_iff.mpr ⟨?_, ?_⟩
  · apply Nat.eq_of_mul_eq_mul_right (show 0 < 10 ^ b.scale by positivity)
    calc a.mantissa * 10 ^ c.scale * 10 ^ b.scale
        = a.mantissa * 10 ^ b.scale * 10 ^ c.scale := by ring
      _ = b.mantissa * 10 ^ c.scale * 10 ^ a.scale := by rw [crossab]; ring
      _ = c.mantissa * 10 ^ a.scale * 10 ^ b.scale := by rw [crossbc]; ring
  · rcases signab with signab | azero
    · exact signbc.imp signab.trans zero.mpr
    · exact .inr azero

end Decimal

namespace Literal

mutual
theorem agrees_refl (v : Literal) : v.agrees v = true := by
  cases v with
  | null => rfl
  | boolean value | integer value | string value => simp [agrees]
  | decimal value => exact value.sameValue_refl
  | list values => exact agreesList_refl values
termination_by sizeOf v

theorem agreesList_refl (vs : List Literal) : agreesList vs vs = true := by
  cases vs with
  | nil => rfl
  | cons v rest => rw [agreesList, agrees_refl v, agreesList_refl rest, Bool.and_self]
termination_by sizeOf vs
end

mutual
theorem agrees_symm {v w : Literal} (h : v.agrees w = true) : w.agrees v = true := by
  cases v with
  | null => cases w <;> simp_all [agrees]
  | boolean value | integer value | string value => cases w <;> simp_all [agrees]
  | decimal value =>
      cases w with
      | decimal value' => exact Decimal.sameValue_symm h
      | null | boolean | integer | string | list => cases h
  | list values =>
      cases w with
      | list values' => exact agreesList_symm h
      | null | boolean | integer | decimal | string => cases h
termination_by sizeOf v

theorem agreesList_symm {vs ws : List Literal} (h : agreesList vs ws = true) :
    agreesList ws vs = true := by
  cases vs with
  | nil =>
      cases ws with
      | nil => rfl
      | cons w ws => cases h
  | cons v vs =>
      cases ws with
      | nil => cases h
      | cons w ws =>
          obtain ⟨first, rest⟩ := Bool.and_eq_true_iff.mp h
          exact Bool.and_eq_true_iff.mpr ⟨agrees_symm first, agreesList_symm rest⟩
termination_by sizeOf vs
end

mutual
theorem agrees_trans {u v w : Literal} (huv : u.agrees v = true) (hvw : v.agrees w = true) :
    u.agrees w = true := by
  cases u with
  | null =>
      cases v with
      | null => exact hvw
      | boolean | integer | decimal | string | list => cases huv
  | boolean value | integer value | string value => cases v <;> cases w <;> simp_all [agrees]
  | decimal value =>
      cases v with
      | decimal value' =>
          cases w with
          | decimal value'' => exact Decimal.sameValue_trans huv hvw
          | null | boolean | integer | string | list => cases hvw
      | null | boolean | integer | string | list => cases huv
  | list values =>
      cases v with
      | list values' =>
          cases w with
          | list values'' => exact agreesList_trans huv hvw
          | null | boolean | integer | decimal | string => cases hvw
      | null | boolean | integer | decimal | string => cases huv
termination_by sizeOf u

theorem agreesList_trans {us vs ws : List Literal} (huv : agreesList us vs = true)
    (hvw : agreesList vs ws = true) : agreesList us ws = true := by
  cases us with
  | nil =>
      cases vs with
      | nil => exact hvw
      | cons v vs => cases huv
  | cons u us =>
      cases vs with
      | nil => cases huv
      | cons v vs =>
          cases ws with
          | nil => cases hvw
          | cons w ws =>
              obtain ⟨firstuv, restuv⟩ := Bool.and_eq_true_iff.mp huv
              obtain ⟨firstvw, restvw⟩ := Bool.and_eq_true_iff.mp hvw
              exact Bool.and_eq_true_iff.mpr
                ⟨agrees_trans firstuv firstvw, agreesList_trans restuv restvw⟩
termination_by sizeOf us
end

end Literal

namespace Bindings

theorem agrees_eq_true_iff {p q : Bindings} :
    p.agrees q = true ↔ p.size = q.size ∧
      ∀ entry ∈ p.toList, ∃ found, q.get? entry.1 = some found ∧ found.agrees entry.2 = true := by
  rw [agrees, Bool.and_eq_true_iff, beq_iff_eq, List.all_eq_true]
  refine and_congr_right fun _ => forall₂_congr fun entry _ => ?_
  cases hfound : q.get? entry.1 <;> simp [hfound]

/-- Distinct names that are all among as many others are the same names. -/
theorem Indexed.names_perm {p q : Bindings} (hp : p.Indexed) (size : p.size = q.size)
    (among : ∀ name ∈ p.names, name ∈ q.names) : p.names.Perm q.names := by
  apply (hp.nodup.subperm among).perm_of_length_le
  rw [← size_eq_length_names, ← size_eq_length_names, size]

/-- Where all lookups correspond, the same names are bound. -/
theorem Indexed.mem_names_iff_of_rel {p q : Bindings} (hp : p.Indexed) (hq : q.Indexed)
    {related : Literal → Literal → Prop}
    (h : ∀ name, Option.Rel related (p.get? name) (q.get? name)) (name : String) :
    name ∈ p.names ↔ name ∈ q.names := by
  rw [← not_iff_not, ← hp.get?_eq_none_iff, ← hq.get?_eq_none_iff]
  have lookups := h name
  generalize p.get? name = v at lookups
  generalize q.get? name = w at lookups
  cases lookups <;> simp

/-- What is compared decides about every name, of whichever side. -/
theorem Indexed.agrees_iff {p q : Bindings} (hp : p.Indexed) (hq : q.Indexed) :
    p.agrees q = true ↔
      ∀ name, Option.Rel (fun v w => v.agrees w = true) (p.get? name) (q.get? name) := by
  rw [agrees_eq_true_iff]
  constructor
  · rintro ⟨size, lookup⟩ name
    have among : ∀ name ∈ p.names, name ∈ q.names := by
      intro name there
      obtain ⟨entry, hentry, rfl⟩ := List.mem_map.mp there
      obtain ⟨found, hfound, -⟩ := lookup entry hentry
      exact List.mem_map.mpr ⟨(entry.1, found), hq.get?_eq_some_iff.mp hfound, rfl⟩
    cases hv : p.get? name with
    | some v =>
        obtain ⟨found, hfound, agree⟩ := lookup (name, v) (hp.get?_eq_some_iff.mp hv)
        rw [hfound]
        exact .some (Literal.agrees_symm agree)
    | none =>
        have absent := hp.get?_eq_none_iff.mp hv
        rw [(hp.names_perm size among).mem_iff] at absent
        rw [hq.get?_eq_none_iff.mpr absent]
        exact .none
  · intro rel
    have same := (List.perm_ext_iff_of_nodup hp.nodup hq.nodup).mpr (hp.mem_names_iff_of_rel hq rel)
    refine ⟨by rw [size_eq_length_names, size_eq_length_names, same.length_eq], ?_⟩
    rintro ⟨name, v⟩ hentry
    have lookups := rel name
    rw [hp.get?_eq_some_iff.mpr hentry] at lookups
    generalize q.get? name = w at lookups
    cases lookups with
    | some agree => exact ⟨_, rfl, Literal.agrees_symm agree⟩

end Bindings

end Criteria
