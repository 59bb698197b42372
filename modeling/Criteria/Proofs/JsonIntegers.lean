import Criteria.Literal.Json
import Criteria.Proofs.FloatReading
import Criteria.Proofs.JsonConversion
import Criteria.Proofs.NearestDoubles

/-! # Whole numbers through JSON and back

A literal keeps every whole number of a JSON value. Its JSON text keeps those of the signed range,
while a greater one has become a decimal there and is written as the nearest double. So a value is
found again exactly when its great numbers are doubles.
-/

namespace Criteria

namespace Json

open Binary

/-- There is no object anywhere, and every number is a whole one. -/
def IsIntegral (value : Json) : Prop :=
  (∀ members, ¬ (object members).Within value) ∧ ∀ x, ¬ (float x).Within value

/-- The number that a JSON number denotes. -/
def toRat? : Json → Option ℚ
  | .integer n => some n.toInt
  | .natural n => some n.toNat
  | .float x => (ofFloat x).toRat?
  | _ => none

/-- Two values denote the same: they have one shape, and their numbers are equal as numbers. -/
inductive DenotesSame : Json → Json → Prop where
  | null : DenotesSame .null .null
  | boolean (b : Bool) : DenotesSame (.boolean b) (.boolean b)
  | string (s : String) : DenotesSame (.string s) (.string s)
  | number {a b : Json} {v : ℚ} : a.toRat? = some v → b.toRat? = some v → DenotesSame a b
  | array {values others : List Json} :
      List.Forall₂ DenotesSame values others → DenotesSame (.array values) (.array others)

/-- What comes back of a value. A number of the signed range stays as it is, and of a greater one
    the nearest double comes back. -/
inductive Returns : Json → Json → Prop where
  | null : Returns .null .null
  | boolean (b : Bool) : Returns (.boolean b) (.boolean b)
  | string (s : String) : Returns (.string s) (.string s)
  | integer (n : Int64) : Returns (.integer n) (.integer n)
  | small {n : UInt64} {m : Int64} : n.toNat < 2 ^ 63 → m.toInt = n.toNat →
      Returns (.natural n) (.integer m)
  | great {n : UInt64} {x : Float} : 2 ^ 63 ≤ n.toNat → IsNearest x n.toNat →
      Returns (.natural n) (.float x)
  | array {values others : List Json} :
      List.Forall₂ Returns values others → Returns (.array values) (.array others)

/-- The double of a great number is the nearest one, and its text is read back. -/
theorem great_toFloat {n : UInt64} (low : 2 ^ 63 ≤ n.toNat) :
    IsReadable (Decimal.ofUInt64 n).toFloat ∧ IsNearest (Decimal.ofUInt64 n).toFloat n.toNat := by
  have high := n.toNat_lt
  -- Eleven bits are dropped, and a twelfth when rounding carries.
  obtain ⟨significand, shift, least, most, filled, small, rounds⟩ :=
    @exists_roundsTo 9 n.toNat (by omega) (by omega)
  have normal : IsNormal significand shift := ⟨filled, small, by omega, by omega⟩
  have large : 10 ^ 17 ≤ significand * 2 ^ shift := by
    calc 10 ^ 17 ≤ 2 ^ 52 * 2 ^ 11 := by norm_num
      _ ≤ significand * 2 ^ shift := by
        gcongr
        norm_num
  have double : (Decimal.ofUInt64 n).toFloat = packed normal := by
    have unplaced : (Decimal.ofUInt64 n).toFloat = Float.ofScientific n.toNat false 0 := rfl
    rw [unplaced]
    exact ofScientific_eq (by omega) (by omega) normal (by omega) (by simpa using rounds)
  rw [double]
  exact ⟨isReadable normal large (ofFloat_packed normal),
    rounds.isNearest normal (ofFloat_packed normal)⟩

theorem IsIntegral.element {values : List Json} (h : (array values).IsIntegral) :
    ∀ value ∈ values, value.IsIntegral :=
  fun _ hvalue => ⟨fun members within => h.1 members (.element hvalue within),
    fun x within => h.2 x (.element hvalue within)⟩

mutual
theorem Mirrors.returns {value : Json} {l : Literal} (h : Mirrors value l)
    (integral : value.IsIntegral) : l.toJson.IsExact ∧ Returns value l.toJson := by
  cases h with
  | null => exact ⟨trivial, .null⟩
  | boolean b => exact ⟨trivial, .boolean b⟩
  | integer n => exact ⟨trivial, .integer n⟩
  | string s => exact ⟨trivial, .string s⟩
  | natural n =>
      change (Literal.ofUInt64 n).toJson.IsExact ∧ Returns (.natural n) (Literal.ofUInt64 n).toJson
      rw [Literal.ofUInt64]
      split
      · exact ⟨trivial, .small ‹_› (Int64.toInt_ofNat_of_lt ‹_›)⟩
      · obtain ⟨readable, nearest⟩ := great_toFloat (n := n) (by omega)
        exact ⟨readable, .great (by omega) nearest⟩
  | float => exact absurd (.self _) (integral.2 _)
  | array all =>
      obtain ⟨exact, returns⟩ := Mirrors.returns_list all integral.element
      exact ⟨exact, .array returns⟩
termination_by sizeOf value

theorem Mirrors.returns_list {values : List Json} {ls : List Literal}
    (h : List.Forall₂ Mirrors values ls) (integral : ∀ value ∈ values, value.IsIntegral) :
    IsExactList (Literal.toJsonList ls) ∧ List.Forall₂ Returns values (Literal.toJsonList ls) := by
  cases h with
  | nil => exact ⟨trivial, .nil⟩
  | cons first rest =>
      obtain ⟨here, others⟩ := List.forall_mem_cons.mp integral
      obtain ⟨exact, returns⟩ := Mirrors.returns first here
      obtain ⟨exactRest, returnsRest⟩ := Mirrors.returns_list rest others
      exact ⟨⟨exact, exactRest⟩, .cons returns returnsRest⟩
termination_by sizeOf values
end

/-- Every great number in a value is a double. -/
def GreatAreDoubles (value : Json) : Prop :=
  ∀ n : UInt64, (natural n).Within value → 2 ^ 63 ≤ n.toNat → 2 ^ 11 ∣ n.toNat

theorem denotesSame_array_iff {values others : List Json} :
    DenotesSame (.array values) (.array others) ↔ List.Forall₂ DenotesSame values others := by
  constructor
  · rintro (_ | _ | _ | ⟨h, -⟩ | all)
    · cases h
    · exact all
  · exact .array

theorem greatAreDoubles_array_iff {values : List Json} :
    (array values).GreatAreDoubles ↔ ∀ value ∈ values, value.GreatAreDoubles := by
  constructor
  · intro h value hvalue n within
    exact h n (.element hvalue within)
  · rintro h n (_ | ⟨hvalue, within⟩)
    exact h _ hvalue n within

mutual
theorem Returns.denotesSame_iff {value back : Json} (h : Returns value back) :
    DenotesSame value back ↔ value.GreatAreDoubles := by
  cases h with
  | null => exact ⟨fun _ => nofun, fun _ => .null⟩
  | boolean b => exact ⟨fun _ => nofun, fun _ => .boolean b⟩
  | string s => exact ⟨fun _ => nofun, fun _ => .string s⟩
  | integer n => exact ⟨fun _ => nofun, fun _ => .number rfl rfl⟩
  | @small n m small same =>
      constructor
      · rintro - _ (_ | _) low
        omega
      · intro
        exact .number rfl (by simp [toRat?, same])
  | @great n x low nearest =>
      have double := nearest.toRat?_eq_iff low n.toNat_lt
      constructor
      · rintro (_ | _ | _ | ⟨denoted, returned⟩ | _) _ (_ | _) -
        rw [← denoted] at returned
        exact double.mp returned
      · intro doubles
        exact .number rfl (double.mpr (doubles n (.self _) low))
  | array all =>
      rw [denotesSame_array_iff, greatAreDoubles_array_iff, Returns.denotesSame_list_iff all]
termination_by sizeOf value

theorem Returns.denotesSame_list_iff {values others : List Json}
    (h : List.Forall₂ Returns values others) :
    List.Forall₂ DenotesSame values others ↔ ∀ value ∈ values, value.GreatAreDoubles := by
  cases h with
  | nil => simp
  | cons first rest =>
      rw [List.forall₂_cons, List.forall_mem_cons, Returns.denotesSame_iff first,
        Returns.denotesSame_list_iff rest]
termination_by sizeOf values
end

/-- A value of whole numbers has a literal, and the JSON of the literal is the value with the
    nearest doubles in the place of its great numbers. The reader rounds to the nearest double, so
    it reads just that from the text, where one that rounds otherwise may find a neighbour. So the
    value comes back as the same exactly when its great numbers are doubles. -/
theorem whole_values_return (value : Json) (integral : value.IsIntegral) :
    ∃ l, Literal.ofJson value = .ok l ∧ Returns value l.toJson ∧
      parse? l.toJson.text = some l.toJson ∧
      (DenotesSame value l.toJson ↔
        ∀ n : UInt64, (natural n).Within value → 2 ^ 63 ≤ n.toNat → 2 ^ 11 ∣ n.toNat) := by
  obtain ⟨l, converted⟩ := exists_ofJson_eq_ok_iff.mpr
    ⟨integral.1, fun x within => absurd within (integral.2 x)⟩
  obtain ⟨exact, returns⟩ := (ofJson_eq_ok_iff.mp converted).returns integral
  exact ⟨l, converted, returns, parse?_text exact, returns.denotesSame_iff⟩

/-- A number that is a double comes back, whatever stands around it. -/
theorem whole_values_return_of_power :
    IsIntegral (.array [.natural 9223372036854775808, .array [.integer (-1), .null]]) ∧
    ∃ l, Literal.ofJson
        (.array [.natural 9223372036854775808, .array [.integer (-1), .null]]) = .ok l ∧
      parse? l.toJson.text = some l.toJson ∧
      DenotesSame (.array [.natural 9223372036854775808, .array [.integer (-1), .null]])
        l.toJson := by
  have parts : parts (.array [.natural 9223372036854775808, .array [.integer (-1), .null]]) =
      [.natural 9223372036854775808, .integer (-1), .null] := rfl
  have integral :
      IsIntegral (.array [.natural 9223372036854775808, .array [.integer (-1), .null]]) := by
    constructor
    · intro members within
      simpa [parts] using within.mem_parts nofun
    · intro x within
      simpa [parts] using within.mem_parts nofun
  refine ⟨integral, ?_⟩
  obtain ⟨l, converted, -, read, same⟩ := whole_values_return _ integral
  refine ⟨l, converted, read, same.mpr fun n within _ => ?_⟩
  have : n = 9223372036854775808 := by simpa [parts] using within.mem_parts nofun
  subst this
  decide

/-- The number after `2 ^ 63` is not what is written, so it does not come back. -/
theorem exists_whole_not_returned :
    IsIntegral (.natural 9223372036854775809) ∧
    (¬ ∃ l, Literal.ofJson (.natural 9223372036854775809) = .ok l ∧
      DenotesSame (.natural 9223372036854775809) l.toJson) ∧
    ¬ ∃ l back, Literal.ofJson (.natural 9223372036854775809) = .ok l ∧
      parse? l.toJson.text = some back ∧ DenotesSame (.natural 9223372036854775809) back := by
  have integral : IsIntegral (.natural 9223372036854775809) :=
    ⟨fun _ => nofun, fun _ => nofun⟩
  have other : ¬ ∃ l, Literal.ofJson (.natural 9223372036854775809) = .ok l ∧
      DenotesSame (.natural 9223372036854775809) l.toJson := by
    rintro ⟨l, converted, same⟩
    obtain ⟨-, returns⟩ := (ofJson_eq_ok_iff.mp converted).returns integral
    have odd := returns.denotesSame_iff.mp same _ (.self _) (by decide)
    revert odd
    decide
  refine ⟨integral, other, ?_⟩
  rintro ⟨l, back, converted, read, same⟩
  obtain ⟨exact, -⟩ := (ofJson_eq_ok_iff.mp converted).returns integral
  obtain rfl := Option.some.inj ((parse?_text exact).symm.trans read)
  exact other ⟨l, converted, same⟩

end Json

end Criteria
