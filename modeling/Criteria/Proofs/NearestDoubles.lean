import Criteria.Proofs.FloatRange
import Criteria.Proofs.Rounding

/-! # Nearest doubles

The numbers that are rounded to a double lie between it and the middle to one of its neighbours. So
no double is nearer to them, and another one is as near only to the middle, where the even one is
taken.
-/

namespace Criteria.Binary

variable {m shift significand : Nat} {exponent : Int}

/-- Below a double there is no other up to twice the distance at which its interval begins. -/
def lowNeighbour (significand : Nat) : Nat :=
  4 * significand - if significand = 2 ^ 52 then 2 else 4

def highNeighbour (significand : Nat) : Nat :=
  4 * significand + 4

theorem two_zpow_add (exponent : Int) (shift : Nat) :
    (2 : ℚ) ^ (exponent + shift) = 2 ^ shift * 2 ^ exponent := by
  rw [zpow_add₀ (by norm_num), zpow_natCast, mul_comm]

theorem in_quarters (significand : Nat) (exponent : Int) :
    (significand : ℚ) * 2 ^ (exponent + 2) = (4 * significand : Nat) * 2 ^ exponent := by
  have := two_zpow_add exponent 2
  push_cast at this ⊢
  rw [this]
  ring

/-- Between two neighbours there is no double. A finer one is below the power of two, and a coarser
    one is a multiple of the last place. -/
theorem neighbours_of_magnitude {m : Nat} {e : Int} (normal : IsNormal significand (exponent + 2))
    (fits : m < 2 ^ 53) :
    (m : ℚ) * 2 ^ e ≤ lowNeighbour significand * 2 ^ exponent ∨
      (m : ℚ) * 2 ^ e = significand * 2 ^ (exponent + 2) ∨
      highNeighbour significand * 2 ^ exponent ≤ (m : ℚ) * 2 ^ e := by
  have unit : (0 : ℚ) < 2 ^ exponent := by positivity
  rcases lt_or_ge e (exponent + 2) with finer | coarser
  · left
    have most : 2 * m ≤ lowNeighbour significand := by
      have := normal.le_significand
      unfold lowNeighbour
      split <;> omega
    calc (m : ℚ) * 2 ^ e ≤ m * 2 ^ (exponent + (1 : Nat)) := by
          gcongr
          · norm_num
          · omega
      _ = (2 * m : Nat) * 2 ^ exponent := by
          rw [two_zpow_add]
          push_cast
          ring
      _ ≤ lowNeighbour significand * 2 ^ exponent := by gcongr
  · obtain ⟨k, rfl⟩ : ∃ k : Nat, e = exponent + (k + 2 : Nat) :=
      ⟨(e - exponent - 2).toNat, by omega⟩
    have multiple : (m : ℚ) * 2 ^ (exponent + (k + 2 : Nat)) =
        (4 * (m * 2 ^ k) : Nat) * 2 ^ exponent := by
      rw [two_zpow_add]
      push_cast
      ring
    rw [multiple, in_quarters]
    rcases lt_trichotomy (m * 2 ^ k) significand with less | same | greater
    · left
      gcongr
      unfold lowNeighbour
      split <;> omega
    · exact .inr (.inl (by rw [same]))
    · right; right
      gcongr
      unfold highNeighbour
      omega

theorem neighbours (normal : IsNormal significand (exponent + 2)) {y : Binary} (fits : y.FitsDouble)
    {u : ℚ} (hu : y.toRat? = some u) :
    u ≤ lowNeighbour significand * 2 ^ exponent ∨ u = significand * 2 ^ (exponent + 2) ∨
      highNeighbour significand * 2 ^ exponent ≤ u := by
  cases y with
  | nan | infinite => cases hu
  | finite negative m e =>
      obtain rfl := Option.some.inj hu
      cases negative with
      | true =>
          left
          have nonneg : (0 : ℚ) ≤ m * 2 ^ e := by positivity
          have : (0 : ℚ) ≤ lowNeighbour significand * 2 ^ exponent := by positivity
          simp
          linarith
      | false =>
          simpa using neighbours_of_magnitude normal fits.1

/-- Whether the last bit of a double is zero. -/
def IsEven : Binary → Prop
  | .finite _ significand _ => significand % 2 = 0
  | _ => False

/-- No double is nearer to a number. Where another one is as near, this one is even. -/
structure IsNearest (x : Float) (v : ℚ) : Prop where
  finite : ∃ w, (ofFloat x).toRat? = some w
  nearest {w u : ℚ} {y : Float} : (ofFloat x).toRat? = some w → (ofFloat y).toRat? = some u →
    |v - w| ≤ |v - u|
  even {w u : ℚ} {y : Float} : (ofFloat x).toRat? = some w → (ofFloat y).toRat? = some u →
    |v - w| = |v - u| → u ≠ w → (ofFloat x).IsEven

section Distance

variable {v w u low high : ℚ}

theorem nearer_below (hw : low < w) (h : low ≤ v) (hu : u + w ≤ 2 * low) :
    |v - w| ≤ |v - u| ∧ (|v - w| = |v - u| → v = low) := by
  have right : |v - u| = v - u := abs_of_nonneg (by linarith)
  rw [right]
  rcases abs_cases (v - w) with ⟨left, _⟩ | ⟨left, _⟩
  · exact ⟨by linarith, by intro; linarith⟩
  · exact ⟨by linarith, by intro; linarith⟩

theorem nearer_above (hw : w < high) (h : v ≤ high) (hu : 2 * high ≤ u + w) :
    |v - w| ≤ |v - u| ∧ (|v - w| = |v - u| → v = high) := by
  have := nearer_below (neg_lt_neg hw) (neg_le_neg h) (u := -u) (by linarith)
  rwa [← neg_sub', ← neg_sub', abs_neg, abs_neg, neg_inj] at this

end Distance

/-- The interval of a double begins halfway to its lower neighbour. -/
theorem lowNeighbour_add (pos : 0 < significand) :
    lowNeighbour significand + 4 * significand = 2 * lowEnd significand := by
  unfold lowNeighbour lowEnd
  split <;> omega

theorem highNeighbour_add (significand : Nat) :
    highNeighbour significand + 4 * significand = 2 * highEnd significand := by
  unfold highNeighbour highEnd
  omega

/-- To a number in the interval of a double no other is nearer, and as near only at an end. -/
theorem RoundsTo.nearer {v u : ℚ} (h : RoundsTo significand (exponent + 2) v)
    (normal : IsNormal significand (exponent + 2)) {y : Binary} (fits : y.FitsDouble)
    (hu : y.toRat? = some u) (other : u ≠ significand * 2 ^ (exponent + 2)) :
    |v - significand * 2 ^ (exponent + 2)| ≤ |v - u| ∧
      (|v - significand * 2 ^ (exponent + 2)| = |v - u| → significand % 2 = 0) := by
  have unit : (0 : ℚ) < 2 ^ exponent := by positivity
  have less {a b : Nat} (h : a < b) : (a : ℚ) * 2 ^ exponent < b * 2 ^ exponent := by gcongr
  have middle {a b c : Nat} (h : a + b = 2 * c) :
      (a : ℚ) * 2 ^ exponent + b * 2 ^ exponent = 2 * (c * 2 ^ exponent) := by
    rw [← add_mul, ← mul_assoc]
    exact_mod_cast congrArg (fun n : Nat => (n : ℚ) * 2 ^ exponent) h
  have even (h : ¬ significand % 2 = 1) : significand % 2 = 0 := by omega
  have apart := neighbours normal fits hu
  obtain ⟨low, high, odd⟩ := h
  rw [add_sub_cancel_right] at low high odd
  rw [in_quarters] at apart other ⊢
  rcases apart with below | same | above
  · have := middle (lowNeighbour_add normal.pos)
    obtain ⟨near, equal⟩ := nearer_below (u := u) (less (lowEnd_lt normal.pos)) low (by linarith)
    exact ⟨near, fun same => even fun last => (odd last).1.ne' (equal same)⟩
  · exact absurd same other
  · have := middle (highNeighbour_add significand)
    obtain ⟨near, equal⟩ := nearer_above (u := u) (less (lt_highEnd _)) high (by linarith)
    exact ⟨near, fun same => even fun last => (odd last).2.ne (equal same)⟩

theorem RoundsTo.isNearest {v : ℚ} {x : Float} (h : RoundsTo significand exponent v)
    (normal : IsNormal significand exponent) (hx : ofFloat x = .finite false significand exponent) :
    IsNearest x v := by
  obtain ⟨exponent, rfl⟩ : ∃ p, exponent = p + 2 := ⟨exponent - 2, by omega⟩
  have value : (ofFloat x).toRat? = some ((significand : ℚ) * 2 ^ (exponent + 2)) := by
    simp [hx, toRat?]
  refine ⟨⟨_, value⟩, fun {w u y} hw hu => ?_, fun {w u y} hw hu same other => ?_⟩
  · obtain rfl := Option.some.inj (value.symm.trans hw)
    by_cases other : u = significand * 2 ^ (exponent + 2)
    · rw [other]
    · exact (h.nearer normal (fitsDouble_ofFloat y) hu other).1
  · obtain rfl := Option.some.inj (value.symm.trans hw)
    rw [hx]
    exact (h.nearer normal (fitsDouble_ofFloat y) hu other).2 same

theorem roundsTo_whole_iff {n : Nat} :
    RoundsTo significand (shift + 2 : Nat) n ↔
      lowEnd significand * 2 ^ shift ≤ n ∧ n ≤ highEnd significand * 2 ^ shift ∧
        (significand % 2 = 1 →
          lowEnd significand * 2 ^ shift < n ∧ n < highEnd significand * 2 ^ shift) := by
  rw [← @roundsTo_scaled_iff n shift significand 0, zero_add, zpow_zero, mul_one]

/-- Every whole number with more bits than a significand is in the interval of some double. -/
theorem exists_roundsTo {n : Nat} (low : 2 ^ 54 * 2 ^ shift ≤ n) (high : n < 2 ^ 55 * 2 ^ shift) :
    ∃ (significand more : Nat), shift + 2 ≤ more ∧ more ≤ shift + 3 ∧ 2 ^ 52 ≤ significand ∧
      significand < 2 ^ 53 ∧ RoundsTo significand more n := by
  have parts := Nat.div_add_mod' n (4 * 2 ^ shift)
  have hrest := Nat.mod_lt n (show 0 < 4 * 2 ^ shift by positivity)
  have filled : 2 ^ 52 ≤ n / (4 * 2 ^ shift) := by
    rw [Nat.le_div_iff_mul_le (by positivity)]
    omega
  have small : n / (4 * 2 ^ shift) < 2 ^ 53 := by
    rw [Nat.div_lt_iff_lt_mul (by positivity)]
    omega
  generalize n / (4 * 2 ^ shift) = whole at *
  generalize n % (4 * 2 ^ shift) = rest at *
  by_cases down : rest < 2 * 2 ^ shift ∨ rest = 2 * 2 ^ shift ∧ whole % 2 = 0
  · refine ⟨whole, shift + 2, by omega, by omega, filled, small, roundsTo_whole_iff.mpr ?_⟩
    have below : lowEnd whole * 2 ^ shift < 4 * whole * 2 ^ shift := by
      gcongr
      exact lowEnd_lt (by omega)
    unfold highEnd
    grind
  · have up : (4 * whole + 2) * 2 ^ shift ≤ n ∧
        (whole % 2 = 0 → (4 * whole + 2) * 2 ^ shift < n) := by
      grind
    have close : n < 4 * (whole + 1) * 2 ^ shift := by grind
    -- Rounded up, the largest significand becomes the least one of the next exponent.
    rcases Nat.lt_or_ge (whole + 1) (2 ^ 53) with fits | carried
    · refine ⟨whole + 1, shift + 2, by omega, by omega, by omega, fits,
        roundsTo_whole_iff.mpr ?_⟩
      have : lowEnd (whole + 1) = 4 * whole + 2 := by
        unfold lowEnd
        split <;> omega
      rw [this]
      unfold highEnd
      grind
    · obtain rfl : whole = 2 ^ 53 - 1 := by omega
      refine ⟨2 ^ 52, (shift + 1) + 2, by omega, by omega, by omega, by omega,
        roundsTo_whole_iff.mpr ?_⟩
      unfold lowEnd highEnd
      grind

/-- The doubles among the numbers from `2 ^ 63` to `2 ^ 64` are the multiples of `2 ^ 11`. -/
theorem exists_double_iff {n : Nat} (low : 2 ^ 63 ≤ n) (high : n < 2 ^ 64) :
    (∃ x : Float, (ofFloat x).toRat? = some (n : ℚ)) ↔ 2 ^ 11 ∣ n := by
  constructor
  · rintro ⟨x, hx⟩
    have fits := fitsDouble_ofFloat x
    cases number : ofFloat x with
    | nan | infinite => simp [number, Binary.toRat?] at hx
    | finite negative m e =>
        rw [number] at hx fits
        have value := abs_of_toRat?_eq_some hx
        rw [Nat.abs_cast] at value
        have coarse : 10 < e := by
          have low : (2 : ℚ) ^ 63 ≤ n := by exact_mod_cast low
          have small : (m : ℚ) < 2 ^ 53 := by exact_mod_cast fits.1
          have powers : (2 : ℚ) ^ (53 + 10 : Int) < 2 ^ (53 + e) := by
            calc (2 : ℚ) ^ (53 + 10 : Int) = 2 ^ 63 := by norm_num
              _ ≤ m * 2 ^ e := by rwa [← value]
              _ < 2 ^ 53 * 2 ^ e := by gcongr
              _ = 2 ^ (53 + e) := by rw [zpow_add₀ (by norm_num)]; rfl
          have := (zpow_lt_zpow_iff_right₀ (by norm_num)).mp powers
          omega
        obtain ⟨k, rfl⟩ : ∃ k : Nat, e = (k + 11 : Nat) := ⟨(e - 11).toNat, by omega⟩
        rw [zpow_natCast] at value
        have whole : n = m * 2 ^ (k + 11) := by exact_mod_cast value
        exact ⟨m * 2 ^ k, by rw [whole, pow_add]; ring⟩
  · rintro ⟨k, rfl⟩
    have normal : IsNormal k 11 := ⟨by omega, by omega, by omega, by omega⟩
    refine ⟨packed normal, ?_⟩
    rw [ofFloat_packed]
    norm_num [Binary.toRat?, mul_comm]

theorem IsNearest.toRat?_eq_iff {n : Nat} (low : 2 ^ 63 ≤ n) (high : n < 2 ^ 64) {x : Float}
    (h : IsNearest x n) : (ofFloat x).toRat? = some (n : ℚ) ↔ 2 ^ 11 ∣ n := by
  rw [← exists_double_iff low high]
  refine ⟨fun hx => ⟨x, hx⟩, fun ⟨y, hy⟩ => ?_⟩
  obtain ⟨w, hw⟩ := h.finite
  have := h.nearest hw hy
  rw [sub_self, abs_zero, abs_nonpos_iff, sub_eq_zero] at this
  rw [hw, this]

end Criteria.Binary
