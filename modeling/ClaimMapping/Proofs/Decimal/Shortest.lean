import ClaimMapping.Decimal.Shortest
import Mathlib

namespace ClaimMapping.Decimal

theorem pow_toNat {a : ℚ} (ha : a ≠ 0) (k : Int) : a ^ k.toNat = a ^ k * a ^ (-k).toNat := by
  rw [← zpow_natCast, ← zpow_natCast, ← zpow_add₀ ha]
  congr 1
  omega

theorem rightScale_pos (k e : Int) : 0 < rightScale k e :=
  Nat.mul_pos (Nat.pow_pos (by decide)) (Nat.pow_pos (by decide))

theorem leftScale_pos (k e : Int) : 0 < leftScale k e :=
  Nat.mul_pos (Nat.pow_pos (by decide)) (Nat.pow_pos (by decide))

theorem leftScale_mul (k e : Int) : (leftScale k e : ℚ) * 2 ^ e = 10 ^ k * rightScale k e := by
  have hten : (10 : ℚ) ^ k.toNat = 10 ^ k * 10 ^ (-k).toNat := pow_toNat (by norm_num) k
  have htwo : (2 : ℚ) ^ e.toNat = 2 ^ e * 2 ^ (-e).toNat := pow_toNat two_ne_zero e
  rw [leftScale, rightScale]
  push_cast [Nat.pow_eq]
  rw [hten, htwo]
  ring

/-- What is compared in whole numbers is compared as decimals and binary numbers. -/
theorem scaled_le_iff {d n : Nat} {k e : Int} :
    d * leftScale k e ≤ n * rightScale k e ↔ (d : ℚ) * 10 ^ k ≤ n * 2 ^ e := by
  have hright : (0 : ℚ) < rightScale k e := by exact_mod_cast rightScale_pos k e
  have htwo : (0 : ℚ) < 2 ^ e := by positivity
  have hd : (d : ℚ) * 10 ^ k * rightScale k e = d * leftScale k e * 2 ^ e := by
    rw [mul_assoc, ← leftScale_mul, mul_assoc]
  have hn : (n : ℚ) * 2 ^ e * rightScale k e = n * rightScale k e * 2 ^ e := mul_right_comm _ _ _
  rw [← mul_le_mul_iff_left₀ hright, hd, hn, mul_le_mul_iff_left₀ htwo]
  exact_mod_cast Iff.rfl

/-- The number that digits stand for. -/
def Digits.value (d : Digits) : ℚ := d.digits * 10 ^ d.exponent

theorem Digits.value_strip (fuel : Nat) (d : Digits) : (d.strip fuel).value = d.value := by
  induction fuel generalizing d with
  | zero => rfl
  | succ fuel ih =>
    rw [Digits.strip]
    split_ifs with h
    · obtain ⟨-, hzero⟩ := h
      have hdigits : (d.digits : ℚ) = 10 * (d.digits / 10 : Nat) := by
        exact_mod_cast (Nat.mul_div_cancel' (Nat.dvd_of_mod_eq_zero hzero)).symm
      have hexponent : (10 : ℚ) ^ (d.exponent + 1) = 10 ^ d.exponent * 10 :=
        zpow_add_one₀ (by norm_num) d.exponent
      rw [ih, Digits.value, Digits.value, hdigits, hexponent]
      ring
    · rfl

namespace Interval

theorem le_of_holds {i : Interval} {k : Int} {d : Nat} (h : i.holds k d = true) :
    d * leftScale k i.exponent ≤ i.high * rightScale k i.exponent := by
  rw [holds] at h
  split_ifs at h
  · rw [Bool.and_eq_true, decide_eq_true_eq, decide_eq_true_eq] at h
    exact h.2
  · rw [Bool.and_eq_true, decide_eq_true_eq, decide_eq_true_eq] at h
    exact h.2.le

theorem holds_of_onGrid? {i : Interval} {k : Int} {d : Nat} (h : i.onGrid? k = some d) :
    i.holds k d = true := by
  rw [onGrid?] at h
  split at h
  next => cases h
  next hbelow _ =>
    cases h
    exact hbelow
  next _ habove =>
    cases h
    exact habove
  next hbelow habove =>
    dsimp only at h
    split_ifs at h
    all_goals
      cases h
      assumption

/-- Whichever grid is taken, the decimal on it does not exceed the interval. -/
theorem value_firstOnGrid_le (i : Interval) (hi : i.value ≤ i.high) (fuel : Nat) (k : Int) :
    (i.firstOnGrid fuel k).value ≤ i.high * 2 ^ i.exponent := by
  induction fuel generalizing k with
  | zero =>
    refine scaled_le_iff.mp ?_
    calc _ ≤ i.value * rightScale k i.exponent := Nat.div_mul_le_self _ _
      _ ≤ i.high * rightScale k i.exponent := Nat.mul_le_mul_right _ hi
  | succ fuel ih =>
    rw [firstOnGrid]
    split
    next d hd => exact scaled_le_iff.mp (le_of_holds (holds_of_onGrid? hd))
    next => exact ih (k - 1)

end Interval

/-- The shortest decimal exceeds the number by at most half of its last place. -/
theorem value_shortest_le (b : Binary) :
    b.shortest.value ≤ (4 * b.significand + 2 : Nat) * 2 ^ (b.exponent - 2) := by
  rw [Binary.shortest]
  split_ifs
  · have hzero : (⟨0, 0⟩ : Digits).value = 0 := by simp [Digits.value]
    rw [hzero]
    positivity
  · rw [Digits.value_strip]
    have hvalue : b.interval.value ≤ b.interval.high := Nat.le_add_right _ 2
    exact b.interval.value_firstOnGrid_le hvalue 17 b.magnitude

namespace Interval

theorem low_le_of_holds {i : Interval} {k : Int} {d : Nat} (h : i.holds k d = true) :
    i.low * rightScale k i.exponent ≤ d * leftScale k i.exponent := by
  rw [holds] at h
  split_ifs at h
  · rw [Bool.and_eq_true, decide_eq_true_eq, decide_eq_true_eq] at h
    exact h.1
  · rw [Bool.and_eq_true, decide_eq_true_eq, decide_eq_true_eq] at h
    exact h.1.le

/-- Zero comes from the finest grid, when the number lies below it. -/
theorem of_firstOnGrid_eq_zero {i : Interval} (hi : 0 < i.low) {fuel : Nat} {k : Int}
    (h : (i.firstOnGrid fuel k).digits = 0) :
    (i.firstOnGrid fuel k).exponent = k - fuel ∧
      (i.value : ℚ) * 2 ^ i.exponent < 10 ^ (k - fuel) := by
  induction fuel generalizing k with
  | zero =>
    have hlt : i.value * rightScale k i.exponent < 1 * leftScale k i.exponent := by
      rw [Nat.one_mul]
      exact (Nat.div_eq_zero_iff_lt (leftScale_pos k i.exponent)).mp h
    have hvalue : ¬ ((1 : Nat) : ℚ) * 10 ^ k ≤ i.value * 2 ^ i.exponent :=
      fun hle => absurd (scaled_le_iff.mpr hle) (not_le.mpr hlt)
    rw [Nat.cast_one, one_mul, not_le] at hvalue
    simpa using ⟨rfl, hvalue⟩
  | succ fuel ih =>
    rw [firstOnGrid] at h ⊢
    split at h
    next d hd =>
      cases h
      have hlow := low_le_of_holds (holds_of_onGrid? hd)
      rw [Nat.zero_mul] at hlow
      exact absurd hlow (not_le.mpr (Nat.mul_pos hi (rightScale_pos k i.exponent)))
    next =>
      obtain ⟨hexponent, hvalue⟩ := ih h
      have hk : k - 1 - fuel = k - (fuel + 1 : Nat) := by omega
      rw [← hk]
      exact ⟨hexponent, hvalue⟩

end Interval

theorem Digits.strip_of_eq_zero {d : Digits} (h : d.digits = 0) (fuel : Nat) :
    d.strip fuel = d := by
  cases fuel with
  | zero => rfl
  | succ fuel =>
    rw [Digits.strip, if_neg fun hd => hd.1 h]

theorem Digits.strip_eq_zero_iff {d : Digits} {fuel : Nat} :
    (d.strip fuel).digits = 0 ↔ d.digits = 0 := by
  have hvalue := d.value_strip fuel
  have hzero (d : Digits) : d.digits = 0 ↔ d.value = 0 := by
    rw [Digits.value, mul_eq_zero_iff_right (by positivity), Nat.cast_eq_zero]
  rw [hzero, hzero, hvalue]

/-- The estimate of the leading digit's exponent exceeds the scaled binary exponent by one at
most. -/
theorem magnitude_le (b : Binary) :
    b.magnitude ≤ (b.significand.log2 + b.exponent) * 30103 / 100000 + 1 := by
  rw [Binary.magnitude, Int.fdiv_eq_ediv_of_nonneg _ (by decide)]
  split_ifs <;> omega

theorem two_pow_log2_le {b : Binary} (hb : b.significand ≠ 0) :
    (2 : ℚ) ^ (b.significand.log2 + b.exponent) ≤ b.significand * 2 ^ b.exponent := by
  have hself : (2 : ℚ) ^ b.significand.log2 ≤ b.significand := by
    exact_mod_cast Nat.log2_self_le hb
  rw [zpow_add₀ two_ne_zero, zpow_natCast]
  exact mul_le_mul_of_nonneg_right hself (by positivity)

/-- On the grids of small whole numbers, zero is not the shortest decimal of another number. -/
theorem digits_shortest_ne_zero {b : Binary} (hb : b.significand ≠ 0)
    (hleast : 0 ≤ b.shortest.exponent) (hmost : b.shortest.exponent ≤ 15) :
    b.shortest.digits ≠ 0 := by
  intro hzero
  rw [Binary.shortest, if_neg hb] at hzero hleast hmost
  have hdigits := Digits.strip_eq_zero_iff.mp hzero
  rw [Digits.strip_of_eq_zero hdigits] at hleast hmost
  have hlow : 0 < b.interval.low := by
    rw [Binary.interval]
    dsimp only
    split_ifs <;> omega
  obtain ⟨hexponent, hvalue⟩ := Interval.of_firstOnGrid_eq_zero hlow hdigits
  rw [hexponent] at hleast hmost
  -- The estimate of the magnitude puts the number above the grid.
  have hmagnitude := magnitude_le b
  have hlarge : (2 : ℚ) ^ (54 : Int) ≤ 2 ^ (b.significand.log2 + b.exponent) :=
    zpow_le_zpow_right₀ one_le_two (by omega)
  have hgrid : (10 : ℚ) ^ (b.magnitude - (17 : Nat)) ≤ 10 ^ (15 : Int) :=
    zpow_le_zpow_right₀ (by norm_num) hmost
  have hself : (b.interval.value : ℚ) * 2 ^ b.interval.exponent =
      b.significand * 2 ^ b.exponent := by
    have hvalue : b.interval.value = 4 * b.significand := rfl
    have hexponent : b.interval.exponent = b.exponent - 2 := rfl
    rw [hvalue, hexponent, zpow_sub₀ two_ne_zero]
    push_cast
    ring
  rw [hself] at hvalue
  have hbelow : (2 : ℚ) ^ (54 : Int) < 10 ^ (15 : Int) := by
    calc (2 : ℚ) ^ (54 : Int) ≤ b.significand * 2 ^ b.exponent := hlarge.trans (two_pow_log2_le hb)
      _ < 10 ^ (b.magnitude - (17 : Nat)) := hvalue
      _ ≤ 10 ^ (15 : Int) := hgrid
  norm_num at hbelow

/-- A finite number has at most 53 significant bits, and its exponent is in the range of binary64
numbers. -/
theorem range_of_ofFloat {x : Float} {negative : Bool} {b : Binary}
    (h : FloatForm.ofFloat x = .finite negative b) : b.significand < 2 ^ 53 ∧ b.exponent ≤ 971 := by
  rw [FloatForm.ofFloat, FloatForm.ofBits] at h
  have hhidden : hiddenBit = 2 ^ 52 := rfl
  have hleast : leastExponent = -1074 := rfl
  have hfraction : x.toBits.toNat % hiddenBit < 2 ^ 52 := Nat.mod_lt _ (by decide)
  have hbiased : x.toBits.toNat / hiddenBit % 2048 < 2048 := Nat.mod_lt _ (by decide)
  generalize x.toBits.toNat % hiddenBit = fraction at h hfraction
  generalize x.toBits.toNat / hiddenBit % 2048 = biased at h hbiased
  split_ifs at h with hones hzero
  · cases h
    dsimp only
    omega
  · cases h
    dsimp only
    omega

end ClaimMapping.Decimal
