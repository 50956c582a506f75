/-
# The shortest numeral of a double

Which double a numeral denotes depends on its value alone, not on how its digits and its power of
ten share it, and the bounds beyond which no power of ten is formed cut off no double.  So the
numeral that is written for a double denotes that double.

* `Decimal.toRat_value` : the value of a numeral;
* `Decimal.top_eq_log` : the power of ten above a numeral is the logarithm of its value;
* `Decimal.pattern_eq_of_toRat_eq` : equal values denote the same double;
* `Decimal.pattern_exact`, `Decimal.pattern_shortest` : the numerals of a double denote it.
-/
import Lisp.Proofs.Rounding
import Mathlib.Tactic.NormNum

namespace Lisp.Decimal

open Ratio

/-! ## Values -/

theorem den_value_pos (d : Decimal) : 0 < d.value.den :=
  den_scale_pos one_pos (by decide) _

theorem toRat_value (d : Decimal) : d.value.toRat = d.digits * (10 : ℚ) ^ d.exponent := by
  rw [value, toRat_scale _ (by decide), toRat, Nat.cast_one, div_one, Nat.cast_ofNat]

/-- A decimal without digits other than zero is zero. -/
theorem digits_eq_zero_iff (d : Decimal) : d.digits = 0 ↔ d.value.toRat = 0 := by
  rw [toRat_value, mul_eq_zero, Nat.cast_eq_zero, or_iff_left (zpow_ne_zero _ (by norm_num))]

/-- The number of digits of a positive number, in terms of powers of ten. -/
theorem digitCount_bounds {n : Nat} (hn : n ≠ 0) :
    10 ^ (digitCount n - 1) ≤ n ∧ n < 10 ^ digitCount n := by
  have hpos : 0 < digitCount n := Nat.length_toDigits_pos
  have hiff : ∀ {k : Nat}, 0 < k → (digitCount n ≤ k ↔ n < 10 ^ k) :=
    Nat.length_toDigits_le_iff (by decide)
  constructor
  · rcases Nat.eq_zero_or_pos (digitCount n - 1) with hzero | hmore
    · rw [hzero, pow_zero]
      omega
    · rw [← Nat.not_lt, ← hiff hmore]
      omega
  · exact (hiff hpos).1 le_rfl

/-- The power of ten above a numeral is determined by its value. -/
theorem top_eq_log {d : Decimal} (h : d.digits ≠ 0) : d.top = Int.log 10 d.value.toRat + 1 := by
  have hten : (10 : ℚ) ≠ 0 := by norm_num
  have hpow : (0 : ℚ) < (10 : ℚ) ^ d.exponent := zpow_pos (by norm_num) _
  have hcount : 0 < digitCount d.digits := Nat.length_toDigits_pos
  obtain ⟨hlo, hhi⟩ := digitCount_bounds h
  have hlog : Int.log 10 d.value.toRat = d.top - 1 := by
    rw [toRat_value]
    apply log_eq_of_zpow_le (by decide)
    · rw [show d.top - 1 = ((digitCount d.digits - 1 : Nat) : Int) + d.exponent by
        rw [top]; omega, Nat.cast_ofNat, zpow_add₀ hten, zpow_natCast]
      have hlo' : (10 : ℚ) ^ (digitCount d.digits - 1) ≤ d.digits := by exact_mod_cast hlo
      exact mul_le_mul_of_nonneg_right hlo' hpow.le
    · rw [sub_add_cancel, top, Nat.cast_ofNat, zpow_add₀ hten, zpow_natCast]
      have hhi' : (d.digits : ℚ) < 10 ^ digitCount d.digits := by exact_mod_cast hhi
      exact mul_lt_mul_of_pos_right hhi' hpow
  omega

/-! ## What a numeral denotes -/

/-- **Numerals of the same value denote the same double.** -/
theorem pattern_eq_of_toRat_eq {d e : Decimal} (h : d.value.toRat = e.value.toRat) :
    d.pattern = e.pattern := by
  have hdigits : d.digits = 0 ↔ e.digits = 0 := by
    rw [digits_eq_zero_iff, digits_eq_zero_iff, h]
  by_cases hzero : d.digits = 0
  · rw [pattern, pattern, if_pos (Or.inl hzero), if_pos (Or.inl (hdigits.1 hzero))]
  · have htop : d.top = e.top := by
      rw [top_eq_log hzero, top_eq_log (mt hdigits.2 hzero), h]
    have hnearest : Binary.nearest d.value = Binary.nearest e.value :=
      Binary.nearest_eq_of_toRat_eq (den_value_pos d) (den_value_pos e) h
    simp only [pattern, hdigits, htop, hnearest]

/-- Zeros at the end of the digits can as well be counted in the power of ten. -/
theorem pattern_mul_pow (n k : Nat) (e : Int) :
    pattern ⟨n * 10 ^ k, e⟩ = pattern ⟨n, e + k⟩ := by
  apply pattern_eq_of_toRat_eq
  rw [toRat_value, toRat_value, zpow_add₀ (by norm_num), zpow_natCast]
  push_cast
  ring

/-- No decimal is read as a NaN. -/
theorem pattern_le_infinity (d : Decimal) : d.pattern ≤ Binary.infinity := by
  have hzero : 0 ≤ Binary.infinity := Nat.zero_le _
  unfold pattern
  split
  · exact hzero
  split
  · exact le_rfl
  · unfold Binary.nearest
    split
    · exact hzero
    · exact min_le_right _ _

/-! ## The numerals of a double -/

theorem toRat_value_exact (bits : Nat) :
    (exact bits).value.toRat = (Binary.value bits).toRat := by
  rw [toRat_value, Binary.toRat_value]
  simp only [exact]
  split
  · next h =>
    obtain ⟨n, hn⟩ := Int.eq_ofNat_of_zero_le h
    rw [hn, Int.toNat_natCast, zpow_natCast, zpow_zero, mul_one, Nat.pow_eq]
    push_cast
    rfl
  · next h =>
    obtain ⟨n, hn⟩ := Int.eq_ofNat_of_zero_le (show 0 ≤ -Binary.exponent bits by omega)
    have hexp : Binary.exponent bits = -(n : Int) := by omega
    -- The digits make up for the factors of five that the power of ten has too many.
    have hten : (10 : ℚ) ^ n = 5 ^ n * 2 ^ n := by rw [← mul_pow]; norm_num
    rw [hexp, neg_neg, Int.toNat_natCast, Nat.pow_eq, zpow_neg, zpow_neg, zpow_natCast,
      zpow_natCast, hten]
    push_cast
    field_simp

/-- The value of a double lies within the bounds outside which no power of ten is formed. -/
theorem pattern_exact {bits : Nat} (hpos : 0 < bits) (h : bits < Binary.infinity) :
    (exact bits).pattern = bits := by
  have hvalue := toRat_value_exact bits
  obtain ⟨hlo, hhi⟩ := Binary.toRat_value_bounds hpos h
  have hrat : 0 < (Binary.value bits).toRat := lt_of_lt_of_le (zpow_pos two_pos _) hlo
  have hdigits : (exact bits).digits ≠ 0 := by
    rw [Ne, digits_eq_zero_iff, hvalue]
    exact hrat.ne'
  have hbelow : -331 ≤ Int.log 10 (Binary.value bits).toRat := by
    rw [← Int.zpow_le_iff_le_log (by decide) hrat]
    refine le_trans ?_ hlo
    have hpow : 2 ^ 1074 ≤ 10 ^ 331 := by decide +kernel
    have hpow' := (Nat.cast_le (α := ℚ)).2 hpow
    rw [Nat.cast_pow, Nat.cast_pow] at hpow'
    rw [zpow_neg, zpow_neg]
    exact inv_anti₀ (zpow_pos two_pos _) hpow'
  have habove : Int.log 10 (Binary.value bits).toRat < 309 := by
    rw [← Int.lt_zpow_iff_log_lt (by decide) hrat]
    refine lt_trans hhi ?_
    have hpow : 2 ^ 1024 < 10 ^ 309 := by decide +kernel
    have hpow' := (Nat.cast_lt (α := ℚ)).2 hpow
    rwa [Nat.cast_pow, Nat.cast_pow] at hpow'
  have htop := top_eq_log hdigits
  rw [hvalue] at htop
  rw [pattern, if_neg (by omega), if_neg (by omega),
    Binary.nearest_eq_of_toRat_eq (den_value_pos _) (Binary.den_value_pos _) hvalue,
    Binary.nearest_value h]

/-- **The shortest numeral of a double denotes it.** -/
theorem pattern_shortest {bits : Nat} (hpos : 0 < bits) (h : bits < Binary.infinity) :
    (shortest bits).pattern = bits := by
  unfold shortest
  cases hfound : (List.range' 1 17).findSome? (ofLength? bits) with
  | none => exact pattern_exact hpos h
  | some d =>
    -- A candidate is taken only if it denotes the double.
    obtain ⟨count, -, hcount⟩ := List.exists_of_findSome?_eq_some hfound
    simpa using List.find?_some hcount

end Lisp.Decimal
