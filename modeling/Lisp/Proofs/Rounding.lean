/-
# Rounding a quotient to a double

Rounding computes with numerators and denominators.  What it yields depends on the rational number
that these make alone, and a quotient that is a double already is rounded to that double.

* `Ratio.toRat` : the rational number that a quotient is;
* `Ratio.floorLog2_eq_log` : where a quotient begins is the logarithm of its value;
* `Binary.nearest_eq_of_toRat_eq` : equal rational numbers have the same nearest pattern;
* `Binary.nearest_value` : the pattern nearest to the value of a pattern is that pattern.
-/
import Lisp.Number.Decimal
import Mathlib.Data.Int.Log
import Mathlib.Data.Rat.Floor
import Mathlib.Tactic.FieldSimp
import Mathlib.Tactic.Ring

namespace Lisp

namespace Ratio

/-! ## Quotients as rational numbers -/

/-- The rational number that a quotient is. -/
def toRat (r : Ratio) : ℚ := r.num / r.den

theorem den_scale_pos {r : Ratio} (hd : 0 < r.den) {base : Nat} (hb : 0 < base) (e : Int) :
    0 < (r.scale base e).den :=
  Nat.mul_pos hd (Nat.pow_pos hb)

/-- Scaling multiplies by a power, of either sign. -/
theorem toRat_scale (r : Ratio) {base : Nat} (hb : 0 < base) (e : Int) :
    (r.scale base e).toRat = r.toRat * (base : ℚ) ^ e := by
  have hb' : (base : ℚ) ≠ 0 := Nat.cast_ne_zero.2 hb.ne'
  obtain ⟨n, rfl | rfl⟩ := e.eq_nat_or_neg
  · rw [toRat, scale]
    simp only [Int.toNat_natCast, Int.toNat_neg_natCast, Nat.pow_eq, Nat.cast_mul, Nat.cast_pow,
      pow_zero, mul_one, zpow_natCast, toRat]
    ring
  · rw [toRat, scale]
    simp only [Int.toNat_natCast, Int.toNat_neg_natCast, neg_neg, Nat.pow_eq, Nat.cast_mul,
      Nat.cast_pow, pow_zero, mul_one, zpow_neg, zpow_natCast, toRat]
    field_simp

/-- A quotient is compared with one as its numerator is with its denominator. -/
theorem one_le_toRat_iff {r : Ratio} (hd : 0 < r.den) : 1 ≤ r.toRat ↔ r.den ≤ r.num := by
  rw [toRat, one_le_div (Nat.cast_pos.2 hd), Nat.cast_le]

/-- The logarithm is the only integer with the quotient between its power and the next one. -/
theorem log_eq_of_zpow_le {base : Nat} (hb : 1 < base) {x : ℚ} {k : Int} (hlo : (base : ℚ) ^ k ≤ x)
    (hhi : x < (base : ℚ) ^ (k + 1)) : Int.log base x = k := by
  have hx : 0 < x := lt_of_lt_of_le (zpow_pos (Nat.cast_pos.2 (by omega)) k) hlo
  have h₁ : k ≤ Int.log base x := (Int.zpow_le_iff_le_log hb hx).1 hlo
  have h₂ : Int.log base x < k + 1 := (Int.lt_zpow_iff_log_lt hb hx).1 hhi
  omega

/-- Numerator and denominator are known up to a factor of two, so the quotient up to one of four. -/
theorem toRat_bounds {r : Ratio} (hn : 0 < r.num) (hd : 0 < r.den) :
    (2 : ℚ) ^ ((r.num.log2 : Int) - r.den.log2 - 1) ≤ r.toRat ∧
      r.toRat < (2 : ℚ) ^ ((r.num.log2 : Int) - r.den.log2 + 1) := by
  have hnum : (2 : ℚ) ^ r.num.log2 ≤ r.num ∧ (r.num : ℚ) < 2 ^ (r.num.log2 + 1) :=
    ⟨by exact_mod_cast Nat.log2_self_le hn.ne', by exact_mod_cast Nat.lt_log2_self⟩
  have hden : (2 : ℚ) ^ r.den.log2 ≤ r.den ∧ (r.den : ℚ) < 2 ^ (r.den.log2 + 1) :=
    ⟨by exact_mod_cast Nat.log2_self_le hd.ne', by exact_mod_cast Nat.lt_log2_self⟩
  constructor
  · calc (2 : ℚ) ^ ((r.num.log2 : Int) - r.den.log2 - 1)
        = 2 ^ r.num.log2 / 2 ^ (r.den.log2 + 1) := by
          rw [← zpow_natCast, ← zpow_natCast, ← zpow_sub₀ two_ne_zero]
          congr 1
          push_cast
          ring
      _ ≤ r.toRat :=
          div_le_div₀ (Nat.cast_nonneg _) hnum.1 (Nat.cast_pos.2 hd) hden.2.le
  · calc r.toRat < 2 ^ (r.num.log2 + 1) / 2 ^ r.den.log2 :=
          div_lt_div₀ hnum.2 hden.1 (by positivity) (by positivity)
      _ = (2 : ℚ) ^ ((r.num.log2 : Int) - r.den.log2 + 1) := by
          rw [← zpow_natCast, ← zpow_natCast, ← zpow_sub₀ two_ne_zero]
          congr 1
          push_cast
          ring

/-- Where a quotient begins is the logarithm of its value. -/
theorem floorLog2_eq_log {r : Ratio} (hn : 0 < r.num) (hd : 0 < r.den) :
    r.floorLog2 = Int.log 2 r.toRat := by
  obtain ⟨hlo, hhi⟩ := toRat_bounds hn hd
  -- The guess is one too large at most, which is tested by comparing with its power.
  have htest : ∀ k : Int, (r.scale 2 (-k)).den ≤ (r.scale 2 (-k)).num ↔ (2 : ℚ) ^ k ≤ r.toRat := by
    intro k
    rw [← one_le_toRat_iff (den_scale_pos hd two_pos _), toRat_scale r two_pos, zpow_neg,
      ← div_eq_mul_inv, one_le_div (zpow_pos (by norm_num) k)]
    norm_num
  simp only [floorLog2, htest]
  symm
  split
  · next h => exact log_eq_of_zpow_le one_lt_two (by exact_mod_cast h) (by exact_mod_cast hhi)
  · next h =>
    refine log_eq_of_zpow_le one_lt_two (by exact_mod_cast hlo) ?_
    rw [sub_add_cancel]
    exact_mod_cast not_le.1 h

/-! ## Rounding depends on the value alone -/

/-- Rounding does not depend on how a quotient is written. -/
theorem round_mul_mul (a b : Nat) {c : Nat} (hc : 0 < c) :
    round ⟨a * c, b * c⟩ = round ⟨a, b⟩ := by
  have hlt : ∀ x y : Nat, 2 * (x * c) < y * c ↔ 2 * x < y := by
    intro x y
    rw [← Nat.mul_assoc]
    exact Nat.mul_lt_mul_right hc
  have hgt : ∀ x y : Nat, y * c < 2 * (x * c) ↔ y < 2 * x := by
    intro x y
    rw [← Nat.mul_assoc]
    exact Nat.mul_lt_mul_right hc
  simp only [round, Nat.mul_div_mul_right a b hc, Nat.mul_mod_mul_right, hlt, hgt]

/-- Equal rational numbers are rounded alike. -/
theorem round_eq_of_toRat_eq {r s : Ratio} (hr : 0 < r.den) (hs : 0 < s.den)
    (h : r.toRat = s.toRat) : r.round = s.round := by
  have hcross : r.num * s.den = s.num * r.den := by
    rw [toRat, toRat, div_eq_div_iff (Nat.cast_ne_zero.2 hr.ne') (Nat.cast_ne_zero.2 hs.ne')] at h
    exact_mod_cast h
  calc r.round = round ⟨r.num * s.den, r.den * s.den⟩ := (round_mul_mul _ _ hs).symm
    _ = round ⟨s.num * r.den, s.den * r.den⟩ := by rw [hcross, Nat.mul_comm r.den]
    _ = s.round := round_mul_mul _ _ hr

end Ratio

namespace Binary

open Ratio

/-- Equal rational numbers have the same nearest pattern. -/
theorem nearest_eq_of_toRat_eq {r s : Ratio} (hr : 0 < r.den) (hs : 0 < s.den)
    (h : r.toRat = s.toRat) : nearest r = nearest s := by
  have hzero : ∀ {q : Ratio}, 0 < q.den → (q.num = 0 ↔ q.toRat = 0) := by
    intro q hq
    rw [toRat, div_eq_zero_iff, Nat.cast_eq_zero, Nat.cast_eq_zero]
    omega
  by_cases hnum : r.num = 0
  · have hnum' : s.num = 0 := by rwa [hzero hs, ← h, ← hzero hr]
    rw [nearest, nearest, if_pos hnum, if_pos hnum']
  · have hnum' : s.num ≠ 0 := by rwa [Ne, hzero hs, ← h, ← hzero hr]
    have hlog : r.floorLog2 = s.floorLog2 := by
      rw [floorLog2_eq_log (Nat.pos_of_ne_zero hnum) hr,
        floorLog2_eq_log (Nat.pos_of_ne_zero hnum') hs, h]
    have hround : ∀ e : Int, (r.scale 2 e).round = (s.scale 2 e).round := by
      intro e
      apply round_eq_of_toRat_eq (den_scale_pos hr two_pos e) (den_scale_pos hs two_pos e)
      rw [toRat_scale r two_pos, toRat_scale s two_pos, h]
    simp only [nearest, if_neg hnum, if_neg hnum', hlog, hround]

/-! ## Values of patterns -/

/-- A significand with 53 digits at most, and with fewer only at the least power of two, keeps all
its digits. -/
theorem nearest_of_toRat_eq {r : Ratio} {m : Nat} {e : Int} (hd : 0 < r.den) (hm : 0 < m)
    (hlt : m < 2 ^ 53) (he : -1074 ≤ e) (hfull : 2 ^ 52 ≤ m ∨ e = -1074)
    (h : r.toRat = m * (2 : ℚ) ^ e) :
    nearest r = min (m + (e + 1074).toNat * hidden) infinity := by
  have hpow : (0 : ℚ) < (2 : ℚ) ^ e := zpow_pos two_pos e
  have hpos : 0 < r.toRat := h ▸ mul_pos (Nat.cast_pos.2 hm) hpow
  have hnum : 0 < r.num := by
    rw [toRat, div_pos_iff_of_pos_right (Nat.cast_pos.2 hd)] at hpos
    exact_mod_cast hpos
  -- The value begins at the power that leaves the last digit at `e`.
  have hupper : Int.log 2 r.toRat < e + 53 := by
    rw [← Int.lt_zpow_iff_log_lt one_lt_two hpos, h, Nat.cast_ofNat, add_comm,
      zpow_add₀ two_ne_zero]
    have : (m : ℚ) < 2 ^ (53 : Int) := by exact_mod_cast hlt
    exact mul_lt_mul_of_pos_right this hpow
  have hlower : 2 ^ 52 ≤ m → e + 52 ≤ Int.log 2 r.toRat := by
    intro hle
    rw [← Int.zpow_le_iff_le_log one_lt_two hpos, h, Nat.cast_ofNat, add_comm,
      zpow_add₀ two_ne_zero]
    have : (2 : ℚ) ^ (52 : Int) ≤ m := by exact_mod_cast hle
    exact mul_le_mul_of_nonneg_right this hpow.le
  have hunit : unitExponent r.floorLog2 = e := by
    rw [floorLog2_eq_log hnum hd, unitExponent]
    rcases hfull with hle | rfl
    · have := hlower hle
      omega
    · omega
  have hround : (r.scale 2 (-e)).round = m := by
    rw [round_eq_of_toRat_eq (s := ⟨m * 1, 1⟩) (den_scale_pos hd two_pos _) one_pos,
      round_mul_right m 1 one_pos]
    rw [toRat_scale r two_pos, h, Nat.cast_ofNat, zpow_neg, mul_assoc, mul_inv_cancel₀ hpow.ne',
      toRat]
    simp
  simp only [nearest, if_neg hnum.ne', hunit, hround]

theorem den_value_pos (bits : Nat) : 0 < (value bits).den :=
  den_scale_pos one_pos two_pos _

theorem toRat_value (bits : Nat) :
    (value bits).toRat = significand bits * (2 : ℚ) ^ exponent bits := by
  rw [value, toRat_scale _ two_pos, toRat, Nat.cast_one, div_one, Nat.cast_ofNat]

/-- The significand of a positive finite pattern has 53 digits, or fewer at the least power of two,
and the pattern is the significand with the exponent added in its place. -/
theorem significand_exponent {bits : Nat} (hpos : 0 < bits) (h : bits < infinity) :
    0 < significand bits ∧ significand bits < 2 ^ 53 ∧ -1074 ≤ exponent bits ∧
      exponent bits ≤ 971 ∧ (2 ^ 52 ≤ significand bits ∨ exponent bits = -1074) ∧
      significand bits + (exponent bits + 1074).toNat * hidden = bits := by
  have hinf : infinity = 2047 * hidden := rfl
  have hbits : hidden = 2 ^ 52 := rfl
  rcases Nat.lt_or_ge bits hidden with hsub | hnormal
  · have hsig : significand bits = bits := if_pos hsub
    have hexp : exponent bits = -1074 := if_pos hsub
    rw [hsig, hexp, show (-1074 + 1074 : Int).toNat = 0 from rfl, Nat.zero_mul]
    omega
  · have hsig : significand bits = bits % hidden + hidden := if_neg (not_lt.2 hnormal)
    have hexp : exponent bits = (bits / hidden : Nat) - 1075 := if_neg (not_lt.2 hnormal)
    have hmod : bits % hidden < hidden := Nat.mod_lt _ (by omega)
    have hone : 1 ≤ bits / hidden := (Nat.one_le_div_iff (by omega)).2 hnormal
    have hmax : bits / hidden < 2047 := (Nat.div_lt_iff_lt_mul (by omega)).2 h
    have hunits : (exponent bits + 1074).toNat = bits / hidden - 1 := by omega
    have hsplit : bits % hidden + hidden + (bits / hidden - 1) * hidden = bits := by
      have hdiv := Nat.mod_add_div' bits hidden
      have hle := Nat.mul_le_mul_right hidden hone
      rw [Nat.sub_mul]
      omega
    rw [hunits, hsig, hsplit]
    omega

/-- **Rounding is the identity on doubles.** The pattern nearest to the value of a finite pattern is
that pattern. -/
theorem nearest_value {bits : Nat} (h : bits < infinity) : nearest (value bits) = bits := by
  rcases Nat.eq_zero_or_pos bits with rfl | hpos
  · rfl
  · obtain ⟨hsig, hlt, hlo, -, hfull, hsum⟩ := significand_exponent hpos h
    rw [nearest_of_toRat_eq (den_value_pos bits) hsig hlt hlo hfull (toRat_value bits), hsum]
    exact min_eq_left h.le

/-- The range of the positive finite doubles. -/
theorem toRat_value_bounds {bits : Nat} (hpos : 0 < bits) (h : bits < infinity) :
    (2 : ℚ) ^ (-1074 : Int) ≤ (value bits).toRat ∧ (value bits).toRat < (2 : ℚ) ^ (1024 : Int) := by
  obtain ⟨hsig, hlt, hlo, hhi, -⟩ := significand_exponent hpos h
  have hpow : (0 : ℚ) < (2 : ℚ) ^ exponent bits := zpow_pos two_pos _
  rw [toRat_value]
  constructor
  · have hone : (1 : ℚ) ≤ significand bits := by exact_mod_cast hsig
    calc (2 : ℚ) ^ (-1074 : Int) ≤ (2 : ℚ) ^ exponent bits := zpow_le_zpow_right₀ one_le_two hlo
      _ ≤ significand bits * (2 : ℚ) ^ exponent bits := le_mul_of_one_le_left hpow.le hone
  · have hmax : (significand bits : ℚ) < 2 ^ (53 : Int) := by exact_mod_cast hlt
    calc (significand bits : ℚ) * (2 : ℚ) ^ exponent bits
        < 2 ^ (53 : Int) * (2 : ℚ) ^ exponent bits := mul_lt_mul_of_pos_right hmax hpow
      _ = (2 : ℚ) ^ (53 + exponent bits) := (zpow_add₀ two_ne_zero _ _).symm
      _ ≤ (2 : ℚ) ^ (1024 : Int) := zpow_le_zpow_right₀ one_le_two (by omega)

end Binary

end Lisp
