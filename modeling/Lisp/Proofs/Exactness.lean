/-
# Exact results on integers

The quotient and the remainder of integers are the two parts of one division, which rounds toward
zero: they fail together, and otherwise they determine each other.  Sums and products are exact if
no partial result leaves the range.  This depends on the order of the operands, but what they come
to does not, and where all operands of a sum have the same sign, nothing depends on it.

* `Arithmetic.towardZero` : a quotient rounded toward zero;
* `Arithmetic.IsDivision` : quotient and remainder of one division;
* `Arithmetic.isDivision_intQuotient` : the sign tests on absolute values make up such a division;
* `Eval.builtin_division` : the quotient and the remainder of integers are those of one division;
* `Arithmetic.inRange_inits_iff` : for operands of one sign, the last partial sum decides;
* `Eval.builtin_sum_product` : sums and products, and what their order decides.
-/
import Mathlib.Algebra.Order.BigOperators.Group.List
import Mathlib.Data.Rat.Floor
import Mathlib.Tactic.FieldSimp
import Mathlib.Tactic.Linarith
import Lisp.Proofs.Operands

namespace Lisp

/-! ## Division -/

namespace Arithmetic

/-- A quotient rounded toward zero. -/
def towardZero (x : ℚ) : Int := if 0 ≤ x then ⌊x⌋ else ⌈x⌉

/-- Quotient `q` and remainder `r` of a division of `a` by `b`, where the remainder is smaller than
the divisor and has the sign of the dividend. -/
structure IsDivision (a b q r : Int) : Prop where
  identity : a = b * q + r
  small : |r| < |b|
  sign : r = 0 ∨ r.sign = a.sign

variable {a b q r : Int}

/-- The sign test of the quotient multiplies with the signs of both operands. -/
theorem intQuotient_eq_sign (a b : Int) :
    intQuotient a b = a.sign * b.sign * ↑(a.natAbs / b.natAbs) := by
  rcases lt_trichotomy a 0 with ha | rfl | ha
  · rcases lt_trichotomy b 0 with hb | rfl | hb
    · simp [intQuotient, ha, hb, Int.sign_eq_neg_one_of_neg]
    · simp [intQuotient]
    · simp [intQuotient, ha, hb.not_gt, Int.sign_eq_neg_one_of_neg, Int.sign_eq_one_of_pos hb]
  · simp [intQuotient]
  · rcases lt_trichotomy b 0 with hb | rfl | hb
    · simp [intQuotient, ha.not_gt, hb, Int.sign_eq_neg_one_of_neg, Int.sign_eq_one_of_pos ha]
    · simp [intQuotient]
    · simp [intQuotient, ha.not_gt, hb.not_gt, Int.sign_eq_one_of_pos, ha, hb]

/-- The sign test of the remainder multiplies with the sign of the dividend. -/
theorem intRemainder_eq_sign (a b : Int) :
    intRemainder a b = a.sign * ↑(a.natAbs % b.natAbs) := by
  rcases lt_trichotomy a 0 with ha | rfl | ha
  · simp [intRemainder, ha, Int.sign_eq_neg_one_of_neg]
  · simp [intRemainder]
  · simp [intRemainder, ha.not_gt, Int.sign_eq_one_of_pos ha]

/-- **Quotient and remainder of absolute values become those of the integers.** The two sign tests,
each made on its own, belong to one division. -/
theorem isDivision_intQuotient (a : Int) (hb : b ≠ 0) :
    IsDivision a b (intQuotient a b) (intRemainder a b) where
  identity := by
    have hparts : (b.natAbs : Int) * ↑(a.natAbs / b.natAbs) + ↑(a.natAbs % b.natAbs) = a.natAbs :=
      mod_cast Nat.div_add_mod a.natAbs b.natAbs
    rw [intQuotient_eq_sign, intRemainder_eq_sign]
    calc a = a.sign * a.natAbs := (Int.sign_mul_natAbs a).symm
      _ = a.sign * (b.natAbs * ↑(a.natAbs / b.natAbs) + ↑(a.natAbs % b.natAbs)) := by rw [hparts]
      _ = a.sign * (b * b.sign * ↑(a.natAbs / b.natAbs) + ↑(a.natAbs % b.natAbs)) := by
        rw [Int.mul_sign_self]
      _ = b * (a.sign * b.sign * ↑(a.natAbs / b.natAbs)) + a.sign * ↑(a.natAbs % b.natAbs) := by
        ring
  small := by
    have hlt : a.natAbs % b.natAbs < b.natAbs := Nat.mod_lt _ (by omega)
    rw [intRemainder, Int.abs_eq_natAbs, Int.abs_eq_natAbs]
    split
    · omega
    · omega
  sign := by
    rw [intRemainder_eq_sign]
    rcases Nat.eq_zero_or_pos (a.natAbs % b.natAbs) with hzero | hpos
    · left
      rw [hzero, Int.natCast_zero, Int.mul_zero]
    · right
      rw [Int.sign_mul, Int.sign_sign, Int.sign_natCast_of_ne_zero hpos.ne', Int.mul_one]

/-- The exact quotient is the whole one and a fraction, which is none or lies on the same side of
zero. -/
theorem IsDivision.fraction (h : IsDivision a b q r) (hb : b ≠ 0) :
    (a : ℚ) / b = q + (r : ℚ) / b ∧ |(r : ℚ) / b| < 1 ∧
      ((r : ℚ) / b = 0 ∨ 0 < (r : ℚ) / b * ((a : ℚ) / b)) := by
  have hb' : (b : ℚ) ≠ 0 := by exact_mod_cast hb
  refine ⟨?_, ?_, ?_⟩
  · have ha : (a : ℚ) = b * q + r := by exact_mod_cast h.identity
    rw [ha]
    field_simp
  · have hsmall : |(r : ℚ)| < |(b : ℚ)| := by exact_mod_cast h.small
    rw [abs_div]
    exact (div_lt_one (abs_pos.2 hb')).2 hsmall
  · rcases h.sign with rfl | hsign
    · exact .inl (by simp)
    · by_cases hr : r = 0
      · exact .inl (by simp [hr])
      · have hmul : 0 < r * a := by
          rw [← Int.sign_pos_iff, Int.sign_mul, ← hsign]
          exact mul_self_pos.2 (mt Int.sign_eq_zero_iff_zero.1 hr)
        have hmul' : (0 : ℚ) < r * a := by exact_mod_cast hmul
        rw [div_mul_div_comm]
        exact .inr (div_pos hmul' (mul_self_pos.2 hb'))

/-- The quotient of a division is the exact one rounded toward zero. -/
theorem IsDivision.eq_towardZero (h : IsDivision a b q r) (hb : b ≠ 0) :
    q = towardZero ((a : ℚ) / b) := by
  obtain ⟨hsum, hsmall, hside⟩ := h.fraction hb
  -- The fraction is not negative above zero, where floors are taken, and not positive below.
  obtain ⟨hlow, hhigh⟩ := abs_lt.1 hsmall
  unfold towardZero
  split
  · next hpos =>
    have hfraction : 0 ≤ (r : ℚ) / b := by
      rcases hside with hzero | hsame
      · exact hzero.ge
      · by_contra hneg
        exact absurd hsame (mul_nonpos_of_nonpos_of_nonneg (not_le.1 hneg).le hpos).not_gt
    exact (Int.floor_eq_iff.2 ⟨by linarith, by linarith⟩).symm
  · next hneg =>
    have hfraction : (r : ℚ) / b ≤ 0 := by
      rcases hside with hzero | hsame
      · exact hzero.le
      · by_contra hpos
        exact absurd hsame (mul_neg_of_pos_of_neg (not_le.1 hpos) (not_le.1 hneg)).not_gt
    exact (Int.ceil_eq_iff.2 ⟨by linarith, by linarith⟩).symm

end Arithmetic

namespace Operation

open Arithmetic

/-- The three ways in which a division can end, each of them for quotient and remainder alike. -/
theorem exact_division_cases {a : Int} (ha : InRange a) (b : Int) :
    (b = 0 ∧ exact div [a, b] = .error (.arithmetic .divisionByZero) ∧
      exact rem [a, b] = .error (.arithmetic .divisionByZero)) ∨
    ((a = minInt ∧ b = -1) ∧ exact div [a, b] = .error (.arithmetic .overflow) ∧
      exact rem [a, b] = .error (.arithmetic .overflow)) ∨
    (b ≠ 0 ∧ InRange (intQuotient a b) ∧ exact div [a, b] = .ok (intQuotient a b) ∧
      exact rem [a, b] = .ok (intRemainder a b)) := by
  rw [exact, exact, ← intQuotient_eq_tdiv, ← intRemainder_eq_tmod]
  by_cases hb : b = 0
  · rw [if_pos hb, if_pos hb]
    exact .inl ⟨hb, rfl, rfl⟩
  · rw [if_neg hb, if_neg hb]
    by_cases hin : InRange (intQuotient a b)
    · rw [if_pos hin, if_pos hin]
      exact .inr (.inr ⟨hb, hin, rfl, rfl⟩)
    · rw [if_neg hin, if_neg hin]
      exact .inr (.inl ⟨eq_of_not_inRange_intQuotient ha hin, rfl, rfl⟩)

end Operation

namespace Eval

open Arithmetic

/-- On integers, an operation ends with its exact result. -/
theorem result_builtin_int (op : Operation) {ev : Evaluator} {args : List Expr} {E F : Env}
    {ns : List Int} (h : Values ev args E (ns.map .int) F) (htakes : op.Takes args.length)
    (hns : op = .rem → ∀ n ∈ ns, InRange n) :
    (builtin ev op.operator args E).result = (op.exact ns).map .int := by
  rw [(builtin_of_values op h htakes).1]
  rw [← h.length_eq, List.length_map] at htakes
  exact Operation.answer_map_int htakes hns

/-- **Quotient and remainder are one division.** Of integers in range, both fail with a division by
zero exactly if the divisor is zero, and both overflow exactly if the least integer is divided by
minus one.  In every other case they are the parts of one division, whose quotient is rounded toward
zero, and both are in range. -/
theorem builtin_division {ev : Evaluator} {x y : Expr} {E F : Env} {a b : Int}
    (ha : InRange a) (hb : InRange b) (h : Values ev [x, y] E [.int a, .int b] F) :
    let quotient := (builtin ev .div [x, y] E).result
    let remainder := (builtin ev .rem [x, y] E).result
    (quotient = .error (.arithmetic .divisionByZero) ↔ b = 0) ∧
      (remainder = .error (.arithmetic .divisionByZero) ↔ b = 0) ∧
      (quotient = .error (.arithmetic .overflow) ↔ a = minInt ∧ b = -1) ∧
      (remainder = .error (.arithmetic .overflow) ↔ a = minInt ∧ b = -1) ∧
      (b ≠ 0 → ¬ (a = minInt ∧ b = -1) → ∃ q r, quotient = .ok (.int q) ∧
        remainder = .ok (.int r) ∧ IsDivision a b q r ∧ q = towardZero ((a : ℚ) / b) ∧
        InRange q ∧ InRange r) := by
  intro quotient remainder
  have hin : ∀ n ∈ [a, b], InRange n := by
    rw [List.forall_mem_cons, List.forall_mem_singleton]
    exact ⟨ha, hb⟩
  have hquotient : quotient = (Operation.exact .div [a, b]).map .int :=
    result_builtin_int .div h rfl fun _ => hin
  have hremainder : remainder = (Operation.exact .rem [a, b]).map .int :=
    result_builtin_int .rem h rfl fun _ => hin
  clear_value quotient remainder
  rcases Operation.exact_division_cases ha b with
    ⟨rfl, hq, hr⟩ | ⟨⟨rfl, rfl⟩, hq, hr⟩ | ⟨hzero, hrange, hq, hr⟩
  · simp [hquotient, hremainder, hq, hr, Except.map]
  · simp [hquotient, hremainder, hq, hr, Except.map]
  · have hdivision := isDivision_intQuotient a hzero
    have hne : ¬ (a = minInt ∧ b = -1) := by
      rintro ⟨rfl, rfl⟩
      exact absurd hrange (by decide)
    rw [hquotient, hremainder, hq, hr]
    refine ⟨iff_of_false nofun hzero, iff_of_false nofun hzero, iff_of_false nofun hne,
      iff_of_false nofun hne, fun _ _ => ?_⟩
    exact ⟨intQuotient a b, intRemainder a b, rfl, rfl, hdivision, hdivision.eq_towardZero hzero,
      hrange, inRange_intRemainder ha b⟩

/-- Seven divided into two parts below zero; the least integer, which has no opposite; and zero as
the divisor. -/
theorem builtin_division_samples :
    let E := Env.fresh 9
    let divide (a b : Int) := (builtin (evaluate {}) .div [.int a, .int b] E).result
    let rest (a b : Int) := (builtin (evaluate {}) .rem [.int a, .int b] E).result
    (∃ q r, divide (-7) 2 = .ok (.int q) ∧ rest (-7) 2 = .ok (.int r) ∧ IsDivision (-7) 2 q r) ∧
      divide minInt (-1) = .error (.arithmetic .overflow) ∧
      rest minInt (-1) = .error (.arithmetic .overflow) ∧
      divide 5 0 = .error (.arithmetic .divisionByZero) := by
  intro E divide rest
  have hvalues : ∀ a b : Int, Values (evaluate {}) [.int a, .int b] E [.int a, .int b] E :=
    fun a b => .cons rfl (.cons rfl (.nil _))
  have hseven := builtin_division (by decide) (by decide) (hvalues (-7) 2)
  have hleast := builtin_division (by decide) (by decide) (hvalues minInt (-1))
  have hzero := builtin_division (by decide) (by decide) (hvalues 5 0)
  obtain ⟨q, r, hq, hr, hdivision, -⟩ := hseven.2.2.2.2 (by decide) (by decide)
  exact ⟨⟨q, r, hq, hr, hdivision⟩, hleast.2.2.1.2 ⟨rfl, rfl⟩, hleast.2.2.2.1.2 ⟨rfl, rfl⟩,
    hzero.1.2 rfl⟩

end Eval

/-! ## Sums and products -/

namespace Arithmetic

/-- Where all operands have the same sign, the partial sums lie between zero and the sum. -/
theorem inRange_prefix {p ns : List Int} (hsign : (∀ n ∈ ns, 0 ≤ n) ∨ ∀ n ∈ ns, n ≤ 0)
    (hp : p <+: ns) (hsum : InRange ns.sum) : InRange p.sum := by
  obtain ⟨rest, rfl⟩ := hp
  rw [List.sum_append] at hsum
  simp only [List.forall_mem_append] at hsign
  rw [inRange_iff] at hsum ⊢
  rcases hsign with ⟨hfirst, hrest⟩ | ⟨hfirst, hrest⟩
  · have hfirst' := List.sum_nonneg hfirst
    have hrest' := List.sum_nonneg hrest
    omega
  · have hfirst' := List.sum_le_card_nsmul p 0 hfirst
    have hrest' := List.sum_le_card_nsmul rest 0 hrest
    rw [nsmul_zero] at hfirst' hrest'
    omega

/-- For operands of one sign, the sum itself decides whether all partial sums are in range. -/
theorem inRange_inits_iff {ns : List Int} (hsign : (∀ n ∈ ns, 0 ≤ n) ∨ ∀ n ∈ ns, n ≤ 0) :
    (∀ p ∈ ns.inits, InRange p.sum) ↔ InRange ns.sum := by
  constructor
  · intro hall
    exact hall ns ((List.mem_inits ns ns).2 (List.prefix_refl ns))
  · intro hsum p hp
    exact inRange_prefix hsign ((List.mem_inits p ns).1 hp) hsum

end Arithmetic

namespace Eval

open Arithmetic

variable {ev : Evaluator} {args : List Expr} {E F : Env} {ns : List Int}

theorem result_sum (h : Values ev args E (ns.map .int) F) :
    (builtin ev .add args E).result =
      if ∀ p ∈ ns.inits, InRange p.sum then .ok (.int ns.sum)
      else .error (.arithmetic .overflow) := by
  have hexact : (builtin ev .add args E).result = (Operation.exact .add ns).map .int :=
    result_builtin_int .add h trivial nofun
  rw [hexact, Operation.exact]
  split
  · rfl
  · rfl

theorem result_product (h : Values ev args E (ns.map .int) F) :
    (builtin ev .mul args E).result =
      if ∀ p ∈ ns.inits, InRange p.prod then .ok (.int ns.prod)
      else .error (.arithmetic .overflow) := by
  have hexact : (builtin ev .mul args E).result = (Operation.exact .mul ns).map .int :=
    result_builtin_int .mul h trivial nofun
  rw [hexact, Operation.exact]
  split
  · rfl
  · rfl

/-- **Sums and products are exact, or overflow on the way.** Of integers, the result is the sum or
product of all, if the partial results from the left are in range, and an overflow otherwise.  Two
orders of the same integers that both have a result have the same one.  If all the integers of a sum
have the same sign, one order overflows exactly if the other does. -/
theorem builtin_sum_product (h : Values ev args E (ns.map .int) F) :
    let sum := (builtin ev .add args E).result
    let product := (builtin ev .mul args E).result
    sum = (if ∀ p ∈ ns.inits, InRange p.sum then .ok (.int ns.sum)
      else .error (.arithmetic .overflow)) ∧
    product = (if ∀ p ∈ ns.inits, InRange p.prod then .ok (.int ns.prod)
      else .error (.arithmetic .overflow)) ∧
    ∀ {ev' : Evaluator} {args' : List Expr} {E' F' : Env} {ns' : List Int},
      Values ev' args' E' (ns'.map .int) F' → ns.Perm ns' →
      let sum' := (builtin ev' .add args' E').result
      let product' := (builtin ev' .mul args' E').result
      (∀ v v', sum = .ok v → sum' = .ok v' → v = v') ∧
      (∀ v v', product = .ok v → product' = .ok v' → v = v') ∧
      ((∀ n ∈ ns, 0 ≤ n) ∨ (∀ n ∈ ns, n ≤ 0) →
        (sum = .error (.arithmetic .overflow) ↔ sum' = .error (.arithmetic .overflow))) := by
  intro sum product
  refine ⟨result_sum h, result_product h, ?_⟩
  intro ev' args' E' F' ns' h' hperm sum' product'
  refine ⟨?_, ?_, ?_⟩
  · intro v v' hv hv'
    have hsum := (Operation.ite_eq_ok_iff.1 ((result_sum h).symm.trans hv)).2
    have hsum' := (Operation.ite_eq_ok_iff.1 ((result_sum h').symm.trans hv')).2
    rw [← hsum, ← hsum', hperm.sum_eq]
  · intro v v' hv hv'
    have hprod := (Operation.ite_eq_ok_iff.1 ((result_product h).symm.trans hv)).2
    have hprod' := (Operation.ite_eq_ok_iff.1 ((result_product h').symm.trans hv')).2
    rw [← hprod, ← hprod', hperm.prod_eq]
  · intro hsign
    have hsign' : (∀ n ∈ ns', 0 ≤ n) ∨ ∀ n ∈ ns', n ≤ 0 := by
      simpa only [hperm.mem_iff] using hsign
    show (builtin ev .add args E).result = _ ↔ (builtin ev' .add args' E').result = _
    rw [result_sum h, result_sum h', Operation.ite_eq_error_iff, Operation.ite_eq_error_iff,
      inRange_inits_iff hsign, inRange_inits_iff hsign', hperm.sum_eq]

/-- The order of a sum matters if it has operands of both signs: the greatest integer, its successor
and back again overflows, and the other way round it does not.  Of two orders of operands that are
not negative, both overflow. -/
theorem builtin_sum_product_orders :
    let E := Env.fresh 9
    let add (ns : List Int) := (builtin (evaluate {}) .add (ns.map .int) E).result
    add [maxInt, 1, -1] = .error (.arithmetic .overflow) ∧ add [maxInt, -1, 1] = .ok (.int maxInt) ∧
      (add [maxInt, 1, 0] = .error (.arithmetic .overflow) ↔
        add [0, 1, maxInt] = .error (.arithmetic .overflow)) := by
  intro E add
  have hvalues : ∀ ns : List Int, Values (evaluate {}) (ns.map .int) E (ns.map .int) E := by
    intro ns
    induction ns with
    | nil => exact .nil E
    | cons n rest ih => exact .cons rfl ih
  have hperm : [maxInt, 1, 0].Perm [0, 1, maxInt] := by decide
  refine ⟨?_, ?_, ?_⟩
  · exact (builtin_sum_product (hvalues _)).1.trans (if_neg (by decide))
  · exact (builtin_sum_product (hvalues _)).1.trans (if_pos (by decide))
  · have hboth := (builtin_sum_product (hvalues [maxInt, 1, 0])).2.2 (hvalues [0, 1, maxInt]) hperm
    exact hboth.2.2 (.inl (by decide))

end Eval

end Lisp
