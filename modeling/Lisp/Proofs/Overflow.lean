/-
# Integers stay within 64 bits

The reader yields no integer that needs more than 64 bits, and arithmetic checks what it computes:
the partial results of a sum or product, the difference and the quotient.  The remainder needs no
check, since it is no larger than the dividend.  So whatever is computed from integers of 64 bits is
one, or an overflow is reported, and no number is ever made of an integer out of range.

* `Arithmetic.foldChecked_cases` : a checked fold is exact, or a partial result is out of range;
* `Arithmetic.Reaches`, `Arithmetic.Overflows` : the integers that an operation comes across;
* `Eval.Computes.bounded` : operations on numbers that fit give numbers that fit, or report why not;
* `Eval.builtin_overflow` : an operation that leaves the range is reported;
* `Eval.evaluate_fits` : reading and evaluating keep to the range.
-/
import Mathlib.Algebra.BigOperators.Group.List.Basic
import Lisp.Proofs.Lockstep
import Lisp.Proofs.RoundTrip

namespace Lisp

/-! ## Checked folds -/

namespace Arithmetic

/-- What is in range passes the check. -/
theorem checked_of_inRange {n : Int} (h : InRange n) : checked n = .ok n := if_pos h

/-- What is out of range does not. -/
theorem checked_of_not_inRange {n : Int} (h : ¬ InRange n) : checked n = .error .overflow :=
  if_neg h

/-- Either every partial result is in range and the fold is the exact one, or one of them is not and
an overflow is reported.  By induction on the integers, with the first one taken into the partial
result. -/
theorem foldChecked_cases (f : Int → Int → Int) {acc : Int} (hacc : InRange acc) (ns : List Int) :
    (foldChecked f acc ns = .ok (ns.foldl f acc) ∧ ∀ p, p <+: ns → InRange (p.foldl f acc)) ∨
      (foldChecked f acc ns = .error .overflow ∧ ∃ p, p <+: ns ∧ ¬ InRange (p.foldl f acc)) := by
  induction ns generalizing acc with
  | nil =>
    refine .inl ⟨rfl, fun p hp => ?_⟩
    rw [List.prefix_nil.1 hp]
    exact hacc
  | cons n rest ih =>
    by_cases hn : InRange (f acc n)
    · have hstep : foldChecked f acc (n :: rest) = foldChecked f (f acc n) rest := by
        rw [foldChecked, checked_of_inRange hn]
      rw [hstep]
      rcases ih hn with ⟨hok, hall⟩ | ⟨herr, p, hp, hout⟩
      · refine .inl ⟨hok, fun p hp => ?_⟩
        rcases List.prefix_cons_iff.1 hp with rfl | ⟨q, rfl, hq⟩
        · exact hacc
        · exact hall q hq
      · exact .inr ⟨herr, n :: p, List.prefix_cons_inj n |>.2 hp, hout⟩
    · have hstep : foldChecked f acc (n :: rest) = .error .overflow := by
        rw [foldChecked, checked_of_not_inRange hn]
      exact .inr ⟨hstep, [n], List.prefix_cons_inj n |>.2 List.nil_prefix, hn⟩

/-! ## Quotients and remainders -/

/-- A negative integer is the opposite of its absolute value, and any other one is its own. -/
theorem natAbs_cases (n : Int) :
    n < 0 ∧ (n.natAbs : Int) = -n ∨ ¬ n < 0 ∧ (n.natAbs : Int) = n := by
  omega

/-- **The quotient is rounded toward zero.** The sign that the absolute values have lost is put back
in each of the four cases. -/
theorem intQuotient_eq_tdiv (a b : Int) : intQuotient a b = a.tdiv b := by
  rw [intQuotient, Int.ofNat_tdiv]
  rcases natAbs_cases a with ⟨ha, ha'⟩ | ⟨ha, ha'⟩
  · rcases natAbs_cases b with ⟨hb, hb'⟩ | ⟨hb, hb'⟩
    · simp [ha, hb, ha', hb', Int.neg_tdiv, Int.tdiv_neg]
    · simp [ha, hb, ha', hb', Int.neg_tdiv]
  · rcases natAbs_cases b with ⟨hb, hb'⟩ | ⟨hb, hb'⟩
    · simp [ha, hb, ha', hb', Int.tdiv_neg]
    · simp [ha, hb, ha', hb']

/-- The remainder is the one of that quotient.  Its sign does not depend on the divisor. -/
theorem intRemainder_eq_tmod (a b : Int) : intRemainder a b = a.tmod b := by
  have hdivisor : (a.natAbs : Int).tmod b.natAbs = (a.natAbs : Int).tmod b := by
    rcases natAbs_cases b with ⟨-, hb'⟩ | ⟨-, hb'⟩
    · rw [hb', Int.tmod_neg]
    · rw [hb']
  rw [intRemainder, Int.ofNat_tmod, hdivisor]
  rcases natAbs_cases a with ⟨ha, ha'⟩ | ⟨ha, ha'⟩
  · simp [ha, ha', Int.neg_tmod]
  · simp [ha, ha']

/-- The remainder lies between zero and the dividend. -/
theorem inRange_intRemainder {a : Int} (ha : InRange a) (b : Int) : InRange (intRemainder a b) := by
  have hle : a.natAbs % b.natAbs ≤ a.natAbs := Nat.mod_le _ _
  rw [intRemainder]
  rw [inRange_iff] at ha ⊢
  split
  · omega
  · omega

/-- The quotient of integers in range is out of range in one case only. -/
theorem eq_of_not_inRange_intQuotient {a b : Int} (ha : InRange a)
    (h : ¬ InRange (intQuotient a b)) : a = minInt ∧ b = -1 := by
  rw [intQuotient_eq_tdiv] at h
  rw [inRange_iff] at ha h
  by_cases hone : b.natAbs = 1
  · rcases (by omega : b = 1 ∨ b = -1) with rfl | rfl
    · rw [Int.tdiv_one] at h
      omega
    · rw [Int.tdiv_neg, Int.tdiv_one] at h
      exact ⟨by unfold minInt; omega, rfl⟩
  · -- A divisor other than one halves the dividend at least.
    exfalso
    have hhalf : a.natAbs / b.natAbs ≤ a.natAbs / 2 := by
      rcases Nat.eq_zero_or_pos b.natAbs with hzero | hpos
      · rw [hzero, Nat.div_zero]
        exact Nat.zero_le _
      · exact Nat.div_le_div_left (by omega) (by decide)
    have habs : (a.tdiv b).natAbs = a.natAbs / b.natAbs := Int.natAbs_tdiv a b
    omega

/-! ## Doubles -/

/-- **The quotient of doubles never fails.** The machine is asked for it only where the divisor is
not zero. -/
theorem exists_floatQuotient (x y : Float) : ∃ z, floatQuotient x y = .ok z := by
  unfold floatQuotient
  split
  · next hy =>
    have hnot : ¬ (y == 0.0) = true := by simpa [bne] using hy
    rw [machineQuotient, if_neg hnot]
    exact ⟨_, rfl⟩
  · split
    · exact ⟨_, rfl⟩
    · exact ⟨_, rfl⟩

/-- The machine refuses a remainder for its lack of a meaning only. -/
theorem machineRemainder_cases (x y : Float) :
    (∃ z, machineRemainder x y = .ok z) ∨ machineRemainder x y = .error .remainder := by
  unfold machineRemainder
  split
  · exact .inl ⟨_, rfl⟩
  · split
    · exact .inr rfl
    · split
      · exact .inl ⟨_, rfl⟩
      · exact .inl ⟨_, rfl⟩

/-- **The remainder of doubles never fails.** The one refusal that there can be is taken for a NaN.
-/
theorem exists_floatRemainder (x y : Float) : ∃ z, floatRemainder x y = .ok z := by
  rcases machineRemainder_cases x y with ⟨z, h⟩ | h
  · exact ⟨z, by rw [floatRemainder, h]⟩
  · exact ⟨Binary.nan, by rw [floatRemainder, h]⟩

/-! ## Leaving the range -/

/-- The integers that an operation on integers comes across: the partial sums or products from the
left, the difference, the quotient.  The remainder goes with the quotient. -/
inductive Reaches : Operator → List Int → Int → Prop
  | sum {p ns : List Int} : p <+: ns → Reaches .add ns p.sum
  | product {p ns : List Int} : p <+: ns → Reaches .mul ns p.prod
  | difference (a b : Int) : Reaches .sub [a, b] (a - b)
  | quotient (a : Int) {b : Int} : b ≠ 0 → Reaches .div [a, b] (a.tdiv b)
  | remainder (a : Int) {b : Int} : b ≠ 0 → Reaches .rem [a, b] (a.tdiv b)

/-- An operation on integers that comes across one out of range. -/
def Overflows (op : Operator) (ns : List Int) : Prop := ∃ n, Reaches op ns n ∧ ¬ InRange n

/-- Integers are all found to be such. -/
theorem integers?_map_int (ns : List Int) : integers? (ns.map .int) = some ns := by
  induction ns with
  | nil => rfl
  | cons n rest ih => rw [List.map_cons, integers?, ih, Option.map_some]

/-- A partial result out of range is reported. -/
theorem foldChecked_overflow {f : Int → Int → Int} {acc : Int} (hacc : InRange acc)
    {p ns : List Int} (hp : p <+: ns) (hout : ¬ InRange (p.foldl f acc)) :
    foldChecked f acc ns = .error .overflow := by
  rcases foldChecked_cases f hacc ns with ⟨-, hall⟩ | ⟨herr, -⟩
  · exact absurd (hall p hp) hout
  · exact herr

/-- A partial sum out of range is reported. -/
theorem sum_overflow {p ns : List Int} (hp : p <+: ns) (hout : ¬ InRange p.sum) :
    sum (ns.map .int) = .error .overflow := by
  rw [List.sum_eq_foldl] at hout
  simp only [sum, integers?_map_int, foldChecked_overflow (by decide) hp hout, result]

/-- A partial product out of range is reported. -/
theorem product_overflow {p ns : List Int} (hp : p <+: ns) (hout : ¬ InRange p.prod) :
    product (ns.map .int) = .error .overflow := by
  rw [List.prod_eq_foldl] at hout
  simp only [product, integers?_map_int, foldChecked_overflow (by decide) hp hout, result]

/-- A difference out of range is reported. -/
theorem difference_overflow {a b : Int} (hout : ¬ InRange (a - b)) :
    difference (.int a) (.int b) = .error .overflow := by
  simp only [difference, checked_of_not_inRange hout, result]

/-- A quotient out of range is reported. -/
theorem quotient_overflow {a b : Int} (hb : b ≠ 0) (hout : ¬ InRange (a.tdiv b)) :
    quotient (.int a) (.int b) = .error .overflow := by
  rw [← intQuotient_eq_tdiv] at hout
  simp only [quotient, if_neg hb, checked_of_not_inRange hout, result]

/-- A remainder is reported where the quotient is out of range, though it is in range itself. -/
theorem remainder_overflow {a b : Int} (ha : InRange a) (hout : ¬ InRange (a.tdiv b)) :
    remainder (.int a) (.int b) = .error .overflow := by
  rw [← intQuotient_eq_tdiv] at hout
  obtain ⟨rfl, rfl⟩ := eq_of_not_inRange_intQuotient ha hout
  rfl

end Arithmetic

/-! ## Numbers that fit -/

/-- A number that 64 bits can hold, as they can every double. -/
def Number.Fits : Number → Prop
  | int n => InRange n
  | float _ => True

namespace Arithmetic

/-- An operation that keeps to 64 bits: its result fits, and if there is none, this is not because
there was to be a number where the machine makes none. -/
def Bounded (r : Except NumberError Number) : Prop :=
  (∀ n, r = .ok n → n.Fits) ∧ ∀ cause, r ≠ .error (.unrepresentable cause)

/-- Doubles are always within 64 bits. -/
theorem bounded_float (x : Float) : Bounded (.ok (.float x)) :=
  ⟨by rintro _ ⟨⟩; trivial, nofun⟩

/-- So are the errors that are reported. -/
theorem bounded_error {err : NumberError} (h : ∀ cause, err ≠ .unrepresentable cause) :
    Bounded (.error err) :=
  ⟨nofun, fun cause heq => h cause (Except.error.inj heq)⟩

/-- The number of an integer in range. -/
theorem bounded_result_ok {n : Int} (h : InRange n) : Bounded (result (.ok n)) := by
  simp only [result, Number.ofInt_of_inRange h]
  exact ⟨by rintro _ ⟨⟩; exact h, nofun⟩

/-- The number of a checked integer. -/
theorem bounded_result_checked (n : Int) : Bounded (result (checked n)) := by
  by_cases h : InRange n
  · rw [checked_of_inRange h]
    exact bounded_result_ok h
  · rw [checked_of_not_inRange h]
    exact bounded_error nofun

/-- The number of integers combined with a check at each step. -/
theorem bounded_result_foldChecked (f : Int → Int → Int) {acc : Int} (hacc : InRange acc)
    (ns : List Int) : Bounded (result (foldChecked f acc ns)) := by
  rcases foldChecked_cases f hacc ns with ⟨hok, hall⟩ | ⟨herr, -⟩
  · rw [hok]
    exact bounded_result_ok (hall ns (List.prefix_refl ns))
  · rw [herr]
    exact bounded_error nofun

/-- Sums keep to 64 bits. -/
theorem bounded_sum (ns : List Number) : Bounded (sum ns) := by
  unfold sum
  split
  · exact bounded_result_foldChecked _ (by decide) _
  · exact bounded_float _

/-- Products keep to 64 bits. -/
theorem bounded_product (ns : List Number) : Bounded (product ns) := by
  unfold product
  split
  · exact bounded_result_foldChecked _ (by decide) _
  · exact bounded_float _

/-- Differences keep to 64 bits. -/
theorem bounded_difference (m n : Number) : Bounded (difference m n) := by
  unfold difference
  split
  · exact bounded_result_checked _
  · exact bounded_float _

/-- The number of a double, if the operation on doubles gave one. -/
theorem bounded_floatResult {r : Except Unrepresentable Float} (h : ∃ x, r = .ok x) :
    Bounded (floatResult r) := by
  obtain ⟨x, rfl⟩ := h
  exact bounded_float x

/-- Quotients keep to 64 bits. -/
theorem bounded_quotient (m n : Number) : Bounded (quotient m n) := by
  unfold quotient
  split
  · split
    · exact bounded_error nofun
    · exact bounded_result_checked _
  · exact bounded_floatResult (exists_floatQuotient _ _)

/-- The only operation that relies on its operands: the remainder itself is not checked. -/
theorem bounded_remainder {m : Number} (hm : m.Fits) (n : Number) : Bounded (remainder m n) := by
  unfold remainder
  split
  · split
    · exact bounded_error nofun
    · split
      · exact bounded_error nofun
      · exact bounded_result_ok (inRange_intRemainder hm _)
  · exact bounded_floatResult (exists_floatRemainder _ _)

end Arithmetic

namespace Expr

/-- An atom that is no integer out of range. -/
def NumberFits : Expr → Prop
  | number n => n.Fits
  | _ => True

instance : DecidablePred NumberFits
  | number (.int n) => inferInstanceAs (Decidable (InRange n))
  | number (.float _) | name _ | text _ | operator _ | boolean _ | quoted _ | form _ =>
    .isTrue trivial

/-- An expression all of whose integers fit in 64 bits, also inside quoted data. -/
def Fits (e : Expr) : Prop := e.Every NumberFits

instance : DecidablePred Fits := fun e => decidableEvery NumberFits e

end Expr

namespace Eval

open EvalM Arithmetic

/-- Over numbers that fit, every operation keeps to 64 bits. -/
theorem Computes.bounded {ns : List Number} {r : Except NumberError Number} (h : Computes ns r)
    (hns : ∀ m ∈ ns, m.Fits) : Bounded r := by
  cases h with
  | sum => exact bounded_sum ns
  | product => exact bounded_product ns
  | difference m n => exact bounded_difference m n
  | quotient m n => exact bounded_quotient m n
  | remainder m n => exact bounded_remainder (hns m List.mem_cons_self) n

/-- No operator leads out of the range. -/
theorem closed_fits : Closed Expr.Fits :=
  closed_every trivial fun h hns => (h.bounded hns).1 _ rfl

end Eval

/-- Over integers in range, no operator fails to make a number. -/
theorem EvalError.RaisedOver.ne_unrepresentable {err : EvalError} (h : err.RaisedOver Expr.Fits)
    (cause : Unrepresentable) : err ≠ .arithmetic (.unrepresentable cause) := by
  rintro rfl
  obtain ⟨ns, hcomputes, hns⟩ := h
  exact (hcomputes.bounded hns).2 cause rfl

namespace Eval

open EvalM Arithmetic

/-! ## Operands -/

section Operands

variable {α β : Type} {m : EvalM α} {f : α → EvalM β} {ev : Evaluator} {args : List Expr} {E : Env}

/-- A computation that gave a value is followed by the next one, in the environment it left. -/
theorem result_bind_of_ok {a : α} (h : (m E).result = .ok a) :
    ((m >>= f) E).result = (f a (m E).env).result := by
  rw [bind_apply, h]

/-- If both computations together gave a value, so did the first one. -/
theorem exists_of_result_bind_eq_ok {b : β} (h : ((m >>= f) E).result = .ok b) :
    ∃ a, (m E).result = .ok a ∧ (f a (m E).env).result = .ok b := by
  cases hm : (m E).result with
  | ok a => exact ⟨a, rfl, by rwa [result_bind_of_ok hm] at h⟩
  | error err => simp [bind_apply, hm] at h

/-- The values of some arguments are the value of the first one and the values of the others. -/
theorem exists_of_evalAll_cons {e : Expr} {values : List Expr}
    (h : (evalAll ev (e :: args) E).result = .ok values) :
    ∃ value rest, values = value :: rest ∧ (ev e E).result = .ok value ∧
      (evalAll ev args (ev e E).env).result = .ok rest := by
  obtain ⟨value, hvalue, h⟩ := exists_of_result_bind_eq_ok h
  obtain ⟨rest, hrest, h⟩ := exists_of_result_bind_eq_ok h
  exact ⟨value, rest, (Except.ok.inj h).symm, hvalue, hrest⟩

theorem numbers?_map_number (ns : List Number) : numbers? (ns.map .number) = some ns := by
  induction ns with
  | nil => rfl
  | cons n rest ih => rw [List.map_cons, numbers?, ih, Option.map_some]

/-- The expressions of integers are expressions of numbers. -/
theorem map_int (ns : List Int) : ns.map Expr.int = (ns.map Number.int).map .number := by
  rw [List.map_map]
  rfl

theorem result_ofNumber (r : Except NumberError Number) (E F : Env) :
    (ofNumber r E).result = (ofNumber r F).result := by
  cases r with
  | ok n => rfl
  | error cause => rfl

/-- An operation on any number of operands whose values are numbers. -/
theorem result_variadic {op : List Number → Except NumberError Number} {ns : List Number}
    (h : (evalAll ev args E).result = .ok (ns.map .number)) :
    (variadic op ev args E).result = (ofNumber (op ns) E).result := by
  rw [variadic, result_bind_of_ok h]
  simp only [numbers?_map_number]
  exact result_ofNumber _ _ _

/-- An operation on two operands whose values are numbers. -/
theorem result_binary {op : Number → Number → Except NumberError Number} {m n : Number}
    (h : (evalAll ev args E).result = .ok [.number m, .number n]) :
    (binary op ev args E).result = (ofNumber (op m n) E).result := by
  cases args with
  | nil => simp [evalAll] at h
  | cons a args =>
    obtain ⟨x, xs, hx, ha, h⟩ := exists_of_evalAll_cons h
    obtain ⟨rfl, rfl⟩ := List.cons.inj hx
    cases args with
    | nil => simp [evalAll] at h
    | cons b args =>
      obtain ⟨y, ys, hy, hb, h⟩ := exists_of_evalAll_cons h
      obtain ⟨rfl, rfl⟩ := List.cons.inj hy
      cases args with
      | nil =>
        rw [binary, result_bind_of_ok ha, result_bind_of_ok hb]
        exact result_ofNumber _ _ _
      | cons c args =>
        obtain ⟨z, zs, hz, -⟩ := exists_of_evalAll_cons h
        exact absurd hz nofun

/-- **Leaving the range is reported.** An operation that comes across an integer out of range fails
with an overflow. -/
theorem builtin_overflow {op : Operator} {ns : List Int}
    (h : (evalAll ev args E).result = .ok (ns.map .int)) (hns : ∀ n ∈ ns, InRange n)
    (hop : Overflows op ns) : (builtin ev op args E).result = .error (.arithmetic .overflow) := by
  obtain ⟨n, hreaches, hout⟩ := hop
  cases hreaches with
  | sum hp =>
    rw [map_int] at h
    rw [builtin, result_variadic h, sum_overflow hp hout]
    rfl
  | product hp =>
    rw [map_int] at h
    rw [builtin, result_variadic h, product_overflow hp hout]
    rfl
  | difference a b =>
    rw [builtin, result_binary h, difference_overflow hout]
    rfl
  | quotient a hb =>
    rw [builtin, result_binary h, quotient_overflow hb hout]
    rfl
  | remainder a hb =>
    rw [builtin, result_binary h, remainder_overflow (hns a List.mem_cons_self) hout]
    rfl

end Operands

/-! ## Reading and evaluating -/

/-- The reader yields no integer out of range. -/
theorem fits_of_readable {e : Expr} (h : e.Readable) : e.Fits := by
  refine Expr.every_of_readable (fun a hatom ha => ?_) e h
  cases a with
  | number n =>
    cases n with
    | int n =>
      have hmin : minInt ≤ 0 := by decide
      exact ⟨Int.le_trans hmin ha.1, ha.2⟩
    | float x => trivial
  | quoted | form => exact absurd hatom nofun
  | _ => trivial

/-- Evaluation keeps to integers in range and never makes a number of another one. -/
theorem evaluate_bounded (M : Machine) {e : Expr} {E : Env} (he : e.Fits)
    (hE : E.Inside Expr.Fits) :
    (∀ value, (evaluate M e E).result = .ok value → value.Fits) ∧
      (evaluate M e E).env.Inside Expr.Fits ∧
      ∀ n, (evaluate M e E).result ≠ .error (.arithmetic (.unrepresentable n)) := by
  obtain ⟨hvalue, herror, henv, -⟩ := evaluate_inside (T := fun _ => True) closed_fits
    (fun _ _ _ _ _ => trivial) M he hE trivial
  refine ⟨hvalue, henv, fun n hn => ?_⟩
  rcases herror _ hn with hraised | ⟨limit, hlimit⟩
  · exact hraised.ne_unrepresentable n rfl
  · exact absurd hlimit nofun

/-- The evaluation of an operation that leaves the range, where `left` levels are left for its
operands. -/
theorem evaluate_overflow {M : Machine} {E : Env} {op : Operator} {args : List Expr} {left : Nat}
    {ns : List Int} (hlevels : levels M E = left + 1) (hwired : M.wired op = true)
    (hargs : (evalAll (evalWithin M.wired left) args { E with depth := E.depth + 1 }).result =
      .ok (ns.map .int))
    (hns : ∀ n ∈ ns, InRange n) (hop : Overflows op ns) :
    (evaluate M (.form (.operator op :: args)) E).result = .error (.arithmetic .overflow) := by
  have hevaluate : evaluate M (.form (.operator op :: args)) E =
      within (apply M.wired (evalWithin M.wired left) (.operator op) args) E := by
    rw [evaluate, hlevels]
    rfl
  rw [hevaluate]
  show (apply M.wired (evalWithin M.wired left) (.operator op) args _).result = _
  rw [apply, if_pos hwired]
  exact builtin_overflow hargs hns hop

/-- **Integers stay within 64 bits.** No source is read as an expression with an integer out of
range.  Where neither the expression nor the environment has one, evaluation yields none and leaves
none behind, and it never fails to make a number.  An operation that comes across an integer out of
range, its operands having been evaluated with the levels that are left, is reported as an
overflow. -/
theorem evaluate_fits :
    (∀ levels source e, Reader.parseWithin levels source = .ok e → e.Fits) ∧
    (∀ (M : Machine) (e : Expr) (E : Env), e.Fits → E.Inside Expr.Fits →
      (∀ value, (evaluate M e E).result = .ok value → value.Fits) ∧
      (evaluate M e E).env.Inside Expr.Fits ∧
      ∀ n, (evaluate M e E).result ≠ .error (.arithmetic (.unrepresentable n))) ∧
    ∀ (M : Machine) (E : Env) (op : Operator) (args : List Expr) (left : Nat) (ns : List Int),
      levels M E = left + 1 → M.wired op = true →
      (evalAll (evalWithin M.wired left) args { E with depth := E.depth + 1 }).result =
        .ok (ns.map .int) →
      (∀ n ∈ ns, InRange n) → Overflows op ns →
      (evaluate M (.form (.operator op :: args)) E).result = .error (.arithmetic .overflow) :=
  ⟨fun _ _ _ h => fits_of_readable (Reader.readable_of_parseWithin h).1,
    fun M _ _ he hE => evaluate_bounded M he hE,
    fun _ _ _ _ _ _ hlevels hwired hargs hns hop =>
      evaluate_overflow hlevels hwired hargs hns hop⟩

/-- The successor of the last integer but one fits, and there is none of the last. -/
theorem successor_evaluate_fits :
    let E := (Env.fresh 9).define ⟨"next", ["n"], .form [.operator .add, .name "n", .int 1]⟩
    let call : Expr := .form [.name "next", .int 9223372036854775806]
    E.Inside Expr.Fits ∧ (evaluate {} call E).result = .ok (.int maxInt) ∧
      (Expr.int maxInt).Fits ∧ (evaluate {} call E).env.Inside Expr.Fits ∧
      (evaluate {} (.form [.operator .add, .int maxInt, .int 1]) E).result =
        .error (.arithmetic .overflow) := by
  intro E call
  have hE : E.Inside Expr.Fits :=
    (Env.inside_fresh 9).define ⟨by decide, by decide, by decide⟩
  have hvalue : (evaluate {} call E).result = .ok (.int maxInt) := by rfl
  obtain ⟨hfits, hafter, -⟩ := evaluate_fits.2.1 {} call E (by decide) hE
  have hover : Overflows .add [maxInt, 1] := ⟨_, .sum (List.prefix_refl _), by decide⟩
  exact ⟨hE, hvalue, hfits _ hvalue, hafter,
    evaluate_fits.2.2 {} E .add _ 8 _ rfl rfl rfl (by decide) hover⟩

end Eval

end Lisp
