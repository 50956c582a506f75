/-
# Arithmetical operations

The five arithmetical operators share one manner of working: they evaluate all their operands from
left to right, and then look at the values, which have to be numbers.  So what an operation does is
told by its answer to a list of values, and on integers of 64 bits this is its exact result, if that
is in range.

* `Operation`, `Operation.exact` : the operators, and their results on integers;
* `Operation.compute?`, `Operation.answer` : their results on numbers, and on any values;
* `Operation.answer_map_int` : on integers, the answer is the exact result;
* `Eval.builtin_operation` : the operands are all evaluated before any value is looked at.
-/
import Mathlib.Data.List.Infix
import Lisp.Proofs.Overflow

namespace Lisp

/-! ## Operations on integers -/

/-- The arithmetical operations. -/
inductive Operation where
  | add
  | mul
  | sub
  | div
  | rem
  deriving DecidableEq

namespace Operation

/-- The operator that stands for an operation. -/
def operator : Operation → Operator
  | add => .add
  | mul => .mul
  | sub => .sub
  | div => .div
  | rem => .rem

/-- Whether an operation can have so many operands. -/
def Takes : Operation → Nat → Prop
  | add, _ | mul, _ => True
  | sub, count | div, count | rem, count => count = 2

instance : (op : Operation) → (count : Nat) → Decidable (op.Takes count)
  | add, _ | mul, _ => .isTrue trivial
  | sub, count | div, count | rem, count => inferInstanceAs (Decidable (count = 2))

/-- The result of an operation on integers.  It is exact: the sum or product if all partial results
from the left are in range, the difference, and the quotient that is rounded toward zero with its
remainder, which both fail if that quotient is out of range. -/
def exact : Operation → List Int → Except EvalError Int
  | add, ns =>
    if ∀ p ∈ ns.inits, InRange p.sum then .ok ns.sum else .error (.arithmetic .overflow)
  | mul, ns =>
    if ∀ p ∈ ns.inits, InRange p.prod then .ok ns.prod else .error (.arithmetic .overflow)
  | sub, [a, b] => if InRange (a - b) then .ok (a - b) else .error (.arithmetic .overflow)
  | div, [a, b] =>
    if b = 0 then .error (.arithmetic .divisionByZero)
    else if InRange (a.tdiv b) then .ok (a.tdiv b) else .error (.arithmetic .overflow)
  | rem, [a, b] =>
    if b = 0 then .error (.arithmetic .divisionByZero)
    else if InRange (a.tdiv b) then .ok (a.tmod b) else .error (.arithmetic .overflow)
  | sub, ns | div, ns | rem, ns => .error (.argumentCount 2 ns.length)

end Operation

/-! ## Arithmetic on integers -/

namespace Arithmetic

theorem result_checked (n : Int) :
    result (checked n) = if InRange n then .ok (.int n) else .error .overflow := by
  by_cases h : InRange n
  · rw [if_pos h, checked_of_inRange h, result, Number.ofInt_of_inRange h]
  · rw [if_neg h, checked_of_not_inRange h, result]

/-- A checked fold over integers is the exact one if all partial results are in range. -/
theorem result_foldChecked (f : Int → Int → Int) {acc : Int} (hacc : InRange acc) (ns : List Int) :
    result (foldChecked f acc ns) =
      if ∀ p ∈ ns.inits, InRange (p.foldl f acc) then .ok (.int (ns.foldl f acc))
      else .error .overflow := by
  rcases foldChecked_cases f hacc ns with ⟨hok, hall⟩ | ⟨herr, p, hp, hout⟩
  · rw [if_pos fun p hp => hall p ((List.mem_inits p ns).1 hp), hok, result,
      Number.ofInt_of_inRange (hall ns (List.prefix_refl ns))]
  · rw [if_neg fun hall => hout (hall p ((List.mem_inits p ns).2 hp)), herr, result]

/-- A sum of integers is exact if all partial sums are in range. -/
theorem sum_map_int (ns : List Int) :
    sum (ns.map .int) =
      if ∀ p ∈ ns.inits, InRange p.sum then .ok (.int ns.sum) else .error .overflow := by
  simp only [sum, integers?_map_int, List.sum_eq_foldl]
  exact result_foldChecked (· + ·) (by decide) ns

/-- A product of integers is exact if all partial products are in range. -/
theorem product_map_int (ns : List Int) :
    product (ns.map .int) =
      if ∀ p ∈ ns.inits, InRange p.prod then .ok (.int ns.prod) else .error .overflow := by
  simp only [product, integers?_map_int, List.prod_eq_foldl]
  exact result_foldChecked (· * ·) (by decide) ns

/-- The remainder fails where the quotient does, and otherwise it is in range itself. -/
theorem remainder_int {a b : Int} (ha : InRange a) (hb : b ≠ 0) :
    remainder (.int a) (.int b) =
      if InRange (a.tdiv b) then .ok (.int (a.tmod b)) else .error .overflow := by
  by_cases h : InRange (a.tdiv b)
  · have hne : ¬ (a = minInt ∧ b = -1) := by
      rintro ⟨rfl, rfl⟩
      exact absurd h (by decide)
    rw [if_pos h, remainder, if_neg hb, if_neg hne, result,
      Number.ofInt_of_inRange (inRange_intRemainder ha b), intRemainder_eq_tmod]
  · rw [if_neg h, remainder_overflow ha h]

end Arithmetic

/-! ## Answers -/

namespace Operation

open Arithmetic

/-- The result of an operation on numbers, if it takes so many. -/
def compute? : Operation → List Number → Option (Except NumberError Number)
  | add, ns => some (sum ns)
  | mul, ns => some (product ns)
  | sub, [m, n] => some (difference m n)
  | div, [m, n] => some (quotient m n)
  | rem, [m, n] => some (remainder m n)
  | sub, _ | div, _ | rem, _ => none

/-- What an operation makes of the values of its operands, which have to be numbers. -/
def answer (op : Operation) (values : List Expr) : Except EvalError Expr :=
  match (Eval.numbers? values).bind op.compute? with
  | some r => (r.mapError .arithmetic).map .number
  | none => .error .notANumber

theorem compute?_eq_none {op : Operation} {ns : List Number} (h : ¬ op.Takes ns.length) :
    op.compute? ns = none := by
  unfold compute?
  split
  · exact absurd trivial h
  · exact absurd trivial h
  · exact absurd rfl h
  · exact absurd rfl h
  · exact absurd rfl h
  · rfl
  · rfl
  · rfl

theorem answer_of_compute? {op : Operation} {values : List Expr} {ns : List Number}
    {r : Except NumberError Number} (hns : Eval.numbers? values = some ns)
    (hr : op.compute? ns = some r) : op.answer values = (r.mapError .arithmetic).map .number := by
  rw [answer, hns, Option.bind_some, hr]

theorem numbers?_map_int (ns : List Int) : Eval.numbers? (ns.map .int) = some (ns.map .int) := by
  rw [Eval.map_int, Eval.numbers?_map_number]

/-- A result that is an integer under some condition. -/
theorem map_ite_int {p : Prop} [Decidable p] (n : Int) (cause : NumberError) :
    ((if p then .ok (.int n) else .error cause : Except NumberError Number).mapError
        EvalError.arithmetic).map Expr.number =
      (if p then .ok n else .error (.arithmetic cause) : Except EvalError Int).map .int := by
  by_cases h : p
  · rw [if_pos h, if_pos h]
    rfl
  · rw [if_neg h, if_neg h]
    rfl

/-- On integers, an operation answers with its exact result.  Only the remainder relies on them to
be in range. -/
theorem answer_map_int {op : Operation} {ns : List Int} (htakes : op.Takes ns.length)
    (hns : op = rem → ∀ n ∈ ns, InRange n) :
    op.answer (ns.map .int) = (op.exact ns).map .int := by
  have hnumbers := numbers?_map_int ns
  cases op with
  | add => rw [answer_of_compute? hnumbers rfl, sum_map_int, map_ite_int, exact]
  | mul => rw [answer_of_compute? hnumbers rfl, product_map_int, map_ite_int, exact]
  | sub =>
    obtain ⟨a, b, rfl⟩ := List.length_eq_two.1 htakes
    rw [answer_of_compute? hnumbers rfl, difference, result_checked, map_ite_int, exact]
  | div =>
    obtain ⟨a, b, rfl⟩ := List.length_eq_two.1 htakes
    rw [answer_of_compute? hnumbers rfl, quotient, exact]
    by_cases hb : b = 0
    · rw [if_pos hb, if_pos hb]
      rfl
    · rw [if_neg hb, if_neg hb, result_checked, intQuotient_eq_tdiv, map_ite_int]
  | rem =>
    obtain ⟨a, b, rfl⟩ := List.length_eq_two.1 htakes
    rw [answer_of_compute? hnumbers rfl, exact]
    by_cases hb : b = 0
    · rw [remainder, if_pos hb, if_pos hb]
      rfl
    · rw [remainder_int (hns rfl a List.mem_cons_self) hb, if_neg hb, map_ite_int]

/-- A guarded value is given exactly if the guard holds. -/
theorem ite_eq_ok_iff {α : Type} {p : Prop} [Decidable p] {a b : α} {err : EvalError} :
    (if p then Except.ok a else .error err) = .ok b ↔ p ∧ a = b := by
  by_cases h : p <;> simp [h]

theorem ite_eq_error_iff {α : Type} {p : Prop} [Decidable p] {a : α} {err err' : EvalError} :
    (if p then Except.ok a else .error err) = .error err' ↔ ¬ p ∧ err = err' := by
  by_cases h : p <;> simp [h]

/-- Operations on integers in range give integers in range. -/
theorem inRange_of_exact {op : Operation} {ns : List Int} {n : Int} (hns : ∀ m ∈ ns, InRange m)
    (h : op.exact ns = .ok n) : InRange n := by
  have hself : ns ∈ ns.inits := (List.mem_inits ns ns).2 (List.prefix_refl ns)
  unfold exact at h
  split at h
  · obtain ⟨hall, rfl⟩ := ite_eq_ok_iff.1 h
    exact hall ns hself
  · obtain ⟨hall, rfl⟩ := ite_eq_ok_iff.1 h
    exact hall ns hself
  · obtain ⟨hin, rfl⟩ := ite_eq_ok_iff.1 h
    exact hin
  · split at h
    · simp at h
    · obtain ⟨hin, rfl⟩ := ite_eq_ok_iff.1 h
      exact hin
  · split at h
    · simp at h
    · obtain ⟨-, rfl⟩ := ite_eq_ok_iff.1 h
      rw [← intRemainder_eq_tmod]
      exact inRange_intRemainder (hns _ List.mem_cons_self) _
  · simp at h
  · simp at h
  · simp at h

end Operation

namespace Eval

open EvalM

/-! ## One operation -/

/-- An operation on two operands evaluates them as one on any number does, and then looks whether
there are two numbers. -/
theorem binary_pair (op : Number → Number → Except NumberError Number) (ev : Evaluator)
    (a b : Expr) :
    binary op ev [a, b] = evalAll ev [a, b] >>= fun values =>
      match numbers? values with
      | some [m, n] => ofNumber (op m n)
      | _ => fail .notANumber := by
  funext E
  simp only [binary, evalAll, bind_apply, pure_apply]
  cases (ev a E).result with
  | error err => rfl
  | ok x =>
    cases (ev b (ev a E).env).result with
    | error err => rfl
    | ok y => cases x <;> cases y <;> simp [numbers?, fail]

section Answer

variable {op : Operation} {values : List Expr}

/-- Numbers are answered with what the operation computes of them. -/
theorem ofNumber_eq_ask {ns : List Number} {r : Except NumberError Number}
    (hns : numbers? values = some ns) (hr : op.compute? ns = some r) :
    ofNumber r = ask fun _ => op.answer values := by
  rw [Operation.answer_of_compute? hns hr]
  cases r with
  | ok n => rfl
  | error cause => rfl

/-- The refusal of values that are no numbers is the answer to them. -/
theorem fail_eq_ask (h : (numbers? values).bind op.compute? = none) :
    fail .notANumber = ask fun _ => op.answer values := by
  rw [Operation.answer, h]
  rfl

/-- An operation on any number of operands evaluates them all and answers their values. -/
theorem variadic_eq_ask {f : List Number → Except NumberError Number}
    (hf : ∀ ns, op.compute? ns = some (f ns)) (ev : Evaluator) (args : List Expr) :
    variadic f ev args = evalAll ev args >>= fun values => ask fun _ => op.answer values := by
  unfold variadic
  congr 1
  funext values
  cases hvalues : numbers? values with
  | none => exact fail_eq_ask (by rw [hvalues, Option.bind_none])
  | some ns => exact ofNumber_eq_ask hvalues (hf ns)

/-- So does an operation on two operands, though it evaluates them one by one. -/
theorem binary_eq_ask {f : Number → Number → Except NumberError Number}
    (hf : ∀ m n, op.compute? [m, n] = some (f m n)) (htwo : ∀ count, op.Takes count → count = 2)
    (ev : Evaluator) {args : List Expr} (htakes : op.Takes args.length) :
    binary f ev args = evalAll ev args >>= fun values => ask fun _ => op.answer values := by
  obtain ⟨a, b, rfl⟩ := List.length_eq_two.1 (htwo _ htakes)
  rw [binary_pair]
  congr 1
  funext values
  split
  · next m n hvalues => exact ofNumber_eq_ask hvalues (hf m n)
  · next hother =>
    -- Other values than two numbers are refused, and another number of numbers is too.
    refine fail_eq_ask ?_
    cases hvalues : numbers? values with
    | none => rw [Option.bind_none]
    | some ns =>
      rw [Option.bind_some]
      refine Operation.compute?_eq_none fun hns => ?_
      obtain ⟨m, n, rfl⟩ := List.length_eq_two.1 (htwo _ hns)
      exact hother m n hvalues

end Answer

/-- **All operands come first.** An operation on as many operands as it takes evaluates all of them
from left to right, and then answers by their values alone. -/
theorem builtin_operation (ev : Evaluator) (op : Operation) {args : List Expr}
    (htakes : op.Takes args.length) :
    builtin ev op.operator args =
      evalAll ev args >>= fun values => ask fun _ => op.answer values := by
  cases op with
  | add => exact variadic_eq_ask (fun _ => rfl) ev args
  | mul => exact variadic_eq_ask (fun _ => rfl) ev args
  | sub => exact binary_eq_ask (fun _ _ => rfl) (fun _ => id) ev htakes
  | div => exact binary_eq_ask (fun _ _ => rfl) (fun _ => id) ev htakes
  | rem => exact binary_eq_ask (fun _ _ => rfl) (fun _ => id) ev htakes

end Eval

end Lisp
