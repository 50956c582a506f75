/-
# Operands and the kinds of their values

An operation evaluates all its operands, whatever their values are, and only then asks for their
kinds.  A value that is no number is refused wherever it stands.  One double among numbers makes the
result a double, without any error, also where integers would divide by zero or leave the range.
Integers alone give an integer, an overflow or a division by zero.

* `Eval.Values` : operands that all have a value, evaluated one after another;
* `Eval.builtin_of_values` : an operation answers their values, in the environment they leave;
* `Operation.answer_of_not_number`, `Operation.answer_of_float`, `Operation.answer_int_cases` : the
  answers to values by their kinds;
* `Eval.builtin_contagion` : the three cases, for every operation and all operands.
-/
import Lisp.Proofs.Calls
import Lisp.Proofs.Operation

namespace Lisp

/-! ## Evaluated operands -/

namespace Eval

open EvalM

/-- Operands that all have a value, each of them evaluated in the environment that the one before it
left, and the environment that the last one leaves. -/
inductive Values (ev : Evaluator) : List Expr → Env → List Expr → Env → Prop
  | nil (E : Env) : Values ev [] E [] E
  | cons {e value : Expr} {es values : List Expr} {E F : Env} :
      (ev e E).result = .ok value → Values ev es (ev e E).env values F →
      Values ev (e :: es) E (value :: values) F

variable {ev : Evaluator} {args values : List Expr} {E F : Env}

/-- Operands that all have a value are evaluated to these values, in the environment of the last. -/
theorem Values.outcome (h : Values ev args E values F) :
    (evalAll ev args E).result = .ok values ∧ (evalAll ev args E).env = F := by
  induction h with
  | nil E => exact ⟨rfl, rfl⟩
  | cons hvalue _ ih =>
    rw [evalAll, bind_apply, hvalue]
    simp only [bind_pure_apply]
    rw [ih.1]
    exact ⟨rfl, ih.2⟩

theorem Values.length_eq (h : Values ev args E values F) : values.length = args.length := by
  induction h with
  | nil E => rfl
  | cons _ _ ih => rw [List.length_cons, List.length_cons, ih]

/-- An operation on operands that all have a value answers these values, and nothing is undone of
what its operands did. -/
theorem builtin_of_values (op : Operation) (h : Values ev args E values F)
    (htakes : op.Takes args.length) :
    (builtin ev op.operator args E).result = op.answer values ∧
      (builtin ev op.operator args E).env = F := by
  obtain ⟨hresult, henv⟩ := h.outcome
  rw [builtin_operation ev op htakes, bind_apply, hresult]
  exact ⟨rfl, henv⟩

end Eval

/-! ## Kinds of values -/

namespace Arithmetic

variable {ns : List Number} {x : Float}

/-- Operands with a double among them are not all integers. -/
theorem integers?_eq_none (hx : .float x ∈ ns) : integers? ns = none := by
  induction ns with
  | nil => simp at hx
  | cons n rest ih =>
    cases n with
    | float y => rfl
    | int a =>
      have hrest : .float x ∈ rest := by simpa using hx
      rw [integers?, ih hrest, Option.map_none]

/-- A sum with a double in it is a double. -/
theorem sum_of_float (hx : .float x ∈ ns) : ∃ y, sum ns = .ok (.float y) := by
  rw [sum, integers?_eq_none hx]
  exact ⟨_, rfl⟩

/-- A product with a double in it is a double. -/
theorem product_of_float (hx : .float x ∈ ns) : ∃ y, product ns = .ok (.float y) := by
  rw [product, integers?_eq_none hx]
  exact ⟨_, rfl⟩

/-- The number of a double, if the operation on doubles gave one. -/
theorem floatResult_of_exists {r : Except Unrepresentable Float} (h : ∃ x, r = .ok x) :
    ∃ y, floatResult r = .ok (.float y) := by
  obtain ⟨x, rfl⟩ := h
  exact ⟨x, rfl⟩

/-- A pair of numbers with a double among them. -/
theorem pair_cases {m n : Number} (hx : .float x ∈ [m, n]) :
    (∃ y, m = .float y) ∨ ∃ a y, m = .int a ∧ n = .float y := by
  cases m with
  | float y => exact .inl ⟨y, rfl⟩
  | int a =>
    have hn : .float x = n := by simpa using hx
    exact .inr ⟨a, x, rfl, hn.symm⟩

/-- A difference with a double in it is a double. -/
theorem difference_of_float {m n : Number} (hx : .float x ∈ [m, n]) :
    ∃ y, difference m n = .ok (.float y) := by
  rcases pair_cases hx with ⟨y, rfl⟩ | ⟨a, y, rfl, rfl⟩
  · exact ⟨_, rfl⟩
  · exact ⟨_, rfl⟩

/-- A quotient with a double in it is a double, also if the divisor is zero. -/
theorem quotient_of_float {m n : Number} (hx : .float x ∈ [m, n]) :
    ∃ y, quotient m n = .ok (.float y) := by
  rcases pair_cases hx with ⟨y, rfl⟩ | ⟨a, y, rfl, rfl⟩
  · exact floatResult_of_exists (exists_floatQuotient _ _)
  · exact floatResult_of_exists (exists_floatQuotient _ _)

/-- A remainder with a double in it is a double, also if it has no meaning. -/
theorem remainder_of_float {m n : Number} (hx : .float x ∈ [m, n]) :
    ∃ y, remainder m n = .ok (.float y) := by
  rcases pair_cases hx with ⟨y, rfl⟩ | ⟨a, y, rfl, rfl⟩
  · exact floatResult_of_exists (exists_floatRemainder _ _)
  · exact floatResult_of_exists (exists_floatRemainder _ _)

end Arithmetic

namespace Operation

open Arithmetic

/-- **One double makes the result a double.** In particular there is a result. -/
theorem float_of_compute? {op : Operation} {ns : List Number} {r : Except NumberError Number}
    (hr : op.compute? ns = some r) {x : Float} (hx : .float x ∈ ns) : ∃ y, r = .ok (.float y) := by
  unfold compute? at hr
  split at hr
  · obtain rfl := Option.some.inj hr
    exact sum_of_float hx
  · obtain rfl := Option.some.inj hr
    exact product_of_float hx
  · obtain rfl := Option.some.inj hr
    exact difference_of_float hx
  · obtain rfl := Option.some.inj hr
    exact quotient_of_float hx
  · obtain rfl := Option.some.inj hr
    exact remainder_of_float hx
  · exact absurd hr nofun
  · exact absurd hr nofun
  · exact absurd hr nofun

theorem exists_compute? {op : Operation} {ns : List Number} (h : op.Takes ns.length) :
    ∃ r, op.compute? ns = some r := by
  cases op with
  | add => exact ⟨_, rfl⟩
  | mul => exact ⟨_, rfl⟩
  | sub | div | rem =>
    obtain ⟨m, n, rfl⟩ := List.length_eq_two.1 h
    exact ⟨_, rfl⟩

/-- A value that is no number is refused, wherever it stands. -/
theorem answer_of_not_number (op : Operation) {values : List Expr} {v : Expr} (hv : v ∈ values)
    (hnot : ∀ n, v ≠ .number n) : op.answer values = .error .notANumber := by
  have hnone : Eval.numbers? values = none := by
    cases hns : Eval.numbers? values with
    | none => rfl
    | some ns =>
      rw [Eval.eq_map_number_of_numbers? hns] at hv
      obtain ⟨n, -, hn⟩ := List.mem_map.1 hv
      exact absurd hn.symm (hnot n)
  rw [answer, hnone, Option.bind_none]

theorem answer_of_float {op : Operation} {ns : List Number} (htakes : op.Takes ns.length)
    {x : Float} (hx : .float x ∈ ns) : ∃ y, op.answer (ns.map .number) = .ok (.float y) := by
  obtain ⟨r, hr⟩ := exists_compute? htakes
  obtain ⟨y, rfl⟩ := float_of_compute? hr hx
  rw [answer_of_compute? (Eval.numbers?_map_number ns) hr]
  exact ⟨y, rfl⟩

/-- Integers fail to give a result only by an overflow, or as quotient and remainder by zero. -/
theorem error_of_exact {op : Operation} {ns : List Int} (htakes : op.Takes ns.length)
    {err : EvalError} (h : op.exact ns = .error err) :
    err = .arithmetic .overflow ∨
      (op = div ∨ op = rem) ∧ err = .arithmetic .divisionByZero := by
  cases op with
  | add => exact .inl (ite_eq_error_iff.1 h).2.symm
  | mul => exact .inl (ite_eq_error_iff.1 h).2.symm
  | sub =>
    obtain ⟨a, b, rfl⟩ := List.length_eq_two.1 htakes
    exact .inl (ite_eq_error_iff.1 h).2.symm
  | div =>
    obtain ⟨a, b, rfl⟩ := List.length_eq_two.1 htakes
    rw [exact] at h
    split at h
    · exact .inr ⟨.inl rfl, (Except.error.inj h).symm⟩
    · exact .inl (ite_eq_error_iff.1 h).2.symm
  | rem =>
    obtain ⟨a, b, rfl⟩ := List.length_eq_two.1 htakes
    rw [exact] at h
    split at h
    · exact .inr ⟨.inr rfl, (Except.error.inj h).symm⟩
    · exact .inl (ite_eq_error_iff.1 h).2.symm

/-- The answer to integers is an integer, an overflow, or a division by zero. -/
theorem answer_int_cases {op : Operation} {ns : List Int} (htakes : op.Takes ns.length)
    (hns : ∀ n ∈ ns, InRange n) :
    (∃ n, InRange n ∧ op.answer (ns.map .int) = .ok (.int n)) ∨
      op.answer (ns.map .int) = .error (.arithmetic .overflow) ∨
      (op = div ∨ op = rem) ∧ op.answer (ns.map .int) = .error (.arithmetic .divisionByZero) := by
  rw [answer_map_int htakes fun _ => hns]
  cases h : op.exact ns with
  | ok n => exact .inl ⟨n, inRange_of_exact hns h, rfl⟩
  | error err =>
    rcases error_of_exact htakes h with rfl | ⟨hop, rfl⟩
    · exact .inr (.inl rfl)
    · exact .inr (.inr ⟨hop, rfl⟩)

end Operation

/-! ## Operations on operands of any kind -/

namespace Eval

/-- **One double decides, and nothing is skipped.** An operation on operands that all have a value
ends in the environment that the last operand leaves, also if it refuses the value of an earlier
one, as it does with every value that is no number.  If all are numbers and one of them is a double,
the result is a double.  If all are integers, the result is an integer, or there is an overflow, or,
for the quotient and the remainder only, a division by zero. -/
theorem builtin_contagion (op : Operation) {ev : Evaluator} {args values : List Expr} {E F : Env}
    (h : Values ev args E values F) (htakes : op.Takes args.length) :
    let o := builtin ev op.operator args E
    o.env = F ∧
      (∀ v ∈ values, (∀ n, v ≠ .number n) → o.result = .error .notANumber) ∧
      (∀ ns : List Number, values = ns.map .number → ∀ x, .float x ∈ ns →
        ∃ y, o.result = .ok (.float y)) ∧
      ∀ ns : List Int, values = ns.map .int → (∀ n ∈ ns, InRange n) →
        (∃ n, InRange n ∧ o.result = .ok (.int n)) ∨
          o.result = .error (.arithmetic .overflow) ∨
          (op = .div ∨ op = .rem) ∧ o.result = .error (.arithmetic .divisionByZero) := by
  intro o
  obtain ⟨hresult, henv⟩ : o.result = op.answer values ∧ o.env = F :=
    builtin_of_values op h htakes
  rw [← h.length_eq] at htakes
  rw [hresult]
  refine ⟨henv, ?_, ?_, ?_⟩
  · intro v hv hnot
    exact op.answer_of_not_number hv hnot
  · rintro ns rfl x hx
    rw [List.length_map] at htakes
    exact Operation.answer_of_float htakes hx
  · rintro ns rfl hns
    rw [List.length_map] at htakes
    exact Operation.answer_int_cases htakes hns

/-- A text among the operands of a sum is refused, and the definition behind it is made all the
same.  An integer divided by the zero that is a double gives a double, and integers alone keep
within their three ends. -/
theorem builtin_contagion_samples :
    let E := Env.fresh 9
    let square : Procedure := ⟨"sq", ["x"], .form [.operator .mul, .name "x", .name "x"]⟩
    let refused := builtin (evaluate {}) .add [.text "one", square.definition] E
    let least := builtin (evaluate {}) .sub [.int minInt, .int 1] E
    (refused.result = .error .notANumber ∧ refused.env = E.define square) ∧
      (∃ y, (builtin (evaluate {}) .div [.int 1, .float 0.0] E).result = .ok (.float y)) ∧
      least.env = E ∧ ((∃ n, InRange n ∧ least.result = .ok (.int n)) ∨
        least.result = .error (.arithmetic .overflow)) := by
  intro E square refused least
  have hrefused : Values (evaluate {}) [.text "one", square.definition] E
      [.text "one", .name "sq"] (E.define square) := .cons rfl (.cons rfl (.nil _))
  have hdouble : Values (evaluate {}) [.int 1, .float 0.0] E [.int 1, .float 0.0] E :=
    .cons rfl (.cons rfl (.nil _))
  have hleast : Values (evaluate {}) [.int minInt, .int 1] E [.int minInt, .int 1] E :=
    .cons rfl (.cons rfl (.nil _))
  obtain ⟨henv, hnot, -⟩ := builtin_contagion .add hrefused trivial
  obtain ⟨-, -, hfloat, -⟩ := builtin_contagion .div hdouble rfl
  obtain ⟨hsame, -, -, hints⟩ := builtin_contagion .sub hleast rfl
  refine ⟨⟨hnot _ List.mem_cons_self nofun, henv⟩, ?_, hsame, ?_⟩
  · exact hfloat [.int 1, .float 0.0] rfl 0.0 (by simp)
  · rcases hints [minInt, 1] rfl (by decide) with h | h | h
    · exact .inl h
    · exact .inr h
    · exact absurd h.1 (by decide)

end Eval

end Lisp
