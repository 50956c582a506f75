/-
# Formulas of integers

A formula is built from integers of 64 bits by the five arithmetical operators, with any number of
arguments and nested in any way.  Its value is a matter of its structure alone, without environment
and without levels: the operands from left to right, and then the exact result of the operation.
Evaluation gives this value exactly if as many levels are left as the formula is high, and leaves no
trace.

* `Formula`, `Formula.expr` : formulas, and the expressions that they stand for;
* `Formula.height`, `Formula.value` : the levels that a formula takes, and its meaning;
* `Eval.Yields` : computations that leave no trace;
* `Eval.yields_builtin` : one operation on operands that leave no trace;
* `Eval.evaluate_formula` : evaluation computes the value, or is cut off for want of levels.
-/
import Lisp.Proofs.Operation

namespace Lisp

/-! ## Formulas -/

/-- Integers of 64 bits, and operations on formulas. -/
inductive Formula where
  | literal (n : Int) (fits : InRange n)
  | apply (op : Operation) (args : List Formula)

namespace Formula

mutual

/-- The expression that a formula stands for. -/
def expr : Formula → Expr
  | literal n _ => .int n
  | apply op args => .form (.operator op.operator :: exprs args)

/-- The expressions of some formulas. -/
def exprs : List Formula → List Expr
  | [] => []
  | f :: rest => f.expr :: exprs rest

end

mutual

/-- The levels that it takes to evaluate a formula: one for itself, and those of its highest
argument. -/
def height : Formula → Nat
  | literal _ _ => 1
  | apply _ args => 1 + heightAll args

/-- The greatest height of some formulas. -/
def heightAll : List Formula → Nat
  | [] => 0
  | f :: rest => max f.height (heightAll rest)

end

mutual

/-- The value of a formula.  The number of operands is looked at before any of them, they are valued
from left to right up to the first error, and the operation comes last. -/
def value : Formula → Except EvalError Int
  | literal n _ => .ok n
  | apply op args =>
    if op.Takes args.length then (values args).bind op.exact
    else .error (.argumentCount 2 args.length)

/-- The values of some formulas, up to the first error. -/
def values : List Formula → Except EvalError (List Int)
  | [] => .ok []
  | f :: rest => f.value.bind fun n => (values rest).map (n :: ·)

end

theorem length_exprs (fs : List Formula) : (exprs fs).length = fs.length := by
  induction fs with
  | nil => rfl
  | cons f rest ih => rw [exprs, List.length_cons, List.length_cons, ih]

theorem height_pos (f : Formula) : 0 < f.height := by
  cases f with
  | literal n fits => exact Nat.one_pos
  | apply op args => exact Nat.lt_add_right _ Nat.one_pos

/-- Formulas all of which have a value: so have the first and all the others. -/
theorem of_values_cons {f : Formula} {rest : List Formula} {ns : List Int}
    (h : values (f :: rest) = .ok ns) :
    ∃ n others, f.value = .ok n ∧ values rest = .ok others ∧ ns = n :: others := by
  rw [values] at h
  cases hf : f.value with
  | error err => simp [hf, Except.bind] at h
  | ok n =>
    cases hrest : values rest with
    | error err => simp [hf, hrest, Except.bind, Except.map] at h
    | ok others =>
      refine ⟨n, others, rfl, rfl, ?_⟩
      simpa [hf, hrest, Except.bind, Except.map] using h.symm

/-- An operation that has a value: it has the right number of operands, and these have values. -/
theorem of_value_apply {op : Operation} {args : List Formula} {n : Int}
    (h : (apply op args).value = .ok n) :
    op.Takes args.length ∧ ∃ ns, values args = .ok ns ∧ op.exact ns = .ok n := by
  rw [value] at h
  split at h
  · next htakes =>
    cases hargs : values args with
    | error err => simp [hargs, Except.bind] at h
    | ok ns => exact ⟨htakes, ns, rfl, by rwa [hargs] at h⟩
  · simp at h

end Formula

namespace Formula

mutual

/-- The value of a formula is in range. -/
theorem inRange_of_value (f : Formula) {n : Int} (h : f.value = .ok n) : InRange n :=
  match f with
  | literal m fits => by
    obtain rfl : m = n := by simpa [value] using h
    exact fits
  | apply op args => by
    obtain ⟨-, ns, hargs, hexact⟩ := of_value_apply h
    exact Operation.inRange_of_exact (inRange_of_values args hargs).2 hexact

/-- The values of formulas are in range, and there is one for each of them. -/
theorem inRange_of_values (fs : List Formula) {ns : List Int} (h : values fs = .ok ns) :
    ns.length = fs.length ∧ ∀ n ∈ ns, InRange n :=
  match fs with
  | [] => by
    obtain rfl : [] = ns := by simpa [values] using h
    exact ⟨rfl, by simp⟩
  | f :: rest => by
    obtain ⟨n, others, hf, hrest, rfl⟩ := of_values_cons h
    obtain ⟨hlen, hin⟩ := inRange_of_values rest hrest
    exact ⟨congrArg (· + 1) hlen, List.forall_mem_cons.2 ⟨inRange_of_value f hf, hin⟩⟩

end

end Formula

namespace Eval

open EvalM Arithmetic

variable {α β : Type} {ev : Evaluator} {E : Env}

/-! ## Computations that leave no trace -/

/-- A computation that ends with a result in the environment that it found, and without events. -/
def Yields (m : EvalM α) (E : Env) (r : Except EvalError α) : Prop := m E = ⟨r, E, []⟩

theorem yields_pure (a : α) : Yields (pure a) E (.ok a) := rfl

theorem yields_fail (err : EvalError) : Yields (fail err : EvalM α) E (.error err) := rfl

/-- One computation after another. If the first one fails, the second is not reached. -/
theorem yields_bind {m : EvalM α} {f : α → EvalM β} {r : Except EvalError α}
    {g : α → Except EvalError β} (hm : Yields m E r) (hf : ∀ a, r = .ok a → Yields (f a) E (g a)) :
    Yields (m >>= f) E (r.bind g) := by
  unfold Yields at hm ⊢
  rw [bind_apply, hm]
  cases r with
  | error err => rfl
  | ok a =>
    show Outcome.mk (f a E).result (f a E).env (f a E).events = ⟨g a, E, []⟩
    rw [hf a rfl]

/-- A level that leaves no trace inside leaves none at all. -/
theorem yields_within {m : EvalM α} {r : Except EvalError α}
    (hm : Yields m { E with depth := E.depth + 1 } r) : Yields (within m) E r := by
  have hleave : Env.leave { E with depth := E.depth + 1 } = E := by
    rw [Env.leave, Int.add_sub_cancel]
  unfold Yields at hm ⊢
  rw [within, hm]
  simp only [hleave]

/-- The operands of an operation, and then its result. -/
theorem yields_operands {m : EvalM (List Expr)} {f : List Expr → EvalM Expr}
    {r : Except EvalError (List Int)} {g : List Int → Except EvalError Int}
    (hm : Yields m E (r.map (·.map .int)))
    (hf : ∀ ns, r = .ok ns → Yields (f (ns.map .int)) E ((g ns).map .int)) :
    Yields (m >>= f) E ((r.bind g).map .int) := by
  cases r with
  | error err => exact yields_bind (g := fun _ => .error err) hm nofun
  | ok ns =>
    refine yields_bind (g := fun _ => (g ns).map Expr.int) hm ?_
    rintro _ ⟨⟩
    exact hf ns rfl

/-- **One operation.** If its operands leave no trace and are integers in range, or the first error
among them, the operation gives its exact result and leaves no trace. -/
theorem yields_builtin (op : Operation) {args : List Expr} {r : Except EvalError (List Int)}
    (htakes : op.Takes args.length) (hargs : Yields (evalAll ev args) E (r.map (·.map .int)))
    (hr : ∀ ns, r = .ok ns → ns.length = args.length ∧ ∀ n ∈ ns, InRange n) :
    Yields (builtin ev op.operator args) E ((r.bind op.exact).map .int) := by
  rw [builtin_operation ev op htakes]
  refine yields_operands hargs fun ns hns => ?_
  obtain ⟨hlen, hin⟩ := hr ns hns
  rw [Operation.answer_map_int (hlen ▸ htakes) fun _ => hin]
  rfl

/-- An operation with another number of operands than two, where two are wanted, looks at none. -/
theorem yields_builtin_of_not_takes (op : Operation) {args : List Expr}
    (h : ¬ op.Takes args.length) :
    Yields (builtin ev op.operator args) E (.error (.argumentCount 2 args.length)) := by
  have hbinary : ∀ g, args.length ≠ 2 →
      Yields (binary g ev args) E (.error (.argumentCount 2 args.length)) := by
    intro g hcount
    unfold binary
    split
    · exact absurd rfl hcount
    · exact yields_fail _
  cases op with
  | add => exact absurd trivial h
  | mul => exact absurd trivial h
  | sub => exact hbinary _ h
  | div => exact hbinary _ h
  | rem => exact hbinary _ h

/-! ## Evaluation -/

variable {wired : Operator → Bool}

/-- The operands from left to right, of which the others are reached if the first has a value. -/
theorem yields_evalAll_cons {e : Expr} {es : List Expr} {r : Except EvalError Int}
    {s : Except EvalError (List Int)} (hfirst : Yields (ev e) E (r.map .int))
    (hrest : ∀ n, r = .ok n → Yields (evalAll ev es) E (s.map (·.map .int))) :
    Yields (evalAll ev (e :: es)) E ((r.bind fun n => s.map (n :: ·)).map (·.map .int)) := by
  cases r with
  | error err => exact yields_bind (g := fun _ => .error err) hfirst nofun
  | ok n =>
    refine yields_bind (g := fun _ => (s.map (n :: ·)).map (·.map Expr.int)) hfirst ?_
    rintro _ ⟨⟩
    cases s with
    | error err => exact yields_bind (g := fun _ => .error err) (hrest n rfl) nofun
    | ok ns =>
      exact yields_bind (g := fun values => .ok (.int n :: values)) (hrest n rfl) fun values _ =>
        yields_pure _

/-- One level of an operation. -/
theorem yields_apply (hwired : ∀ op : Operation, wired op.operator = true) {levels : Nat}
    {op : Operation} {args : List Formula} {r : Except EvalError Expr}
    (h : Yields (builtin (evalWithin wired levels) op.operator (Formula.exprs args))
      { E with depth := E.depth + 1 } r) :
    Yields (evalWithin wired (levels + 1) (Formula.apply op args).expr) E r := by
  refine yields_within ?_
  show Yields (apply wired (evalWithin wired levels) (.operator op.operator) _) _ _
  rw [apply, if_pos (hwired op)]
  exact h

-- The arguments of a formula are lists of formulas, so a statement about formulas goes by mutual
-- induction with one about lists of them; the arguments have one level less.
mutual

/-- With as many levels as it is high, a formula yields its value. -/
theorem yields_value (hwired : ∀ op : Operation, wired op.operator = true) (f : Formula)
    {levels : Nat} (hlevels : f.height ≤ levels) (E : Env) :
    Yields (evalWithin wired levels f.expr) E (f.value.map .int) :=
  match f, levels with
  | .literal _ _, 0 => by simp [Formula.height] at hlevels
  | .apply _ _, 0 => by simp [Formula.height] at hlevels
  | .literal n _, levels + 1 => yields_within (yields_pure (Expr.int n))
  | .apply op args, levels + 1 => by
    refine yields_apply hwired ?_
    rw [Formula.height] at hlevels
    rw [Formula.value, ← Formula.length_exprs args]
    split
    · next htakes =>
      refine yields_builtin op htakes (yields_values hwired args (by omega) _) fun ns hns => ?_
      rw [Formula.length_exprs]
      exact Formula.inRange_of_values args hns
    · next htakes => exact yields_builtin_of_not_takes op htakes

/-- With levels enough for all of them, formulas yield their values, up to the first error. -/
theorem yields_values (hwired : ∀ op : Operation, wired op.operator = true) (fs : List Formula)
    {levels : Nat} (hlevels : Formula.heightAll fs ≤ levels) (E : Env) :
    Yields (evalAll (evalWithin wired levels) (Formula.exprs fs)) E
      ((Formula.values fs).map (·.map .int)) :=
  match fs with
  | [] => yields_pure _
  | f :: rest => by
    rw [Formula.heightAll] at hlevels
    exact yields_evalAll_cons (yields_value hwired f (by omega) E) fun _ _ =>
      yields_values hwired rest (by omega) E

end

mutual

/-- With fewer levels than it is high, a formula that has a value is cut off: the operands before
the first one that is too high yield their values, and no operation comes to its operands' end. -/
theorem yields_tooDeep (hwired : ∀ op : Operation, wired op.operator = true) (f : Formula)
    {levels : Nat} (hlevels : levels < f.height) {n : Int} (hvalue : f.value = .ok n) (E : Env) :
    Yields (evalWithin wired levels f.expr) E (.error (.tooDeep E.maxDepth)) :=
  match f, levels with
  | _, 0 => rfl
  | .literal _ _, levels + 1 => by simp [Formula.height] at hlevels
  | .apply op args, levels + 1 => by
    refine yields_apply hwired ?_
    rw [Formula.height] at hlevels
    obtain ⟨htakes, ns, hargs, -⟩ := Formula.of_value_apply hvalue
    rw [← Formula.length_exprs args] at htakes
    exact yields_builtin (r := .error (.tooDeep E.maxDepth)) op htakes
      (yields_tooDeep_of_values hwired args (by omega) hargs _) nofun

/-- With a level too few for one of them, formulas that have values are cut off. -/
theorem yields_tooDeep_of_values (hwired : ∀ op : Operation, wired op.operator = true)
    (fs : List Formula) {levels : Nat} (hlevels : levels < Formula.heightAll fs) {ns : List Int}
    (hvalues : Formula.values fs = .ok ns) (E : Env) :
    Yields (evalAll (evalWithin wired levels) (Formula.exprs fs)) E
      (.error (.tooDeep E.maxDepth)) :=
  match fs with
  | [] => by simp [Formula.heightAll] at hlevels
  | f :: rest => by
    rw [Formula.heightAll] at hlevels
    obtain ⟨n, others, hf, hrest, -⟩ := Formula.of_values_cons hvalues
    by_cases hfirst : levels < f.height
    · exact yields_evalAll_cons (r := .error (.tooDeep E.maxDepth)) (s := .ok [])
        (yields_tooDeep hwired f hfirst hf E) nofun
    · have hn : Yields (evalWithin wired levels f.expr) E (Except.ok n |>.map .int) :=
        hf ▸ yields_value hwired f (by omega) E
      exact yields_evalAll_cons (s := .error (.tooDeep E.maxDepth)) hn fun _ _ =>
        yields_tooDeep_of_values hwired rest (by omega) hrest E

end

/-- **Evaluation computes the value of a formula.** If the limit leaves as many levels as the
formula is high, and there is room for them, evaluation ends with the value of the formula or with
the error that it has instead.  If the limit leaves fewer, a formula that has a value, as then all
its parts have, is cut off.  The environment is unchanged in either case, and nothing is
recorded. -/
theorem evaluate_formula (M : Machine) (hwired : ∀ op : Operation, M.wired op.operator = true)
    (f : Formula) (E : Env) :
    (f.height ≤ M.room → (f.height : Int) ≤ E.maxDepth - E.depth →
      evaluate M f.expr E = ⟨f.value.map .int, E, []⟩) ∧
    ∀ n, f.value = .ok n → E.maxDepth - E.depth < f.height →
      evaluate M f.expr E = ⟨.error (.tooDeep E.maxDepth), E, []⟩ := by
  constructor
  · intro hroom hlimit
    have hlevels : f.height ≤ levels M E := by
      unfold levels Env.budget
      omega
    exact yields_value hwired f hlevels E
  · intro n hvalue hlimit
    have hpos := f.height_pos
    have hlevels : levels M E < f.height := by
      unfold levels Env.budget
      omega
    exact yields_tooDeep hwired f hlevels hvalue E

/-- Three levels are enough for a quotient of a difference and a sum, and two are not.  Of several
errors the leftmost one counts, and a wrong number of operands comes before all of them. -/
theorem evaluate_formula_samples :
    let int (n : Nat) (h : InRange n) : Formula := .literal n h
    let one := int 1 (by decide)
    let zero := int 0 (by decide)
    let f : Formula := .apply .div [.apply .sub [one, int 8 (by decide)], .apply .add [one, one]]
    let g : Formula := .apply .add [one, .apply .rem [one, zero], .apply .sub [one]]
    let h : Formula := .apply .mul [.apply .sub [.apply .div [one, zero]]]
    evaluate {} f.expr (Env.fresh 3) = ⟨.ok (.int (-3)), Env.fresh 3, []⟩ ∧
      evaluate {} f.expr (Env.fresh 2) = ⟨.error (.tooDeep 2), Env.fresh 2, []⟩ ∧
      (evaluate {} g.expr (Env.fresh 3)).result = .error (.arithmetic .divisionByZero) ∧
      (evaluate {} h.expr (Env.fresh 4)).result = .error (.argumentCount 2 1) := by
  intro int one zero f g h
  have hall : ∀ op : Operation, ({} : Machine).wired op.operator = true := fun _ => rfl
  have hvalue : f.value = .ok (-3) := by rfl
  have hg : g.value = .error (.arithmetic .divisionByZero) := by rfl
  have hh : h.value = .error (.argumentCount 2 1) := by rfl
  refine ⟨?_, ?_, ?_, ?_⟩
  · rw [(evaluate_formula {} hall f _).1 (by decide) (by decide), hvalue]
    rfl
  · exact (evaluate_formula {} hall f _).2 _ hvalue (by decide)
  · rw [(evaluate_formula {} hall g _).1 (by decide) (by decide), hg]
    rfl
  · rw [(evaluate_formula {} hall h _).1 (by decide) (by decide), hh]
    rfl

end Eval

end Lisp
