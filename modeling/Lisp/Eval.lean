/-
# Evaluation

Evaluating an expression takes one level of nesting, and every expression that is evaluated on the
way takes one more. The limit of the environment, or the room that the machine has, ends a recursion
that would go on for ever.

* `Machine` : which operators are available and how many levels there is room for;
* `Eval.step` : one level of evaluation, over an evaluator for the levels inside;
* `Eval.evalWithin` : evaluation within a number of levels;
* `evaluate`, `applyDirect` : evaluation, and application without a level of its own.
-/
import Lisp.Eval.Forms

namespace Lisp

/-- What evaluation runs on: the operators that are available and the room for nested levels. -/
structure Machine where
  wired : Operator → Bool := fun _ => true
  room : Nat := 1000

namespace Eval

open EvalM

/-- One level of evaluation. Variables hold expressions, which are evaluated at every use, and a
quoted list gives the form inside. -/
def step (wired : Operator → Bool) (ev : Evaluator) : Expr → EvalM Expr
  | .name id => do
    let e ← ask (·.lookupVariable id)
    ev e
  | .operator _ => fail .operatorAsValue
  | .quoted items => pure (.form items)
  | .form [] => pure .nil
  | .form (head :: args) => apply wired ev head args
  | e => pure e

/-- Evaluation within a number of levels. -/
def evalWithin (wired : Operator → Bool) : (levels : Nat) → Evaluator
  | 0, _ => ask fun E => .error (.tooDeep E.maxDepth)
  | levels + 1, e => within (step wired (evalWithin wired levels) e)

/-- The levels that are left to an evaluation: those that the limit allows and there is room for. -/
def levels (M : Machine) (E : Env) : Nat := min E.budget M.room

end Eval

/-- The value of an expression. -/
def evaluate (M : Machine) (e : Expr) : EvalM Expr := fun E =>
  Eval.evalWithin M.wired (Eval.levels M E) e E

/-- The value of a head applied to arguments, without a level for the application itself. -/
def applyDirect (M : Machine) (head : Expr) (args : List Expr) : EvalM Expr := fun E =>
  Eval.apply M.wired (Eval.evalWithin M.wired (Eval.levels M E)) head args E

end Lisp
