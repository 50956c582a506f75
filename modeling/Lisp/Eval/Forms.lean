/-
# Applying operators and functions

Every operator gets its arguments unevaluated and decides itself what to evaluate, by means of a
given evaluator `ev`.

* `Eval.evalAll` : evaluating from left to right;
* `Eval.add`, ... : one definition for each operator;
* `Eval.builtin` : the operator chosen by its name;
* `Eval.call` : calling a function;
* `Eval.apply` : applying the head of a form.
-/
import Lisp.Eval.Outcome
import Lisp.Number.Arithmetic

namespace Lisp.Eval

open EvalM

/-- An evaluator. -/
abbrev Evaluator := Expr → EvalM Expr

/-- Some expressions evaluated from left to right, up to the first error. -/
def evalAll (ev : Evaluator) : List Expr → EvalM (List Expr)
  | [] => pure []
  | e :: rest => do
    let value ← ev e
    let values ← evalAll ev rest
    pure (value :: values)

/-! ## Arithmetic -/

/-- The numbers that some expressions consist of. -/
def numbers? : List Expr → Option (List Number)
  | [] => some []
  | .number n :: rest => (numbers? rest).map (n :: ·)
  | _ :: _ => none

/-- The expression of an arithmetical result. -/
def ofNumber : Except NumberError Number → EvalM Expr
  | .ok n => pure (.number n)
  | .error e => fail (.arithmetic e)

/-- An operation on any number of operands. All are evaluated before any of them is looked at. -/
def variadic (op : List Number → Except NumberError Number) (ev : Evaluator) (args : List Expr) :
    EvalM Expr := do
  let values ← evalAll ev args
  match numbers? values with
  | some ns => ofNumber (op ns)
  | none => fail .notANumber

/-- An operation on two operands. Both are evaluated before either of them is looked at. -/
def binary (op : Number → Number → Except NumberError Number) (ev : Evaluator) :
    List Expr → EvalM Expr
  | [a, b] => do
    let x ← ev a
    let y ← ev b
    match x, y with
    | .number m, .number n => ofNumber (op m n)
    | _, _ => fail .notANumber
  | args => fail (.argumentCount 2 args.length)

/-! ## Definitions -/

/-- The names that some expressions consist of. -/
def names? : List Expr → Option (List String)
  | [] => some []
  | .name id :: rest => (names? rest).map (id :: ·)
  | _ :: _ => none

/-- The definition of a function by its name, its parameters and its body. Nothing is evaluated. -/
def defun : List Expr → EvalM Expr
  | [.name id, .form params, .form body] =>
    match names? params with
    | some names => do
      define ⟨id, names, .form body⟩
      pure (.name id)
    | none => fail (.invalidArguments (.form params))
  | [_, _, _] => fail .malformedDefinition
  | args => fail (.argumentCount 3 args.length)

/-! ## Lists -/

/-- The elements of a list argument: those of a quoted list as they stand, and otherwise those of
the list that the argument evaluates to. -/
def listItems (ev : Evaluator) : Expr → EvalM (List Expr)
  | .quoted items => pure items
  | e => do
    let value ← ev e
    match value.items? with
    | some items => pure items
    | none => fail .notAList

/-- The quoted list of the evaluated arguments. -/
def list (ev : Evaluator) (args : List Expr) : EvalM Expr := do
  let values ← evalAll ev args
  pure (.quoted values)

/-- The first element of the list that the argument evaluates to; a quoted list is refused. -/
def car (ev : Evaluator) : List Expr → EvalM Expr
  | [.quoted _] => fail .notAList
  | [e] => do
    let value ← ev e
    match value.items? with
    | some items => pure (items.headD .nil)
    | none => fail .notAList
  | args => fail (.argumentCount 1 args.length)

/-- The element at an index that counts from zero, not evaluated. -/
def nth (ev : Evaluator) : List Expr → EvalM Expr
  | [index, seq] => do
    let value ← ev index
    match value with
    | .number (.int i) => do
      let items ← listItems ev seq
      if h : 0 ≤ i ∧ i.toNat < items.length then pure items[i.toNat]
      else fail (.indexOutOfRange i items.length)
    | .number n => fail (.invalidArguments (.number n))
    | _ => fail .notANumber
  | args => fail (.argumentCount 2 args.length)

/-- The call of `fn` with one element of a list: a quoted list gives all the arguments and anything
else is the only one. -/
def callOn (fn : Expr) : Expr → Expr
  | .quoted args => .form (fn :: args)
  | e => .form [fn, e]

/-- The form of the results of calling a function or operator on each element of a list. -/
def mapOver (ev : Evaluator) (fn seq : Expr) : EvalM Expr := do
  let items ← listItems ev seq
  let values ← evalAll ev (items.map (callOn fn))
  pure (.form values)

/-- The results of calling a function or operator, given by name, on each element of a list. -/
def map (ev : Evaluator) : List Expr → EvalM Expr
  | [.name id, seq] => mapOver ev (.name id) seq
  | [.operator op, seq] => mapOver ev (.operator op) seq
  | [fn, _] => fail (.notAFunction fn)
  | args => fail (.argumentCount 2 args.length)

/-- The value of the value of the argument. -/
def eval (ev : Evaluator) : List Expr → EvalM Expr
  | [e] => do
    let value ← ev e
    ev value
  | args => fail (.argumentCount 1 args.length)

/-! ## Application -/

/-- The operator's action on its arguments. -/
def builtin (ev : Evaluator) : Operator → List Expr → EvalM Expr
  | .add => variadic Arithmetic.sum ev
  | .mul => variadic Arithmetic.product ev
  | .sub => binary Arithmetic.difference ev
  | .div => binary Arithmetic.quotient ev
  | .rem => binary Arithmetic.remainder ev
  | .defun => defun
  | .nth => nth ev
  | .list => list ev
  | .eval => eval ev
  | .car => car ev
  | .map => map ev

/-- The body of a function, evaluated while its parameters are bound to the arguments. -/
def call (ev : Evaluator) (name : String) (args : List Expr) : EvalM Expr := do
  let p ← ask (·.lookupCall name args.length)
  record fun E => .applied name (p.params.zip args) E.depth
  bound p.params args (ev p.body)

/-- The head of a form applied to arguments, where only the operators in `wired` are available. -/
def apply (wired : Operator → Bool) (ev : Evaluator) (head : Expr) (args : List Expr) :
    EvalM Expr :=
  match head with
  | .name id => call ev id args
  | .operator op => if wired op then builtin ev op args else fail (.unwired op)
  | e => fail (.notAFunction e)

end Lisp.Eval
