/-
# Computations in an environment

A computation starts in an environment and ends with a value or an error, always in some environment
and with the events that happened on the way, which a session tells its log.

* `Event` : the events, the part of the program that reports each, and its wording;
* `Outcome` : how a computation ends;
* `EvalM` : computations, which are composed with `do`;
* `EvalM.bound` : a computation with some names bound for its time;
* `EvalM.within` : a computation one level deeper.
-/
import Lisp.Env

namespace Lisp

/-! ## Events -/

/-- What happens while a line is read and evaluated. -/
inductive Event where
  | parsed (e : Expr)
  | trailing (rest : List Char)
  | applied (name : String) (bindings : List (String × Expr)) (depth : Int)
  | redefining (name : String)
  | defined (p : Procedure)

namespace Event

/-- The part of the program that reports an event. -/
def source : Event → String
  | parsed _ => "tinylisp.interpreter"
  | trailing _ => "tinylisp.reader.parser"
  | applied .. => "tinylisp.evaluation.apply"
  | redefining _ => "tinylisp.evaluation.special_forms.defun_form"
  | defined _ => "tinylisp.evaluation.special_forms.defun_form"

/-- The wording of an event. -/
def message : Event → String
  | parsed e => "parsed " ++ e.describe
  | trailing rest => "trailing input after expression: " ++ String.ofList (Text.quoted rest)
  | applied name bindings depth =>
    let shown := bindings.map fun (param, arg) => param ++ "=" ++ arg.render
    "apply " ++ name ++ "(" ++ ", ".intercalate shown ++ ") at depth " ++ integerText depth
  | redefining name => "redefining function " ++ name
  | defined p => "defined " ++ p.render

end Event

/-! ## Computations -/

/-- How a computation ends: with a value or an error, in an environment, after some events. -/
structure Outcome (α : Type) where
  result : Except EvalError α
  env : Env
  events : List Event

/-- A computation in an environment. -/
def EvalM (α : Type) : Type := Env → Outcome α

namespace EvalM

variable {α β : Type}

/-- The computation of a value without any effect. -/
protected def pure (a : α) : EvalM α := fun E => ⟨.ok a, E, []⟩

/-- One computation after another, unless the first one fails. -/
protected def bind (m : EvalM α) (f : α → EvalM β) : EvalM β := fun E =>
  let first := m E
  match first.result with
  | .error e => ⟨.error e, first.env, first.events⟩
  | .ok a =>
    let second := f a first.env
    ⟨second.result, second.env, first.events ++ second.events⟩

instance : Monad EvalM where
  pure := EvalM.pure
  bind := EvalM.bind

/-- The computation that fails. -/
def fail (e : EvalError) : EvalM α := fun E => ⟨.error e, E, []⟩

/-- The computation that looks something up in the environment. -/
def ask (f : Env → Except EvalError α) : EvalM α := fun E => ⟨f E, E, []⟩

/-- The computation that only records an event. -/
def record (event : Env → Event) : EvalM Unit := fun E => ⟨.ok (), E, [event E]⟩

/-- The computation that defines a function. -/
def define (p : Procedure) : EvalM Unit := fun E =>
  let again := if E.functions.contains p.name then [.redefining p.name] else []
  ⟨.ok (), E.define p, again ++ [.defined p]⟩

/-- The computation with names bound to values for its time. -/
def bound (names : List String) (values : List Expr) (m : EvalM α) : EvalM α := fun E =>
  let inner := m (E.bind names values)
  { inner with env := inner.env.restore (E.save names) }

/-- The computation one level deeper. -/
def within (m : EvalM α) : EvalM α := fun E =>
  let inner := m { E with depth := E.depth + 1 }
  { inner with env := inner.env.leave }

/-! ## Steps -/

@[simp] theorem pure_apply (a : α) (E : Env) : (pure a : EvalM α) E = ⟨.ok a, E, []⟩ := rfl

@[simp] theorem fail_apply (e : EvalError) (E : Env) :
    (fail e : EvalM α) E = ⟨.error e, E, []⟩ := rfl

/-- A computation goes on in the environment that the first part left, unless that failed. -/
theorem bind_apply (m : EvalM α) (f : α → EvalM β) (E : Env) :
    (m >>= f) E =
      match (m E).result with
      | .error e => ⟨.error e, (m E).env, (m E).events⟩
      | .ok a => ⟨(f a (m E).env).result, (f a (m E).env).env,
          (m E).events ++ (f a (m E).env).events⟩ := rfl

end EvalM

end Lisp
