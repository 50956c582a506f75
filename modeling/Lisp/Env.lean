/-
# Environments

An environment holds the variables and functions of a session and counts how deep the evaluation in
progress is nested.  A function is a name, the names of its parameters and a body that is evaluated
when it is called; it remembers nothing of where it was defined.  Variables hold expressions that
have not been evaluated.  Parameters are bound for the time of a call and whatever was bound before
is put back afterwards.

* `Procedure` : a function, with the form that defines it and the text of that form;
* `EvalError` : why an evaluation fails, and its wording;
* `Env` : variables, functions, the nesting limit and the nesting reached;
* `Env.lookupVariable`, `Env.lookupFunction` : the two ways to use a name;
* `Env.save`, `Env.bind`, `Env.restore` : binding names for a time;
* `Env.enter`, `Env.leave` : one level of nesting;
* `Env.summary`, `Env.describe` : its text.
-/
import Lisp.Printer
import Lisp.Table

namespace Lisp

/-! ## Functions -/

/-- A function: parameters and a body that is evaluated when it is called. -/
structure Procedure where
  name : String
  params : List String
  body : Expr
  deriving DecidableEq

namespace Procedure

/-- The number of arguments that a function takes. -/
def arity (p : Procedure) : Nat := p.params.length

/-- The form that defines the function. -/
def definition (p : Procedure) : Expr :=
  .form [.operator .defun, .name p.name, .form (p.params.map .name), p.body]

/-- The source that defines a function, put together from its parts. -/
def render (p : Procedure) : String :=
  "(defun " ++ p.name ++ " (" ++ " ".intercalate p.params ++ ") " ++ p.body.render ++ ")"

end Procedure

/-! ## Errors -/

/-- The causes for which an evaluation fails. -/
inductive EvalError where
  | argumentCount (expected got : Nat)
  | invalidArguments (args : Expr)
  | unknownFunction (name : String)
  | unknownVariable (name : String)
  | notANumber
  | operatorAsValue
  | unwired (op : Operator)
  | notAFunction (head : Expr)
  | arithmetic (cause : NumberError)
  | malformedDefinition
  | notAList
  | indexOutOfRange (index : Int) (length : Nat)
  | tooDeep (limit : Int)
  deriving DecidableEq

/-- The text of an integer. -/
def integerText (n : Int) : String := String.ofList (Layout.integer n)

/-- The wording of an evaluation error. -/
def EvalError.message : EvalError → String
  | argumentCount expected got =>
    "Wrong number of arguments, expected " ++ integerText expected ++ ", got " ++ integerText got
  | invalidArguments args => "Invalid arguments for function: " ++ args.render
  | unknownFunction name => "Function `" ++ name ++ "` not found"
  | unknownVariable name => "Variable `" ++ name ++ "` not found"
  | notANumber => "Argument should be number"
  | operatorAsValue => "Invalid variable name"
  | unwired op => "Built-in `" ++ op.keyword ++ "` not implemented"
  | notAFunction head => "Invalid function `" ++ head.render ++ "`"
  | arithmetic cause => cause.message
  | malformedDefinition => "Invalid syntax"
  | notAList => "Wrong type argument, expected list"
  | indexOutOfRange index length =>
    "Index " ++ integerText index ++ " out of range for list of length " ++ integerText length
  | tooDeep limit => "Maximum evaluation depth of " ++ integerText limit ++ " exceeded"

/-! ## Environments -/

/-- The variables and functions of a session, and the nesting of its evaluation. -/
structure Env where
  vars : Table Expr
  functions : Table Procedure
  maxDepth : Int
  depth : Int

namespace Env

/-- The environment without bindings in which evaluation may nest `maxDepth` deep. -/
def fresh (maxDepth : Int) : Env := ⟨.empty, .empty, maxDepth, 0⟩

/-- The environment without its bindings and outside of all nesting. -/
def reset (E : Env) : Env := fresh E.maxDepth

/-! ## Variables and functions -/

/-- The expression that a variable holds. -/
def lookupVariable (E : Env) (name : String) : Except EvalError Expr :=
  match E.vars.get? name with
  | some e => .ok e
  | none => .error (.unknownVariable name)

/-- The environment in which a variable holds an expression. -/
def setVariable (E : Env) (name : String) (e : Expr) : Env :=
  { E with vars := E.vars.insert name e }

/-- The environment in which a function is defined, in place of an earlier one of its name. -/
def define (E : Env) (p : Procedure) : Env :=
  { E with functions := E.functions.insert p.name p }

/-- A definition is found under its name, and the other functions are found as before. -/
@[simp] theorem get?_functions_define (E : Env) (p : Procedure) (k : String) :
    (E.define p).functions.get? k = if k = p.name then some p else E.functions.get? k :=
  Table.get?_insert E.functions p.name k p

/-- A name that is defined anew keeps its place, and a new one comes last. -/
@[simp] theorem keys_functions_define (E : Env) (p : Procedure) :
    (E.define p).functions.keys =
      if p.name ∈ E.functions.keys then E.functions.keys else E.functions.keys ++ [p.name] :=
  Table.keys_insert E.functions p.name p

/-- The function of a name. -/
def lookupFunction (E : Env) (name : String) : Except EvalError Procedure :=
  match E.functions.get? name with
  | some p => .ok p
  | none => .error (.unknownFunction name)

/-- The function of a name, if it takes `count` arguments. -/
def lookupCall (E : Env) (name : String) (count : Nat) : Except EvalError Procedure :=
  match E.lookupFunction name with
  | .ok p => if count = p.arity then .ok p else .error (.argumentCount p.arity count)
  | .error e => .error e

/-! ## Binding names for a time -/

/-- What is bound to some names, or that nothing is. -/
def save (E : Env) (names : List String) : List (String × Option Expr) :=
  names.map fun name => (name, E.vars.get? name)

/-- The variables with names bound to values, pair by pair up to the end of the shorter list. -/
def bindPairs (vars : Table Expr) (pairs : List (String × Expr)) : Table Expr :=
  pairs.foldl (fun t (name, value) => t.insert name value) vars

/-- The environment with names bound to values, pair by pair up to the end of the shorter list. -/
def bind (E : Env) (names : List String) (values : List Expr) : Env :=
  { E with vars := bindPairs E.vars (names.zip values) }

/-- The variables with one name as it was saved. -/
def putBack (vars : Table Expr) : String × Option Expr → Table Expr
  | (name, some value) => vars.insert name value
  | (name, none) => vars.erase name

/-- The environment with all saved names as they were, the last one put back first. -/
def restore (E : Env) (saved : List (String × Option Expr)) : Env :=
  { E with vars := saved.reverse.foldl putBack E.vars }

/-! ## Nesting -/

/-- The environment one level deeper, unless the limit is reached. -/
def enter (E : Env) : Except EvalError Env :=
  if E.maxDepth ≤ E.depth then .error (.tooDeep E.maxDepth)
  else .ok { E with depth := E.depth + 1 }

/-- The environment one level up. -/
def leave (E : Env) : Env := { E with depth := E.depth - 1 }

/-- How many further levels the limit allows. -/
def budget (E : Env) : Nat := (E.maxDepth - E.depth).toNat

/-! ## Text -/

/-- The bindings, in order. -/
def summary (E : Env) : String :=
  "variables: \x7b"
    ++ ", ".intercalate (E.vars.entries.map fun (name, e) => name ++ ": " ++ e.render)
    ++ "\x7d, functions: \x7b"
    ++ ", ".intercalate (E.functions.values.map Procedure.render)
    ++ "\x7d"

/-- The bindings and the nesting, with a text for the limit. -/
def describeWith (E : Env) (limit : String) : String :=
  "<Environment " ++ E.summary ++ " depth=" ++ integerText E.depth ++ "/" ++ limit ++ ">"

/-- The bindings and the nesting. -/
def describe (E : Env) : String := E.describeWith (integerText E.maxDepth)

end Env

end Lisp
