/-
# Sessions

A session takes one line at a time. A blank line does nothing, a line with one expression is
evaluated, and an error never ends the session.

* `Session.eval` : the value of a line;
* `Session.respond` : the reply to a line;
* `Session.run` : the replies to some lines, one after another;
* `Session.idle?` : the reply to a line that needs no evaluation.
-/
import Lisp.Eval
import Lisp.Reader

namespace Lisp.Session

/-- Why a line has no value. -/
inductive Failure where
  | reading (cause : ReadError)
  | evaluating (cause : EvalError)

/-- The wording of a failure in a reply. -/
def Failure.message : Failure → String
  | reading cause => cause.message
  | evaluating cause => "Eval error: " ++ cause.message

/-! ## The value of a line -/

/-- What becomes of a line: a value unless it was blank, or a failure. -/
structure Answer where
  result : Except Failure (Option Expr)
  env : Env
  events : List Event

/-- The answer to an expression that was read.  The error `NumberError.unrepresentable` would not be
caught and end the session.  It stands here like the others, since it is never raised in a session
that begins afresh (`Session.caught_of_eval`). -/
def answer (M : Machine) (e : Expr) (E : Env) : Answer :=
  let outcome := evaluate M e E
  let result :=
    match outcome.result with
    | .ok value => .ok (some value)
    | .error cause => .error (.evaluating cause)
  ⟨result, outcome.env, .parsed e :: outcome.events⟩

/-- The value of a line. -/
def eval (M : Machine) (line : String) (E : Env) : Answer :=
  if Text.isBlankText line.toList then ⟨.ok none, E, []⟩
  else
    match parse line with
    | .ok e => answer M e E
    | .error (.malformed fault) => ⟨.error (.reading (.malformed fault)), E, []⟩
    | .error (.trailing rest) => ⟨.error (.reading (.trailing rest)), E, [.trailing rest]⟩

/-! ## Replies -/

/-- The reply to a line: nothing, a result or a complaint. -/
inductive Reply where
  | silent
  | shown (text : String)
  | failed (text : String)

namespace Reply

/-- What a reply puts on the standard output. -/
def out : Reply → String
  | shown text => text ++ "\n"
  | _ => ""

/-- What a reply puts on the standard error. -/
def err : Reply → String
  | failed text => text ++ "\n"
  | _ => ""

/-- Whether a reply is a complaint. -/
def isFailure : Reply → Bool
  | failed _ => true
  | _ => false

end Reply

/-- The line that asks for the environment. -/
def contextCommand : List Char := ['?', 'c', 't', 'x']

/-- A reply with the environment that it leaves and the events before it. -/
structure Turn where
  reply : Reply
  env : Env
  events : List Event

/-- The reply that an answer amounts to. -/
def Answer.reply (a : Answer) : Reply :=
  match a.result with
  | .ok none => .silent
  | .ok (some value) => .shown value.render
  | .error failure => .failed failure.message

/-- The reply to a line. -/
def respond (M : Machine) (line : String) (E : Env) : Turn :=
  if Text.trim line.toList = contextCommand then ⟨.shown E.describe, E, []⟩
  else
    let a := eval M line E
    ⟨a.reply, a.env, a.events⟩

/-- The replies to some lines, each in the environment that the one before left. -/
def run (M : Machine) : Env → List String → List Turn
  | _, [] => []
  | E, line :: rest =>
    let turn := respond M line E
    turn :: run M turn.env rest

/-- The reply to a line in a session that has no limit to nest within, so that nothing can be
evaluated: a line with an expression has no reply. -/
def idle? (line : String) : Option Turn :=
  let E := Env.fresh 0
  if Text.trim line.toList = contextCommand then some ⟨.shown (E.describeWith "[]"), E, []⟩
  else
    match parse line with
    | .ok _ => none
    | .error _ => some (respond {} line E)

/-- How many lines failed. -/
def failures (turns : List Turn) : Nat := turns.countP (·.reply.isFailure)

end Lisp.Session
