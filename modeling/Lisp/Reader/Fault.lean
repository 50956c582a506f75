/-
# Why a text is no expression

* `Fault` : the ways in which reading can fail, each with the position it is reported at;
* `Fault.message` : their wording;
* `ReadError` : a fault, or further text behind a complete expression.
-/
import Lisp.Number.Layout
import Lisp.Text.Printable

namespace Lisp

/-- What the reader was looking for. -/
inductive Expectation where
  | expression
  | listAfterQuote
  | separator
  deriving DecidableEq, Repr

/-- The wording of what the reader was looking for. -/
def Expectation.phrase : Expectation → String
  | .expression => "an expression"
  | .listAfterQuote => "'(' after quote"
  | .separator => "' ' or ')'"

/-- The ways in which reading can fail. -/
inductive Fault where
  | expected (what : Expectation) (pos : Nat) (found : Option Char)
  | missingQuote (pos : Nat)
  | unterminated (start : Nat)
  | unknownEscape (pos : Nat) (c : Char)
  | malformedCodePoint (pos : Nat)
  | invalidCodePoint (pos : Nat) (digits : List Char)
  | tooDeep
  deriving DecidableEq, Repr

/-- The text of a position. -/
def positionText (pos : Nat) : String := String.ofList (Layout.integer pos)

/-- The character found, or that there was none. -/
def foundText : Option Char → String
  | none => "end of input"
  | some c => String.ofList (Text.quoted [c])

/-- The wording of a fault. -/
def Fault.message : Fault → String
  | expected what pos found =>
    "expected " ++ what.phrase ++ " at position " ++ positionText pos ++ ", found "
      ++ foundText found
  | missingQuote pos => "expected '\"' at position " ++ positionText pos
  | unterminated start => "unterminated string starting at position " ++ positionText start
  | unknownEscape pos c =>
    "unknown escape sequence '\\" ++ String.ofList [c] ++ "' at position " ++ positionText pos
  | malformedCodePoint pos => "malformed unicode escape at position " ++ positionText pos
  | invalidCodePoint pos digits =>
    "invalid unicode escape at position " ++ positionText pos ++ ": "
      ++ String.ofList (Text.quoted digits)
  | tooDeep => "expression nested too deeply"

/-- Why a source is not one expression. -/
inductive ReadError where
  | malformed (fault : Fault)
  | trailing (rest : List Char)
  deriving DecidableEq, Repr

/-- The wording of a read error. -/
def ReadError.message : ReadError → String
  | malformed fault => "Invalid syntax: " ++ fault.message
  | trailing _ => "Trailing garbage following expression"

end Lisp
