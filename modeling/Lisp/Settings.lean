/-
# Settings

The nesting limit, the history file and the log level can be set by variables of the environment
that the program is started in. A value that makes no sense counts as none.

* `Settings.integer?` : the integer that a text spells;
* `Settings.positive` : the limit given as an option, or why it is refused;
* `Settings.maxDepthOf`, `Settings.historyFileOf`, `Settings.logLevelOf` : the three variables.
-/
import Lisp.Number.Layout
import Lisp.Path
import Lisp.Text.Class
import Lisp.Text.Printable
import Lisp.Text.Upper

namespace Lisp

namespace Settings

/-! ## Integers -/

/-- White space that may surround an integer: all but the four information separators. -/
def isPadding (c : Char) : Bool :=
  Text.isBlank c && !(0x1C ≤ c.toNat && c.toNat ≤ 0x1F)

/-- A text without padding at either end. -/
def dropPadding (s : List Char) : List Char :=
  ((s.dropWhile isPadding).reverse.dropWhile isPadding).reverse

/-- The values of digits of any script, with at most one underscore between each two. -/
def digitValues? : List Char → Option (List Nat)
  | [] => none
  | [c] => (Text.digitValue? c).map ([·])
  | c :: '_' :: rest => do
    let d ← Text.digitValue? c
    let ds ← digitValues? rest
    pure (d :: ds)
  | c :: rest => do
    let d ← Text.digitValue? c
    let ds ← digitValues? rest
    pure (d :: ds)

/-- How many digits an integer may have. -/
def maxDigits : Nat := 4300

/-- The number that digits denote, if there are not too many. -/
def natural? (s : List Char) : Option Nat := do
  let ds ← digitValues? s
  if maxDigits < ds.length then none else pure (ds.foldl (fun n d => 10 * n + d) 0)

/-- The integer that a text spells: padding, an optional sign, digits and padding. -/
def integer? (s : List Char) : Option Int :=
  match dropPadding s with
  | '-' :: rest => (natural? rest).map fun n => -(n : Int)
  | '+' :: rest => (natural? rest).map fun n => (n : Int)
  | rest => (natural? rest).map fun n => (n : Int)

/-! ## The nesting limit -/

/-- Why a limit is refused. -/
inductive LimitError where
  | notAnInteger (text : List Char)
  | notPositive (text : List Char)
  deriving DecidableEq

/-- The wording of a refusal. -/
def LimitError.message : LimitError → String
  | notAnInteger text => "invalid int value: " ++ String.ofList (Text.quoted text)
  | notPositive text => "must be a positive integer: " ++ String.ofList (Text.quoted text)

/-- The limit that a text gives. -/
def positive (text : String) : Except LimitError Int :=
  match integer? text.toList with
  | none => .error (.notAnInteger text.toList)
  | some n => if n ≤ 0 then .error (.notPositive text.toList) else .ok n

/-- The limit where none is given. -/
def defaultMaxDepth : Int := 150

/-- The limit that a variable's value gives. -/
def maxDepthOf (value : Option String) : Int :=
  match value.bind fun raw => integer? (Text.trim raw.toList) with
  | none => defaultMaxDepth
  | some n => if 0 < n then n else defaultMaxDepth

/-- Whatever the setting is, there is a limit that lets something be evaluated. -/
theorem maxDepthOf_pos (value : Option String) : 0 < maxDepthOf value := by
  unfold maxDepthOf
  split
  · decide
  · split
    · assumption
    · decide

/-! ## The other settings -/

/-- The trimmed text of a variable's value, unless nothing is left of it. -/
def trimmed? (value : Option String) : Option String :=
  match value.map fun raw => Text.trim raw.toList with
  | none => none
  | some [] => none
  | some cs => some (String.ofList cs)

/-- The history file that a variable's value gives. -/
def historyFileOf (value : Option String) : String :=
  ((trimmed? value).map Path.normalize).getD "history.txt"

/-- The log level that a variable's value gives. -/
def logLevelOf (value : Option String) : String :=
  ((trimmed? value).map Text.upper).getD "WARNING"

end Settings

/-- What the variables of the environment set. -/
structure Settings where
  maxDepth : Int
  historyFile : String
  logLevel : String

/-- The settings that variables give. -/
def Settings.ofVariables (value : String → Option String) : Settings where
  maxDepth := Settings.maxDepthOf (value "TINYLISP_MAX_DEPTH")
  historyFile := Settings.historyFileOf (value "TINYLISP_HISTORY_FILE")
  logLevel := Settings.logLevelOf (value "TINYLISP_LOG_LEVEL")

end Lisp
