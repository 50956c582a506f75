/-
# Log records

A record names the part of the program that wrote it and how grave it is. It is shown if it is at
least as grave as the level asks for.

* `Severity`, `Record` : records;
* `Log.threshold` : the least rank that a level shows;
* `Log.check` : which levels are refused;
* `Record.text` : a record as it is shown.
-/
import Lisp.Eval.Outcome

namespace Lisp

/-- How grave a record is. -/
inductive Severity where
  | debug
  | warning
  deriving DecidableEq, Repr

/-- The place of a severity among all levels. -/
def Severity.rank : Severity → Nat
  | debug => 10
  | warning => 30

/-- The name of a severity. -/
def Severity.label : Severity → String
  | debug => "DEBUG"
  | warning => "WARNING"

/-- A message with its origin and severity. -/
structure Record where
  source : String
  severity : Severity
  message : String

namespace Log

/-- The least rank that a level shows; an unknown level is taken for a warning. -/
def threshold (level : String) : Nat :=
  match level with
  | "NOTSET" => 0
  | "DEBUG" => 10
  | "INFO" => 20
  | "WARN" => 30
  | "WARNING" => 30
  | "ERROR" => 40
  | "FATAL" => 50
  | "CRITICAL" => 50
  | _ => 30

/-- Why a level is refused. Two names that are no levels belong to something else: the plain layout
of records, and the table of layouts. -/
inductive LevelError where
  | layout
  | layoutTable
  deriving DecidableEq, Repr

/-- The level, unless its name belongs to something else. -/
def check (level : String) : Except LevelError String :=
  match level with
  | "BASIC_FORMAT" => .error .layout
  | "_STYLES" => .error .layoutTable
  | _ => .ok level

/-- The plain layout of records, quoted. -/
def plainLayout : String := "'%(levelname)s:%(name)s:%(message)s'"

/-- The wording of a refusal, which shows what the name belongs to. -/
def LevelError.message : LevelError → String
  | layout => "Unknown level: " ++ plainLayout
  | layoutTable =>
    "Level not an integer or a valid string: \x7b" ++
    "'%': (<class 'logging.PercentStyle'>, " ++ plainLayout ++ "), " ++
    "'\x7b': (<class 'logging.StrFormatStyle'>, " ++
    "'\x7blevelname\x7d:\x7bname\x7d:\x7bmessage\x7d'), " ++
    "'$': (<class 'logging.StringTemplateStyle'>, " ++
    "'$\x7blevelname\x7d:$\x7bname\x7d:$\x7bmessage\x7d')\x7d"

/-- The record of an event. -/
def ofEvent (event : Event) : Record := ⟨event.source, .debug, event.message⟩

/-- The record that says that logging has begun. -/
def started (level : String) : Record :=
  ⟨"tinylisp.log", .debug, "Logging initialized at " ++ level ++ " level"⟩

end Log

/-- Whether a record is shown at a level. -/
def Record.shownAt (r : Record) (level : String) : Bool := Log.threshold level ≤ r.severity.rank

/-- A record as it is shown, behind the time at which it was written. -/
def Record.text (r : Record) (time : String) : String :=
  time ++ " - " ++ r.source ++ " - " ++ r.severity.label ++ " - " ++ r.message ++ "\n"

end Lisp
