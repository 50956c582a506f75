/-
# The program as a whole

What the program writes, and with which status it ends, given its arguments and settings, the
lines that are typed and the folder it runs in.

* `Output` : one piece of what is written;
* `Crash` : why the program breaks off;
* `Console.batch`, `Console.interactive` : the two ways to run a session;
* `Console.run` : the program.
-/
import Lisp.Folder
import Lisp.Log
import Lisp.Options
import Lisp.Session
import Lisp.Text.Class

namespace Lisp

/-- One piece of what the program writes: on the standard output, on the standard error, or a record
of the log, which goes to the standard error as well. -/
inductive Output where
  | out (text : String)
  | err (text : String)
  | log (record : Record)

namespace Output

/-- What some pieces put on the standard output. -/
def stdout (outputs : List Output) : String :=
  String.join (outputs.map fun
    | out text => text
    | _ => "")

/-- What some pieces put on the standard error, with every record written at the given time. -/
def stderr (time : String) (outputs : List Output) : String :=
  String.join (outputs.map fun
    | err text => text
    | log record => record.text time
    | out _ => "")

end Output

/-- How typing ends. -/
inductive Ending where
  | endOfInput
  | interrupt
  deriving DecidableEq, Repr

/-- What the program is started with. -/
structure Start where
  args : List String
  settings : Settings
  lines : List String
  ending : Ending
  folder : Folder
  keepsHistory : Bool

/-- How the program ends. -/
structure Finish where
  status : Nat
  outputs : List Output
  folder : Folder

/-- Why the program breaks off: the level of the log is refused, there is no text to evaluate, there
is no limit to compare the nesting with, or a text that the system has to know holds a null
character. -/
inductive Crash where
  | badLevel (cause : Log.LevelError)
  | noText
  | noLimit
  | nullCharacter
  deriving DecidableEq, Repr

/-- The wording of a crash. -/
def Crash.message : Crash → String
  | badLevel cause => cause.message
  | noText => "'list' object has no attribute 'splitlines'"
  | noLimit => "'>=' not supported between instances of 'int' and 'list'"
  | nullCharacter => "embedded null byte"

namespace Console

/-! ## Texts -/

/-- The name and version of the program. -/
def version : String := "0.1.0"

/-- How the program is called. -/
def usage : String :=
  "usage: tinylisp [-h] [-e EXPR] [-d] [--history-file HISTORY_FILE]\n" ++
  "                [--max-depth MAX_DEPTH] [--version]\n"

/-- The help text. -/
def help : String :=
  usage ++
  "\n" ++
  "Evaluate tinylisp expressions, one per line.\n" ++
  "\n" ++
  "options:\n" ++
  "  -h, --help            show this help message and exit\n" ++
  "  -e EXPR, --expr EXPR  evaluate each line of EXPR and exit\n" ++
  "  -d, --debug           enable debug logging\n" ++
  "  --history-file HISTORY_FILE\n" ++
  "                        REPL history file (default: $TINYLISP_HISTORY_FILE or\n" ++
  "                        history.txt)\n" ++
  "  --max-depth MAX_DEPTH\n" ++
  "                        maximum evaluation depth\n" ++
  "  --version             show program's version number and exit\n"

/-- What is shown before the first prompt. -/
def banner : String := "tinylisp version " ++ version ++ "\nPress Ctrl+C to exit\n"

/-- What asks for a line. -/
def prompt : String := "tinylisp> "

/-- The last thing shown when typing ends. -/
def farewell : Ending → String
  | .endOfInput => "\n"
  | .interrupt => "CTRL-C\n"

/-! ## Records and replies -/

/-- A record, if the level shows it. -/
def log (level : String) (record : Record) : List Output :=
  if record.shownAt level then [.log record] else []

/-- What a turn of a session writes. -/
def turnOutputs (level : String) (turn : Session.Turn) : List Output :=
  turn.events.flatMap (fun event => log level (Log.ofEvent event)) ++
    match turn.reply with
    | .silent => []
    | .shown text => [.out (text ++ "\n")]
    | .failed text => [.err (text ++ "\n")]

/-! ## Sessions -/

/-- The environment that a session begins with. Without a limit nothing is ever evaluated in it. -/
def environment (limit : Given Int) : Env :=
  match limit with
  | .value n => Env.fresh n
  | .nothing => Env.fresh 0

/-- The reply to a line. Without a limit only a line that needs no evaluation has one. -/
def respond (M : Machine) (limit : Given Int) (line : String) (E : Env) :
    Except Crash Session.Turn :=
  match limit with
  | .value _ => .ok (Session.respond M line E)
  | .nothing =>
    match Session.idle? line with
    | some turn => .ok turn
    | none => .error .noLimit

/-- The replies to some lines, each in the environment that the one before left. -/
def turns (M : Machine) (limit : Given Int) : Env → List String → Except Crash (List Session.Turn)
  | _, [] => .ok []
  | E, line :: rest => do
    let turn ← respond M limit line E
    let more ← turns M limit turn.env rest
    pure (turn :: more)

/-- With a limit the replies are those of a session. -/
theorem turns_value (M : Machine) (n : Int) (E : Env) (lines : List String) :
    turns M (.value n) E lines = .ok (Session.run M E lines) := by
  induction lines generalizing E with
  | nil => rfl
  | cons line rest ih =>
    simp [turns, respond, Session.run, bind, Except.bind, pure, Except.pure, ih]

/-- A session over the lines of one text. -/
def batch (M : Machine) (level : String) (limit : Given Int) (text : String) :
    Except Crash (List Output) := do
  let replies ← turns M limit (environment limit) (Text.lines text)
  pure (replies.flatMap (turnOutputs level))

/-- A warning about the history file. -/
def historyWarning (level action path reason : String) : List Output :=
  log level ⟨"tinylisp.repl", .warning,
    "could not " ++ action ++ " history file " ++ path ++ ": " ++ reason⟩

/-- What reading the history file writes. -/
def loadOutputs (level path : String) : Folder.LoadResult → List Output
  | .loaded _ => []
  | .noHistory => [.out "No previous history.\n"]
  | .failed reason => historyWarning level "read" path reason

/-- The history file as the system knows it. -/
def checkPath (path : String) : Except Crash String :=
  if path.toList.contains '\x00' then .error .nullCharacter else .ok path

/-- What is shown of typed lines, with a prompt before each. -/
def conversation (M : Machine) (level : String) (limit : Given Int) (s : Start) :
    Except Crash (List Output) := do
  let replies ← turns M limit (environment limit) s.lines
  let typed := replies.flatMap fun turn => .out prompt :: turnOutputs level turn
  pure (typed ++ [.out prompt, .out (farewell s.ending)])

/-- A session over typed lines, between reading and writing the history file. -/
def interactive (M : Machine) (level : String) (limit : Given Int) (path : String) (s : Start) :
    Except Crash (List Output × Folder) :=
  if s.keepsHistory then do
    let path ← checkPath path
    let history := s.folder.load path
    let opening := .out banner :: loadOutputs level path history
    let shown ← conversation M level limit s
    match s.folder.save path history.entries with
    | .ok folder => pure (opening ++ shown, folder)
    | .error cause =>
      pure (opening ++ shown ++ historyWarning level "write" path cause.message, s.folder)
  else do
    let shown ← conversation M level limit s
    pure (.out banner :: shown, s.folder)

/-! ## The program -/

/-- The log level: the most detailed one if the options ask for it, and otherwise that of the
settings. -/
def levelOf (options : Options) (settings : Settings) : Except Crash String :=
  (Log.check (if options.debug then "DEBUG" else settings.logLevel)).mapError .badLevel

/-- The nesting limit. One among the options comes first. -/
def limitOf (options : Options) (settings : Settings) : Given Int :=
  options.maxDepth.getD (.value settings.maxDepth)

/-- The history file. One among the options comes first. -/
def historyOf (options : Options) (settings : Settings) : String :=
  options.historyFile.getD settings.historyFile

/-- What the program does once its options are known. -/
def start (M : Machine) (options : Options) (s : Start) : Except Crash Finish := do
  let level ← levelOf options s.settings
  let opening := log level (Log.started level)
  let limit := limitOf options s.settings
  match options.expr with
  | some .nothing => .error .noText
  | some (.value text) =>
    let outputs ← batch M level limit text
    pure ⟨0, opening ++ outputs, s.folder⟩
  | none =>
    let (outputs, folder) ← interactive M level limit (historyOf options s.settings) s
    pure ⟨0, opening ++ outputs, folder⟩

/-- The program. -/
def run (M : Machine) (s : Start) : Except Crash Finish :=
  match Options.parse s.args with
  | .start options => start M options s
  | .help => .ok ⟨0, [.out help], s.folder⟩
  | .version => .ok ⟨0, [.out ("tinylisp " ++ version ++ "\n")], s.folder⟩
  | .refuse cause =>
    .ok ⟨2, [.err (usage ++ "tinylisp: error: " ++ cause.message ++ "\n")], s.folder⟩

end Console

end Lisp
