/-
# The executable

Reads the arguments, the variables of the environment, the history file and the typed lines, and
writes what the rest of the library says.
-/
import Lisp.Console

namespace Lisp.Console

/-- Writes one piece of output. A record is stamped with the milliseconds since the start. -/
def write (began : Nat) : Output → IO Unit
  | .out text => do
    let stdout ← IO.getStdout
    stdout.putStr text
    stdout.flush
  | .err text => do (← IO.getStderr).putStr text
  | .log record => do
    let now ← IO.monoMsNow
    (← IO.getStderr).putStr (record.text (String.ofList (Layout.integer (now - began)) ++ " ms"))

/-- What comes of reading the history file. -/
def readHistory (path : String) : IO Folder.LoadResult :=
  try
    return .loaded (History.entries (← IO.FS.readFile path).toList)
  catch
    | .noFileOrDirectory .. => return .noHistory
    | e => return .failed (toString e)

/-- Reports why the program breaks off. -/
def reportCrash (crash : Crash) : IO UInt32 := do
  (← IO.getStderr).putStr ("tinylisp: " ++ crash.message ++ "\n")
  return 1

/-- Asks for lines and replies to them until the input ends or the program breaks off. -/
partial def converse (M : Machine) (level : String) (limit : Given Int) (began : Nat) (E : Env) :
    IO (Option Crash) := do
  write began (.out prompt)
  let line ← (← IO.getStdin).getLine
  if line.isEmpty then
    write began (.out (farewell .endOfInput))
    return none
  else
    match respond M limit (line.dropEndWhile (· = '\n')).copy E with
    | .error crash => return some crash
    | .ok turn =>
      (turnOutputs level turn).forM (write began)
      converse M level limit began turn.env

/-- A session at the prompt, between reading and writing the history file. -/
def talk (M : Machine) (level : String) (limit : Given Int) (began : Nat) (path : String) :
    IO UInt32 := do
  write began (.out banner)
  match checkPath path with
  | .error crash => reportCrash crash
  | .ok path =>
    let history ← readHistory path
    (loadOutputs level path history).forM (write began)
    match ← converse M level limit began (environment limit) with
    | some crash => reportCrash crash
    | none =>
      try
        IO.FS.writeFile path (String.ofList (History.text history.entries))
      catch e =>
        (historyWarning level "write" path (toString e)).forM (write began)
      return 0

/-- A session at the prompt under some options. -/
def talkUnder (options : Options) (settings : Settings) (began : Nat) : IO UInt32 :=
  match levelOf options settings with
  | .error crash => reportCrash crash
  | .ok level => do
    (log level (Log.started level)).forM (write began)
    talk {} level (limitOf options settings) began (historyOf options settings)

/-- A run that asks for no lines. -/
def runOnce (args : List String) (settings : Settings) (began : Nat) : IO UInt32 := do
  let start : Start := {
    args, settings, lines := [], ending := .endOfInput, folder := ⟨[], []⟩, keepsHistory := false }
  match run {} start with
  | .error crash => reportCrash crash
  | .ok finish =>
    finish.outputs.forM (write began)
    return finish.status.toUInt32

/-- The settings that the variables of the environment give. -/
def readSettings : IO Settings := do
  let names := ["TINYLISP_MAX_DEPTH", "TINYLISP_HISTORY_FILE", "TINYLISP_LOG_LEVEL"]
  let values ← names.mapM fun name => return (name, ← IO.getEnv name)
  return Settings.ofVariables fun name => (values.lookup name).join

end Lisp.Console

open Lisp in
/-- The program. -/
def main (args : List String) : IO UInt32 := do
  let began ← IO.monoMsNow
  let settings ← Console.readSettings
  match Options.parse args with
  | .start { expr := none, debug, historyFile, maxDepth } =>
    Console.talkUnder { debug, historyFile, maxDepth } settings began
  | _ => Console.runOnce args settings began
