/-
# Command-line options

An option has a long name, which may be cut short as long as only one option begins so, and perhaps
a letter. The value of an option follows as the next argument, behind an equals sign or right behind
the letter; letters without a value can share one dash. A double dash in place of an attached value
stands for no value at all.

* `Switch` : the options;
* `Word`, `Word.classify` : what an argument is by itself;
* `Options.resolve` : what an option and the arguments behind it ask for;
* `Options.parse` : what the whole command line asks for.
-/
import Lisp.Settings

namespace Lisp

/-! ## Options -/

/-- The options of the program. -/
inductive Switch where
  | help
  | expr
  | debug
  | historyFile
  | maxDepth
  | version
  deriving DecidableEq, Repr

namespace Switch

/-- Every option, once, in the order of the help text. -/
def all : List Switch := [help, expr, debug, historyFile, maxDepth, version]

/-- The letter of an option. -/
def letter? : Switch → Option Char
  | help => some 'h'
  | expr => some 'e'
  | debug => some 'd'
  | _ => none

/-- The long name of an option. -/
def long : Switch → String
  | help => "--help"
  | expr => "--expr"
  | debug => "--debug"
  | historyFile => "--history-file"
  | maxDepth => "--max-depth"
  | version => "--version"

/-- Whether an option has a value. -/
def takesValue : Switch → Bool
  | expr | historyFile | maxDepth => true
  | _ => false

/-- The option of a letter. -/
def ofLetter? (c : Char) : Option Switch := all.find? (·.letter? = some c)

/-- The names of an option, as a complaint gives them. -/
def names (s : Switch) : String :=
  match s.letter? with
  | some c => "-" ++ String.ofList [c] ++ "/" ++ s.long
  | none => s.long

end Switch

/-- Why a command line is refused. -/
inductive UsageError where
  | missingValue (s : Switch)
  | badLimit (cause : Settings.LimitError)
  | unwantedValue (s : Switch) (value : List Char)
  | ambiguous (arg : String) (candidates : List Switch)
  | unrecognized (args : List String)

/-- The wording of a refusal. -/
def UsageError.message : UsageError → String
  | missingValue s => "argument " ++ s.names ++ ": expected one argument"
  | badLimit cause => "argument " ++ Switch.maxDepth.names ++ ": " ++ cause.message
  | unwantedValue s value =>
    "argument " ++ s.names ++ ": ignored explicit argument " ++ String.ofList (Text.quoted value)
  | ambiguous arg candidates =>
    "ambiguous option: " ++ arg ++ " could match " ++ ", ".intercalate (candidates.map Switch.long)
  | unrecognized args => "unrecognized arguments: " ++ " ".intercalate args

/-! ## Single arguments -/

/-- What an argument is by itself: an option by its letter or by its long name, perhaps with a value
attached, an option that does not exist, or anything else. -/
inductive Word where
  | option (s : Switch) (isShort : Bool) (attached : Option (List Char))
  | unknown (arg : String)
  | plain (arg : String)
  | divider

/-- Whether a text is a dash and a decimal number. One line break may follow. -/
def isNegativeNumber (s : List Char) : Bool :=
  match s with
  | '-' :: rest =>
    let body := if rest.getLast? = some '\n' then rest.dropLast else rest
    let isDigit := fun c => (Text.digitValue? c).isSome
    let behind := body.dropWhile isDigit
    match behind with
    | [] => !body.isEmpty
    | '.' :: places => !places.isEmpty && places.all isDigit
    | _ => false
  | _ => false

/-- The text before the first equals sign, and the text behind it if there is one. -/
def splitValue (s : List Char) : List Char × Option (List Char) :=
  let name := s.takeWhile (· ≠ '=')
  match s.drop name.length with
  | _ :: value => (name, some value)
  | [] => (name, none)

namespace Word

/-- What an argument is that names no option. -/
def leftover (arg : String) : Word :=
  if isNegativeNumber arg.toList || arg.toList.contains ' ' then plain arg else unknown arg

/-- What an argument is that begins with two dashes: the option whose name it is, or the only one
whose name begins so. -/
def classifyLong (arg : String) : Except UsageError Word :=
  let (name, value) := splitValue arg.toList
  match Switch.all.find? (·.long.toList = name) with
  | some s => .ok (option s false value)
  | none =>
    match Switch.all.filter (name.isPrefixOf ·.long.toList) with
    | [] => .ok (leftover arg)
    | [s] => .ok (option s false value)
    | candidates => .error (.ambiguous arg candidates)

/-- What an argument is that begins with a dash and the character `c`: the option of that letter,
with what follows as its value. -/
def classifyShort (arg : String) (c : Char) (rest : List Char) : Word :=
  match Switch.ofLetter? c with
  | none => leftover arg
  | some s =>
    match rest with
    | [] => option s true none
    | '=' :: value => option s true (some value)
    | value => option s true (some value)

/-- What an argument is by itself. -/
def classify (arg : String) : Except UsageError Word :=
  match arg.toList with
  | '-' :: '-' :: _ => classifyLong arg
  | '-' :: c :: rest => .ok (classifyShort arg c rest)
  | _ => .ok (plain arg)

/-- What the arguments are by themselves; behind a lone double dash all are plain. -/
def classifyAll : List String → Except UsageError (List Word)
  | [] => .ok []
  | arg :: rest =>
    if arg = "--" then .ok (divider :: rest.map plain)
    else do
      let word ← classify arg
      let words ← classifyAll rest
      pure (word :: words)

end Word

/-! ## The command line -/

/-- What an option is given: a value or none at all. -/
inductive Given (α : Type) where
  | nothing
  | value (a : α)
  deriving DecidableEq, Repr

/-- What the options set. -/
structure Options where
  expr : Option (Given String) := none
  debug : Bool := false
  historyFile : Option String := none
  maxDepth : Option (Given Int) := none

/-- What a command line asks for. -/
inductive Request where
  | start (options : Options)
  | help
  | version
  | refuse (cause : UsageError)

/-- An option with its value. -/
structure Setting where
  switch : Switch
  value : List Char

/-- Whether the value of an option is the double dash that stands for none. -/
def Setting.isEmpty (setting : Setting) : Bool := setting.value = ['-', '-']

namespace Options

/-- What is attached to a letter, if anything is left behind it. -/
def attachment (more : List Char) : Option (List Char) := if more.isEmpty then none else some more

/-- The settings that an option and the words behind it make, and the words that are left. Several
letters can share a dash, and a value that no option wants is refused. -/
def resolve (s : Switch) (isShort : Bool) (attached : Option (List Char)) (rest : List Word) :
    Except UsageError (List Setting × List Word) :=
  match attached with
  | none =>
    if s.takesValue then
      match rest with
      | .plain value :: rest => .ok ([⟨s, value.toList⟩], rest)
      | _ => .error (.missingValue s)
    else .ok ([⟨s, []⟩], rest)
  | some value =>
    if s.takesValue then .ok ([⟨s, value⟩], rest)
    else
      match isShort, value with
      | true, c :: more =>
        match Switch.ofLetter? c with
        | none => .error (.unwantedValue s (c :: more))
        | some next =>
          (resolve next true (attachment more) rest).map fun (settings, rest) =>
            (⟨s, []⟩ :: settings, rest)
      | _, value => .error (.unwantedValue s value)
termination_by (attached.map (·.length + 1)).getD 0
decreasing_by
  cases more <;> simp [attachment]

/-- Resolving an option leaves no more words than stand behind it. -/
theorem length_resolve_le {s : Switch} {isShort : Bool} {attached : Option (List Char)}
    {rest rest' : List Word} {settings : List Setting}
    (h : resolve s isShort attached rest = .ok (settings, rest')) : rest'.length ≤ rest.length := by
  fun_induction resolve s isShort attached rest generalizing rest' settings with
  | case1 s isShort hs value tail hrest =>
    simp only [Except.ok.injEq, Prod.mk.injEq] at h
    simp [← h.2, hrest]
  | case2 => simp at h
  | case3 =>
    simp only [Except.ok.injEq, Prod.mk.injEq] at h
    simp [← h.2]
  | case4 =>
    simp only [Except.ok.injEq, Prod.mk.injEq] at h
    simp [← h.2]
  | case5 => simp at h
  | case6 s hs c more next hnext ih =>
    cases hr : resolve next true (attachment more) rest with
    | error e => simp [hr, Except.map] at h
    | ok r =>
      simp only [hr, Except.map, Except.ok.injEq, Prod.mk.injEq] at h
      rw [← h.2]
      exact ih hr
  | case7 => simp at h

/-- The options with one more setting, or what the setting asks for instead. -/
def perform (options : Options) (setting : Setting) : Except Request Options :=
  let value := String.ofList setting.value
  match setting.switch with
  | .help => .error .help
  | .version => .error .version
  | .debug => .ok { options with debug := true }
  | .expr => .ok { options with expr := some (if setting.isEmpty then .nothing else .value value) }
  | .historyFile =>
    .ok { options with historyFile :=
      if setting.isEmpty then none else some (Path.normalize value) }
  | .maxDepth =>
    if setting.isEmpty then .ok { options with maxDepth := some .nothing }
    else
      match Settings.positive value with
      | .ok n => .ok { options with maxDepth := some (.value n) }
      | .error cause => .error (.refuse (.badLimit cause))

/-- The options with some more settings, made one after another. -/
def performAll : Options → List Setting → Except Request Options
  | options, [] => .ok options
  | options, setting :: rest =>
    match perform options setting with
    | .ok options => performAll options rest
    | .error request => .error request

/-- What the words of a command line ask for, where some options are set and some arguments were not
recognized before. -/
def process (options : Options) (extras : List String) (words : List Word) : Request :=
  match words with
  | [] => if extras.isEmpty then .start options else .refuse (.unrecognized extras)
  | .plain arg :: rest => process options (extras ++ [arg]) rest
  | .unknown arg :: rest => process options (extras ++ [arg]) rest
  | .divider :: rest => process options (extras ++ ["--"]) rest
  | .option s isShort attached :: rest =>
    match _h : resolve s isShort attached rest with
    | .error cause => .refuse cause
    | .ok (settings, rest) =>
      match performAll options settings with
      | .error request => request
      | .ok options => process options extras rest
termination_by words.length
decreasing_by
  · simp
  · simp
  · simp
  · exact Nat.lt_succ_of_le (length_resolve_le _h)

/-- What a command line asks for. -/
def parse (args : List String) : Request :=
  match Word.classifyAll args with
  | .error cause => .refuse cause
  | .ok words => process {} [] words

end Options

end Lisp
