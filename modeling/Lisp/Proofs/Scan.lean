/-
# Reading over one position

A rule of the reader is given a place and yields another one, or none at all if it declines.  Here
all rules share a single position, which each of them moves: it stands wherever the last move has
left it, also when a rule declines or fails, and nothing keeps it inside the source.  Nothing bounds
how deep lists nest.  Only the turns of the loops over the elements of lists are counted, so that a
computation which goes on for ever is cut off, however many there are.

* `Reader.Kind` : the alternatives of the grammar, in the order in which they are tried;
* `Reader.Scan` : computations over a position;
* `Scan.attempt`, `Scan.choose` : one alternative at the position, and the first that is taken;
* `Scan.elements` : the loop over the elements of a list;
* `Scan.list`, `Scan.expression` : lists and expressions in which these loops have some turns.
-/
import Lisp.Reader

namespace Lisp.Reader

/-! ## Alternatives -/

/-- The alternatives of the grammar. -/
inductive Kind where
  | operator
  | string
  | identifier
  | integer
  | floating
  | quotedList
  | plainList
  deriving DecidableEq, Repr

/-- The alternatives in the order in which they are tried. -/
def Kind.inOrder : List Kind :=
  [operator, string, identifier, integer, floating, quotedList, plainList]

/-- The rule of an alternative, over a reader of lists. -/
def Kind.choice (list : Cursor → Except Failure (List Expr × Cursor)) : Kind → Choice
  | operator => Reader.operator
  | string => Reader.string
  | identifier => Reader.identifier
  | integer => Reader.integer
  | floating => Reader.floating
  | quotedList => Reader.quotedList list
  | plainList => Reader.plainList list

theorem choices_eq_map (list : Cursor → Except Failure (List Expr × Cursor)) :
    choices list = Kind.inOrder.map (Kind.choice list) := rfl

/-- The rule of every alternative is among those that the reader tries. -/
theorem Kind.choice_mem_choices (list : Cursor → Except Failure (List Expr × Cursor))
    (kind : Kind) : kind.choice list ∈ choices list := by
  rw [choices_eq_map]
  apply List.mem_map_of_mem
  cases kind <;> decide

/-! ## Computations over a position -/

/-- A computation over a position.  It yields a value or a fault, and in both cases the position
that it has come to, or nothing if it is cut off. -/
abbrev Scan := ExceptT Fault (StateT Nat Option)

namespace Scan

variable (source : List Char) {α β : Type}

/-- The character at the position, if the source has not ended. -/
def peek? : Scan (Option Char) := do return source[← get]?

/-- A move ahead, which nothing keeps from leaving the source. -/
def advance (n : Nat) : Scan Unit := modify (· + n)

/-- A move behind the spaces that come next, and their number.  Behind the end of the source there
are none, and the position is brought back to the end. -/
def skipSpaces : Scan Nat := do
  let n := (Cursor.ofSource source (← get)).spaces
  modify (min source.length · + n)
  return n

/-- The failure to find something at the position. -/
def missing (what : Expectation) : Scan α := do
  throw (.expected what (← get) (← peek? source))

/-- An alternative for a token.  The position moves only if there is one. -/
def ofToken (token : List Char → Option (α × Nat)) (make : α → Expr) : Scan (Option Expr) := do
  match token (source.drop (← get)) with
  | none => return none
  | some (a, n) =>
    advance n
    return some (make a)

/-- A string literal, which is decoded apart.  The position is moved behind it afterwards. -/
def string : Scan (Option Expr) := do
  if (← peek? source) = some '"' then
    match Literal.decode (Cursor.ofSource source (← get)) with
    | .error fault => throw fault
    | .ok (s, c) =>
      set c.pos
      return some (.text (String.ofList s))
  else return none

/-- One alternative at the position, over lists. -/
def attempt (list : Scan (List Expr)) : Kind → Scan (Option Expr)
  | .operator => ofToken source Token.operator? .operator
  | .string => string source
  | .identifier => ofToken source Token.name? .name
  | .integer => ofToken source Token.integer? fun n => .int n
  | .floating => ofToken source Token.decimal? fun d => .float d.toFloat
  | .quotedList => do
    if (← peek? source) = some '\x27' then
      -- The quote is passed before it is known whether a list follows.
      advance 1
      if (← peek? source) = some '(' then
        return some (.quoted (← list))
      else missing source .listAfterQuote
    else return none
  | .plainList => do
    if (← peek? source) = some '(' then
      return some (.form (← list))
    else return none

/-- The first alternative that does not decline, over lists. -/
def choose (list : Scan (List Expr)) : Scan Expr := do
  match ← Kind.inOrder.findSomeM? (attempt source list) with
  | some e => return e
  | none => missing source .expression

/-- A list, over its elements.  The first character is passed without a look at it. -/
def enclosed (elements : Scan (List Expr)) : Scan (List Expr) := do
  advance 1
  let _ ← skipSpaces source
  if (← peek? source) = some ')' then
    advance 1
    return []
  else elements

/-- A computation that is cut off. -/
def unfinished : Scan α := fun _ => none

/-- The loop over the elements of a list, up to its closing bracket.  It is cut off when the turns
are used up, and so are the loops over the elements of the lists inside. -/
def elements : (turns : Nat) → Scan (List Expr)
  | 0 => unfinished
  | turns + 1 => do
    let e ← choose source (enclosed source (elements turns))
    let gap ← skipSpaces source
    if (← peek? source) = some ')' then
      advance 1
      return [e]
    else if gap = 0 then missing source .separator
    else return e :: (← elements turns)

/-- A list in which the loops have some turns. -/
def list (turns : Nat) : Scan (List Expr) := enclosed source (elements source turns)

/-- An expression in which the loops have some turns. -/
def expression (turns : Nat) : Scan Expr := choose source (list source turns)

/-! ## Steps -/

section Steps

variable {source} {pos fin : Nat} {fault : Fault} {e : Expr}

@[simp] theorem pure_apply (a : α) (pos : Nat) : (pure a : Scan α) pos = some (.ok a, pos) := rfl

/-- A look at the next character does not move the position. -/
@[simp] theorem peek?_apply (pos : Nat) : peek? source pos = some (.ok source[pos]?, pos) := rfl

/-- A move ahead asks for nothing, not even whether there is so much left. -/
@[simp] theorem advance_apply (n pos : Nat) : advance n pos = some (.ok (), pos + n) := rfl

/-- Spaces are passed from the position, or from the end of the source if that comes first. -/
@[simp] theorem skipSpaces_apply (pos : Nat) :
    skipSpaces source pos = some (.ok (Cursor.ofSource source pos).spaces,
      min source.length pos + (Cursor.ofSource source pos).spaces) := rfl

/-- A fault is reported with the position and the character there, and the position stays. -/
@[simp] theorem missing_apply (what : Expectation) (pos : Nat) :
    (missing source what : Scan α) pos = some (.error (.expected what pos source[pos]?), pos) := rfl

/-- What comes next begins where the position has been left, unless there was a fault. -/
theorem bind_apply (x : Scan α) (f : α → Scan β) (pos : Nat) :
    (x >>= f) pos =
      match x pos with
      | none => none
      | some (.error fault, fin) => some (.error fault, fin)
      | some (.ok a, fin) => f a fin := by
  simp only [bind, ExceptT.bind, ExceptT.mk, StateT.bind]
  rcases x pos with _ | ⟨_ | a, fin⟩
  · rfl
  · rfl
  · rfl

/-- An alternative for a token stays where it is if there is none, and passes it if there is one. -/
theorem ofToken_apply (token : List Char → Option (α × Nat)) (make : α → Expr) (pos : Nat) :
    ofToken source token make pos =
      match token (source.drop pos) with
      | none => some (.ok none, pos)
      | some (a, n) => some (.ok (some (make a)), pos + n) := by
  have hget : (get : Scan Nat) pos = some (.ok pos, pos) := rfl
  simp only [ofToken, bind_apply, hget]
  cases token (source.drop pos) with
  | none => rfl
  | some r => rfl

/-- A string literal that is refused leaves the position at its opening quote. -/
theorem string_apply (pos : Nat) :
    string source pos =
      if source[pos]? = some '"' then
        match Literal.decode (Cursor.ofSource source pos) with
        | .error fault => some (.error fault, pos)
        | .ok (s, c) => some (.ok (some (.text (String.ofList s))), c.pos)
      else some (.ok none, pos) := by
  have hget : (get : Scan Nat) pos = some (.ok pos, pos) := rfl
  simp only [string, bind_apply, peek?_apply]
  split
  · simp only [bind_apply, hget]
    cases Literal.decode (Cursor.ofSource source pos) with
    | error fault => rfl
    | ok r => rfl
  · rfl

/-- A quote is passed in any case; a list is read behind it, or its absence is reported there. -/
theorem attempt_quotedList_apply (list : Scan (List Expr)) (pos : Nat) :
    attempt source list .quotedList pos =
      if source[pos]? = some '\x27' then
        if source[pos + 1]? = some '(' then
          (list >>= fun es => pure (some (.quoted es))) (pos + 1)
        else some (.error (.expected .listAfterQuote (pos + 1) source[pos + 1]?), pos + 1)
      else some (.ok none, pos) := by
  simp only [attempt, bind_apply, peek?_apply]
  split
  · simp only [bind_apply, peek?_apply, advance_apply]
    split
    · exact bind_apply _ _ _
    · rfl
  · rfl

/-- A list is read where an opening bracket stands, and nowhere else. -/
theorem attempt_plainList_apply (list : Scan (List Expr)) (pos : Nat) :
    attempt source list .plainList pos =
      if source[pos]? = some '(' then (list >>= fun es => pure (some (.form es))) pos
      else some (.ok none, pos) := by
  simp only [attempt, bind_apply, peek?_apply]
  split
  · exact bind_apply _ _ _
  · rfl

/-- Behind the opening bracket and the spaces, the list ends at once or its elements follow. -/
theorem enclosed_apply (x : Scan (List Expr)) {gap : Nat}
    (hgap : (Cursor.ofSource source (pos + 1)).spaces = gap) :
    enclosed source x pos =
      if source[min source.length (pos + 1) + gap]? = some ')' then
        some (.ok [], min source.length (pos + 1) + gap + 1)
      else x (min source.length (pos + 1) + gap) := by
  simp only [enclosed, bind_apply, peek?_apply, advance_apply, skipSpaces_apply, hgap]
  split
  · rfl
  · rfl

/-- A turn in which the element fails is the last one, and the position stays where it failed. -/
theorem elements_of_error {turns : Nat}
    (h : expression source turns pos = some (.error fault, fin)) :
    elements source (turns + 1) pos = some (.error fault, fin) := by
  have hfirst : choose source (enclosed source (elements source turns)) pos = _ := h
  rw [elements, bind_apply, hfirst]

/-- A turn in which an element was read ends the list, fails for want of a space, or goes on with
the next turn. -/
theorem elements_of_ok {turns gap : Nat} (h : expression source turns pos = some (.ok e, fin))
    (hfin : fin ≤ source.length) (hgap : (Cursor.ofSource source fin).spaces = gap) :
    elements source (turns + 1) pos =
      if source[fin + gap]? = some ')' then some (.ok [e], fin + gap + 1)
      else if gap = 0 then
        some (.error (.expected .separator (fin + gap) source[fin + gap]?), fin + gap)
      else (elements source turns >>= fun es => pure (e :: es)) (fin + gap) := by
  have hfirst : choose source (enclosed source (elements source turns)) pos = _ := h
  rw [elements, bind_apply, hfirst]
  simp only [bind_apply, peek?_apply, skipSpaces_apply, Nat.min_eq_right hfin, hgap]
  split
  · rfl
  · split
    · rfl
    · exact bind_apply _ _ _

end Steps

end Scan

end Lisp.Reader
