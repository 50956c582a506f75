/-
# The history file

A history file holds one entry a line. Reading is more lenient than writing: a line may end in a
carriage return as well, empty lines are passed over, and a file that begins with a time stamp may
have more of them between its entries. What is written holds the entries alone.

* `History.completeLines` : the lines of a file;
* `History.entries` : the entries that a file holds;
* `History.text` : the file that holds some entries.
-/

namespace Lisp.History

/-- The lines that a line feed ends, where `current` holds the line begun, last character first.
What stands behind the last line feed is no line. -/
def completeLines (current : List Char) : List Char → List (List Char)
  | [] => []
  | c :: rest =>
    if c = '\n' then current.reverse :: completeLines [] rest
    else completeLines (c :: current) rest

/-- The entry that a line holds: a carriage return at its end does not count, and a null character
ends it. -/
def entry (line : List Char) : List Char :=
  let body := if line.getLast? = some '\r' then line.dropLast else line
  body.takeWhile (· ≠ '\x00')

/-- Whether a text begins as a time stamp does: with a number sign and a digit. -/
def isStamp : List Char → Bool
  | '#' :: c :: _ => c.isDigit
  | _ => false

/-- The entries that a file holds. Lines that look like time stamps are passed over in a file that
begins with one, and are entries in any other. -/
def entries (file : List Char) : List (List Char) :=
  let found := ((completeLines [] file).map entry).filter (!·.isEmpty)
  if isStamp file then found.filter (!isStamp ·) else found

/-- The file that holds some entries. -/
def text (entries : List (List Char)) : List Char :=
  entries.flatMap (· ++ ['\n'])

/-! ## Lines -/

/-- A text up to a line feed is one line, whatever was collected before it. -/
theorem completeLines_append_newline {line : List Char} (h : '\n' ∉ line)
    (current rest : List Char) :
    completeLines current (line ++ '\n' :: rest) =
      (current.reverse ++ line) :: completeLines [] rest := by
  induction line generalizing current with
  | nil => simp [completeLines]
  | cons c line ih =>
    simp only [List.mem_cons, not_or] at h
    simp [completeLines, Ne.symm h.1, ih h.2]

/-- The lines of a written file are its entries. -/
theorem completeLines_text {entries : List (List Char)} (h : ∀ line ∈ entries, '\n' ∉ line) :
    completeLines [] (text entries) = entries := by
  induction entries with
  | nil => rfl
  | cons line rest ih =>
    have hline := h line List.mem_cons_self
    have hrest := ih fun l hl => h l (List.mem_cons_of_mem _ hl)
    unfold text at hrest ⊢
    simp [List.flatMap_cons, completeLines_append_newline hline, hrest]

end Lisp.History
