/-
# Reading positions

A cursor is a place in a source text: how many characters lie before it and which ones lie ahead.

* `Cursor` : the place;
* `Cursor.peek?`, `Cursor.skip`, `Cursor.next`, `Cursor.skipSpaces` : looking and moving ahead;
* `Cursor.start`, `Cursor.ofSource` : the places of a source.
-/

namespace Lisp

/-- A place in a source: the number of characters before it and the characters ahead of it. -/
structure Cursor where
  pos : Nat
  rest : List Char
  deriving DecidableEq, Repr

namespace Cursor

/-- The beginning of a source. -/
def start (source : List Char) : Cursor := ⟨0, source⟩

/-- The place behind the first `pos` characters of a source. -/
def ofSource (source : List Char) (pos : Nat) : Cursor := ⟨pos, source.drop pos⟩

/-- The next character, if the source has not ended. -/
def peek? (c : Cursor) : Option Char := c.rest.head?

/-- The place `n` characters ahead, or the end of the source. -/
def skip (c : Cursor) (n : Nat) : Cursor := ⟨c.pos + (c.rest.take n).length, c.rest.drop n⟩

/-- The place behind the next character. -/
def next (c : Cursor) : Cursor := c.skip 1

/-- How many of the characters ahead, up to the first other one, satisfy `p`. -/
def count (c : Cursor) (p : Char → Bool) : Nat := (c.rest.takeWhile p).length

/-- How many spaces come next. -/
def spaces (c : Cursor) : Nat := c.count (· = ' ')

/-- The place behind the spaces that come next. -/
def skipSpaces (c : Cursor) : Cursor := c.skip c.spaces

/-! ## Moving ahead never leaves the source -/

/-- What lies ahead of a place further on. -/
@[simp] theorem rest_skip (c : Cursor) (n : Nat) : (c.skip n).rest = c.rest.drop n := rfl

@[simp] theorem skip_zero (c : Cursor) : c.skip 0 = c := by simp [skip]

/-- Nothing is added to what lies ahead. -/
theorem length_skip_le (c : Cursor) (n : Nat) : (c.skip n).rest.length ≤ c.rest.length := by
  simp

/-- Moving ahead by at least one character leaves fewer ahead, unless none was left. -/
theorem length_skip_lt {c : Cursor} {n : Nat} (hn : 0 < n) (hc : c.rest ≠ []) :
    (c.skip n).rest.length < c.rest.length := by
  have := List.length_pos_iff.2 hc
  simp only [rest_skip, List.length_drop]
  omega

/-- Where there is a next character, the source has not ended. -/
theorem rest_ne_nil_of_peek? {c : Cursor} {x : Char} (h : c.peek? = some x) : c.rest ≠ [] := by
  intro hc
  simp [peek?, hc] at h

end Cursor

end Lisp
