/-
# String literals

A string literal stands between double quotes. Inside, a backslash begins an escape: one of eight
single characters, a code point in hexadecimal, or white space, which is left out.

* `Literal.encode` : the literal of a text, in which all white space but the plain space is escaped;
* `Literal.escape` : the meaning of one escape;
* `Literal.decode` : the text of the literal at a cursor, and the place behind it.
-/
import Lisp.Reader.Cursor
import Lisp.Reader.Fault
import Lisp.Text.Class

namespace Lisp.Literal

/-! ## Writing -/

/-- The escape of a character by its code point. -/
def codePointEscape (c : Char) : List Char :=
  '\\' :: 'u' :: '\x7b' :: ((Nat.toDigits 16 c.toNat).map Char.toUpper ++ ['\x7d'])

/-- A character as it stands in a literal. -/
def encodeChar (c : Char) : List Char :=
  if c = '\\' then ['\\', '\\']
  else if c = '"' then ['\\', '"']
  else if c = '\n' then ['\\', 'n']
  else if c = '\r' then ['\\', 'r']
  else if c = '\t' then ['\\', 't']
  else if c = '\x08' then ['\\', 'b']
  else if c = '\x0c' then ['\\', 'f']
  else if c.toNat < 0x20 ∨ (Text.isBlank c = true ∧ c ≠ ' ') then codePointEscape c
  else [c]

/-- The literal of a text. -/
def encode (s : List Char) : List Char :=
  '"' :: (s.flatMap encodeChar ++ ['"'])

/-! ## One escape -/

/-- The escapes of a single character. -/
def simpleEscape? : Char → Option Char
  | 'n' => some '\n'
  | 'r' => some '\r'
  | 't' => some '\t'
  | 'b' => some '\x08'
  | 'f' => some '\x0c'
  | '\\' => some '\\'
  | '/' => some '/'
  | '"' => some '"'
  | _ => none

/-- Whether a character is a hexadecimal digit. -/
def isHexDigit (c : Char) : Bool :=
  c.isDigit || ('a' ≤ c && c ≤ 'f') || ('A' ≤ c && c ≤ 'F')

/-- The value of a hexadecimal digit. -/
def hexValue (c : Char) : Nat :=
  if c.isDigit then c.toNat - '0'.toNat
  else if 'a' ≤ c then c.toNat - 'a'.toNat + 10
  else c.toNat - 'A'.toNat + 10

/-- The number that hexadecimal digits denote. -/
def hexNumber (ds : List Char) : Nat :=
  ds.foldl (fun n d => 16 * n + hexValue d) 0

/-- The digits of a code point behind the letter of its escape, and how many characters they take:
one to six digits in braces, or exactly four. -/
def codePointDigits? (s : List Char) : Option (List Char × Nat) :=
  match s with
  | '\x7b' :: rest =>
    let ds := rest.takeWhile isHexDigit
    if 1 ≤ ds.length ∧ ds.length ≤ 6 ∧ (rest.drop ds.length).head? = some '\x7d' then
      some (ds, ds.length + 2)
    else none
  | _ =>
    let ds := s.take 4
    if ds.length = 4 ∧ ds.all isHexDigit then some (ds, 4) else none

/-- The meaning of the escape whose backslash is at `pos`, where `c` is the character behind it and
`more` the source from there, with the number of further characters that belong to the escape. -/
def escape (pos : Nat) (c : Char) (more : List Char) : Except Fault (List Char × Nat) :=
  match simpleEscape? c with
  | some x => .ok ([x], 0)
  | none =>
    if c = 'u' then
      match codePointDigits? more with
      | none => .error (.malformedCodePoint pos)
      | some (ds, used) =>
        if (hexNumber ds).isValidChar then .ok ([Char.ofNat (hexNumber ds)], used)
        else .error (.invalidCodePoint pos ds)
    else if Text.isBlank c then .ok ([], (more.takeWhile Text.isBlank).length)
    else .error (.unknownEscape pos c)

/-! ## Reading -/

/-- Whether a character stands for itself in a literal. -/
def isPlain (c : Char) : Bool := c ≠ '"' && c ≠ '\\'

/-- The plain characters that a text begins with. -/
def plainRun (s : List Char) : List Char := s.takeWhile isPlain

/-- The text behind its first plain characters is shorter. -/
theorem length_drop_plainRun_lt {c : Char} {rest : List Char} (hq : ¬ c = '"') (hb : c ≠ '\\') :
    ((c :: rest).drop (plainRun (c :: rest)).length).length < (c :: rest).length := by
  have hplain : isPlain c = true := by simp [isPlain, hq, hb]
  simp only [plainRun, List.takeWhile_cons, hplain, if_true, List.length_cons, List.drop_succ_cons,
    List.length_drop]
  omega

/-- The text of a literal from `pos` on, where the literal began at `start`, and the place behind
it.  Plain characters are taken a run at a time. -/
def decodeFrom (start pos : Nat) : List Char → Except Fault (List Char × Cursor)
  | [] => .error (.unterminated start)
  | c :: rest =>
    if c = '"' then .ok ([], ⟨pos + 1, rest⟩)
    else if c ≠ '\\' then
      (decodeFrom start (pos + (plainRun (c :: rest)).length)
          ((c :: rest).drop (plainRun (c :: rest)).length)).map
        fun (s, d) => (plainRun (c :: rest) ++ s, d)
    else
      match rest with
      | [] => .error (.unterminated start)
      | e :: more =>
        match escape pos e more with
        | .error fault => .error fault
        | .ok (value, used) =>
          (decodeFrom start (pos + 2 + used) (more.drop used)).map fun (s, d) => (value ++ s, d)
termination_by s => s.length
decreasing_by
  · next hq hb => exact length_drop_plainRun_lt hq hb
  · simp only [List.length_drop, List.length_cons]; omega

/-- The text of the literal at a cursor, and the place behind it. -/
def decode (c : Cursor) : Except Fault (List Char × Cursor) :=
  match c.rest with
  | '"' :: rest => decodeFrom c.pos (c.pos + 1) rest
  | _ => .error (.missingQuote c.pos)

/-! ## Reading moves ahead -/

section Results

variable {ε α β : Type} {r : Except ε α} {f : α → β}

/-- What is made of a result was made of one. -/
theorem exists_of_map_eq_ok {b : β} (h : r.map f = .ok b) : ∃ a, r = .ok a ∧ f a = b := by
  cases r with
  | error x => simp [Except.map] at h
  | ok a => exact ⟨a, rfl, Except.ok.inj h⟩

/-- What is made of a result fails as the result does. -/
theorem eq_error_of_map_eq_error {x : ε} (h : r.map f = .error x) : r = .error x := by
  cases r with
  | error y => exact congrArg Except.error (Except.error.inj h)
  | ok a => simp [Except.map] at h

end Results

/-- Behind a literal the source is shorter. -/
theorem length_decodeFrom_lt {start pos : Nat} {s v : List Char} {c : Cursor}
    (h : decodeFrom start pos s = .ok (v, c)) : c.rest.length < s.length := by
  fun_induction decodeFrom start pos s generalizing v c with
  | case1 => simp at h
  | case2 pos rest =>
    simp only [Except.ok.injEq, Prod.mk.injEq] at h
    simp [← h.2]
  | case3 pos x rest hq hb ih =>
    obtain ⟨⟨u, d⟩, hd, heq⟩ := exists_of_map_eq_ok h
    obtain ⟨rfl, rfl⟩ := Prod.mk.inj heq
    exact Nat.lt_trans (ih hd) (length_drop_plainRun_lt hq hb)
  | case4 => simp at h
  | case5 => simp at h
  | case6 pos c hq hb e more value used hesc ih =>
    obtain ⟨⟨u, d⟩, hd, heq⟩ := exists_of_map_eq_ok h
    obtain ⟨rfl, rfl⟩ := Prod.mk.inj heq
    have hlt := ih hd
    simp only [List.length_drop, List.length_cons] at hlt ⊢
    omega

/-- A literal takes a quote at least. -/
theorem length_decode_lt {c c' : Cursor} {v : List Char} (h : decode c = .ok (v, c')) :
    c'.rest.length < c.rest.length := by
  simp only [decode] at h
  split at h
  · next rest heq =>
    have := length_decodeFrom_lt h
    rw [heq, List.length_cons]
    omega
  · simp at h

end Lisp.Literal
