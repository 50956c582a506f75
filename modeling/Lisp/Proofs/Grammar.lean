/-
# The grammar of sources

Which texts spell which expressions, said without an order of alternatives, without greed and
without look-ahead.

* `Grammar.keywords`, `Grammar.symbols` : the fifteen spellings of operators;
* `Grammar.IsIdentifier`, `Grammar.IsInteger`, `Grammar.Numeral` : the other words;
* `Grammar.escapes`, `Grammar.hexDigits` : the single characters behind a backslash, and the digits
  of code points;
* `Grammar.Escape`, `Grammar.BeginsEscape` : the escapes of a string literal, each on its own;
* `Grammar.Items` : what stands between the quotes of a string literal, and the text it denotes;
* `Grammar.Spaced` : words with spaces around and between them;
* `Grammar.Derives` : the texts of an expression;
* `Grammar.Sentence` : a text of an expression with white space around it.
-/
import Lisp.Expr
import Lisp.Reader.Token
import Lisp.Text.Class

namespace Lisp.Grammar

/-! ## Words -/

/-- The ten words that name operators. -/
def keywords : List (List Char × Operator) := [
  (['a', 'd', 'd'], .add), (['s', 'u', 'b'], .sub), (['m', 'u', 'l'], .mul),
  (['d', 'i', 'v'], .div), (['d', 'e', 'f', 'u', 'n'], .defun), (['n', 't', 'h'], .nth),
  (['l', 'i', 's', 't'], .list), (['e', 'v', 'a', 'l'], .eval), (['c', 'a', 'r'], .car),
  (['m', 'a', 'p'], .map)
]

/-- The five symbols that stand for operators. -/
def symbols : List (Char × Operator) := [
  ('+', .add), ('*', .mul), ('-', .sub), ('/', .div), ('%', .rem)
]

/-- A letter or underscore, and then letters, digits and underscores. -/
def IsIdentifier : List Char → Prop
  | [] => False
  | c :: rest => Token.isNameStart c = true ∧ ∀ x ∈ rest, Token.isNameChar x = true

instance : (t : List Char) → Decidable (IsIdentifier t)
  | [] => isFalse id
  | _ :: rest =>
    have := List.decidableBAll (fun x => Token.isNameChar x = true) rest
    inferInstanceAs (Decidable (_ ∧ _))

/-- A word that names an operator. -/
def IsKeyword (t : List Char) : Prop := ∃ op, (t, op) ∈ keywords

instance (t : List Char) : Decidable (IsKeyword t) :=
  decidable_of_iff (t ∈ keywords.map Prod.fst) (by simp [IsKeyword])

/-- A symbol that stands for an operator. -/
def IsSymbol (c : Char) : Prop := ∃ op, (c, op) ∈ symbols

instance (c : Char) : Decidable (IsSymbol c) :=
  decidable_of_iff (c ∈ symbols.map Prod.fst) (by simp [IsSymbol])

/-! ## Numbers -/

/-- Characters that are all digits. -/
def AllDigits (t : List Char) : Prop := ∀ x ∈ t, x.isDigit = true

instance (t : List Char) : Decidable (AllDigits t) :=
  List.decidableBAll (fun x : Char => x.isDigit = true) t

/-- A digit, and then digits and underscores. -/
def IsInteger : List Char → Prop
  | [] => False
  | c :: rest => c.isDigit = true ∧ ∀ x ∈ rest, Token.isDigitOrMark x = true

instance : (t : List Char) → Decidable (IsInteger t)
  | [] => isFalse id
  | _ :: rest =>
    have := List.decidableBAll (fun x => Token.isDigitOrMark x = true) rest
    inferInstanceAs (Decidable (_ ∧ _))

/-- The number that digits denote. -/
def natValue (t : List Char) : Nat := Nat.ofDigitChars 10 t 0

/-- The number that digits with underscores among them denote. -/
def integerValue (t : List Char) : Nat := natValue (t.filter (· ≠ '_'))

/-- An integer of 64 bits. -/
def IsShortInteger (t : List Char) : Prop := IsInteger t ∧ (integerValue t : Int) ≤ maxInt

/-- Digits with at most one point, which has a digit on one side at least: the text, the digits
before the point and those behind it. -/
inductive Mantissa : List Char → List Char → List Char → Prop
  | whole {w : List Char} : w ≠ [] → AllDigits w → Mantissa w w []
  | point {w p : List Char} : w ≠ [] → AllDigits w → AllDigits p → Mantissa (w ++ '.' :: p) w p
  | fraction {p : List Char} : p ≠ [] → AllDigits p → Mantissa ('.' :: p) [] p

/-- Whether a character begins an exponent. -/
def IsExponentMark (c : Char) : Prop := c = 'e' ∨ c = 'E'

/-- An optional exponent with an optional sign: the text and the power of ten. -/
inductive Exponent : List Char → Int → Prop
  | absent : Exponent [] 0
  | unsigned {c : Char} {ds : List Char} :
      IsExponentMark c → ds ≠ [] → AllDigits ds → Exponent (c :: ds) (natValue ds)
  | plus {c : Char} {ds : List Char} :
      IsExponentMark c → ds ≠ [] → AllDigits ds → Exponent (c :: '+' :: ds) (natValue ds)
  | minus {c : Char} {ds : List Char} :
      IsExponentMark c → ds ≠ [] → AllDigits ds → Exponent (c :: '-' :: ds) (-natValue ds)

/-- A mantissa and an optional exponent, with the numeral that they denote. -/
inductive Numeral : List Char → Decimal → Prop
  | mk {m w p x : List Char} {power : Int} : Mantissa m w p → Exponent x power →
      Numeral (m ++ x) ⟨natValue (w ++ p), power - p.length⟩

/-! ## String literals -/

/-- The eight characters that make an escape behind a backslash, with what they stand for. -/
def escapes : List (Char × Char) := [
  ('n', '\n'), ('r', '\r'), ('t', '\t'), ('b', '\x08'), ('f', '\x0c'), ('\\', '\\'), ('/', '/'),
  ('"', '"')
]

/-- The digits of base sixteen, in both cases, with their values. -/
def hexDigits : List (Char × Nat) := [
  ('0', 0), ('1', 1), ('2', 2), ('3', 3), ('4', 4), ('5', 5), ('6', 6), ('7', 7), ('8', 8),
  ('9', 9), ('a', 10), ('b', 11), ('c', 12), ('d', 13), ('e', 14), ('f', 15), ('A', 10), ('B', 11),
  ('C', 12), ('D', 13), ('E', 14), ('F', 15)
]

/-- Digits of base sixteen and the number that they denote. -/
inductive HexNumber : List Char → Nat → Prop
  | nil : HexNumber [] 0
  | concat {ds : List Char} {n : Nat} {d : Char} {value : Nat} :
      HexNumber ds n → (d, value) ∈ hexDigits → HexNumber (ds ++ [d]) (16 * n + value)

/-- One escape of a string literal, with what it denotes and with the text that follows it, into
which white space behind a backslash does not continue. -/
inductive Escape : List Char → List Char → List Char → Prop
  | simple {c x : Char} {rest : List Char} : (c, x) ∈ escapes → Escape ['\\', c] [x] rest
  | braced {ds rest : List Char} {n : Nat} :
      1 ≤ ds.length → ds.length ≤ 6 → HexNumber ds n → n.isValidChar →
      Escape ('\\' :: 'u' :: '\x7b' :: (ds ++ ['\x7d'])) [Char.ofNat n] rest
  | fixed {ds rest : List Char} {n : Nat} :
      ds.length = 4 → HexNumber ds n → n.isValidChar →
      Escape ('\\' :: 'u' :: ds) [Char.ofNat n] rest
  | blank {ws rest : List Char} :
      ws ≠ [] → Text.isBlankText ws = true → (∀ c, rest.head? = some c → Text.isBlank c = false) →
      Escape ('\\' :: ws) [] rest

/-- What stands between the quotes of a string literal, with the text that it denotes. -/
inductive Items : List Char → List Char → Prop
  | nil : Items [] []
  | plain {c : Char} {t v : List Char} :
      c ≠ '"' → c ≠ '\\' → Items t v → Items (c :: t) (c :: v)
  | escape {x u t v : List Char} : Escape x u t → Items t v → Items (x ++ t) (u ++ v)

/-- A text that begins with an escape. -/
def BeginsEscape (s : List Char) : Prop := ∃ x v rest, s = x ++ rest ∧ Escape x v rest

/-! ## Expressions -/

/-- Some spaces. -/
def spaces (n : Nat) : List Char := List.replicate n ' '

theorem length_spaces (n : Nat) : (spaces n).length = n := List.length_replicate

/-- One or more words with a space at least between each two, and spaces behind the last. -/
inductive Separated : List (List Char) → List Char → Prop
  | last {w : List Char} (n : Nat) : Separated [w] (w ++ spaces n)
  | cons {w t : List Char} {ws : List (List Char)} (n : Nat) :
      Separated ws t → Separated (w :: ws) (w ++ spaces (n + 1) ++ t)

/-- Words with a space at least between each two, and spaces around them. -/
inductive Spaced : List (List Char) → List Char → Prop
  | none (n : Nat) : Spaced [] (spaces n)
  | some {t : List Char} {ws : List (List Char)} (n : Nat) :
      Separated ws t → Spaced ws (spaces n ++ t)

/-- The texts of an expression.  The elements of a list are given with their texts. -/
inductive Derives : List Char → Expr → Prop
  | keyword {t : List Char} {op : Operator} : (t, op) ∈ keywords → Derives t (.operator op)
  | symbol {c : Char} {op : Operator} : (c, op) ∈ symbols → Derives [c] (.operator op)
  | string {t v : List Char} :
      Items t v → Derives ('"' :: (t ++ ['"'])) (.text (String.ofList v))
  | identifier {t : List Char} :
      IsIdentifier t → ¬ IsKeyword t → Derives t (.name (String.ofList t))
  | integer {t : List Char} : IsShortInteger t → Derives t (.int (integerValue t))
  | float {t : List Char} {d : Decimal} :
      Numeral t d → ¬ IsShortInteger t → Derives t (.float d.toFloat)
  | form {parts : List (List Char × Expr)} {t : List Char} :
      (∀ p ∈ parts, Derives p.1 p.2) → Spaced (parts.map Prod.fst) t →
      Derives ('(' :: (t ++ [')'])) (.form (parts.map Prod.snd))
  | quoted {parts : List (List Char × Expr)} {t : List Char} :
      (∀ p ∈ parts, Derives p.1 p.2) → Spaced (parts.map Prod.fst) t →
      Derives ('\x27' :: '(' :: (t ++ [')'])) (.quoted (parts.map Prod.snd))

/-- A text of an expression with white space around it. -/
def Sentence (s : List Char) (e : Expr) : Prop :=
  ∃ before t behind : List Char, s = before ++ t ++ behind ∧ Text.isBlankText before = true ∧
    Text.isBlankText behind = true ∧ Derives t e

end Lisp.Grammar
