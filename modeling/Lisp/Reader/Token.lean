/-
# Words and numerals

What a run of characters at the beginning of a text spells. Each function gives the meaning and the
number of characters that spell it.

* `Token.operator?` : a keyword that is a whole word, or a symbol;
* `Token.name?` : an identifier;
* `Token.integer?` : digits, possibly with underscores, that fit in 64 bits;
* `Token.decimal?` : a numeral with an optional fraction and exponent.
-/
import Lisp.Number
import Lisp.Operator

namespace Lisp.Token

/-! ## Words -/

/-- Whether a character can begin an identifier. -/
def isNameStart (c : Char) : Bool := c.isAlpha || c = '_'

/-- Whether a character can stand inside an identifier. -/
def isNameChar (c : Char) : Bool := c.isAlphanum || c = '_'

/-- The longest run of identifier characters. -/
def word (s : List Char) : List Char := s.takeWhile isNameChar

/-- Whether a text begins with a spelling of an operator. One of letters has to be a whole word, so
no further character of a word may follow it. -/
def beginsWith (s spelling : List Char) : Bool :=
  spelling.isPrefixOf s &&
    !(spelling.all Char.isAlpha && (s.drop spelling.length).head?.any isNameChar)

/-- The operator that a text begins with: that of the first spelling that it begins with. -/
def operator? (s : List Char) : Option (Operator × Nat) :=
  (Operator.spellings.find? fun p => beginsWith s p.1).map fun p => (p.2, p.1.length)

/-- The identifier that a text begins with. -/
def name? (s : List Char) : Option (String × Nat) :=
  match s with
  | [] => none
  | c :: _ => if isNameStart c then some (String.ofList (word s), (word s).length) else none

/-- What can begin an identifier can stand inside it. -/
theorem isNameChar_of_isNameStart {c : Char} (h : isNameStart c = true) : isNameChar c = true := by
  simp only [isNameStart, isNameChar, Char.isAlphanum, Bool.or_eq_true] at h ⊢
  exact h.imp_left Or.inl

/-! ## Integers -/

/-- Whether a character can stand inside an integer. -/
def isDigitOrMark (c : Char) : Bool := c.isDigit || c = '_'

/-- The longest run of digits and underscores. -/
def digitRun (s : List Char) : List Char := s.takeWhile isDigitOrMark

/-- The digits of a run without the underscores and without leading zeros, or a single zero if
nothing is left of them. -/
def significantDigits (run : List Char) : List Char :=
  match (run.filter (· ≠ '_')).dropWhile (· = '0') with
  | [] => ['0']
  | digits => digits

/-- Whether a character shows that the digits before it belong to a numeral with fraction or
exponent. -/
def continuesNumeral (c : Char) : Bool := c = '.' || c = 'e' || c = 'E'

/-- The integer that a text begins with. More than 19 significant digits are too many for 64 bits,
so their value is not computed. -/
def integer? (s : List Char) : Option (Nat × Nat) :=
  match s with
  | [] => none
  | c :: _ =>
    if c.isDigit then
      let run := digitRun s
      if (s.drop run.length).head?.any continuesNumeral then none
      else
        let digits := significantDigits run
        if 19 < digits.length then none
        else
          let value := Nat.ofDigitChars 10 digits 0
          if maxInt < value then none else some (value, run.length)
    else none

/-! ## Numerals with fraction or exponent -/

/-- The longest run of digits. -/
def digits (s : List Char) : List Char := s.takeWhile Char.isDigit

/-- The exponent that a text begins with, and its length; zero of length zero if there is none. -/
def exponent (s : List Char) : Int × Nat :=
  match s with
  | [] => (0, 0)
  | c :: rest =>
    if c = 'e' ∨ c = 'E' then
      let negative := rest.head? = some '-'
      let signed := negative ∨ rest.head? = some '+'
      let ds := digits (if signed then rest.drop 1 else rest)
      if ds.isEmpty then (0, 0)
      else
        let value : Int := Nat.ofDigitChars 10 ds 0
        (if negative then -value else value, (if signed then 2 else 1) + ds.length)
    else (0, 0)

/-- The digits before and behind the point of the numeral that a text begins with, and the number of
characters that these take. There is a digit on one side of the point at least. -/
def mantissa? (s : List Char) : Option (List Char × List Char × Nat) :=
  let whole := digits s
  match s.drop whole.length with
  | '.' :: rest =>
    let places := digits rest
    if whole.isEmpty && places.isEmpty then none
    else some (whole, places, whole.length + 1 + places.length)
  | _ => if whole.isEmpty then none else some (whole, [], whole.length)

/-- The numeral that a text begins with: digits with at most one point among or beside them, and an
optional exponent. -/
def decimal? (s : List Char) : Option (Decimal × Nat) :=
  (mantissa? s).map fun (whole, places, length) =>
    let (power, used) := exponent (s.drop length)
    (⟨Nat.ofDigitChars 10 (whole ++ places) 0, power - places.length⟩, length + used)

/-! ## A token is never empty, and lies within its text -/

/-- An operator takes the characters of its spelling. -/
theorem operator?_eq_some {s : List Char} {op : Operator} {n : Nat}
    (h : operator? s = some (op, n)) : 0 < n ∧ n ≤ s.length := by
  obtain ⟨⟨spelling, o⟩, hfind, heq⟩ := Option.map_eq_some_iff.1 h
  obtain ⟨-, rfl⟩ := Prod.mk.inj heq
  have hall : ∀ p ∈ Operator.spellings, 0 < p.1.length := by decide
  constructor
  · exact hall _ (List.mem_of_find?_eq_some hfind)
  · have hbegins := List.find?_some hfind
    simp only [beginsWith, Bool.and_eq_true, List.isPrefixOf_iff_prefix] at hbegins
    exact hbegins.1.length_le

/-- An identifier takes the characters of its word. -/
theorem name?_eq_some {s : List Char} {id : String} {n : Nat} (h : name? s = some (id, n)) :
    0 < n ∧ n ≤ s.length := by
  cases s with
  | nil => simp [name?] at h
  | cons c rest =>
    simp only [name?] at h
    split at h
    · next hc =>
      simp only [Option.some.injEq, Prod.mk.injEq] at h
      refine h.2 ▸ ⟨?_, (List.takeWhile_sublist _).length_le⟩
      rw [word, List.takeWhile_cons, if_pos (isNameChar_of_isNameStart hc)]
      simp
    · simp at h

/-- An integer takes the characters of its run of digits. -/
theorem integer?_eq_some {s : List Char} {v n : Nat} (h : integer? s = some (v, n)) :
    0 < n ∧ n ≤ s.length := by
  cases s with
  | nil => simp [integer?] at h
  | cons c rest =>
    simp only [integer?] at h
    split at h
    · next hc =>
      split at h
      · simp at h
      · split at h
        · simp at h
        · split at h
          · simp at h
          · simp only [Option.some.injEq, Prod.mk.injEq] at h
            refine h.2 ▸ ⟨?_, (List.takeWhile_sublist _).length_le⟩
            rw [digitRun, List.takeWhile_cons, if_pos (by simp [isDigitOrMark, hc])]
            simp
    · simp at h

/-- A run of digits lies within its text. -/
theorem length_digits_le (s : List Char) : (digits s).length ≤ s.length :=
  (List.takeWhile_sublist _).length_le

/-- A mantissa has a digit at least. -/
theorem mantissa?_eq_some {s whole places : List Char} {n : Nat}
    (h : mantissa? s = some (whole, places, n)) : 0 < n ∧ n ≤ s.length := by
  have hwhole := length_digits_le s
  simp only [mantissa?] at h
  split at h
  · next rest hrest =>
    split at h
    · simp at h
    · have hlength := congrArg List.length hrest
      have hplaces := length_digits_le rest
      simp only [List.length_drop, List.length_cons] at hlength
      simp only [Option.some.injEq, Prod.mk.injEq] at h
      omega
  · split at h
    · simp at h
    · next hw =>
      simp only [Option.some.injEq, Prod.mk.injEq] at h
      have := List.length_pos_iff.2 (mt List.isEmpty_iff.2 hw)
      omega

/-- An exponent lies within its text, and may be empty. -/
theorem length_exponent_le (s : List Char) : (exponent s).2 ≤ s.length := by
  cases s with
  | nil => exact Nat.le_refl 0
  | cons c rest =>
    rw [List.length_cons]
    by_cases hsign : rest.head? = some '-' ∨ rest.head? = some '+'
    · -- The sign is one of the characters, so the digits are fewer than the rest.
      have hrest : rest ≠ [] := by
        rintro rfl
        simp at hsign
      have hpos := List.length_pos_iff.2 hrest
      have hdigits := length_digits_le (rest.drop 1)
      rw [List.length_drop] at hdigits
      simp only [exponent, if_pos hsign]
      split
      · split
        · exact Nat.zero_le _
        · show 2 + (digits (rest.drop 1)).length ≤ rest.length + 1
          omega
      · exact Nat.zero_le _
    · have hdigits := length_digits_le rest
      simp only [exponent, if_neg hsign]
      split
      · split
        · exact Nat.zero_le _
        · show 1 + (digits rest).length ≤ rest.length + 1
          omega
      · exact Nat.zero_le _

/-- A numeral takes the characters of its mantissa and of its exponent. -/
theorem decimal?_eq_some {s : List Char} {d : Decimal} {n : Nat} (h : decimal? s = some (d, n)) :
    0 < n ∧ n ≤ s.length := by
  obtain ⟨⟨whole, places, length⟩, hm, heq⟩ := Option.map_eq_some_iff.1 h
  obtain ⟨hpos, hle⟩ := mantissa?_eq_some hm
  have hused := length_exponent_le (s.drop length)
  rw [List.length_drop] at hused
  rw [← (Prod.mk.inj heq).2]
  refine ⟨Nat.add_pos_left hpos _, ?_⟩
  show length + (exponent (s.drop length)).2 ≤ s.length
  omega

end Lisp.Token
