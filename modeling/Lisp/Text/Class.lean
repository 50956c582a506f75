/-
# Classes of characters

Classes of characters are given by closed ranges of code points.  White space may surround an
expression or a setting.  A text given as one argument is cut into lines: a carriage return with a
line feed behind it is one break, and a break at the very end starts no further line.  Every
script's decimal digits are ten consecutive code points in increasing order of value, so a table of
the zeros is enough.

* `Range`, `Range.holds` : a closed range, and whether a character lies in it;
* `isBlank`, `isBlankText` : the white-space characters, and a text of nothing else;
* `dropBlanks`, `trim` : a text without its leading, or its surrounding, white space;
* `isLineBreak`, `lines` : the characters that end a line, and the lines of a text;
* `digitZeros`, `digitValue?` : the zero of each script, and the value of a decimal digit.
-/

namespace Lisp.Text

/-! ## Ranges -/

/-- The code points from `first` to `last`, both included. -/
structure Range where
  first : Nat
  last : Nat

/-- Whether a character lies in the range. -/
def Range.holds (r : Range) (c : Char) : Bool :=
  r.first ≤ c.toNat && c.toNat ≤ r.last

theorem Range.holds_iff (r : Range) (c : Char) :
    r.holds c = true ↔ r.first ≤ c.toNat ∧ c.toNat ≤ r.last := by
  simp [Range.holds]

/-! ## White space -/

/-- The white-space code points, as increasing ranges. -/
def blankRanges : List Range := [
  ⟨0x09, 0x0D⟩, ⟨0x1C, 0x20⟩, ⟨0x85, 0x85⟩, ⟨0xA0, 0xA0⟩, ⟨0x1680, 0x1680⟩, ⟨0x2000, 0x200A⟩,
  ⟨0x2028, 0x2029⟩, ⟨0x202F, 0x202F⟩, ⟨0x205F, 0x205F⟩, ⟨0x3000, 0x3000⟩
]

/-- Whether a character is white space. -/
def isBlank (c : Char) : Bool :=
  blankRanges.any (·.holds c)

/-- The text without its leading white space. -/
def dropBlanks (s : List Char) : List Char :=
  s.dropWhile isBlank

/-- The text without the white space at either end. -/
def trim (s : List Char) : List Char :=
  (dropBlanks (dropBlanks s).reverse).reverse

/-- Whether a text has no character other than white space. -/
def isBlankText (s : List Char) : Bool :=
  s.all isBlank

@[simp] theorem isBlankText_nil : isBlankText [] = true := rfl

@[simp] theorem isBlankText_cons (c : Char) (s : List Char) :
    isBlankText (c :: s) = (isBlank c && isBlankText s) := rfl

/-- Nothing is left of a text exactly if it is all white space. -/
theorem dropBlanks_eq_nil_iff (s : List Char) : dropBlanks s = [] ↔ isBlankText s = true := by
  induction s with
  | nil => simp [dropBlanks]
  | cons c s ih =>
    by_cases h : isBlank c = true
    · simpa [dropBlanks, h] using ih
    · simp [dropBlanks, h]

/-- Nothing is left of a text exactly when it is all white space. -/
theorem trim_eq_nil_iff (s : List Char) : trim s = [] ↔ isBlankText s = true := by
  rw [trim, List.reverse_eq_nil_iff, dropBlanks_eq_nil_iff]
  constructor
  · intro h
    rw [← dropBlanks_eq_nil_iff]
    cases hs : dropBlanks s with
    | nil => rfl
    | cons c r =>
      have hc : isBlank c = false := by
        have := List.head?_dropWhile_not isBlank s
        rw [show s.dropWhile isBlank = c :: r from hs] at this
        simpa using this
      simp [hs, isBlankText, hc] at h
  · intro h
    simp [(dropBlanks_eq_nil_iff s).2 h]

/-! ## Lines -/

/-- The code points that end a line, as increasing ranges. -/
def lineBreakRanges : List Range := [
  ⟨0x0A, 0x0D⟩, ⟨0x1C, 0x1E⟩, ⟨0x85, 0x85⟩, ⟨0x2028, 0x2029⟩
]

/-- Whether a character ends a line. -/
def isLineBreak (c : Char) : Bool :=
  lineBreakRanges.any (·.holds c)

/-- The lines of a text, where `current` holds the characters, last one first, of the line begun. -/
def linesFrom (current : List Char) : List Char → List (List Char)
  | [] => if current.isEmpty then [] else [current.reverse]
  | '\r' :: '\n' :: rest => current.reverse :: linesFrom [] rest
  | c :: rest =>
    if isLineBreak c then current.reverse :: linesFrom [] rest else linesFrom (c :: current) rest

/-- The lines of a text, without the breaks. -/
def lines (s : String) : List String :=
  (linesFrom [] s.toList).map String.ofList

/-! ## Decimal digits -/

/-- The code points of the digit zero, one for each run of ten decimal digits. -/
def digitZeros : List Nat := [
  0x30, 0x660, 0x6F0, 0x7C0, 0x966, 0x9E6, 0xA66, 0xAE6, 0xB66, 0xBE6, 0xC66, 0xCE6, 0xD66,
  0xDE6, 0xE50, 0xED0, 0xF20, 0x1040, 0x1090, 0x17E0, 0x1810, 0x1946, 0x19D0, 0x1A80, 0x1A90,
  0x1B50, 0x1BB0, 0x1C40, 0x1C50, 0xA620, 0xA8D0, 0xA900, 0xA9D0, 0xA9F0, 0xAA50, 0xABF0, 0xFF10,
  0x104A0, 0x10D30, 0x11066, 0x110F0, 0x11136, 0x111D0, 0x112F0, 0x11450, 0x114D0, 0x11650,
  0x116C0, 0x11730, 0x118E0, 0x11950, 0x11C50, 0x11D50, 0x11DA0, 0x16A60, 0x16AC0, 0x16B50,
  0x1D7CE, 0x1D7D8, 0x1D7E2, 0x1D7EC, 0x1D7F6, 0x1E140, 0x1E2F0, 0x1E950, 0x1FBF0
]

/-- The value of a decimal digit of any script. -/
def digitValue? (c : Char) : Option Nat :=
  (digitZeros.find? fun z => z ≤ c.toNat && c.toNat < z + 10).map (c.toNat - ·)

end Lisp.Text
