/-
# Numbers

A number is an integer or a double. Integers are meant to be those of 64 bits with a sign: whatever
makes a number out of an integer goes through `Number.ofInt`, which refuses the others.

* `Number` : the two kinds;
* `InRange` : the integers of 64 bits;
* `Unrepresentable`, `NumberError` : what is no number, and what else can go wrong;
* `Number.ofInt` : the number of an integer in range;
* `Number.chars` : the text of a number, which reads back as the same number.
-/
import Lisp.Number.Layout

namespace Lisp

/-! ## The range of integers -/

/-- The least integer of 64 bits. -/
def minInt : Int := -9223372036854775808

/-- The greatest integer of 64 bits. -/
def maxInt : Int := 9223372036854775807

/-- The integers that 64 bits can hold. -/
def InRange (n : Int) : Prop := minInt ≤ n ∧ n ≤ maxInt

instance (n : Int) : Decidable (InRange n) := inferInstanceAs (Decidable (_ ∧ _))

/-- The range in figures, which arithmetic can be done with. -/
theorem inRange_iff (n : Int) :
    InRange n ↔ -9223372036854775808 ≤ n ∧ n ≤ 9223372036854775807 := Iff.rfl

/-! ## Numbers -/

/-- An integer or a double. -/
inductive Number where
  | int (value : Int)
  | float (value : Float)
  deriving DecidableEq

/-- What the machine makes no number of: an integer out of range, the quotient of a double by zero,
and a remainder of doubles that has no meaning. -/
inductive Unrepresentable where
  | integer (value : Int)
  | quotient
  | remainder
  deriving DecidableEq

/-- The wording of what is no number. -/
def Unrepresentable.message : Unrepresentable → String
  | .integer n => String.ofList (Layout.integer n) ++ " does not fit in a signed 64-bit integer"
  | .quotient => "float division by zero"
  | .remainder => "math domain error"

/-- What can go wrong with numbers: a result of integers out of range, an integer divided by zero,
or something that the machine makes no number of. -/
inductive NumberError where
  | overflow
  | divisionByZero
  | unrepresentable (cause : Unrepresentable)
  deriving DecidableEq

/-- The text of a number error. -/
def NumberError.message : NumberError → String
  | .overflow => "Integer overflow"
  | .divisionByZero => "Division by 0"
  | .unrepresentable cause => cause.message

namespace Number

/-- The number of an integer in range. -/
def ofInt (n : Int) : Except NumberError Number :=
  if InRange n then .ok (int n) else .error (.unrepresentable (.integer n))

/-- An integer in range is not refused. -/
theorem ofInt_of_inRange {n : Int} (h : InRange n) : ofInt n = .ok (int n) := if_pos h

/-- The double nearest to a number. -/
def toFloat : Number → Float
  | int n => Binary.ofInt n
  | float x => x

/-- Equality as numbers of the same kind: zeros of either sign are equal, a NaN equals nothing. -/
def same : Number → Number → Bool
  | int m, int n => m = n
  | float x, float y => x == y
  | _, _ => false

/-- The text of a number. An infinite double is written as a numeral too large for a double. -/
def chars : Number → List Char
  | int n => Layout.integer n
  | float x =>
    if x.isNaN then ['n', 'a', 'n']
    else if Binary.magnitude x = Binary.infinity then
      (if Binary.isNegative x then ['-'] else []) ++ ['1', 'e', '9', '9', '9']
    else Layout.finite x

/-- The text of a number with names for the infinite doubles. -/
def describe : Number → List Char
  | int n => Layout.integer n
  | float x =>
    if x.isNaN then ['n', 'a', 'n']
    else if Binary.magnitude x = Binary.infinity then
      (if Binary.isNegative x then ['-'] else []) ++ ['i', 'n', 'f']
    else Layout.finite x

end Number

end Lisp
