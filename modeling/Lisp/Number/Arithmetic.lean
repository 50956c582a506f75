/-
# Arithmetic

Operations on integers are exact and fail if a result, or a partial result of a sum or product,
needs more than 64 bits.  One double among the operands makes the whole operation one on doubles.
The machine refuses to divide a double by zero and to take a remainder without a meaning; the
operations go round these cases, so they never fail.

* `Arithmetic.sum`, `Arithmetic.product` : of any number of operands, from the left;
* `Arithmetic.intQuotient`, `Arithmetic.intRemainder` : of two integers, from their absolute values;
* `Arithmetic.machineQuotient`, `Arithmetic.machineRemainder` : of two doubles, where the machine
  has them;
* `Arithmetic.floatQuotient`, `Arithmetic.floatRemainder` : of any two doubles;
* `Arithmetic.difference`, `Arithmetic.quotient`, `Arithmetic.remainder` : of two operands.
-/
import Lisp.Number

namespace Lisp.Arithmetic

/-- An integer that has to be in range. -/
def checked (n : Int) : Except NumberError Int :=
  if InRange n then .ok n else .error .overflow

/-- The integers among operands none of which is a double. -/
def integers? : List Number → Option (List Int)
  | [] => some []
  | .int n :: rest => (integers? rest).map (n :: ·)
  | .float _ :: _ => none

/-- Integers combined from the left, where every partial result has to be in range. -/
def foldChecked (f : Int → Int → Int) : Int → List Int → Except NumberError Int
  | acc, [] => .ok acc
  | acc, n :: rest =>
    match checked (f acc n) with
    | .ok acc => foldChecked f acc rest
    | .error e => .error e

/-- The number of an integer that an operation gave. -/
def result (r : Except NumberError Int) : Except NumberError Number :=
  match r with
  | .ok n => Number.ofInt n
  | .error e => .error e

/-- The sum of the operands. -/
def sum (operands : List Number) : Except NumberError Number :=
  match integers? operands with
  | some ns => result (foldChecked (· + ·) 0 ns)
  | none => .ok (.float ((operands.map Number.toFloat).foldl (· + ·) 0.0))

/-- The product of the operands. -/
def product (operands : List Number) : Except NumberError Number :=
  match integers? operands with
  | some ns => result (foldChecked (· * ·) 1 ns)
  | none => .ok (.float ((operands.map Number.toFloat).foldl (· * ·) 1.0))

/-- The difference of two operands. -/
def difference : Number → Number → Except NumberError Number
  | .int a, .int b => result (checked (a - b))
  | x, y => .ok (.float (x.toFloat - y.toFloat))

/-! ## Division of integers -/

/-- The quotient of two integers: that of their absolute values, with a minus if just one of them is
negative. -/
def intQuotient (a b : Int) : Int :=
  let q : Int := ↑(a.natAbs / b.natAbs)
  if decide (a < 0) != decide (b < 0) then -q else q

/-- The remainder of two integers: that of their absolute values, with a minus if the dividend is
negative. -/
def intRemainder (a b : Int) : Int :=
  let r : Int := ↑(a.natAbs % b.natAbs)
  if a < 0 then -r else r

/-! ## Division of doubles -/

/-- The quotient of two doubles where the machine has one, which is not so for a zero divisor. -/
def machineQuotient (x y : Float) : Except Unrepresentable Float :=
  if y == 0.0 then .error .quotient else .ok (x / y)

/-- The quotient of two doubles.  What is divided by zero becomes infinite, with the signs of both
regarded, but zero and a NaN have no quotient by zero. -/
def floatQuotient (x y : Float) : Except Unrepresentable Float :=
  if y != 0.0 then machineQuotient x y
  else if x == 0.0 || x.isNaN then .ok Binary.nan
  else .ok (Binary.copySign (Binary.toFloat false Binary.infinity) x * Binary.copySign 1.0 y)

/-- The remainder of one exact quotient by another. -/
def ratioRemainder (a b : Ratio) : Ratio :=
  ⟨a.num * b.den % (b.num * a.den), a.den * b.den⟩

/-- The remainder of two doubles where the machine has one, exact and with the sign of the dividend.
It refuses an infinite dividend and a zero divisor, though not beside a NaN.  An infinite divisor
leaves the dividend as it is. -/
def machineRemainder (x y : Float) : Except Unrepresentable Float :=
  if x.isNaN || y.isNaN then .ok Binary.nan
  else if Binary.magnitude x = Binary.infinity ∨ Binary.magnitude y = 0 then .error .remainder
  else if Binary.magnitude y = Binary.infinity then .ok x
  else
    let rest :=
      ratioRemainder (Binary.value (Binary.magnitude x)) (Binary.value (Binary.magnitude y))
    .ok (Binary.toFloat (Binary.isNegative x) (Binary.nearest rest))

/-- The remainder of two doubles, where a NaN stands for one that has no meaning. -/
def floatRemainder (x y : Float) : Except Unrepresentable Float :=
  match machineRemainder x y with
  | .error .remainder => .ok Binary.nan
  | answer => answer

/-- The number of a double that an operation gave. -/
def floatResult (r : Except Unrepresentable Float) : Except NumberError Number :=
  match r with
  | .ok x => .ok (.float x)
  | .error cause => .error (.unrepresentable cause)

/-! ## Division -/

/-- The quotient of two operands.  That of integers is rounded toward zero. -/
def quotient : Number → Number → Except NumberError Number
  | .int a, .int b =>
    if b = 0 then .error .divisionByZero else result (checked (intQuotient a b))
  | x, y => floatResult (floatQuotient x.toFloat y.toFloat)

/-- The remainder of two operands, which has the sign of the first.  It fails whenever the quotient
does. -/
def remainder : Number → Number → Except NumberError Number
  | .int a, .int b =>
    if b = 0 then .error .divisionByZero
    else if a = minInt ∧ b = -1 then .error .overflow
    else result (.ok (intRemainder a b))
  | x, y => floatResult (floatRemainder x.toFloat y.toFloat)

end Lisp.Arithmetic
