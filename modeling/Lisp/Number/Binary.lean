/-
# Double-precision numbers as bit patterns

The magnitude of a double is a pattern of 63 bits, and larger patterns stand for larger magnitudes.
Reading and writing decimals, converting integers and taking remainders all compute with exact
quotients of natural numbers, which are rounded once at the end.

* `Ratio` : a quotient, with `Ratio.scale`, `Ratio.round` and `Ratio.floorLog2`;
* `Binary.value` : the exact value of a finite pattern;
* `Binary.nearest` : the pattern nearest to a quotient, a tie going to the even one;
* `Binary.toFloat`, `Binary.copySign` : the double with a given sign and magnitude;
* `Binary.ofInt` : the double nearest to an integer.
-/

namespace Lisp

/-! ## Quotients of natural numbers -/

/-- The quotient of two natural numbers. -/
structure Ratio where
  num : Nat
  den : Nat
  deriving DecidableEq, Repr

namespace Ratio

/-- The quotient times the power of `base` with an exponent of either sign. -/
def scale (r : Ratio) (base : Nat) (e : Int) : Ratio :=
  ⟨r.num * Nat.pow base e.toNat, r.den * Nat.pow base (-e).toNat⟩

/-- The natural number nearest to the quotient, a tie going to the even one. -/
def round (r : Ratio) : Nat :=
  let q := r.num / r.den
  let rest := r.num % r.den
  if 2 * rest < r.den then q else if r.den < 2 * rest then q + 1 else q + q % 2

/-- A whole quotient is not changed by rounding. -/
theorem round_mul_right (q den : Nat) (h : 0 < den) : round ⟨q * den, den⟩ = q := by
  simp [round, Nat.mul_div_cancel q h, h]

/-- The largest integer whose power of two is at most the quotient, for a positive quotient. -/
def floorLog2 (r : Ratio) : Int :=
  let guess : Int := (r.num.log2 : Int) - (r.den.log2 : Int)
  let rest := r.scale 2 (-guess)
  if rest.den ≤ rest.num then guess else guess - 1

end Ratio

end Lisp

namespace Lisp.Binary

/-! ## Patterns and values -/

/-- The pattern of positive infinity; every larger pattern is a NaN. -/
def infinity : Nat := 0x7FF0000000000000

/-- The weight of the exponent in a pattern, which is the least significand of 53 digits. -/
def hidden : Nat := 0x10000000000000

/-- The weight of the sign in a pattern. -/
def signWeight : Nat := 0x8000000000000000

/-- The power of two of the last digit of a value that begins at the power `k`: 53 digits are kept,
but none below the least power of all. -/
def unitExponent (k : Int) : Int := max (k - 52) (-1074)

/-- The pattern nearest to a quotient, a tie going to the even one; too large a value is infinite.
-/
def nearest (r : Ratio) : Nat :=
  if r.num = 0 then 0
  else
    let e := unitExponent r.floorLog2
    min ((r.scale 2 (-e)).round + (e + 1074).toNat * hidden) infinity

/-- The significand of a finite pattern. -/
def significand (bits : Nat) : Nat :=
  if bits < hidden then bits else bits % hidden + hidden

/-- The power of two that the significand of a finite pattern is multiplied with. -/
def exponent (bits : Nat) : Int :=
  if bits < hidden then -1074 else (bits / hidden : Nat) - 1075

/-- The exact value of a finite pattern. -/
def value (bits : Nat) : Ratio := Ratio.scale ⟨significand bits, 1⟩ 2 (exponent bits)

/-! ## Doubles -/

/-- Whether the sign of a double is set. -/
def isNegative (x : Float) : Bool := signWeight ≤ x.toBits.toNat

/-- The pattern of a double without its sign. -/
def magnitude (x : Float) : Nat := x.toBits.toNat % signWeight

/-- The double with a given sign and magnitude. -/
def toFloat (negative : Bool) (bits : Nat) : Float :=
  Float.ofBits (UInt64.ofNat (if negative then signWeight + bits else bits))

/-- The magnitude of one double with the sign of another. -/
def copySign (x y : Float) : Float := toFloat (isNegative y) (magnitude x)

/-- The double nearest to an integer. -/
def ofInt (n : Int) : Float :=
  toFloat (n < 0) (nearest ⟨n.natAbs, 1⟩)

/-- The value of an operation without a meaning. -/
def nan : Float := 0.0 / 0.0

end Lisp.Binary
