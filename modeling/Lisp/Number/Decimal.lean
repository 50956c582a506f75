/-
# Decimal numerals

A decimal numeral is a natural number of units of a power of ten. Reading takes the double nearest
to it; writing takes the shortest numeral that reads back as the double, and of those of that length
the nearest.

* `Decimal` : a numeral;
* `Decimal.value` : its exact value;
* `Decimal.pattern`, `Decimal.toFloat` : the double that a numeral denotes;
* `Decimal.exact` : the numeral with exactly the value of a double;
* `Decimal.shortest` : the shortest numeral that denotes a double.
-/
import Lisp.Number.Binary

namespace Lisp

/-- The numeral `digits * 10 ^ exponent`. -/
structure Decimal where
  digits : Nat
  exponent : Int
  deriving DecidableEq, Repr

namespace Decimal

/-! ## Reading -/

/-- How many decimal digits a natural number has. -/
def digitCount (n : Nat) : Nat := (Nat.toDigits 10 n).length

/-- The power of ten just above the numeral's value. -/
def top (d : Decimal) : Int := digitCount d.digits + d.exponent

/-- The exact value of a numeral. -/
def value (d : Decimal) : Ratio := Ratio.scale ⟨d.digits, 1⟩ 10 d.exponent

/-- The pattern of the double nearest to a numeral. Values of `10 ^ 310` and more are infinite and
values below `10 ^ (-330)` are zero, whatever their digits, so no huge power of ten is formed. -/
def pattern (d : Decimal) : Nat :=
  if d.digits = 0 ∨ d.top < -330 then 0
  else if 310 < d.top then Binary.infinity
  else Binary.nearest d.value

/-- The double nearest to a numeral. -/
def toFloat (d : Decimal) : Float := Binary.toFloat false d.pattern

/-! ## Writing -/

/-- The numeral with exactly the value of a finite pattern. -/
def exact (bits : Nat) : Decimal :=
  let e := Binary.exponent bits
  if 0 ≤ e then ⟨Binary.significand bits * Nat.pow 2 e.toNat, 0⟩
  else ⟨Binary.significand bits * Nat.pow 5 (-e).toNat, e⟩

/-- The power of ten just above a positive quotient. -/
def topOf (r : Ratio) : Int :=
  if r.den ≤ r.num then digitCount (r.num / r.den)
  else 1 - (digitCount ((r.den - 1) / r.num) : Int)

/-- The two numerals around a quotient that count units of the power `e` of ten, the nearer one
first and of two equally near ones the even one. -/
def around (r : Ratio) (e : Int) : List Decimal :=
  let units := r.scale 10 (-e)
  let below := units.num / units.den
  if units.round = below then [⟨below, e⟩, ⟨below + 1, e⟩] else [⟨below + 1, e⟩, ⟨below, e⟩]

/-- The numeral of at most `count` digits nearest to a pattern's value among those that denote it.
-/
def ofLength? (bits count : Nat) : Option Decimal :=
  let r := Binary.value bits
  (around r (topOf r - count)).find? (·.pattern = bits)

/-- The shortest numeral that denotes a positive finite pattern. Seventeen digits always suffice. -/
def shortest (bits : Nat) : Decimal :=
  ((List.range' 1 17).findSome? (ofLength? bits)).getD (exact bits)

end Decimal

end Lisp
