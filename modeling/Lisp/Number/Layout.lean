/-
# The text of a number

Integers are written in decimal. A double is written with the shortest digits that denote it:
positionally, with at least one digit on either side of the point, while its leading power of ten is
at least -4 and below 16, and otherwise with an exponent that has a sign and at least two digits.

* `Layout.integer` : the text of an integer;
* `Layout.numeral` : the text of a decimal numeral;
* `Layout.finite` : the text of a finite double.
-/
import Lisp.Number.Decimal

namespace Lisp.Layout

/-- The text of an integer. -/
def integer (n : Int) : List Char :=
  if n < 0 then '-' :: Nat.toDigits 10 n.natAbs else Nat.toDigits 10 n.toNat

/-- The text of a natural number with at least two digits. -/
def twoDigits (n : Nat) : List Char :=
  if n < 10 then ['0', Nat.digitChar n] else Nat.toDigits 10 n

/-- Digits without the zeros at their end. -/
def dropTrailingZeros (ds : List Char) : List Char :=
  (ds.reverse.dropWhile (· = '0')).reverse

/-- Digits with a point behind the first `point` of them, where places without a digit hold a zero.
-/
def positional (ds : List Char) (point : Int) : List Char :=
  if point ≤ 0 then
    '0' :: '.' :: (List.replicate (-point).toNat '0' ++ ds)
  else if (ds.length : Int) ≤ point then
    ds ++ List.replicate (point.toNat - ds.length) '0' ++ ['.', '0']
  else
    ds.take point.toNat ++ '.' :: ds.drop point.toNat

/-- Digits with a point behind the first one, and the power of ten of that one. -/
def scientific (ds : List Char) (power : Int) : List Char :=
  let mantissa :=
    match ds with
    | d :: e :: rest => d :: '.' :: e :: rest
    | short => short
  mantissa ++ 'e' :: (if power < 0 then '-' else '+') :: twoDigits power.natAbs

/-- The text of a positive numeral. -/
def numeral (d : Decimal) : List Char :=
  let all := Nat.toDigits 10 d.digits
  let point : Int := all.length + d.exponent
  let ds := dropTrailingZeros all
  if -4 < point ∧ point ≤ 16 then positional ds point else scientific ds (point - 1)

/-- The text of a finite double. -/
def finite (x : Float) : List Char :=
  let bits := Binary.magnitude x
  let text := if bits = 0 then ['0', '.', '0'] else numeral (Decimal.shortest bits)
  if Binary.isNegative x then '-' :: text else text

end Lisp.Layout
