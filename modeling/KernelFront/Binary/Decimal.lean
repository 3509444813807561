import KernelFront.Binary.Basic
import KernelFront.Text.Numeral

/-!
# Decimal numbers and their nearest floats

A `Decimal` is a signed `digits · 10 ^ exponent`. `parse?` reads the usual text of one: an optional
sign, digits with at most one point and at least one digit, and an optional exponent, and nothing
after it. `toBinary` rounds the exact number once; a magnitude that is out of range by its count of
digits alone is answered without computing the power of ten.
-/

namespace KernelFront

open scoped Numeral

/-- The number `± digits · 10 ^ exponent`. -/
structure Decimal where
  negative : Bool
  digits : Nat
  exponent : Int
  deriving DecidableEq, Repr

namespace Decimal

/-- An optional sign; without one the number is not negative. -/
def readSign : List Char → Bool × List Char
  | '-' :: r => (true, r)
  | '+' :: r => (false, r)
  | r => (false, r)

/-- A non-empty run of decimal digits up to the end of the text. -/
def readExponentDigits (r : List Char) : Option Nat :=
  if r ≠ [] ∧ r.all (Numeral.isDigit 10) then some (Numeral.value 10 r) else none

/-- What follows the mantissa: nothing, or `e` with a signed integer. -/
def readExponent : List Char → Option Int
  | [] => some 0
  | c :: r =>
    if c = 'e' ∨ c = 'E' then
      let (negative, r) := readSign r
      (readExponentDigits r).map fun n => if negative then -(n : Int) else n
    else none

/-- The digits after the point, if there is a point, and what is left. -/
def readFraction : List Char → List Char × List Char
  | '.' :: r => r.span (Numeral.isDigit 10)
  | r => ([], r)

/-- Reads a whole text as a decimal number. -/
def parse? (cs : List Char) : Option Decimal :=
  let (negative, r) := readSign cs
  let (whole, r) := r.span (Numeral.isDigit 10)
  let (fraction, r) := readFraction r
  let digits := whole ++ fraction
  if digits = [] then none
  else (readExponent r).map fun e => ⟨negative, Numeral.value 10 digits, e - fraction.length⟩

/-- The float nearest to `digits · 10 ^ exponent`, by exact arithmetic. -/
def toBinaryExact (f : Format) (d : Decimal) : Binary f :=
  Binary.round f d.negative (d.digits * f.one * 10 ^ d.exponent.toNat) (10 ^ (-d.exponent).toNat)

/-- The float nearest to a decimal number. With `n` digits it lies in
`[10 ^ (n + exponent - 1), 10 ^ (n + exponent))`, and `8 < 10`: beyond the powers of eight that the
format reaches nothing is left to compute. -/
def toBinary (f : Format) (d : Decimal) : Binary f :=
  let top := (Numeral.decimal d.digits).length + d.exponent
  if d.digits = 0 then Binary.zero f d.negative
  else if 3 * (top - 1) ≥ 2 ^ (f.exponentBits - 1) then Binary.infinity f d.negative
  else if 3 * top ≤ -(f.depth + 1 : Int) then Binary.zero f d.negative
  else d.toBinaryExact f

end Decimal

end KernelFront
