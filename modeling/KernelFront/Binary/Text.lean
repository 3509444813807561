import KernelFront.Binary.Shortest

/-!
# The text of a float

A number from `10 ^ -4` up to, and without, `10 ^ 16` is written positionally and always with a
fraction; any other is written with one digit before the point and an exponent, whose mantissa has
a point only if more digits follow. Zero is `0.0`. `withFraction` gives an exponent form its missing
fraction, so that the text reads as a float again.
-/

namespace KernelFront

open scoped Numeral

namespace Decimal

/-- The decimal digits without the zeros at the end, and the exponent of the point before them. -/
def significant (d : Decimal) : List Char × Int :=
  let ds := Numeral.decimal d.digits
  ((ds.reverse.dropWhile (· = '0')).reverse, d.exponent + ds.length)

/-- Positional notation of `0.ds · 10 ^ point`. -/
def positional (ds : List Char) (point : Int) : List Char :=
  if point ≤ 0 then ['0', '.'] ++ List.replicate (-point).toNat '0' ++ ds
  else
    let whole := ds.take point.toNat
    let fraction := ds.drop point.toNat
    whole ++ List.replicate (point.toNat - ds.length) '0' ++
      '.' :: (if fraction = [] then ['0'] else fraction)

/-- Exponent notation of `0.ds · 10 ^ point`. -/
def scientific (ds : List Char) (point : Int) : List Char :=
  ds.take 1 ++ (if ds.length ≤ 1 then [] else '.' :: ds.drop 1) ++
    'e' :: Numeral.integer (point - 1)

/-- The text of a decimal magnitude. -/
def text (d : Decimal) : List Char :=
  if d.digits = 0 then ['0', '.', '0']
  else
    let (ds, point) := d.significant
    if -4 < point ∧ point ≤ 16 then positional ds point else scientific ds point

end Decimal

namespace Binary

variable {f : Format}

/-- The text of a float: the shortest decimal that reads back. -/
def text : Binary f → List Char
  | .nan => ['N', 'a', 'N']
  | .number s k =>
    (if s then ['-'] else []) ++
      if k = f.infinity then ['i', 'n', 'f']
      else if k = (0 : Nat) then ['0', '.', '0']
      else (shortest f false k).text

/-- Inserts `.0` before the exponent of a text whose mantissa has no point. -/
def withFraction (cs : List Char) : List Char :=
  let mantissa := cs.takeWhile (· ≠ 'e')
  let exponent := cs.dropWhile (· ≠ 'e')
  if exponent ≠ [] ∧ '.' ∉ mantissa then mantissa ++ ['.', '0'] ++ exponent else cs

end Binary

end KernelFront
