import KernelFront.Binary.Decimal
import KernelFront.Literal.Basic
import KernelFront.Text.Blank
import KernelFront.Value.Basic

/-!
# What a literal denotes

A radix number takes its width from the count of its digits, not from its magnitude. A decimal
number is a float if it has a point or is marked as one, and otherwise an integer reduced modulo the
width that its suffix names. An exponent decides alone whether a number is marked as a float: by the
kind of the literal that it is.
-/

namespace KernelFront

open scoped Numeral

/-- The letters that may follow the digits of a decimal number. -/
def isSuffixLetter (c : Char) : Bool :=
  c == 'L' || c == 'l' || c == 'U' || c == 'u' || c == 'F' || c == 'f'

namespace Literal

/-- The integer kind of a radix number with so many bits, the sign counted. -/
def radixKind (negative : Bool) (bits : Nat) : IntKind :=
  ⟨negative, if bits < 8 then .w8 else if bits < 16 then .w16 else if bits < 32 then .w32 else .w64⟩

/-- The value of the digits after the marker of a radix. -/
def radixValue (r : Radix) (negative : Bool) (digits : Text) : Value :=
  let n : Int := Numeral.value (2 ^ r.digitBits) digits
  .ofInt (radixKind negative (digits.length * r.digitBits + negative.toNat))
    (if negative then -n else n)

/-- The mantissa up to its second point. -/
def cutMantissa (digits : Text) : Text :=
  let whole := digits.takeWhile (· ≠ '.')
  match digits.dropWhile (· ≠ '.') with
  | [] => whole
  | point :: rest => whole ++ point :: rest.takeWhile (· ≠ '.')

/-- The letters and digits of an exponent that count: blanks and suffix letters do not. -/
def exponentDigits (exponent : Text) : Text :=
  exponent.filter fun c => !isAsciiBlank c && !isSuffixLetter c

/-- The sign of a float as its text has it: only a minus is written. -/
def floatSign (negative : Bool) : Text := if negative then ['-'] else []

/-- The text of a float, without blanks, suffix letters and what follows a second point. -/
def floatChars (m : Mantissa) (exponent : Text) : Text :=
  let e := exponentDigits exponent
  floatSign m.sign.isNegative ++ cutMantissa m.digits ++ if e = [] then [] else 'e' :: e

/-- The number that a float denotes: the text itself, else the mantissa alone, else zero. -/
def floatValue (p : Precision) (m : Mantissa) (exponent : Text) : Value :=
  let decimal? := (Decimal.parse? (floatChars m exponent)).orElse fun _ =>
    Decimal.parse? (floatSign m.sign.isNegative ++ m.digits)
  .float p (match decimal? with
    | some d => d.toBinary p.format
    | none => Binary.zero p.format false)

/-- The integer kind that the suffix letters name. -/
def suffixKind (suffix : Text) : IntKind :=
  ⟨!(suffix.any fun c => c == 'U' || c == 'u'),
    if suffix.any fun c => c == 'L' || c == 'l' then .w64 else .w32⟩

/-- The integer that a decimal number denotes. -/
def integerValue (m : Mantissa) : Value :=
  let n : Int := Numeral.value 10 m.digits
  .ofInt (suffixKind m.suffix) (if m.sign.isNegative then -n else n)

/-- The value of a decimal number, given whether it is marked as a float. -/
def decimalValue (marked : Bool) (m : Mantissa) (exponent : Text) : Value :=
  if '.' ∈ m.digits ∨ marked then floatValue (if marked then .single else .double) m exponent
  else integerValue m

/-- The value of a literal. -/
def value : Literal → Value
  | keyword b => .bool b
  | radix sign r _ digits => radixValue r sign.isNegative digits
  | plain m => decimalValue (m.suffix.any fun c => c == 'F' || c == 'f') m []
  | dangling m _ => decimalValue false m []
  | scaled m _ exponent => decimalValue exponent.value.kind.isFloat m exponent.chars

end Literal

end KernelFront
