import KernelFront.Text.Numeral
import KernelFront.Source.Span

/-!
# Literals

The syntax of scalar literals: the keywords, radix numbers (`0x1F`, `0b101`) and decimal numbers
with suffix letters and an exponent. What follows an exponent marker is again a literal, of any
shape, or nothing. A literal keeps every character it was read from, and `Literal.chars` gives them
back.
-/

namespace KernelFront

open scoped Numeral

/-- The sign of a number; blanks may stand between the two. -/
inductive Sign where
  | absent
  | given (negative : Bool) (blanks : Text)
  deriving DecidableEq, Repr

namespace Sign

def isNegative : Sign → Bool
  | absent => false
  | given negative _ => negative

def chars : Sign → Text
  | absent => []
  | given negative blanks => (if negative then '-' else '+') :: blanks

end Sign

/-- The radices that a prefix can announce. -/
inductive Radix where
  | binary
  | hexadecimal
  deriving DecidableEq, Repr

namespace Radix

/-- The number of bits that a digit stands for. -/
def digitBits : Radix → Nat
  | binary => 1
  | hexadecimal => 4

def isDigit (r : Radix) (c : Char) : Bool := Numeral.isDigit (2 ^ r.digitBits) c

/-- The letter that announces a radix after a zero. -/
def marker (r : Radix) (upper : Bool) : Char :=
  match r, upper with
  | binary, false => 'b'
  | binary, true => 'B'
  | hexadecimal, false => 'x'
  | hexadecimal, true => 'X'

/-- The radix that a letter announces, and whether the letter is upper case. -/
def ofMarker? (c : Char) : Option (Radix × Bool) :=
  if c = 'b' then some (binary, false)
  else if c = 'B' then some (binary, true)
  else if c = 'x' then some (hexadecimal, false)
  else if c = 'X' then some (hexadecimal, true)
  else none

end Radix

/-- The letter that announces an exponent. -/
def exponentMarker (upper : Bool) : Char := if upper then 'E' else 'e'

/-- A decimal number without its exponent: digits and points, then suffix letters. -/
structure Mantissa where
  sign : Sign
  digits : Text
  suffix : Text
  deriving DecidableEq, Repr

def Mantissa.chars (m : Mantissa) : Text := m.sign.chars ++ m.digits ++ m.suffix

/-- A scalar literal as it is written. -/
inductive Literal where
  /-- `true` or `false`. -/
  | keyword (b : Bool)
  /-- A zero, the marker of a radix, and digits. -/
  | radix (sign : Sign) (radix : Radix) (upper : Bool) (digits : Text)
  /-- A number without an exponent marker. -/
  | plain (mantissa : Mantissa)
  /-- A number with a marker that no literal follows. -/
  | dangling (mantissa : Mantissa) (upper : Bool)
  /-- A number with a marker and the literal after it. -/
  | scaled (mantissa : Mantissa) (upper : Bool) (exponent : Literal)
  deriving DecidableEq, Repr

namespace Literal

def keywordChars (b : Bool) : Text :=
  if b then ['t', 'r', 'u', 'e'] else ['f', 'a', 'l', 's', 'e']

/-- The characters a literal was read from. -/
def chars : Literal → Text
  | keyword b => keywordChars b
  | radix sign r upper digits => sign.chars ++ '0' :: r.marker upper :: digits
  | plain m => m.chars
  | dangling m upper => m.chars ++ [exponentMarker upper]
  | scaled m upper exponent => m.chars ++ exponentMarker upper :: exponent.chars

end Literal

end KernelFront
