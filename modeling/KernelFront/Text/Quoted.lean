import KernelFront.Text.Printable
import KernelFront.Text.Numeral

/-!
# Quoted text

A quoted text stands between double quotes. Quotes and backslashes are escaped by a backslash, the
usual control characters by their letters, and every other character that does not print as itself
by its code point in braces.
-/

namespace KernelFront.Quoted

/-- One character of a quoted text. -/
def encodeChar (c : Char) : List Char :=
  if c = '"' ∨ c = '\\' then ['\\', c]
  else if c = '\t' then ['\\', 't']
  else if c = '\r' then ['\\', 'r']
  else if c = '\n' then ['\\', 'n']
  else if c = '\x00' then ['\\', '0']
  else if prints c then [c]
  else ['\\', 'u', '\x7b'] ++ Numeral.hex c.toNat ++ ['\x7d']

/-- A text between quotes. -/
def encode (cs : List Char) : List Char := '"' :: cs.flatMap encodeChar ++ ['"']

end KernelFront.Quoted
