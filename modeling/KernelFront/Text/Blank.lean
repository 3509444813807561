import KernelFront.Source.Span

/-!
# White space

`isBlank` is the Unicode property White_Space, 25 characters; `isAsciiBlank` its part that may stand
between a sign and its number. `trim` removes the blanks at both ends of a text.
-/

namespace KernelFront

/-- The characters with the property White_Space. -/
def isBlank (c : Char) : Bool :=
  let n := c.toNat
  (0x9 ≤ n && n ≤ 0xd) || n == 0x20 || n == 0x85 || n == 0xa0 || n == 0x1680 ||
    (0x2000 ≤ n && n ≤ 0x200a) || n == 0x2028 || n == 0x2029 || n == 0x202f || n == 0x205f ||
    n == 0x3000

/-- Space, tabulator, line feed, form feed and carriage return. -/
def isAsciiBlank (c : Char) : Bool :=
  c == ' ' || c == '\t' || c == '\n' || c == '\x0c' || c == '\r'

namespace Text

/-- The text without the blanks at its start. -/
def trimStart (cs : Text) : Text := cs.dropWhile isBlank

/-- The text without the blanks at its end. -/
def trimEnd (cs : Text) : Text := (cs.reverse.dropWhile isBlank).reverse

def trim (cs : Text) : Text := cs.trimStart.trimEnd

/-- The text up to the next blank. -/
def word (cs : Text) : Text := cs.takeWhile fun c => !isBlank c

end Text

end KernelFront
