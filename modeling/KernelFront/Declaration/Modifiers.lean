import KernelFront.Declaration.Qualifiers
import KernelFront.Printer
import KernelFront.Value.Text

/-!
# Modifiers of a declaration

What a declarator adds to a type: qualifiers, pointer levels, array dimensions, the marker of a
reference, and the token that names the type. The bound of a dimension is an expression from outside,
known by what it evaluates to and by how it prints. `Modifiers.after` puts the modifiers of a declaration
behind those of the type that it names, and `Modifiers.agree` compares two declarators: pointer
levels and dimensions count together, so that levels without a counterpart have to be unqualified.
-/

namespace KernelFront

/-- One pointer level with the qualifiers written after its star. -/
structure Pointer where
  qualifiers : Qualifiers := .empty
  deriving DecidableEq, Repr, Inhabited

namespace Pointer

/-- Compares two runs of pointer levels; a level that only one run has must be unqualified. -/
def agree : List Pointer → List Pointer → Bool
  | [], qs => qs.all fun q => q.qualifiers.isEmpty
  | ps, [] => ps.all fun p => p.qualifiers.isEmpty
  | p :: ps, q :: qs => p.qualifiers.sameAs q.qualifiers && agree ps qs

end Pointer

/-- The expression in the brackets of a dimension, as far as a declaration needs it. Where it comes
from decides what it evaluates to and how it prints; a copy does both as the original does. -/
structure Bound where
  isKnown : Bool
  /-- What it evaluates to. -/
  value : Value
  print : Printer → Printer

namespace Bound

/-- A number, known unless it is unset. -/
def literal (v : Value) : Bound where
  isKnown := v.kind != .unset
  value := v
  print p := p.push v.text

/-- An expression that nothing is known of but its text. -/
def expression (text : String) : Bound where
  isKnown := false
  value := .unset
  print p := p.push text

end Bound

/-- One array dimension. A dimension without a bound differs from one whose bound has no value. -/
structure Dimension where
  bound : Option Bound := none
  brackets : Option (Token × Token) := none

namespace Dimension

def isSized (d : Dimension) : Bool := d.bound.isSome

/-- The size, unset if there is none. -/
def size (d : Dimension) : Value := (d.bound.map Bound.value).getD .unset

def isKnown (d : Dimension) : Bool := (d.bound.map Bound.isKnown).getD false

end Dimension

/-- Everything of a declaration but the type it names. -/
structure Modifiers where
  qualifiers : Qualifiers := .empty
  pointers : List Pointer := []
  dimensions : List Dimension := []
  reference : Option Token := none
  name : Option Token := none
  deriving Inhabited

namespace Modifiers

/-- The modifiers of a declaration behind those of the type it names: the lists are appended, and
the outer tokens win. -/
def after (outer inner : Modifiers) : Modifiers where
  qualifiers := inner.qualifiers.extend outer.qualifiers
  pointers := inner.pointers ++ outer.pointers
  dimensions := inner.dimensions ++ outer.dimensions
  reference := outer.reference.or inner.reference
  name := outer.name.or inner.name

def isReference (m : Modifiers) : Bool := m.reference.isSome

/-- The number of pointer levels and array dimensions. -/
def levels (m : Modifiers) : Nat := m.pointers.length + m.dimensions.length

/-- Whether two declarators declare alike. -/
def agree (m n : Modifiers) : Bool :=
  m.isReference == n.isReference && m.qualifiers.sameAs n.qualifiers && m.levels == n.levels &&
    Pointer.agree m.pointers n.pointers

end Modifiers

end KernelFront
