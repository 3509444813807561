import KernelFront.Declaration.Qualifier
import KernelFront.Source.Span
import KernelFront.Text.Numeral
import KernelFront.Value.Basic

/-!
# Diagnostics

A diagnostic says what is wrong (its `Cause`), where, and which other places have to do with it. The
cause alone fixes the code and the wording.
-/

namespace KernelFront

/-- The classes of diagnostics; `unspecified` is never reported. -/
inductive Code where
  | unspecified
  | invalidLiteral
  | trailingCharacters
  | unknownOperator
  | duplicateQualifier
  | valueNotSet
  | floatOperand
  | boolOperand
  | divisionByZero
  deriving DecidableEq, Repr

namespace Code

/-- All codes, in the order of their numbers. -/
def all : List Code :=
  [unspecified, invalidLiteral, trailingCharacters, unknownOperator, duplicateQualifier,
    valueNotSet, floatOperand, boolOperand, divisionByZero]

theorem mem_all (c : Code) : c ∈ all := by cases c <;> decide

/-- The number of a code, which never changes. -/
def number (c : Code) : Nat := all.idxOf c

/-- The number as it is shown: a hash and four hexadecimal digits. -/
def text (c : Code) : String := String.ofList ('#' :: Numeral.padLeft 4 (Numeral.hex c.number))

end Code

/-- What a diagnostic is about. -/
inductive Cause where
  /-- No literal where one has to be; `found` is the word that stands there. -/
  | invalidLiteral (found : String)
  /-- Text after a complete statement. -/
  | trailingCharacters (rest : String)
  /-- Operator characters that are no operator. -/
  | unknownOperator (operator : String)
  /-- A qualifier that was already given. -/
  | duplicateQualifier (qualifier : Qualifier)
  /-- An operation that its operands do not admit. -/
  | value (error : ValueError)
  deriving DecidableEq, Repr

namespace Cause

def code : Cause → Code
  | invalidLiteral _ => .invalidLiteral
  | trailingCharacters _ => .trailingCharacters
  | unknownOperator _ => .unknownOperator
  | duplicateQualifier _ => .duplicateQualifier
  | value .notSet => .valueNotSet
  | value (.floatOperand ..) => .floatOperand
  | value (.boolOperand _) => .boolOperand
  | value (.divisionByZero _) => .divisionByZero

/-- A text between two backquotes. -/
def quoted (s : String) : String := "`" ++ s ++ "`"

def message : Cause → String
  | invalidLiteral found =>
    if found = "" then "expected a literal" else "expected a literal, found " ++ quoted found
  | trailingCharacters rest => "trailing characters " ++ quoted rest ++ " are ignored"
  | unknownOperator operator => "unknown operator " ++ quoted operator
  | duplicateQualifier qualifier => "duplicate qualifier: " ++ qualifier.name
  | value error => error.message

end Cause

/-- A further place that a diagnostic points to. -/
structure Note where
  span : Span
  message : Option String
  deriving DecidableEq, Repr

/-- A report about a place in the source. -/
structure Diagnostic where
  cause : Cause
  span : Span
  notes : List Note := []
  deriving DecidableEq, Repr

namespace Diagnostic

def code (d : Diagnostic) : Code := d.cause.code

def message (d : Diagnostic) : String := d.cause.message

/-- A qualifier given twice; the last note points to the first place. -/
def duplicateQualifier (q : Qualifier) (span first : Span) (notes : List Note) : Diagnostic :=
  ⟨.duplicateQualifier q, span, notes ++ [⟨first, some "first seen here"⟩]⟩

/-- The diagnostic with all places moved to the right. -/
def shift (n : Nat) (d : Diagnostic) : Diagnostic :=
  ⟨d.cause, d.span.shift n, d.notes.map fun note => { note with span := note.span.shift n }⟩

end Diagnostic

end KernelFront
