/-!
# Operators

The eighteen binary and four unary operators with their symbols. Ten binary operators have a
compound assignment form (`+=`, `<<=`).
-/

namespace KernelFront

inductive BinaryOp where
  | mult
  | add
  | sub
  | div
  | mod
  | bitAnd
  | bitOr
  | xor
  | shiftLeft
  | shiftRight
  | lt
  | le
  | eq
  | ne
  | ge
  | gt
  | and
  | or
  deriving DecidableEq, Repr

namespace BinaryOp

/-- All binary operators, in their usual order. -/
def all : List BinaryOp :=
  [mult, add, sub, div, mod, bitAnd, bitOr, xor, shiftLeft, shiftRight, lt, le, eq, ne, ge, gt,
    and, or]

theorem mem_all (op : BinaryOp) : op ∈ all := by cases op <;> decide

/-- The characters of the symbol. -/
def chars : BinaryOp → List Char
  | mult => ['*']
  | add => ['+']
  | sub => ['-']
  | div => ['/']
  | mod => ['%']
  | bitAnd => ['&']
  | bitOr => ['|']
  | xor => ['^']
  | shiftLeft => ['<', '<']
  | shiftRight => ['>', '>']
  | lt => ['<']
  | le => ['<', '=']
  | eq => ['=', '=']
  | ne => ['!', '=']
  | ge => ['>', '=']
  | gt => ['>']
  | and => ['&', '&']
  | or => ['|', '|']

def symbol (op : BinaryOp) : String := String.ofList op.chars

/-- The operator that a symbol names. -/
def ofSymbol? (s : String) : Option BinaryOp := all.find? fun op => op.symbol == s

/-- The arithmetic and bitwise operators can be combined with an assignment. -/
def assignable : BinaryOp → Bool
  | mult | add | sub | div | mod | bitAnd | bitOr | xor | shiftLeft | shiftRight => true
  | _ => false

def isCommutative : BinaryOp → Bool
  | mult | add | bitAnd | bitOr | xor | eq | ne | and | or => true
  | _ => false

/-- Comparisons and the logical operators give a truth value. -/
def isRelational : BinaryOp → Bool
  | lt | le | eq | ne | ge | gt | and | or => true
  | _ => false

/-- The operators that floats do not have. -/
def isIntegral : BinaryOp → Bool
  | mod | bitAnd | bitOr | xor | shiftLeft | shiftRight => true
  | _ => false

end BinaryOp

inductive UnaryOp where
  | not
  | positive
  | negative
  | tilde
  deriving DecidableEq, Repr

namespace UnaryOp

def all : List UnaryOp := [not, positive, negative, tilde]

def symbol : UnaryOp → String
  | not => "!"
  | positive => "+"
  | negative => "-"
  | tilde => "~"

end UnaryOp

/-- The operators that move a variable to a neighbouring value. -/
inductive StepOp where
  | increment
  | decrement
  deriving DecidableEq, Repr

namespace StepOp

def symbol : StepOp → String
  | increment => "++"
  | decrement => "--"

/-- The distance of the step. -/
def delta : StepOp → Int
  | increment => 1
  | decrement => -1

end StepOp

end KernelFront
