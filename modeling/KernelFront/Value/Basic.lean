import KernelFront.Binary.Basic
import KernelFront.Value.Kind

/-!
# Scalar values

A value holds one scalar of its kind: a bit pattern of the kind's width, a float of its format, an
address, or nothing. Casts follow one rule per target. To an integer kind, an integer is reduced
modulo the width and a float is truncated and clamped; to a float kind, the number is rounded once;
to a truth value, everything but zero is true. Only a value that was never set has no cast.
-/

namespace KernelFront

/-- A scalar value. -/
inductive Value where
  | unset
  | bool (b : Bool)
  | int (k : IntKind) (x : BitVec k.bits)
  | float (p : Precision) (x : Binary p.format)
  | pointer (address : BitVec 64)
  deriving DecidableEq, Repr

/-- What an operation on values demands and did not get. -/
inductive ValueError where
  | notSet
  | floatOperand (operator : String) (kind : Kind)
  | boolOperand (operator : String)
  | divisionByZero (operator : String)
  deriving DecidableEq, Repr

def ValueError.message : ValueError → String
  | notSet => "value type not set"
  | floatOperand operator kind =>
    "cannot apply operator " ++ operator ++ " to " ++ kind.name ++ " type"
  | boolOperand operator => "cannot apply operator " ++ operator ++ " to bool type"
  | divisionByZero operator => "integer division by zero in operator " ++ operator

namespace Value

instance : Inhabited Value := ⟨.unset⟩

def kind : Value → Kind
  | unset => .unset
  | bool _ => .bool
  | int k _ => .int k
  | float p _ => .float p
  | pointer _ => .pointer

/-- Equality of kind and payload, where floats compare as numbers: the zeros are equal, and `nan`
differs from itself. -/
def eq : Value → Value → Bool
  | unset, unset => true
  | bool a, bool b => a == b
  | int j x, int k y => j == k && j.read x == k.read y
  | float .single x, float .single y => x.eq y
  | float .double x, float .double y => x.eq y
  | pointer a, pointer b => a == b
  | _, _ => false

/-- The integer of an integer kind that is congruent to `z` modulo the width. -/
def ofInt (k : IntKind) (z : Int) : Value := .int k (BitVec.ofInt k.bits z)

/-! ## Casts -/

/-- The cast to a truth value. -/
def toBool : Value → Except ValueError Bool
  | unset => .error .notSet
  | bool b => .ok b
  | int k x => .ok (k.read x != 0)
  | float _ x => .ok x.truth
  | pointer a => .ok (a.toNat != 0)

/-- The cast to an integer kind. -/
def toInt (k : IntKind) : Value → Except ValueError (BitVec k.bits)
  | unset => .error .notSet
  | bool b => .ok (BitVec.ofInt k.bits b.toNat)
  | int j x => .ok (BitVec.ofInt k.bits (j.read x))
  | float _ x => .ok (BitVec.ofInt k.bits (k.clamp x.truncate))
  | pointer a => .ok (BitVec.ofInt k.bits a.toNat)

/-- The cast to a floating-point kind. -/
def toFloat (p : Precision) : Value → Except ValueError (Binary p.format)
  | unset => .error .notSet
  | bool b => .ok (Binary.ofInt p.format b.toNat)
  | int j x => .ok (Binary.ofInt p.format (j.read x))
  | float _ x => .ok (x.convert p.format)
  | pointer a => .ok (Binary.ofInt p.format a.toNat)

/-- The pattern that holds the number of a value, with the kind that reads it: a truth value is a byte
and an address a word. -/
def stored? : Value → Option ((k : IntKind) × BitVec k.bits)
  | unset | float .. => none
  | bool b => some ⟨.uint8, BitVec.ofNat 8 b.toNat⟩
  | int k x => some ⟨k, x⟩
  | pointer a => some ⟨.uint64, a⟩

/-- The number of bytes of the held type. -/
def size : Value → Except ValueError Nat
  | unset => .error .notSet
  | bool _ => .ok 1
  | int k _ => .ok (k.bits / 8)
  | float .single _ => .ok 4
  | float .double _ => .ok 8
  | pointer _ => .ok 8

end Value

end KernelFront
