import KernelFront.Binary.Format

/-!
# Kinds of scalar values

Each kind has a bit, and the bits fix the promotion order: both operands of an operator are
converted to the kind with the larger bit. Unlike the usual arithmetic conversions this is one
linear order, in which an unsigned kind follows the signed kind of its width.
-/

namespace KernelFront

open scoped Numeral

/-- The widths of the integer kinds. -/
inductive Width where
  | w8
  | w16
  | w32
  | w64
  deriving DecidableEq, Repr

/-- The number of bits. -/
def Width.bits : Width → Nat
  | .w8 => 8
  | .w16 => 16
  | .w32 => 32
  | .w64 => 64

/-- A fixed-width integer type. -/
structure IntKind where
  signed : Bool
  width : Width
  deriving DecidableEq, Repr

namespace IntKind

abbrev int8 : IntKind := ⟨true, .w8⟩
abbrev uint8 : IntKind := ⟨false, .w8⟩
abbrev int16 : IntKind := ⟨true, .w16⟩
abbrev uint16 : IntKind := ⟨false, .w16⟩
abbrev int32 : IntKind := ⟨true, .w32⟩
abbrev uint32 : IntKind := ⟨false, .w32⟩
abbrev int64 : IntKind := ⟨true, .w64⟩
abbrev uint64 : IntKind := ⟨false, .w64⟩

/-- The number of bits. -/
abbrev bits (k : IntKind) : Nat := k.width.bits

/-- The integer that a pattern of bits stands for. -/
def read (k : IntKind) (x : BitVec k.bits) : Int := if k.signed then x.toInt else x.toNat

/-- Every pattern is the reduction of the integer that it stands for. -/
@[simp]
theorem ofInt_read (k : IntKind) (x : BitVec k.bits) : BitVec.ofInt k.bits (k.read x) = x := by
  unfold read
  split
  · exact BitVec.ofInt_toInt
  · rw [BitVec.ofInt_natCast, BitVec.ofNat_toNat, BitVec.setWidth_eq]

theorem read_injective {k : IntKind} {x y : BitVec k.bits} (h : k.read x = k.read y) : x = y := by
  rw [← k.ofInt_read x, h, k.ofInt_read]

/-- A pattern as a word: its sign is repeated, or zeros are put in front of it. -/
def extend (k : IntKind) (x : BitVec k.bits) : BitVec 64 :=
  if k.signed then x.signExtend 64 else x.setWidth 64

/-- The least integer of the kind. -/
def min (k : IntKind) : Int := if k.signed then -2 ^ (k.bits - 1) else 0

/-- The greatest integer of the kind. -/
def max (k : IntKind) : Int := if k.signed then 2 ^ (k.bits - 1) - 1 else 2 ^ k.bits - 1

/-- The integer of the kind that is nearest to `z`. -/
def clamp (k : IntKind) (z : Int) : Int :=
  if z < k.min then k.min else if k.max < z then k.max else z

/-- The position among the integer kinds, from the narrowest up. -/
def rank (k : IntKind) : Nat :=
  let base := match k.width with
    | .w8 => 0
    | .w16 => 2
    | .w32 => 4
    | .w64 => 6
  if k.signed then base else base + 1

end IntKind

/-- The two floating-point types. -/
inductive Precision where
  | single
  | double
  deriving DecidableEq, Repr

/-- The binary format of a floating-point type. -/
def Precision.format : Precision → Format
  | .single => .single
  | .double => .double

/-- What a value is; `unset` is the kind of a value that was never given. -/
inductive Kind where
  | unset
  | bool
  | int (k : IntKind)
  | float (p : Precision)
  | pointer
  deriving DecidableEq, Repr

namespace Kind

/-- The position in the promotion order. -/
def rank : Kind → Nat
  | unset => 0
  | bool => 1
  | int k => 2 + k.rank
  | float .single => 10
  | float .double => 11
  | pointer => 12

/-- The bit of a kind. -/
def bit (k : Kind) : Nat := 2 ^ k.rank

/-- The kind that the operands of an operator are converted to. -/
def promote (a b : Kind) : Kind := if a.bit > b.bit then a else b

theorem bit_lt_bit {a b : Kind} : a.bit < b.bit ↔ a.rank < b.rank :=
  Nat.pow_lt_pow_iff_right (by decide)

theorem rank_injective {a b : Kind} (h : a.rank = b.rank) : a = b := by
  rcases a with _ | _ | ⟨_ | _, _ | _ | _ | _⟩ | (_ | _) | _ <;>
    rcases b with _ | _ | ⟨_ | _, _ | _ | _ | _⟩ | (_ | _) | _ <;> simp_all [rank, IntKind.rank]

/-- The promoted kind is one of the two and has the larger rank. -/
theorem rank_promote (a b : Kind) : (promote a b).rank = max a.rank b.rank := by
  unfold promote
  simp only [gt_iff_lt, bit_lt_bit]
  split <;> omega

theorem promote_comm (a b : Kind) : promote a b = promote b a :=
  rank_injective (by rw [rank_promote, rank_promote, Nat.max_comm])

def isSigned : Kind → Bool
  | int k => k.signed
  | _ => false

def isUnsigned : Kind → Bool
  | int k => !k.signed
  | _ => false

def isInteger : Kind → Bool
  | int _ => true
  | _ => false

def isFloat : Kind → Bool
  | float _ => true
  | _ => false

def name : Kind → String
  | unset => "none"
  | bool => "bool"
  | int k => (if k.signed then "int" else "uint") ++ toString k.bits
  | float .single => "float"
  | float .double => "double"
  | pointer => "pointer"

/-- All kinds, in the promotion order. -/
def all : List Kind :=
  [unset, bool, int .int8, int .uint8, int .int16, int .uint16, int .int32, int .uint32,
    int .int64, int .uint64, float .single, float .double, pointer]

theorem mem_all (k : Kind) : k ∈ all := by
  rcases k with _ | _ | ⟨_ | _, _ | _ | _ | _⟩ | (_ | _) | _ <;> decide

/-- The kind of a name. -/
def ofName? (s : String) : Option Kind := all.find? fun k => k.name == s

end Kind

end KernelFront
