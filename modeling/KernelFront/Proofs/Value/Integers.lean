import Mathlib.Data.Int.Bitwise
import Mathlib.Data.Int.ModEq
import KernelFront.Proofs.Value.Operators

/-!
# Integer operators are exact modulo the width

`binary_exact`: at an integer kind the arithmetic, bitwise and shift operators do what they do on
integers of unlimited size (`BinaryOp.unbounded?`), taken into the range of the kind (`Represents`). The
cast of an operand is a reduction modulo the width (`toInt_of_integer`), and all but the right shift
look at their operands modulo the width (`onInt_ofInt`). The right shift divides the operand as it is
in the range. Bitwise operators are those on two's complements without an end, Mathlib's `Int.land`,
`Int.lor` and `Int.xor`.
-/

namespace KernelFront

open scoped Numeral

/-! ## Bits -/

section

variable {w : Nat}

/-- Reducing an integer modulo `2 ^ w` keeps its lowest `w` bits. -/
theorem getElem_ofInt (z : Int) {i : Nat} (hi : i < w) : (BitVec.ofInt w z)[i] = z.testBit i := by
  have hnat (n : Nat) : (BitVec.ofNat w n)[i] = n.testBit i := by
    rw [BitVec.getElem_eq_testBit_toNat, BitVec.toNat_ofNat, Nat.testBit_mod_two_pow]
    simp [hi]
  cases z with
  | ofNat n => exact hnat n
  | negSucc n =>
    simp only [BitVec.ofInt_negSucc_eq_not_ofNat, BitVec.getElem_not, hnat]
    rfl

theorem ofInt_land (x y : Int) :
    BitVec.ofInt w (Int.land x y) = BitVec.ofInt w x &&& BitVec.ofInt w y := by
  ext i hi
  rw [BitVec.getElem_and, getElem_ofInt, getElem_ofInt, getElem_ofInt, Int.testBit_land]

theorem ofInt_lor (x y : Int) :
    BitVec.ofInt w (Int.lor x y) = BitVec.ofInt w x ||| BitVec.ofInt w y := by
  ext i hi
  rw [BitVec.getElem_or, getElem_ofInt, getElem_ofInt, getElem_ofInt, Int.testBit_lor]

theorem ofInt_xor (x y : Int) :
    BitVec.ofInt w (Int.xor x y) = BitVec.ofInt w x ^^^ BitVec.ofInt w y := by
  ext i hi
  rw [BitVec.getElem_xor, getElem_ofInt, getElem_ofInt, getElem_ofInt, Int.testBit_lxor]

theorem ofInt_sub (x y : Int) :
    BitVec.ofInt w (x - y) = BitVec.ofInt w x - BitVec.ofInt w y := by
  rw [Int.sub_eq_add_neg, BitVec.ofInt_add, BitVec.ofInt_neg, BitVec.sub_eq_add_neg]

theorem ofInt_mul_two_pow (x : Int) (s : Nat) :
    BitVec.ofInt w (x * 2 ^ s) = BitVec.ofInt w x <<< s := by
  have htwo : BitVec.ofInt w ((2 : Int) ^ s) = BitVec.twoPow w s := by
    rw [← BitVec.toNat_inj, BitVec.toNat_twoPow, ← BitVec.toNat_ofNat, ← BitVec.ofInt_natCast]
    push_cast
    rfl
  rw [BitVec.ofInt_mul, htwo, BitVec.shiftLeft_eq_mul_twoPow]

end

/-! ## Ranges -/

namespace IntKind

variable {k : IntKind}

/-- `n` is the integer of the kind that is congruent to `z` modulo `2 ^ bits`. -/
structure Represents (k : IntKind) (z n : Int) : Prop where
  min_le : k.min ≤ n
  le_max : n ≤ k.max
  modEq : n ≡ z [ZMOD 2 ^ k.bits]

theorem max_eq (k : IntKind) : k.max = k.min + 2 ^ k.bits - 1 := by
  rcases k with ⟨_ | _, _ | _ | _ | _⟩ <;> rfl

theorem Represents.unique {z m n : Int} (hm : k.Represents z m) (hn : k.Represents z n) :
    m = n := by
  have hdvd : (2 ^ k.bits : Int) ∣ m - n := (hn.modEq.trans hm.modEq.symm).dvd
  have hrange := k.max_eq
  have habs : |m - n| < 2 ^ k.bits := by
    have := hm.min_le
    have := hm.le_max
    have := hn.min_le
    have := hn.le_max
    rw [abs_lt]
    omega
  exact Int.sub_eq_zero.1 (Int.eq_zero_of_abs_lt_dvd hdvd habs)

/-- What a pattern of bits stands for lies in the range. -/
theorem read_mem_range (x : BitVec k.bits) : k.min ≤ k.read x ∧ k.read x ≤ k.max := by
  unfold read min max
  split
  · have hlow := BitVec.le_toInt x
    have hhigh := BitVec.toInt_lt (x := x)
    exact ⟨hlow, by omega⟩
  · have hlt : (x.toNat : Int) < ((2 ^ k.bits : Nat) : Int) := Int.ofNat_lt.2 x.isLt
    push_cast at hlt
    omega

/-- Reducing an integer takes it to the one that represents it. -/
theorem represents_read_ofInt (k : IntKind) (z : Int) :
    k.Represents z (k.read (BitVec.ofInt k.bits z)) := by
  refine ⟨(read_mem_range _).1, (read_mem_range _).2, ?_⟩
  have hpow : ((2 ^ k.bits : Nat) : Int) = 2 ^ k.bits := by push_cast; rfl
  have hpos : (2 ^ k.bits : Int) ≠ 0 := by
    rw [← hpow]
    exact Int.ofNat_ne_zero.2 (Nat.ne_of_gt (Nat.two_pow_pos _))
  unfold read Int.ModEq
  split
  · rw [BitVec.toInt_ofInt, ← hpow, Int.bmod_emod]
  · rw [BitVec.toNat_ofInt, hpow, Int.toNat_of_nonneg (Int.emod_nonneg z hpos), Int.emod_emod]

theorem represents_iff {z n : Int} : k.Represents z n ↔ n = k.read (BitVec.ofInt k.bits z) :=
  ⟨fun h => h.unique (k.represents_read_ofInt z), fun h => h ▸ k.represents_read_ofInt z⟩

/-- What lies in the range represents itself. -/
theorem read_ofInt_of_mem_range {k : IntKind} {z : Int} (hmin : k.min ≤ z) (hmax : z ≤ k.max) :
    k.read (BitVec.ofInt k.bits z) = z :=
  (k.represents_read_ofInt z).unique ⟨hmin, hmax, Int.ModEq.refl z⟩

end IntKind

/-! ## Operators -/

namespace BinaryOp

/-- What an operator gives on integers of unlimited size, if a width enters at most in the amount of
a shift. -/
def unbounded? (op : BinaryOp) (w : Nat) (x y : Int) : Option Int :=
  match op with
  | mult => some (x * y)
  | add => some (x + y)
  | sub => some (x - y)
  | bitAnd => some (Int.land x y)
  | bitOr => some (Int.lor x y)
  | xor => some (Int.xor x y)
  | shiftLeft => some (x * 2 ^ (y % w).toNat)
  | _ => none

variable {k : IntKind} {x y : Int}

/-- The amount of a shift counts modulo the width, which divides all that the cast takes away. -/
theorem shiftAmount_ofInt (k : IntKind) (y : Int) :
    (BitVec.ofInt k.bits y).toNat % k.bits = (y % k.bits).toNat := by
  have hdvd : (k.bits : Int) ∣ ((2 ^ k.bits : Nat) : Int) := by
    rcases k with ⟨_ | _, _ | _ | _ | _⟩ <;> decide
  have hpos : ((2 ^ k.bits : Nat) : Int) ≠ 0 :=
    Int.ofNat_ne_zero.2 (Nat.ne_of_gt (Nat.two_pow_pos _))
  rw [BitVec.toNat_ofInt, ← Int.emod_emod_of_dvd y hdvd,
    Int.toNat_emod (Int.emod_nonneg y hpos) (Int.natCast_nonneg _), Int.toNat_natCast]

theorem onInt_ofInt {op : BinaryOp} {z : Int} (h : op.unbounded? k.bits x y = some z) :
    op.onInt k (BitVec.ofInt k.bits x) (BitVec.ofInt k.bits y) =
      .ok (.int k (BitVec.ofInt k.bits z)) := by
  cases op with
  | mult =>
    obtain rfl := Option.some.inj h
    rw [BitVec.ofInt_mul]
    rfl
  | add =>
    obtain rfl := Option.some.inj h
    rw [BitVec.ofInt_add]
    rfl
  | sub =>
    obtain rfl := Option.some.inj h
    rw [ofInt_sub]
    rfl
  | bitAnd =>
    obtain rfl := Option.some.inj h
    rw [ofInt_land]
    rfl
  | bitOr =>
    obtain rfl := Option.some.inj h
    rw [ofInt_lor]
    rfl
  | xor =>
    obtain rfl := Option.some.inj h
    rw [ofInt_xor]
    rfl
  | shiftLeft =>
    obtain rfl := Option.some.inj h
    rw [ofInt_mul_two_pow, ← shiftAmount_ofInt]
    rfl
  | _ => cases h

/-- The right shift divides what stands in the range, and rounds down. -/
theorem onInt_shiftRight (k : IntKind) (u v : BitVec k.bits) :
    ∃ r, shiftRight.onInt k u v = .ok (.int k r) ∧
      k.read r = k.read u / 2 ^ (v.toNat % k.bits) := by
  refine ⟨_, rfl, ?_⟩
  unfold IntKind.read
  split
  · rw [BitVec.toInt_sshiftRight, Int.shiftRight_eq_div_pow]
    push_cast
    rfl
  · rw [BitVec.toNat_ushiftRight, Nat.shiftRight_eq_div_pow]
    push_cast
    rfl

end BinaryOp

namespace Value

variable {a b : Value} {x y : Int} {k : IntKind}

theorem binary_eq_onInt (op : BinaryOp) (hk : Kind.promote a.kind b.kind = .int k)
    (ha : a.integer? = some x) (hb : b.integer? = some y) :
    binary op a b = op.onInt k (BitVec.ofInt k.bits x) (BitVec.ofInt k.bits y) := by
  rw [binary_of_integers op (by rw [hk]; rfl) ha hb, hk]
  cases op.onInt k (BitVec.ofInt k.bits x) (BitVec.ofInt k.bits y) <;> rfl

/-- **Integer operators are exact modulo the width.** The arithmetic, bitwise and left shift operators
give the number in the range of the promoted kind that represents the exact result on the operands as
they were before the cast. The right shift takes the left operand into the range first and divides it
there, rounding down. There is one such number for every integer. -/
theorem binary_exact (hk : Kind.promote a.kind b.kind = .int k) (ha : a.integer? = some x)
    (hb : b.integer? = some y) :
    (∀ op z, BinaryOp.unbounded? op k.bits x y = some z →
      ∃ r, binary op a b = .ok (.int k r) ∧ k.Represents z (k.read r)) ∧
    (∃ r x', binary .shiftRight a b = .ok (.int k r) ∧ k.Represents x x' ∧
      k.read r = x' / 2 ^ (y % k.bits).toNat) ∧
    ∀ z, ∃! n, k.Represents z n := by
  refine ⟨fun op z hz => ?_, ?_, fun z => ?_⟩
  · refine ⟨BitVec.ofInt k.bits z, ?_, k.represents_read_ofInt z⟩
    rw [binary_eq_onInt op hk ha hb, BinaryOp.onInt_ofInt hz]
  · obtain ⟨r, hr, hread⟩ :=
      BinaryOp.onInt_shiftRight k (BitVec.ofInt k.bits x) (BitVec.ofInt k.bits y)
    refine ⟨r, _, ?_, k.represents_read_ofInt x, ?_⟩
    · rw [binary_eq_onInt .shiftRight hk ha hb, hr]
    · rw [hread, BinaryOp.shiftAmount_ofInt]
  · exact ⟨_, k.represents_read_ofInt z, fun n hn => hn.unique (k.represents_read_ofInt z)⟩

/-- An amount below zero shifts by its remainder, here by one, and the quotient is rounded down. -/
theorem binary_exact_negative_shift :
    let a : Value := .ofInt .int8 (-7)
    let b : Value := .ofInt .int16 (-15)
    Kind.promote a.kind b.kind = .int .int16 ∧ a.integer? = some (-7) ∧ b.integer? = some (-15) ∧
      (∃ r, binary .xor a b = .ok (.int .int16 r) ∧ IntKind.int16.Represents 8 (IntKind.int16.read r)) ∧
      ∃ r x', binary .shiftRight a b = .ok (.int .int16 r) ∧ IntKind.int16.Represents (-7) x' ∧
        IntKind.int16.read r = x' / 2 := by
  intro a b
  have hk : Kind.promote a.kind b.kind = .int .int16 := by decide
  have ha : a.integer? = some (-7) := by decide
  have hb : b.integer? = some (-15) := by decide
  have h := binary_exact hk ha hb
  exact ⟨hk, ha, hb, h.1 .xor 8 (by decide), h.2.1⟩

end Value

end KernelFront
