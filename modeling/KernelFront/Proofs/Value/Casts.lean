import KernelFront.Value.Basic

/-!
# Integer casts

A cast between integer kinds looks at a number modulo the width of its target, which is cutting off
bits where the target is no wider. So a detour over a kind that is no narrower does not show, and no
cast to such a kind takes a number to zero or away from it.
-/

namespace KernelFront

open scoped Numeral

/-- No integer kind is wider than a word. -/
theorem IntKind.bits_le (k : IntKind) : k.bits ≤ 64 := by
  rcases k with ⟨_ | _, _ | _ | _ | _⟩ <;> decide

/-- Cutting off bits is reducing modulo the width that is left. -/
theorem setWidth_ofInt {w v : Nat} (h : w ≤ v) (z : Int) :
    (BitVec.ofInt v z).setWidth w = BitVec.ofInt w z := by
  cases z with
  | ofNat n => exact BitVec.setWidth_ofNat_of_le h n
  | negSucc n =>
    rw [BitVec.ofInt_negSucc_eq_not_ofNat, BitVec.ofInt_negSucc_eq_not_ofNat, BitVec.setWidth_not h,
      BitVec.setWidth_ofNat_of_le h]

/-- The number of a pattern modulo a width that is not greater is the lower part of the pattern,
whatever the sign. -/
theorem IntKind.ofInt_read_eq_setWidth {k : IntKind} {w : Nat} (h : w ≤ k.bits) (x : BitVec k.bits) :
    BitVec.ofInt w (k.read x) = x.setWidth w := by
  unfold IntKind.read
  split
  · exact BitVec.signExtend_eq_setWidth_of_le x h
  · rw [BitVec.ofInt_natCast, BitVec.ofNat_toNat]

/-- Reducing a number modulo a width first does not show in a width that is not greater. -/
theorem IntKind.ofInt_read_ofInt {j k : IntKind} (h : k.bits ≤ j.bits) (z : Int) :
    BitVec.ofInt k.bits (j.read (BitVec.ofInt j.bits z)) = BitVec.ofInt k.bits z := by
  rw [ofInt_read_eq_setWidth h, setWidth_ofInt h]

/-- An unsigned kind keeps what fits into it. -/
theorem IntKind.read_ofInt_of_lt {k : IntKind} (hk : k.signed = false) {n : Nat}
    (hn : n < 2 ^ k.bits) : k.read (BitVec.ofInt k.bits n) = n := by
  rw [IntKind.read, hk, BitVec.ofInt_natCast, BitVec.toNat_ofNat, Nat.mod_eq_of_lt hn]
  rfl

theorem IntKind.read_zero (k : IntKind) : k.read 0 = 0 := by
  unfold IntKind.read
  split <;> simp

theorem IntKind.read_eq_zero_iff {k : IntKind} {x : BitVec k.bits} : k.read x = 0 ↔ x = 0 :=
  ⟨fun h => read_injective (h.trans k.read_zero.symm), fun h => h ▸ k.read_zero⟩

/-- A kind that is no narrower tells zero from everything else. -/
theorem IntKind.ofInt_read_eq_zero_iff {j k : IntKind} (h : j.bits ≤ k.bits) {x : BitVec j.bits} :
    BitVec.ofInt k.bits (j.read x) = 0 ↔ j.read x = 0 := by
  refine ⟨fun hx => ?_, fun hx => by rw [hx]; simp⟩
  have hback : BitVec.ofInt j.bits (k.read (BitVec.ofInt k.bits (j.read x))) = x := by
    rw [ofInt_read_ofInt h, ofInt_read]
  rw [hx, IntKind.read_zero] at hback
  rw [← hback]
  exact j.read_zero

/-- A number that a kind does not take to zero keeps its truth value in it. -/
theorem IntKind.read_ofInt_ne_zero {k : IntKind} {z : Int}
    (h : BitVec.ofInt k.bits z = 0 ↔ z = 0) : (k.read (BitVec.ofInt k.bits z) != 0) = (z != 0) := by
  rw [Bool.eq_iff_iff, bne_iff_ne, bne_iff_ne]
  exact not_congr (read_eq_zero_iff.trans h)

theorem Value.toInt_ofInt {j k : IntKind} (h : k.bits ≤ j.bits) (z : Int) :
    (ofInt j z).toInt k = .ok (BitVec.ofInt k.bits z) :=
  congrArg Except.ok (IntKind.ofInt_read_ofInt h z)

/-- The cast to a kind, given as a value of that kind. The operators cast to truth values and numbers
only; the two other kinds give nothing here, as an operator at them does. -/
def Value.castTo (kind : Kind) (v : Value) : Except ValueError Value :=
  match kind with
  | .bool => v.toBool.map .bool
  | .int k => (v.toInt k).map (.int k)
  | .float p => (v.toFloat p).map (.float p)
  | .unset | .pointer => .ok .unset

end KernelFront
