import Mathlib.Tactic.SplitIfs
import KernelFront.Proofs.Literal.Integers

/-!
# Radix numbers

The digits after the marker of a radix fix the width of a number by their count alone, the sign counted
as one more bit. `radix_digits_denote`: below 64 bits this width always has room for the number
(`IntKind.fits_radixKind`), so that the payload is the number; with 64 bits it is the number where that
fits, and else the number modulo the width. A 64-bit word into which the digits are shifted one after the
other holds all that is needed (`Numeral.shifted`).
-/

namespace KernelFront

open scoped Numeral

/-! ## Digits of a power of two -/

namespace Numeral

theorem digit_lt {radix : Nat} (h : 0 < radix) (c : Char) : (digit? radix c).getD 0 < radix := by
  cases hd : digit? radix c with
  | none => exact h
  | some d =>
    simp only [digit?, Option.filter_eq_some_iff, decide_eq_true_eq] at hd
    exact hd.2

/-- A run of digits is less than the power that comes after it. -/
theorem value_lt_pow {radix : Nat} (h : 0 < radix) (cs : List Char) :
    value radix cs < radix ^ cs.length := by
  induction cs with
  | nil => exact Nat.one_pos
  | cons c cs ih =>
    have hcons : value radix (c :: cs) =
        radix ^ cs.length * (digit? radix c).getD 0 + value radix cs := by
      rw [← List.singleton_append, value_append]
      simp [value]
    calc value radix (c :: cs)
        < radix ^ cs.length * (digit? radix c).getD 0 + radix ^ cs.length := by omega
      _ = radix ^ cs.length * ((digit? radix c).getD 0 + 1) := (Nat.mul_succ ..).symm
      _ ≤ radix ^ cs.length * radix := Nat.mul_le_mul_left _ (digit_lt h c)
      _ = radix ^ (c :: cs).length := (Nat.pow_succ ..).symm

theorem shiftLeft_or_ofNat {w k d : Nat} (n : Nat) (hd : d < 2 ^ k) :
    BitVec.ofNat w n <<< k ||| BitVec.ofNat w d = BitVec.ofNat w (2 ^ k * n + d) := by
  have hshift : BitVec.ofNat w (2 ^ k * n) = BitVec.ofNat w n <<< k := by
    rw [← BitVec.ofInt_natCast, ← BitVec.ofInt_natCast, ← ofInt_mul_two_pow, Nat.mul_comm]
    push_cast
    rfl
  rw [Nat.two_pow_add_eq_or_of_lt hd, BitVec.ofNat_or, hshift]

theorem shifted_eq (k : Nat) (cs : List Char) :
    shifted k cs = BitVec.ofNat 64 (value (2 ^ k) cs) :=
  foldl_ofNat (fun w d => w <<< k ||| d)
    (fun n c => shiftLeft_or_ofNat n (digit_lt (Nat.two_pow_pos k) c)) cs 0

end Numeral

/-! ## Room for a number -/

namespace IntKind

/-- There is room for the number, which is negative where the kind is signed. -/
def Fits (k : IntKind) (n : Nat) : Prop := if k.signed then n ≤ 2 ^ (k.bits - 1) else n < 2 ^ k.bits

theorem fits_iff_mem_range {k : IntKind} {n : Nat} :
    k.Fits n ↔ k.min ≤ (if k.signed then -(n : Int) else n) ∧
      (if k.signed then -(n : Int) else n) ≤ k.max := by
  have hcast (m : Nat) : ((2 ^ m : Nat) : Int) = 2 ^ m := by push_cast; rfl
  have hpos := Nat.two_pow_pos (k.bits - 1)
  unfold Fits min max
  split
  · rw [← hcast]
    omega
  · rw [← hcast]
    omega

/-- The pattern of a number stands for the number where there is room for it, and only there. -/
theorem read_ofInt_eq_iff_fits {k : IntKind} {n : Nat} :
    k.read (BitVec.ofInt k.bits (if k.signed then -(n : Int) else n)) =
      (if k.signed then -(n : Int) else n) ↔ k.Fits n := by
  rw [fits_iff_mem_range]
  constructor
  · intro h
    have hrange := k.read_mem_range (BitVec.ofInt k.bits (if k.signed then -(n : Int) else n))
    rwa [h] at hrange
  · exact fun h => read_ofInt_of_mem_range h.1 h.2

end IntKind

namespace Literal

/-- The kind of a radix number has all the bits that it goes by, if 64 are enough. -/
theorem le_bits_radixKind (negative : Bool) (bits : Nat) :
    min bits 64 ≤ (radixKind negative bits).bits := by
  unfold radixKind IntKind.bits
  split_ifs <;> simp only [Width.bits] <;> omega

/-- A kind that goes by its count of bits has room for every number of so many bits. -/
theorem fits_radixKind {negative : Bool} {n digitBits : Nat} (hn : n < 2 ^ digitBits)
    (hbits : digitBits + negative.toNat ≤ 64) :
    (radixKind negative (digitBits + negative.toNat)).Fits n := by
  have hle := le_bits_radixKind negative (digitBits + negative.toNat)
  rw [Nat.min_eq_left hbits] at hle
  cases negative with
  | false => exact Nat.lt_of_lt_of_le hn (Nat.pow_le_pow_right (by decide) hle)
  | true =>
    refine Nat.le_of_lt (Nat.lt_of_lt_of_le hn (Nat.pow_le_pow_right (by decide) ?_))
    exact Nat.le_sub_of_add_le hle

theorem value_radix_lt (r : Radix) (digits : Text) :
    Numeral.value (2 ^ r.digitBits) digits < 2 ^ (digits.length * r.digitBits) := by
  have h := Numeral.value_lt_pow (Nat.two_pow_pos r.digitBits) digits
  rwa [← Nat.pow_mul, Nat.mul_comm] at h

end Literal

/-! ## Main result -/

namespace Value

open Literal (RadixDigit radixKind)

/-- **Radix digits denote their number, as far as their width has room.** The whole run of digits is read
and nothing behind it. The count of digits, with the sign as one more bit, fixes the width, and the sign
alone whether the kind is signed. Below 64 bits the payload is the number; with 64 bits it is the number
exactly where it fits, and always the only integer of the kind that is congruent to it. It is also what a
64-bit word holds in the end that the digits are shifted into, negated there and cut to the width. -/
theorem radix_digits_denote {r : Radix} {digits t : Text} (hne : digits ≠ [])
    (hrun : Run (RadixDigit r) digits t) (negative : Bool) :
    let n := Numeral.value (2 ^ r.digitBits) digits
    let z : Int := if negative then -(n : Int) else n
    let bits := digits.length * r.digitBits + negative.toNat
    ∃ (k : IntKind) (x : BitVec k.bits),
      readRadix? r negative (digits ++ t) = some (.int k x, t) ∧
        (k.width = if bits < 8 then .w8 else if bits < 16 then .w16
          else if bits < 32 then .w32 else .w64) ∧
        k.signed = negative ∧
        (bits < 32 → k.read x = z) ∧
        (k.read x = z ↔ if negative then n ≤ 2 ^ (k.bits - 1) else n < 2 ^ k.bits) ∧
        (∀ m, k.Represents z m ↔ m = k.read x) ∧
        x = (if negative then -Numeral.shifted r.digitBits digits
          else Numeral.shifted r.digitBits digits).setWidth k.bits := by
  intro n z bits
  have hfits : (radixKind negative bits).read (BitVec.ofInt _ z) = z ↔
      (radixKind negative bits).Fits n := IntKind.read_ofInt_eq_iff_fits
  refine ⟨radixKind negative bits, BitVec.ofInt _ z, ?_, rfl, rfl, fun hbits => ?_, hfits,
    fun m => ?_, ?_⟩
  · rw [readRadix?, Literal.readDigits?_iff.2 ⟨rfl, hne, hrun⟩]
    rfl
  · exact hfits.2 (Literal.fits_radixKind (Literal.value_radix_lt r digits) (by omega))
  · have hread := (radixKind negative bits).represents_read_ofInt z
    exact ⟨fun hm => hm.unique hread, fun hm => hm ▸ hread⟩
  · rw [Numeral.shifted_eq]
    exact ofInt_eq_setWidth (radixKind negative bits).bits_le _ _

/-- Seven hexadecimal digits and a minus are 29 bits, the last count of them below 32. -/
theorem radix_digits_denote_last_narrow :
    "fFfFfFf".toList ≠ [] ∧
      Run (RadixDigit .hexadecimal) "fFfFfFf".toList "g1".toList ∧
      ∃ x, readRadix? .hexadecimal true "fFfFfFfg1".toList = some (.int .int32 x, "g1".toList) ∧
        IntKind.int32.read x = -268435455 := by
  have hne : "fFfFfFf".toList ≠ [] := by decide
  have hrun : Run (RadixDigit .hexadecimal) "fFfFfFf".toList "g1".toList :=
    (run_takeWhile (Literal.isDigit_iff_radixDigit .hexadecimal) "fFfFfFfg1".toList).2
  obtain ⟨⟨signed, width⟩, x, hread, hwidth, hsigned, hexact, -⟩ := radix_digits_denote hne hrun true
  obtain rfl : width = .w32 := hwidth
  obtain rfl : signed = true := hsigned
  exact ⟨hne, hrun, x, hread, hexact (by decide)⟩

end Value

end KernelFront
