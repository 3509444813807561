import Mathlib.Tactic.SplitIfs
import KernelFront.Binary.Decimal
import KernelFront.Proofs.Binary.Rounding

/-!
# Decimals are rounded exactly

`toBinary_eq`: the two answers that `Decimal.toBinary` gives from the count of digits alone are the
ones that exact rounding gives. So the float of a decimal depends on its value only, in whatever way
the value is split into digits and an exponent (`toBinary_eq_round`, `toBinary_congr`).
-/

namespace KernelFront

open scoped Numeral

variable {f : Format}

namespace Format

theorem nearestRank_zero {den : Nat} (hden : 0 < den) : f.nearestRank 0 den = 0 :=
  Nat.le_zero.1 (nearestRank_le hden (Nat.zero_le _))

theorem steps_zero (f : Format) : f.steps 0 = 0 := steps_of_lt f.binade_pos

theorem steps_one (f : Format) : f.steps 1 = 1 := by
  have h : f.steps (0 * f.binade + 1) = 1 * 2 ^ 0 :=
    steps_eq (by have := f.binade_pos; omega) (.inl rfl)
  rwa [Nat.zero_mul, Nat.zero_add] at h

/-- What is at most half a step is rounded to zero. -/
theorem nearestRank_eq_zero {num den : Nat} (hden : 0 < den) (h : 2 * num ≤ den) :
    f.nearestRank num den = 0 := by
  refine nearestRank_eq_of_rounds ⟨?_, fun _ => rfl, by simp [midpointBelow], fun _ => rfl⟩ hden
  rwa [midpoint, steps_zero, steps_one, Nat.zero_add, Nat.one_mul]

/-- Infinity stands for `2 ^ 2 ^ (exponentBits - 1)`. -/
theorem steps_infinity (hf : 2 ≤ f.exponentBits) :
    f.steps f.infinity = 2 ^ 2 ^ (f.exponentBits - 1) * f.one := by
  have hhalf : 2 ^ f.exponentBits = 2 * 2 ^ (f.exponentBits - 1) := by
    rw [← Nat.pow_succ']
    congr 1
    omega
  have htwo : 2 ^ 1 ≤ 2 ^ (f.exponentBits - 1) := Nat.pow_le_pow_right (by decide) (by omega)
  have hinf : f.infinity = (2 ^ f.exponentBits - 2 + 1) * f.binade + 0 := by
    rw [infinity]
    congr 1
    omega
  rw [hinf, steps_binade f _ f.binade_pos, Nat.add_zero, binade, one, depth, ← Nat.pow_add,
    ← Nat.pow_add]
  congr 1
  omega

end Format

namespace Binary

theorem ofRank_of_le {s : Bool} {k : Nat} (h : f.infinity ≤ k) : ofRank f s k = infinity f s := by
  simp [infinity, ofRank, Nat.min_eq_right h]

theorem ofRank_inj {s : Bool} {j k : Nat} (hk : k < f.infinity) :
    ofRank f s j = ofRank f s k ↔ j = k := by
  simp only [ofRank, number.injEq, true_and, Fin.mk.injEq]
  omega

end Binary

namespace Decimal

theorem lt_pow_length (n : Nat) : n < 10 ^ (Numeral.decimal n).length :=
  (Nat.length_toDigits_le_iff (by decide) Nat.length_toDigits_pos).1 (Nat.le_refl _)

theorem pow_length_le {n : Nat} (hn : n ≠ 0) : 10 ^ ((Numeral.decimal n).length - 1) ≤ n := by
  rcases Nat.eq_zero_or_pos ((Numeral.decimal n).length - 1) with h | h
  · rw [h]
    exact Nat.pos_of_ne_zero hn
  · refine Nat.le_of_not_lt fun hlt => ?_
    have := (Nat.length_toDigits_le_iff (by decide) h).2 hlt
    simp only [Numeral.decimal] at *
    omega

theorem eight_pow_le (n : Nat) : 2 ^ (3 * n) ≤ 10 ^ n := by
  rw [Nat.pow_mul]
  exact Nat.pow_le_pow_left (by decide) n

section

variable {m : Nat} {e : Int}

/-- From `8 ^ t` on, where that is beyond the exponents of the format, everything is infinite. -/
theorem infinity_le_nearestRank (hf : 2 ≤ f.exponentBits) (hm : m ≠ 0)
    (h : (2 ^ (f.exponentBits - 1) : Int) ≤ 3 * ((Numeral.decimal m).length + e - 1)) :
    f.infinity ≤ f.nearestRank (m * f.one * 10 ^ e.toNat) (10 ^ (-e).toNat) := by
  refine Format.le_nearestRank (Nat.pow_pos (by decide)) ?_
  have hlen : 0 < (Numeral.decimal m).length := Nat.length_toDigits_pos
  have hcast : ((2 ^ (f.exponentBits - 1) : Nat) : Int) = 2 ^ (f.exponentBits - 1) :=
    Int.natCast_pow 2 _
  have hpos : 0 < 2 ^ (f.exponentBits - 1) := Nat.two_pow_pos _
  obtain ⟨t, ht⟩ := Int.eq_ofNat_of_zero_le (a := (Numeral.decimal m).length + e - 1) (by omega)
  have hsplit : t + (-e).toNat = ((Numeral.decimal m).length - 1) + e.toNat := by omega
  have hpow : 2 ^ 2 ^ (f.exponentBits - 1) ≤ 10 ^ t :=
    Nat.le_trans (Nat.pow_le_pow_right (by decide) (by omega)) (eight_pow_le t)
  calc f.steps f.infinity * 10 ^ (-e).toNat
      = 2 ^ 2 ^ (f.exponentBits - 1) * 10 ^ (-e).toNat * f.one := by
        rw [Format.steps_infinity hf, Nat.mul_right_comm]
    _ ≤ 10 ^ t * 10 ^ (-e).toNat * f.one :=
        Nat.mul_le_mul_right _ (Nat.mul_le_mul_right _ hpow)
    _ = 10 ^ ((Numeral.decimal m).length - 1) * 10 ^ e.toNat * f.one := by
        rw [← Nat.pow_add, ← Nat.pow_add, hsplit]
    _ ≤ m * 10 ^ e.toNat * f.one :=
        Nat.mul_le_mul_right _ (Nat.mul_le_mul_right _ (pow_length_le hm))
    _ = m * f.one * 10 ^ e.toNat := Nat.mul_right_comm ..

/-- Below `8 ^ -u`, where that is half a step, everything is zero. -/
theorem nearestRank_eq_zero_of_length
    (h : 3 * ((Numeral.decimal m).length + e) ≤ -(f.depth + 1 : Int)) :
    f.nearestRank (m * f.one * 10 ^ e.toNat) (10 ^ (-e).toNat) = 0 := by
  refine Format.nearestRank_eq_zero (Nat.pow_pos (by decide)) ?_
  obtain ⟨u, hu⟩ := Int.eq_ofNat_of_zero_le (a := -((Numeral.decimal m).length + e)) (by omega)
  have hsplit : (-e).toNat = (Numeral.decimal m).length + e.toNat + u := by omega
  have hpow : 2 * f.one ≤ 10 ^ u := by
    rw [Format.one, ← Nat.pow_succ']
    exact Nat.le_trans (Nat.pow_le_pow_right (by decide) (by omega)) (eight_pow_le u)
  calc 2 * (m * f.one * 10 ^ e.toNat)
      = m * 10 ^ e.toNat * (2 * f.one) := by ring
    _ ≤ 10 ^ (Numeral.decimal m).length * 10 ^ e.toNat * 10 ^ u :=
        Nat.mul_le_mul (Nat.mul_le_mul_right _ (Nat.le_of_lt (lt_pow_length _))) hpow
    _ = 10 ^ (-e).toNat := by rw [hsplit, Nat.pow_add, Nat.pow_add]

end

/-- **A decimal is rounded exactly**, also where `toBinary` does not compute the power of ten. -/
theorem toBinary_eq (hf : 2 ≤ f.exponentBits) (d : Decimal) : d.toBinary f = d.toBinaryExact f := by
  unfold toBinary toBinaryExact
  simp only
  split_ifs with hzero hbig hsmall
  · rw [hzero, Nat.zero_mul, Nat.zero_mul, Binary.round,
      Format.nearestRank_zero (Nat.pow_pos (by decide))]
    rfl
  · rw [Binary.round, Binary.ofRank_of_le (infinity_le_nearestRank hf hzero hbig)]
  · rw [Binary.round, nearestRank_eq_zero_of_length hsmall]
    rfl
  · rfl

/-- A decimal exponent may be split into a numerator and a denominator in any way. -/
theorem toBinary_eq_round (hf : 2 ≤ f.exponentBits) (s : Bool) (m z j : Nat) :
    (Decimal.mk s m (z - j : Int)).toBinary f = .round f s (m * f.one * 10 ^ z) (10 ^ j) := by
  rw [toBinary_eq hf, toBinaryExact, Binary.round, Binary.round]
  congr 1
  refine Format.nearestRank_congr (Nat.pow_pos (by decide)) (Nat.pow_pos (by decide)) ?_
  rw [Nat.mul_assoc, Nat.mul_assoc (m * f.one), ← Nat.pow_add, ← Nat.pow_add]
  congr 2
  simp only
  omega

/-! ## The number of a decimal -/

/-- The number that a decimal stands for. -/
def toRat (d : Decimal) : Rat := (if d.negative then -(d.digits : Rat) else d.digits) * 10 ^ d.exponent

theorem ten_ne_zero : (10 : Rat) ≠ 0 := by decide

/-- Zeros at the end of the digits move the exponent. -/
theorem toRat_mul_pow (s : Bool) (m z : Nat) (e : Int) :
    (Decimal.mk s (m * 10 ^ z) e).toRat = (Decimal.mk s m (e + z)).toRat := by
  unfold toRat
  rw [Int.add_comm, Rat.zpow_add ten_ne_zero, Rat.zpow_natCast]
  push_cast
  cases s with
  | true =>
    show -((m : Rat) * 10 ^ z) * 10 ^ e = -(m : Rat) * (10 ^ z * 10 ^ e)
    rw [← Rat.neg_mul, Rat.mul_assoc]
  | false =>
    show (m : Rat) * 10 ^ z * 10 ^ e = (m : Rat) * (10 ^ z * 10 ^ e)
    rw [Rat.mul_assoc]

theorem toRat_mul_ten_pow (s : Bool) (m z j : Nat) :
    (Decimal.mk s m (z - j : Int)).toRat * 10 ^ j = (if s then -(m : Rat) else m) * 10 ^ z := by
  rw [toRat, Rat.mul_assoc, ← Rat.zpow_natCast, ← Rat.zpow_add ten_ne_zero, ← Rat.zpow_natCast]
  congr 2
  simp

/-- **The float of a decimal depends on its number only**, and for zero on the sign. -/
theorem toBinary_congr (hf : 2 ≤ f.exponentBits) {d d' : Decimal} (hs : d.negative = d'.negative)
    (h : d.toRat = d'.toRat) : d.toBinary f = d'.toBinary f := by
  obtain ⟨s, m, e⟩ := d
  obtain ⟨s', m', e'⟩ := d'
  obtain rfl : s = s' := hs
  obtain ⟨z, j, rfl⟩ : ∃ z j : Nat, e = (z : Int) - j := ⟨e.toNat, (-e).toNat, by omega⟩
  obtain ⟨z', j', rfl⟩ : ∃ z j : Nat, e' = (z : Int) - j := ⟨e'.toNat, (-e').toNat, by omega⟩
  have hrat : (if s then -(m : Rat) else m) * 10 ^ z * 10 ^ j' =
      (if s then -(m' : Rat) else m') * 10 ^ z' * 10 ^ j := by
    rw [← toRat_mul_ten_pow, ← toRat_mul_ten_pow, h, Rat.mul_assoc, Rat.mul_assoc,
      Rat.mul_comm (10 ^ j)]
  have hnat : m * 10 ^ z * 10 ^ j' = m' * 10 ^ z' * 10 ^ j := by
    refine Rat.natCast_inj.1 ?_
    push_cast
    cases s with
    | false => exact hrat
    | true =>
      refine neg_inj.1 ?_
      rw [← Rat.neg_mul, ← Rat.neg_mul, ← Rat.neg_mul, ← Rat.neg_mul]
      exact hrat
  rw [toBinary_eq_round hf, toBinary_eq_round hf, Binary.round, Binary.round]
  congr 1
  refine Format.nearestRank_congr (Nat.pow_pos (by decide)) (Nat.pow_pos (by decide)) ?_
  calc m * f.one * 10 ^ z * 10 ^ j'
      = m * 10 ^ z * 10 ^ j' * f.one := by ring
    _ = m' * 10 ^ z' * 10 ^ j * f.one := by rw [hnat]
    _ = m' * f.one * 10 ^ z' * 10 ^ j := by ring

end Decimal

end KernelFront
