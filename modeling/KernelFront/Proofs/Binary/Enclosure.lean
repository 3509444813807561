import Mathlib.Data.Nat.Dist
import Mathlib.Tactic.Linarith
import Mathlib.Tactic.LinearCombination
import Mathlib.Tactic.Ring

/-!
# Neighbouring fractions

An `Enclosure a b` is a pair of neighbouring fractions with `a / b` between them. Its two denominators
tell how close `m * a` can come to a multiple of `b`: for `m` below their sum either it is a multiple
of one of the two fractions, or it stays away by the sum of their gaps (`Enclosure.close`). `narrow`
replaces one of the fractions by a mediant with the other, as often as it can at once, so that a few
steps lead to denominators of any size.
-/

namespace KernelFront

/-- Two neighbouring fractions `low ≤ a / b ≤ high`. -/
structure Enclosure (a b : Nat) where
  lowNum : Nat
  lowDen : Nat
  highNum : Nat
  highDen : Nat
  low_le : lowNum * b ≤ lowDen * a
  le_high : highDen * a ≤ highNum * b
  adjacent : highNum * lowDen = lowNum * highDen + 1

namespace Enclosure

variable {a b : Nat}

/-- How far the lower fraction is off, times both denominators. -/
def lowGap (E : Enclosure a b) : Nat := E.lowDen * a - E.lowNum * b

def highGap (E : Enclosure a b) : Nat := E.highNum * b - E.highDen * a

theorem lowNum_mul_add (E : Enclosure a b) : E.lowNum * b + E.lowGap = E.lowDen * a :=
  Nat.add_sub_cancel' E.low_le

theorem highDen_mul_add (E : Enclosure a b) : E.highDen * a + E.highGap = E.highNum * b :=
  Nat.add_sub_cancel' E.le_high

/-! ## What can come close -/

/-- Every pair of numbers is an integer combination of the two fractions, and its distance is the same
combination of the gaps. -/
theorem exists_combination (E : Enclosure a b) (m n : Nat) :
    ∃ x y : Int, (m : Int) = x * E.lowDen + y * E.highDen ∧
      (n : Int) = x * E.lowNum + y * E.highNum ∧
      ((m * a : Nat) : Int) - (n * b : Nat) = x * E.lowGap - y * E.highGap := by
  have hadj : (E.highNum : Int) * E.lowDen = E.lowNum * E.highDen + 1 := by exact_mod_cast E.adjacent
  have hlow : (E.lowNum : Int) * b + E.lowGap = E.lowDen * a := by exact_mod_cast E.lowNum_mul_add
  have hhigh : (E.highDen : Int) * a + E.highGap = E.highNum * b := by
    exact_mod_cast E.highDen_mul_add
  have hm : (m : Int) = (m * E.highNum - n * E.highDen) * E.lowDen +
      (n * E.lowDen - m * E.lowNum) * E.highDen := by
    linear_combination -(m : Int) * hadj
  have hn : (n : Int) = (m * E.highNum - n * E.highDen) * E.lowNum +
      (n * E.lowDen - m * E.lowNum) * E.highNum := by
    linear_combination -(n : Int) * hadj
  refine ⟨m * E.highNum - n * E.highDen, n * E.lowDen - m * E.lowNum, hm, hn, ?_⟩
  push_cast
  linear_combination (a : Int) * hm - (b : Int) * hn -
    (m * E.highNum - n * E.highDen : Int) * hlow + (n * E.lowDen - m * E.lowNum : Int) * hhigh

/-- **What comes close is a multiple.** For `m` below the sum of the denominators, `m * a` is as far
from `n * b` as the two gaps together, or `n / m` is one of the two fractions. -/
theorem close (E : Enclosure a b) {m n : Nat} (hm : 0 < m) (hlt : m < E.lowDen + E.highDen) :
    E.lowGap + E.highGap ≤ Nat.dist (m * a) (n * b) ∨
      (∃ t, 0 < t ∧ n = t * E.lowNum ∧ Nat.dist (m * a) (n * b) = t * E.lowGap) ∨
      ∃ t, 0 < t ∧ n = t * E.highNum ∧ Nat.dist (m * a) (n * b) = t * E.highGap := by
  obtain ⟨x, y, hxm, hxn, hxy⟩ := E.exists_combination m n
  have hdist : Nat.dist (m * a) (n * b) = (x * E.lowGap - y * E.highGap).natAbs := by
    rw [← hxy, Nat.dist]
    omega
  have hge {x : Int} (hx : 0 < x) (n : Nat) : (n : Int) ≤ x * n :=
    le_mul_of_one_le_left (Int.natCast_nonneg n) hx
  have hle {x : Int} (hx : x < 0) (n : Nat) : x * n ≤ -n := by
    have := hge (Int.neg_pos_of_neg hx) n
    rw [Int.neg_mul] at this
    omega
  have hpos {x : Int} {n : Nat} (h : 0 < x * n) : 0 < x :=
    Int.lt_of_not_ge fun hx =>
      Int.not_lt.2 (Int.mul_nonpos_of_nonpos_of_nonneg hx (Int.natCast_nonneg n)) h
  rw [hdist]
  -- A sum of both fractions has a greater denominator than `m`, so the signs of `x` and `y` differ.
  rcases Int.lt_trichotomy x 0 with hx | rfl | hx
  · have hlow := hle hx E.lowDen
    have hy : 0 < y := hpos (n := E.highDen) (by omega)
    have h1 := hle hx E.lowGap
    have h2 := hge hy E.highGap
    omega
  · right; right
    rw [Int.zero_mul, Int.zero_add] at hxm hxn
    have hy : 0 < y := hpos (n := E.highDen) (by omega)
    obtain ⟨t, rfl⟩ := Int.eq_ofNat_of_zero_le (Int.le_of_lt hy)
    refine ⟨t, by omega, by exact_mod_cast hxn, ?_⟩
    rw [Int.zero_mul, Int.zero_sub, Int.natAbs_neg, ← Int.natCast_mul, Int.natAbs_natCast]
  rcases Int.lt_trichotomy y 0 with hy | rfl | hy
  · have h1 := hge hx E.lowGap
    have h2 := hle hy E.highGap
    omega
  · right; left
    obtain ⟨t, rfl⟩ := Int.eq_ofNat_of_zero_le (Int.le_of_lt hx)
    rw [Int.zero_mul, Int.add_zero] at hxn
    refine ⟨t, by omega, by exact_mod_cast hxn, ?_⟩
    rw [Int.zero_mul, Int.sub_zero, ← Int.natCast_mul, Int.natAbs_natCast]
  · have h1 := hge hx E.lowDen
    have h2 := hge hy E.highDen
    omega

/-! ## Narrowing -/

/-- The lower fraction moved up by `t` mediants. -/
def raise (E : Enclosure a b) (t : Nat) (h : t * E.highGap ≤ E.lowGap) : Enclosure a b where
  lowNum := E.lowNum + t * E.highNum
  lowDen := E.lowDen + t * E.highDen
  highNum := E.highNum
  highDen := E.highDen
  low_le := by
    have hlow := E.lowNum_mul_add
    have hhigh := congrArg (t * ·) E.highDen_mul_add
    linarith
  le_high := E.le_high
  adjacent := by
    have := E.adjacent
    linarith

/-- The upper fraction moved down by `t` mediants. -/
def lower (E : Enclosure a b) (t : Nat) (h : t * E.lowGap ≤ E.highGap) : Enclosure a b where
  lowNum := E.lowNum
  lowDen := E.lowDen
  highNum := E.highNum + t * E.lowNum
  highDen := E.highDen + t * E.lowDen
  low_le := E.low_le
  le_high := by
    have hlow := congrArg (t * ·) E.lowNum_mul_add
    have hhigh := E.highDen_mul_add
    linarith
  adjacent := by
    have := E.adjacent
    linarith

/-- How many mediants to take at once: as many as the gap allows, and no more than lead to a
denominator of the size of `bound`. -/
def mediants (bound gap other den : Nat) : Nat := min (gap / max other 1) (bound / den)

theorem mediants_mul_le (bound gap other den : Nat) : mediants bound gap other den * other ≤ gap :=
  calc mediants bound gap other den * other
      ≤ gap / max other 1 * max other 1 :=
        Nat.mul_le_mul (Nat.min_le_left ..) (Nat.le_max_left ..)
    _ ≤ gap := Nat.div_mul_le_self ..

def narrow (bound : Nat) (E : Enclosure a b) : Enclosure a b :=
  if E.highGap ≤ E.lowGap then
    E.raise (mediants bound E.lowGap E.highGap E.highDen) (mediants_mul_le ..)
  else E.lower (mediants bound E.highGap E.lowGap E.lowDen) (mediants_mul_le ..)

/-- The two whole numbers around a fraction. -/
def whole (a : Nat) (hb : 0 < b) : Enclosure a b where
  lowNum := a / b
  lowDen := 1
  highNum := a / b + 1
  highDen := 1
  low_le := by
    rw [Nat.one_mul]
    exact Nat.div_mul_le_self ..
  le_high := by
    rw [Nat.one_mul, Nat.mul_comm]
    exact Nat.le_of_lt (Nat.lt_mul_div_succ a hb)
  adjacent := by rw [Nat.mul_one, Nat.mul_one]

def narrowed (bound : Nat) (a : Nat) (hb : 0 < b) : Nat → Enclosure a b
  | 0 => whole a hb
  | steps + 1 => narrow bound (narrowed bound a hb steps)

end Enclosure

end KernelFront
