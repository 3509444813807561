import KernelFront.Text.Numeral

/-!
# Binary floating-point formats

A format counts its numbers in *steps*: one step is the smallest positive number, and `2 ^ depth`
steps make one. The non-negative numbers of a format, listed in increasing order, have the *ranks*
0, 1, 2, …; the rank is the number's bit pattern without the sign, and the last one, `infinity`,
stands for everything too large. `steps` gives the number at a rank and `floorRank` the last rank
that is not above a count of steps.
-/

namespace KernelFront

open scoped Numeral

/-- The widths of the stored fraction and of the exponent. -/
structure Format where
  fractionBits : Nat
  exponentBits : Nat
  deriving DecidableEq, Repr

namespace Format

/-- The 32-bit format. -/
def single : Format := ⟨23, 8⟩

/-- The 64-bit format. -/
def double : Format := ⟨52, 11⟩

/-- `2 ^ depth` steps make one. -/
def depth (f : Format) : Nat := 2 ^ (f.exponentBits - 1) - 2 + f.fractionBits

/-- One, counted in steps. -/
def one (f : Format) : Nat := 2 ^ f.depth

/-- The number of ranks that share an exponent. -/
def binade (f : Format) : Nat := 2 ^ f.fractionBits

/-- The rank of infinity: every exponent but the last one names finite numbers. -/
def infinity (f : Format) : Nat := (2 ^ f.exponentBits - 1) * f.binade

/-- The number at rank `k`, in steps: the ranks below `binade` are the subnormal numbers, and from
there on each binade doubles the distance of its neighbours. -/
def steps (f : Format) (k : Nat) : Nat :=
  if k < f.binade then k else (f.binade + k % f.binade) * 2 ^ (k / f.binade - 1)

/-- The last rank whose number is at most `u` steps. -/
def floorRank (f : Format) (u : Nat) : Nat :=
  let shift := u.log2 - f.fractionBits
  shift * f.binade + u / 2 ^ shift

/-- The rank of the number nearest to `num / den` steps, of two equally near ones the even rank. -/
def nearestRank (f : Format) (num den : Nat) : Nat :=
  let below := f.floorRank (num / den)
  match compare (2 * num) ((f.steps below + f.steps (below + 1)) * den) with
  | .lt => below
  | .gt => below + 1
  | .eq => below + below % 2

/-! ## Ranks and steps -/

theorem binade_pos (f : Format) : 0 < f.binade := Nat.two_pow_pos _

theorem steps_of_lt {f : Format} {k : Nat} (h : k < f.binade) : f.steps k = k := by
  simp [steps, h]

/-- From `binade` on a rank is an exponent `e + 1` and a fraction, and the number has the implicit
bit in front of the fraction. -/
theorem steps_binade (f : Format) (e : Nat) {m : Nat} (hm : m < f.binade) :
    f.steps ((e + 1) * f.binade + m) = (f.binade + m) * 2 ^ e := by
  have hb := f.binade_pos
  have h : ¬ (e + 1) * f.binade + m < f.binade := by
    have := Nat.le_mul_of_pos_left f.binade (show 0 < e + 1 by omega)
    omega
  rw [steps, if_neg h, Nat.mul_comm (e + 1), Nat.mul_add_mod, Nat.mod_eq_of_lt hm,
    Nat.mul_add_div hb, Nat.div_eq_of_lt hm]
  rfl

theorem exists_rank_eq (f : Format) {k : Nat} (h : f.binade ≤ k) :
    ∃ e m, m < f.binade ∧ k = (e + 1) * f.binade + m := by
  refine ⟨k / f.binade - 1, k % f.binade, Nat.mod_lt _ f.binade_pos, ?_⟩
  have h1 : 1 ≤ k / f.binade := (Nat.le_div_iff_mul_le f.binade_pos).2 (by omega)
  rw [Nat.sub_add_cancel h1, Nat.mul_comm]
  exact (Nat.div_add_mod k f.binade).symm

/-- A rank is recovered from its number. -/
theorem floorRank_steps (f : Format) (k : Nat) : f.floorRank (f.steps k) = k := by
  rcases Nat.lt_or_ge k f.binade with h | h
  · have hlog : k.log2 - f.fractionBits = 0 := by
      rcases Nat.eq_zero_or_pos k with rfl | hk
      · simp
      · have := (Nat.log2_lt (by omega)).2 h
        omega
    simp [floorRank, steps_of_lt h, hlog]
  · obtain ⟨e, m, hm, rfl⟩ := f.exists_rank_eq h
    have hlog : ((f.binade + m) * 2 ^ e).log2 = f.fractionBits + e := by
      have hpos : (f.binade + m) * 2 ^ e ≠ 0 :=
        Nat.mul_ne_zero (by have := f.binade_pos; omega) (Nat.ne_of_gt (Nat.two_pow_pos e))
      rw [Nat.log2_eq_iff hpos, Nat.pow_add, Nat.pow_succ, Nat.pow_add]
      refine ⟨Nat.mul_le_mul_right _ (Nat.le_add_right ..), ?_⟩
      rw [Nat.mul_right_comm]
      exact Nat.mul_lt_mul_of_pos_right (by unfold binade at *; omega) (Nat.two_pow_pos e)
    rw [floorRank, steps_binade f e hm]
    simp only [hlog, Nat.add_sub_cancel_left, Nat.mul_div_cancel _ (Nat.two_pow_pos e)]
    rw [Nat.add_mul, Nat.one_mul, Nat.add_assoc]

/-- Between two ranks there is at least one step. -/
theorem steps_lt_succ (f : Format) (k : Nat) : f.steps k < f.steps (k + 1) := by
  have hb := f.binade_pos
  rcases Nat.lt_or_ge (k + 1) f.binade with h | h
  · rw [steps_of_lt h, steps_of_lt (by omega)]
    omega
  rcases Nat.lt_or_ge k f.binade with hk | hk
  · have e1 : k + 1 = (0 + 1) * f.binade + 0 := by omega
    rw [steps_of_lt hk, e1, steps_binade f 0 hb]
    omega
  · obtain ⟨e, m, hm, rfl⟩ := f.exists_rank_eq hk
    have he := Nat.two_pow_pos e
    rw [steps_binade f e hm]
    rcases Nat.lt_or_ge (m + 1) f.binade with h' | h'
    · rw [Nat.add_assoc, steps_binade f e h']
      exact Nat.mul_lt_mul_of_pos_right (by omega) he
    · have e1 : (e + 1) * f.binade + m + 1 = (e + 1 + 1) * f.binade + 0 := by
        rw [Nat.add_mul (e + 1) 1]; omega
      rw [e1, steps_binade f (e + 1) hb, Nat.pow_succ, Nat.mul_comm (2 ^ e) 2, ← Nat.mul_assoc]
      exact Nat.mul_lt_mul_of_pos_right (by omega) he

/-- An exact number of steps is the number nearest to itself. -/
theorem nearestRank_steps (f : Format) (k : Nat) : f.nearestRank (f.steps k) 1 = k := by
  have h := f.steps_lt_succ k
  have hlt : compare (2 * f.steps k) (f.steps k + f.steps (k + 1)) = .lt :=
    Nat.compare_eq_lt.2 (by omega)
  simp [nearestRank, floorRank_steps, hlt]

/-- Scaling a quotient does not move it. -/
theorem nearestRank_mul (f : Format) (num den : Nat) {c : Nat} (hc : 0 < c) :
    f.nearestRank (num * c) (den * c) = f.nearestRank num den := by
  have h : ∀ a b : Nat, compare (a * c) (b * c) = compare a b := fun a b => by
    rcases Nat.lt_trichotomy a b with h | rfl | h
    · rw [Nat.compare_eq_lt.2 h, Nat.compare_eq_lt.2 (Nat.mul_lt_mul_of_pos_right h hc)]
    · rw [Nat.compare_eq_eq.2 rfl, Nat.compare_eq_eq.2 rfl]
    · rw [Nat.compare_eq_gt.2 h, Nat.compare_eq_gt.2 (Nat.mul_lt_mul_of_pos_right h hc)]
  simp only [nearestRank, Nat.mul_div_mul_right _ _ hc, ← Nat.mul_assoc, h]

end Format

end KernelFront
