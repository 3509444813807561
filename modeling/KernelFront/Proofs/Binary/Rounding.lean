import Mathlib.Order.Monotone.Basic
import Mathlib.Tactic.Linarith
import Mathlib.Tactic.Ring
import KernelFront.Binary.Basic

/-!
# Rounding to the nearest rank

`Rounds f num den k` says that `num / den` steps lie between the two midpoints around the number at
rank `k`, and on one of them only if `k` is even. `nearestRank` gives that rank
(`rounds_nearestRank`) and there is no other (`Rounds.mono`), so that rounding is monotone and
everything else about it follows from the midpoints.

The midpoints of a format are numbers of a wider one. So rounding to the wider format first never
crosses a midpoint, and `nearestRank_nearestRank` says where it shows: at most where it ends on a
midpoint next to an odd rank.
-/

namespace KernelFront

open scoped Numeral

namespace Format

variable {f g : Format}

/-! ## Ranks, significands and exponents -/

/-- The number at a rank is a significand below `2 * binade` times a power of two; only the exponent
zero has significands below `binade`. -/
theorem exists_significand (f : Format) (k : Nat) :
    ∃ e m, k = e * f.binade + m ∧ m < 2 * f.binade ∧ (e = 0 ∨ f.binade ≤ m) := by
  rcases Nat.lt_or_ge k f.binade with h | h
  · exact ⟨0, k, by omega, by omega, .inl rfl⟩
  · obtain ⟨e, m, hm, rfl⟩ := f.exists_rank_eq h
    exact ⟨e, f.binade + m, by rw [Nat.add_mul]; omega, by omega, .inr (Nat.le_add_right ..)⟩

/-- The significand `2 * binade` is the first one of the next exponent. -/
theorem steps_eq {e m : Nat} (hm : m ≤ 2 * f.binade) (he : e = 0 ∨ f.binade ≤ m) :
    f.steps (e * f.binade + m) = m * 2 ^ e := by
  rcases Nat.lt_or_ge m f.binade with h | h
  · obtain rfl : e = 0 := he.resolve_right (by omega)
    rw [Nat.zero_mul, Nat.zero_add, steps_of_lt h, Nat.pow_zero, Nat.mul_one]
  rcases Nat.lt_or_ge m (2 * f.binade) with h2 | h2
  · have hk : e * f.binade + m = (e + 1) * f.binade + (m - f.binade) := by rw [Nat.add_mul]; omega
    rw [hk, steps_binade f e (by omega)]
    congr 1
    omega
  · obtain rfl : m = 2 * f.binade := Nat.le_antisymm hm h2
    have hk : e * f.binade + 2 * f.binade = (e + 1 + 1) * f.binade + 0 := by
      rw [Nat.add_mul, Nat.add_mul]; omega
    rw [hk, steps_binade f (e + 1) f.binade_pos, Nat.pow_succ, Nat.add_zero, Nat.mul_comm (2 ^ e) 2,
      ← Nat.mul_assoc, Nat.mul_comm f.binade 2]

/-- Every count of steps whose significant bits fit into the format is the number of a rank. -/
theorem exists_steps_eq {a : Nat} (ha : a < 2 * f.binade) (e : Nat) : ∃ k, f.steps k = a * 2 ^ e := by
  induction e generalizing a with
  | zero => exact ⟨_, steps_eq (Nat.le_of_lt ha) (.inl rfl)⟩
  | succ e ih =>
    rcases Nat.lt_or_ge a f.binade with h | h
    · obtain ⟨k, hk⟩ := ih (a := a * 2) (by omega)
      exact ⟨k, by rw [hk, Nat.pow_succ, Nat.mul_assoc, Nat.mul_comm 2]⟩
    · exact ⟨_, steps_eq (Nat.le_of_lt ha) (.inr h)⟩

/-- A rank and the next one have neighbouring significands. -/
theorem exists_steps_succ (f : Format) (k : Nat) :
    ∃ e m, m < 2 * f.binade ∧ (e = 0 ∨ f.binade ≤ m) ∧ f.steps k = m * 2 ^ e ∧
      f.steps (k + 1) = (m + 1) * 2 ^ e := by
  obtain ⟨e, m, rfl, hm, he⟩ := f.exists_significand k
  exact ⟨e, m, hm, he, steps_eq (Nat.le_of_lt hm) he,
    steps_eq (m := m + 1) hm (he.imp_right fun h => Nat.le_succ_of_le h)⟩

theorem binade_mul_steps_succ_le (f : Format) {k : Nat} (hk : f.binade ≤ f.steps k) :
    f.binade * f.steps (k + 1) ≤ (f.binade + 1) * f.steps k := by
  obtain ⟨e, m, -, he, h, h'⟩ := f.exists_steps_succ k
  have hbm : f.binade ≤ m := by
    refine he.elim (fun h0 => ?_) id
    rwa [h, h0, Nat.pow_zero, Nat.mul_one] at hk
  have := Nat.mul_le_mul_right (2 ^ e) hbm
  rw [h, h']
  linarith

theorem binade_mul_steps_le (f : Format) {k : Nat} (hk : f.binade ≤ f.steps (k + 1)) :
    f.binade * f.steps (k + 1) ≤ f.binade * f.steps k + f.steps (k + 1) := by
  obtain ⟨e, m, -, he, h, h'⟩ := f.exists_steps_succ k
  have hbm : f.binade ≤ m + 1 := by
    refine he.elim (fun h0 => ?_) fun h => Nat.le_succ_of_le h
    rwa [h', h0, Nat.pow_zero, Nat.mul_one] at hk
  have := Nat.mul_le_mul_right (2 ^ e) hbm
  rw [h, h']
  linarith

theorem steps_strictMono (f : Format) : StrictMono f.steps := strictMono_nat_of_lt_succ f.steps_lt_succ

/-- The exponent and the significand that `floorRank` reads off a count of steps. -/
theorem floorRank_significand (f : Format) (u : Nat) :
    u / 2 ^ (u.log2 - f.fractionBits) < 2 * f.binade ∧
      (u.log2 - f.fractionBits = 0 ∨ f.binade ≤ u / 2 ^ (u.log2 - f.fractionBits)) := by
  have hlt : u < 2 ^ (u.log2 + 1) := Nat.lt_log2_self
  constructor
  · rw [Nat.div_lt_iff_lt_mul (Nat.two_pow_pos _), binade, ← Nat.pow_succ', ← Nat.pow_add]
    exact Nat.lt_of_lt_of_le hlt (Nat.pow_le_pow_right (by decide) (by omega))
  · rcases Nat.eq_zero_or_pos (u.log2 - f.fractionBits) with h | h
    · exact .inl h
    · refine .inr ?_
      have hu : u ≠ 0 := by
        rintro rfl
        simp at h
      rw [Nat.le_div_iff_mul_le (Nat.two_pow_pos _), binade, ← Nat.pow_add,
        show f.fractionBits + (u.log2 - f.fractionBits) = u.log2 by omega]
      exact Nat.log2_self_le hu

theorem steps_floorRank_le (f : Format) (u : Nat) : f.steps (f.floorRank u) ≤ u := by
  obtain ⟨hm, he⟩ := f.floorRank_significand u
  rw [floorRank, steps_eq (Nat.le_of_lt hm) he]
  exact Nat.div_mul_le_self ..

theorem lt_steps_floorRank (f : Format) (u : Nat) : u < f.steps (f.floorRank u + 1) := by
  obtain ⟨hm, he⟩ := f.floorRank_significand u
  rw [floorRank, Nat.add_assoc, steps_eq hm (he.imp_right fun h => Nat.le_succ_of_le h),
    Nat.mul_comm]
  exact Nat.lt_mul_div_succ u (Nat.two_pow_pos _)

/-! ## Midpoints -/

/-- Twice the midpoint between rank `k` and the next one, in steps. -/
def midpoint (f : Format) (k : Nat) : Nat := f.steps k + f.steps (k + 1)

theorem midpoint_strictMono (f : Format) : StrictMono f.midpoint :=
  strictMono_nat_of_lt_succ fun k => Nat.add_lt_add (f.steps_lt_succ k) (f.steps_lt_succ (k + 1))

/-- Twice the midpoint below rank `k`; nothing is below zero. -/
def midpointBelow (f : Format) : Nat → Nat
  | 0 => 0
  | k + 1 => f.midpoint k

/-- `num / den` steps lie between the midpoints around rank `k`, and on one of them only if `k` is
even. -/
structure Rounds (f : Format) (num den k : Nat) : Prop where
  le_upper : 2 * num ≤ f.midpoint k * den
  upper_even : 2 * num = f.midpoint k * den → k % 2 = 0
  lower_le : f.midpointBelow k * den ≤ 2 * num
  lower_even : f.midpointBelow k * den = 2 * num → k % 2 = 0

section

variable {num den num' den' k k' : Nat}

/-- What is not below the number at a rank is beyond the midpoint below it. -/
theorem midpointBelow_of_steps_le (hden : 0 < den) (h : f.steps k * den ≤ num) :
    f.midpointBelow k * den ≤ 2 * num ∧ (f.midpointBelow k * den = 2 * num → k % 2 = 0) := by
  cases k with
  | zero => exact ⟨by simp [midpointBelow], fun _ => rfl⟩
  | succ j =>
    have hlt := Nat.mul_lt_mul_of_pos_right (f.steps_lt_succ j) hden
    have hmid : f.midpointBelow (j + 1) * den = f.steps j * den + f.steps (j + 1) * den :=
      Nat.add_mul ..
    omega

theorem rounds_nearestRank (f : Format) (num : Nat) (hden : 0 < den) :
    f.Rounds num den (f.nearestRank num den) := by
  have hbelow : f.steps (f.floorRank (num / den)) * den ≤ num :=
    (Nat.le_div_iff_mul_le hden).1 (f.steps_floorRank_le _)
  have habove : num < f.steps (f.floorRank (num / den) + 1) * den :=
    (Nat.div_lt_iff_lt_mul hden).1 (f.lt_steps_floorRank _)
  unfold nearestRank
  generalize f.floorRank (num / den) = below at hbelow habove
  obtain ⟨hlow, hlowEven⟩ := midpointBelow_of_steps_le hden hbelow
  have hhigh : 2 * num < f.midpoint (below + 1) * den := by
    have h := Nat.mul_lt_mul_of_pos_right (f.steps_lt_succ (below + 1)) hden
    rw [midpoint, Nat.add_mul]
    omega
  have hhighEven {P : Prop} (h : 2 * num = f.midpoint (below + 1) * den) : P :=
    absurd h (Nat.ne_of_lt hhigh)
  simp only
  rw [← midpoint]
  split
  · rename_i hlt
    have hlt := Nat.compare_eq_lt.1 hlt
    exact ⟨Nat.le_of_lt hlt, fun h => absurd h (Nat.ne_of_lt hlt), hlow, hlowEven⟩
  · rename_i hgt
    have hgt : f.midpointBelow (below + 1) * den < 2 * num := Nat.compare_eq_gt.1 hgt
    exact ⟨Nat.le_of_lt hhigh, hhighEven, Nat.le_of_lt hgt, fun h => absurd h (Nat.ne_of_lt hgt)⟩
  · rename_i heq
    have heq := Nat.compare_eq_eq.1 heq
    rcases Nat.mod_two_eq_zero_or_one below with hmod | hmod
    · rw [hmod]
      exact ⟨Nat.le_of_eq heq, fun _ => hmod, hlow, hlowEven⟩
    · have heven : (below + 1) % 2 = 0 := by omega
      rw [hmod]
      exact ⟨Nat.le_of_lt hhigh, hhighEven, Nat.le_of_eq heq.symm, fun _ => heven⟩

/-- A greater quotient has no lower rank. -/
theorem Rounds.mono (h : f.Rounds num den k) (h' : f.Rounds num' den' k') (hden : 0 < den)
    (hden' : 0 < den') (hle : num * den' ≤ num' * den) : k ≤ k' := by
  rcases Nat.lt_or_ge k' k with hlt | hge
  swap
  · exact hge
  -- Between two ranks in the wrong order all midpoints and quotients coincide, and both are even.
  exfalso
  obtain ⟨j, rfl⟩ : ∃ j, k = j + 1 := ⟨k - 1, by omega⟩
  have hmid : f.midpoint k' ≤ f.midpoint j := f.midpoint_strictMono.monotone (by omega)
  have h1 : f.midpoint j * (den * den') ≤ 2 * num * den' := by
    rw [← Nat.mul_assoc]
    exact Nat.mul_le_mul_right _ h.lower_le
  have h2 : 2 * num * den' ≤ 2 * num' * den := by
    rw [Nat.mul_assoc, Nat.mul_assoc]
    exact Nat.mul_le_mul_left 2 hle
  have h3 : 2 * num' * den ≤ f.midpoint k' * (den * den') := by
    rw [Nat.mul_comm den, ← Nat.mul_assoc]
    exact Nat.mul_le_mul_right _ h'.le_upper
  have hpos : 0 < den * den' := Nat.mul_pos hden hden'
  obtain rfl : j = k' := by
    refine f.midpoint_strictMono.injective (Nat.le_antisymm ?_ hmid)
    exact Nat.le_of_mul_le_mul_right (Nat.le_trans h1 (Nat.le_trans h2 h3)) hpos
  have heven : (j + 1) % 2 = 0 := by
    refine h.lower_even (Nat.eq_of_mul_eq_mul_right hden' ?_)
    rw [Nat.mul_assoc]
    exact Nat.le_antisymm h1 (Nat.le_trans h2 h3)
  have heven' : j % 2 = 0 := by
    refine h'.upper_even (Nat.eq_of_mul_eq_mul_right hden ?_)
    rw [Nat.mul_assoc (f.midpoint j), Nat.mul_comm den']
    exact Nat.le_antisymm h3 (Nat.le_trans h1 h2)
  omega

theorem nearestRank_eq_of_rounds (h : f.Rounds num den k) (hden : 0 < den) :
    f.nearestRank num den = k :=
  have hn := f.rounds_nearestRank num hden
  Nat.le_antisymm (hn.mono h hden hden (Nat.le_refl _)) (h.mono hn hden hden (Nat.le_refl _))

theorem nearestRank_eq_iff (hden : 0 < den) : f.nearestRank num den = k ↔ f.Rounds num den k :=
  ⟨fun h => h ▸ f.rounds_nearestRank num hden, fun h => nearestRank_eq_of_rounds h hden⟩

theorem nearestRank_mono (hden : 0 < den) (hden' : 0 < den') (hle : num * den' ≤ num' * den) :
    f.nearestRank num den ≤ f.nearestRank num' den' :=
  (f.rounds_nearestRank num hden).mono (f.rounds_nearestRank num' hden') hden hden' hle

/-- Rounding looks at the quotient only. -/
theorem nearestRank_congr (hden : 0 < den) (hden' : 0 < den') (h : num * den' = num' * den) :
    f.nearestRank num den = f.nearestRank num' den' :=
  Nat.le_antisymm (nearestRank_mono hden hden' (Nat.le_of_eq h))
    (nearestRank_mono hden' hden (Nat.le_of_eq h.symm))

theorem nearestRank_le (hden : 0 < den) (hle : num ≤ f.steps k * den) : f.nearestRank num den ≤ k := by
  rw [← f.nearestRank_steps k]
  exact nearestRank_mono hden Nat.one_pos (by rwa [Nat.mul_one])

theorem le_nearestRank (hden : 0 < den) (hle : f.steps k * den ≤ num) : k ≤ f.nearestRank num den := by
  rw [← f.nearestRank_steps k]
  exact nearestRank_mono Nat.one_pos hden (by rwa [Nat.mul_one])

/-- A rounded quotient is off by half a unit in its last place at most. -/
theorem Rounds.near (h : f.Rounds num den k) (hk : f.binade ≤ f.steps k) :
    2 * f.binade * num ≤ (2 * f.binade + 1) * (f.steps k * den) ∧
      2 * f.binade * (f.steps k * den) ≤ 2 * f.binade * num + f.steps k * den := by
  constructor
  · have hgap : f.binade * f.midpoint k ≤ (2 * f.binade + 1) * f.steps k := by
      have := f.binade_mul_steps_succ_le hk
      rw [midpoint]
      linarith
    have := Nat.mul_le_mul_right den hgap
    have := Nat.mul_le_mul_left f.binade h.le_upper
    linarith
  · cases k with
    | zero => simp [steps_of_lt f.binade_pos]
    | succ j =>
      have hlower : f.midpoint j * den ≤ 2 * num := h.lower_le
      have hgap : 2 * f.binade * f.steps (j + 1) ≤ f.binade * f.midpoint j + f.steps (j + 1) := by
        have := f.binade_mul_steps_le hk
        rw [midpoint]
        linarith
      have := Nat.mul_le_mul_right den hgap
      have := Nat.mul_le_mul_left f.binade hlower
      linarith

/-- A quotient rounds to an odd rank just if it lies strictly between the midpoints around it. -/
theorem nearestRank_eq_iff_of_odd (hk : k % 2 = 1) (hden : 0 < den) :
    f.nearestRank num den = k ↔ f.midpointBelow k * den < 2 * num ∧ 2 * num < f.midpoint k * den := by
  have hodd : ¬ k % 2 = 0 := by omega
  rw [nearestRank_eq_iff hden]
  constructor
  · intro h
    exact ⟨Nat.lt_of_le_of_ne h.lower_le fun e => hodd (h.lower_even e),
      Nat.lt_of_le_of_ne h.le_upper fun e => hodd (h.upper_even e)⟩
  · rintro ⟨hlow, hhigh⟩
    exact ⟨Nat.le_of_lt hhigh, fun e => absurd e (Nat.ne_of_lt hhigh), Nat.le_of_lt hlow,
      fun e => absurd e (Nat.ne_of_lt hlow)⟩

/-- Around an odd rank the numbers are evenly spaced. -/
theorem exists_odd_significand (hf : f.binade % 2 = 0) (hk : k % 2 = 1) :
    ∃ e h, k = e * f.binade + (2 * h + 1) ∧ 2 * h + 1 < 2 * f.binade ∧
      (e = 0 ∨ f.binade ≤ 2 * h + 1) ∧ f.steps k = (2 * h + 1) * 2 ^ e ∧
      f.midpointBelow k = (4 * h + 1) * 2 ^ e ∧ f.midpoint k = (4 * h + 3) * 2 ^ e := by
  obtain ⟨e, m, rfl, hm, he⟩ := f.exists_significand k
  obtain ⟨b, hb⟩ : ∃ b, f.binade = 2 * b := ⟨f.binade / 2, by omega⟩
  have hodd : m % 2 = 1 := by
    rwa [hb, Nat.mul_left_comm, Nat.mul_add_mod] at hk
  obtain ⟨h, rfl⟩ : ∃ h, m = 2 * h + 1 := ⟨m / 2, by omega⟩
  have h0 : f.steps (e * f.binade + 2 * h) = 2 * h * 2 ^ e :=
    steps_eq (by omega) (he.imp_right fun _ => by omega)
  have h1 : f.steps (e * f.binade + (2 * h + 1)) = (2 * h + 1) * 2 ^ e := steps_eq (by omega) he
  have h2 : f.steps (e * f.binade + (2 * h + 2)) = (2 * h + 2) * 2 ^ e :=
    steps_eq (by omega) (he.imp_right fun _ => by omega)
  refine ⟨e, h, rfl, hm, he, h1, ?_, ?_⟩
  · show f.steps (e * f.binade + 2 * h) + f.steps (e * f.binade + (2 * h + 1)) = _
    rw [h0, h1]
    ring
  · show f.steps (e * f.binade + (2 * h + 1)) + f.steps (e * f.binade + (2 * h + 2)) = _
    rw [h1, h2]
    ring

/-! ## Rounding twice -/

variable {p j : Nat}

/-- The midpoints of a format are numbers of one with twice the binade and finer steps. -/
theorem exists_steps_eq_midpoint (hfg : 2 * f.binade ≤ g.binade) (j p : Nat) :
    ∃ k, 2 * g.steps k = f.midpoint j * 2 ^ (p + 1) := by
  obtain ⟨e, m, hm, -, h, h'⟩ := f.exists_steps_succ j
  obtain ⟨k, hk⟩ := exists_steps_eq (f := g) (a := 2 * m + 1) (by omega) (e + p)
  refine ⟨k, ?_⟩
  rw [hk, midpoint, h, h']
  ring

theorem two_mul_steps_nearestRank_le (hfg : 2 * f.binade ≤ g.binade) (hden : 0 < den)
    (h : 2 * num ≤ f.midpoint j * (den * 2 ^ (p + 1))) :
    2 * g.steps (g.nearestRank num den) ≤ f.midpoint j * 2 ^ (p + 1) := by
  obtain ⟨k, hk⟩ := exists_steps_eq_midpoint hfg j p
  rw [Nat.mul_left_comm, ← hk] at h
  rw [← hk]
  exact Nat.mul_le_mul_left 2 (g.steps_strictMono.monotone (nearestRank_le hden (by linarith)))

theorem le_two_mul_steps_nearestRank (hfg : 2 * f.binade ≤ g.binade) (hden : 0 < den)
    (h : f.midpoint j * (den * 2 ^ (p + 1)) ≤ 2 * num) :
    f.midpoint j * 2 ^ (p + 1) ≤ 2 * g.steps (g.nearestRank num den) := by
  obtain ⟨k, hk⟩ := exists_steps_eq_midpoint hfg j p
  rw [Nat.mul_left_comm, ← hk] at h
  rw [← hk]
  exact Nat.mul_le_mul_left 2 (g.steps_strictMono.monotone (le_nearestRank hden (by linarith)))

/-- **Rounding twice.** The detour over a format with finer steps and twice the binade shows only
where it ends at a midpoint next to an odd rank. -/
theorem nearestRank_nearestRank (hfg : 2 * f.binade ≤ g.binade) (hden : 0 < den)
    (h : f.Rounds num (den * 2 ^ (p + 1)) k) :
    f.nearestRank (g.steps (g.nearestRank num den)) (2 ^ (p + 1)) = k ∨
      k % 2 = 1 ∧ (2 * g.steps (g.nearestRank num den) = f.midpointBelow k * 2 ^ (p + 1) ∨
        2 * g.steps (g.nearestRank num den) = f.midpoint k * 2 ^ (p + 1)) := by
  have hlower : f.midpointBelow k * 2 ^ (p + 1) ≤ 2 * g.steps (g.nearestRank num den) := by
    cases k with
    | zero => simp [midpointBelow]
    | succ j => exact le_two_mul_steps_nearestRank hfg hden h.lower_le
  refine or_iff_not_imp_right.2 fun hmid => nearestRank_eq_of_rounds ?_ (Nat.two_pow_pos _)
  exact ⟨two_mul_steps_nearestRank_le hfg hden h.le_upper,
    fun e => (Nat.mod_two_eq_zero_or_one k).resolve_right fun hodd => hmid ⟨hodd, .inr e⟩,
    hlower,
    fun e => (Nat.mod_two_eq_zero_or_one k).resolve_right fun hodd => hmid ⟨hodd, .inl e.symm⟩⟩

end

end Format

end KernelFront
