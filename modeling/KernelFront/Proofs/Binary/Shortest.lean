import Mathlib.Data.Nat.Dist
import KernelFront.Binary.Shortest
import KernelFront.Proofs.Binary.Decimals

/-!
# What the shortest decimal keeps

`exists_shortest`: the search for the shortest decimal ends with one that reads back, and next to an
odd rank with the multiple of a power of ten that is nearest to the number. The other neighbour is
never taken there, because the decimals that read back as an odd rank lie evenly around it; around a
power of two, which is even, they do not.
-/

namespace KernelFront.Binary

open scoped Numeral

variable {f g : Format}

/-- Counted in the steps of a format, a decimal whose exponent starts at `-depth` has no power of two
left in its denominator; the steps of a finer format only add one to the numerator. -/
theorem toBinary_eq_round_five (hg : 2 ≤ g.exponentBits) {q : Nat} (hq : g.depth = f.depth + q)
    (s : Bool) (m c : Nat) :
    (Decimal.mk s m (c - f.depth)).toBinary g =
      round g s (m * 10 ^ c * 2 ^ q) (5 ^ f.depth) := by
  have hten : (10 : Nat) ^ f.depth = 2 ^ f.depth * 5 ^ f.depth := Nat.mul_pow 2 5 _
  rw [Decimal.toBinary_eq_round hg]
  refine congrArg (ofRank g s) (Format.nearestRank_congr (Nat.pow_pos (by decide))
    (Nat.pow_pos (by decide)) ?_)
  rw [hten, Format.one, hq, Nat.pow_add]
  ring

theorem toBinary_eq_ofRank_iff (hf : 2 ≤ f.exponentBits) {s : Bool} {m c k : Nat}
    (hk : k < f.infinity) :
    (Decimal.mk s m (c - f.depth)).toBinary f = ofRank f s k ↔
      f.nearestRank (m * 10 ^ c) (5 ^ f.depth) = k := by
  rw [toBinary_eq_round_five hf (q := 0) rfl, Nat.pow_zero, Nat.mul_one, round, ofRank_inj hk]

theorem neighbours_spec (n cut : Nat) :
    2 * Nat.dist ((neighbours n cut).1 * 10 ^ cut) n ≤ 10 ^ cut ∧
      Nat.dist ((neighbours n cut).1 * 10 ^ cut) n ≤
        Nat.dist ((neighbours n cut).2 * 10 ^ cut) n := by
  have hgrid : 0 < 10 ^ cut := Nat.pow_pos (by decide)
  have hmod : n % 10 ^ cut < 10 ^ cut := Nat.mod_lt _ hgrid
  have hdiv : n / 10 ^ cut * 10 ^ cut + n % 10 ^ cut = n := Nat.div_add_mod' n _
  have hsucc : (n / 10 ^ cut + 1) * 10 ^ cut = n / 10 ^ cut * 10 ^ cut + 10 ^ cut := by ring
  unfold neighbours Nat.dist
  simp only
  split
  · simp only [hsucc]
    omega
  · simp only [hsucc]
    omega

/-- The decimals that read back as an odd rank lie evenly around it. -/
theorem nearestRank_of_distance_le (hf : f.binade % 2 = 0) {k x y den : Nat} (hk : k % 2 = 1)
    (hden : 0 < den) (hx : f.nearestRank x den = k)
    (hxy : Nat.dist y (f.steps k * den) ≤ Nat.dist x (f.steps k * den)) :
    f.nearestRank y den = k := by
  obtain ⟨e, h, -, -, -, hsteps, hlow, hhigh⟩ := Format.exists_odd_significand hf hk
  have hsum : f.midpointBelow k * den + f.midpoint k * den = 4 * (f.steps k * den) := by
    rw [hsteps, hlow, hhigh]
    ring
  rw [Format.nearestRank_eq_iff_of_odd hk hden] at hx ⊢
  unfold Nat.dist at hxy
  omega

theorem exists_cutDigits (hf : 2 ≤ f.exponentBits) (hb : f.binade % 2 = 0) {k : Nat}
    (hk : k < f.infinity) (cut : Nat) :
    ∃ m c : Nat, cutDigits f k (exactDigits f (f.steps k)) cut = ⟨false, m, c - f.depth⟩ ∧
      f.nearestRank (m * 10 ^ c) (5 ^ f.depth) = k ∧
      (k % 2 = 1 → 2 * Nat.dist (m * 10 ^ c) (exactDigits f (f.steps k)) ≤ 10 ^ c) := by
  have hfive : 0 < 5 ^ f.depth := Nat.pow_pos (by decide)
  induction cut with
  | zero =>
    refine ⟨exactDigits f (f.steps k), 0, ?_, ?_, fun _ => ?_⟩
    · simp [cutDigits]
    · rw [← f.nearestRank_steps k]
      exact Format.nearestRank_congr hfive Nat.one_pos (by
        rw [f.nearestRank_steps, exactDigits, Nat.pow_zero, Nat.mul_one, Nat.mul_one])
    · simp [Nat.dist]
  | succ cut ih =>
    obtain ⟨hnear, hle⟩ := neighbours_spec (exactDigits f (f.steps k)) (cut + 1)
    have hread (m : Nat) := toBinary_eq_ofRank_iff hf (s := false) (m := m) (c := cut + 1) hk
    rw [Int.natCast_add_one] at hread
    unfold cutDigits
    generalize neighbours (exactDigits f (f.steps k)) (cut + 1) = pair at hnear hle
    obtain ⟨near, far⟩ := pair
    simp only [hread] at hnear hle ⊢
    split_ifs with h1 h2
    -- Next to an odd rank the farther neighbour cannot read back where the nearer one does not.
    · exact ⟨near, cut + 1, by rw [Int.natCast_add_one], h1, fun _ => hnear⟩
    · exact ⟨far, cut + 1, by rw [Int.natCast_add_one], h2,
        fun hodd => absurd (nearestRank_of_distance_le hb hodd hfive h2 hle) h1⟩
    · exact ih

theorem exists_shortest (hf : 2 ≤ f.exponentBits) (hb : f.binade % 2 = 0) (s : Bool) {k : Nat}
    (hk : k < f.infinity) :
    ∃ m c : Nat, shortest f s k = ⟨s, m, c - f.depth⟩ ∧
      f.nearestRank (m * 10 ^ c) (5 ^ f.depth) = k ∧
      (k % 2 = 1 → 2 * Nat.dist (m * 10 ^ c) (exactDigits f (f.steps k)) ≤ 10 ^ c) := by
  obtain ⟨m, c, hd, h⟩ := exists_cutDigits hf hb hk
    ((Numeral.decimal (exactDigits f (f.steps k))).length - 1)
  refine ⟨m, c, ?_, h⟩
  rw [shortest]
  simp only [hd]

/-- The shortest decimal reads back. -/
theorem toBinary_shortest (hf : 2 ≤ f.exponentBits) (hb : f.binade % 2 = 0) (s : Bool)
    (k : Fin (f.infinity + 1)) (hk : k < f.infinity) :
    (shortest f s k).toBinary f = .number s k := by
  obtain ⟨m, c, hd, hread, -⟩ := exists_shortest hf hb s hk
  rw [hd, (toBinary_eq_ofRank_iff hf hk).2 hread, ofRank_val]

end KernelFront.Binary
