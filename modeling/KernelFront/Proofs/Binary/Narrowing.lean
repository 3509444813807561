import KernelFront.Proofs.Binary.Enclosure
import KernelFront.Proofs.Binary.Shortest

/-!
# From double to single precision

The shortest decimal of a single-precision number, rounded to double and then to single precision,
is that number again, with one exception (`convert_shortest_iff`). The second rounding can only go
wrong where the double is a midpoint between two singles, next to an odd rank. The decimal is then
closer to that midpoint than one part in `2 ^ 28` of the spacing, and its power of ten is about as
large as the spacing or larger, so that few digits are left (`eq_of_close`). For each exponent the
neighbouring fractions of an `Enclosure` show that no such decimal comes so close to a midpoint, but
for `7038531 * 10 ^ -32`.
-/

namespace KernelFront.Binary

open scoped Numeral

/-! ## Decimals close to a midpoint -/

/-- The spacing of the singles with an exponent: `2 ^ e` steps, in units of the exact expansion. -/
def spacing (e : Nat) : Nat := 2 ^ e * 5 ^ Format.single.depth

theorem spacing_pos (e : Nat) : 0 < spacing e :=
  Nat.mul_pos (Nat.two_pow_pos e) (Nat.pow_pos (by decide))

/-- The first power of ten that the spacing does not exceed by one part in `2 ^ 28` or more. -/
def firstCut (e : Nat) : Nat := (105148 + 301 * e) / 1000

/-- Fractions around the ratio of that power of ten to half the spacing. -/
def enclosure (e : Nat) : Enclosure (2 * 10 ^ firstCut e) (spacing e) :=
  Enclosure.narrowed (2 ^ 24) (2 * 10 ^ firstCut e) (spacing_pos e) 23

/-- No multiple of a fraction with this numerator and gap is close: it is exact, or too far away, or
beyond the significands. -/
def Clear (e num gap : Nat) : Prop := gap = 0 ∨ spacing e ≤ 2 ^ 28 * gap ∨ 2 ^ 25 ≤ num

instance (e num gap : Nat) : Decidable (Clear e num gap) := inferInstanceAs (Decidable (_ ∨ _ ∨ _))

/-- The certificate of an exponent: the cut is the first one, the denominators cover all significands,
and no fraction is close, but for the one exception. -/
def Certified (e : Nat) : Prop :=
  (2 ^ 28 * 10 ^ (firstCut e - 1) < (2 ^ 28 - 1) * spacing e ∧
    (2 ^ 28 - 1) * spacing e ≤ 2 ^ 28 * 10 ^ firstCut e) ∧
  2 ^ 24 ≤ (enclosure e).lowDen + (enclosure e).highDen ∧
  spacing e ≤ 2 ^ 28 * ((enclosure e).lowGap + (enclosure e).highGap) ∧
  Clear e (enclosure e).lowNum (enclosure e).lowGap ∧
  (Clear e (enclosure e).highNum (enclosure e).highGap ∨
    (e = 42 ∧ (enclosure e).highNum = 22841339))

instance (e : Nat) : Decidable (Certified e) := inferInstanceAs (Decidable (_ ∧ _ ∧ _ ∧ _ ∧ _))

theorem certified : ∀ e < 254, Certified e := by decide +kernel

theorem Clear.not_close {e num gap t n d : Nat} (h : Clear e num gap) (ht : 0 < t)
    (hn : n = t * num) (hn25 : n < 2 ^ 25) (hd : d = t * gap) (hpos : 0 < d)
    (hclose : 2 ^ 28 * d < spacing e) : False := by
  rcases h with rfl | hgap | hnum
  · omega
  · have : gap ≤ t * gap := Nat.le_mul_of_pos_left gap ht
    omega
  · have : num ≤ t * num := Nat.le_mul_of_pos_left num ht
    omega

theorem firstCut_le {e c : Nat} (he : e < 254)
    (hpow : (2 ^ 28 - 1) * spacing e ≤ 2 ^ 28 * 10 ^ c) : firstCut e ≤ c := by
  refine Nat.le_of_not_lt fun hc => ?_
  have : 10 ^ c ≤ 10 ^ (firstCut e - 1) := Nat.pow_le_pow_right (by decide) (by omega)
  have := (certified e he).1.1
  omega

/-- **The only decimal close to a midpoint.** -/
theorem eq_of_close {e c m n : Nat} (he : e < 254) (hn : 0 < n) (hn25 : n < 2 ^ 25)
    (hpow : (2 ^ 28 - 1) * spacing e ≤ 2 ^ 28 * 10 ^ c) (hne : 2 * (m * 10 ^ c) ≠ n * spacing e)
    (hclose : 2 ^ 28 * Nat.dist (2 * (m * 10 ^ c)) (n * spacing e) < spacing e) :
    e = 42 ∧ n = 22841339 := by
  obtain ⟨z, rfl⟩ := Nat.exists_eq_add_of_le (firstCut_le he hpow)
  obtain ⟨⟨-, hcut⟩, hden, hgaps, hlow, hhigh⟩ := certified e he
  have hm : 2 * (m * 10 ^ (firstCut e + z)) = m * 10 ^ z * (2 * 10 ^ firstCut e) := by
    rw [Nat.pow_add]
    ring
  rw [hm] at hne hclose
  have hpos := Nat.dist_pos_of_ne hne
  have hspacing : spacing e ≤ n * spacing e := Nat.le_mul_of_pos_left _ hn
  have hm0 : 0 < m * 10 ^ z := by
    refine Nat.pos_of_ne_zero fun h0 => ?_
    rw [h0, Nat.zero_mul, Nat.dist_zero_left] at hclose
    omega
  have hm24 : m * 10 ^ z < 2 ^ 24 := by
    refine Nat.lt_of_not_le fun hge => ?_
    have h1 := Nat.mul_le_mul_right (2 * 10 ^ firstCut e) hge
    have h2 : n * spacing e ≤ (2 ^ 25 - 1) * spacing e := Nat.mul_le_mul_right _ (by omega)
    unfold Nat.dist at hclose
    omega
  rcases (enclosure e).close (n := n) hm0 (Nat.lt_of_lt_of_le hm24 hden) with h | ⟨t, ht, hnt, hd⟩ |
    ⟨t, ht, hnt, hd⟩
  · omega
  · exact (hlow.not_close ht hnt hn25 hd hpos hclose).elim
  · rcases hhigh with hhigh | ⟨rfl, hnum⟩
    · exact (hhigh.not_close ht hnt hn25 hd hpos hclose).elim
    · rw [hnum] at hnt
      omega

/-! ## Rounding to double precision first -/

section

variable {e n V K k m c p : Nat}

/-- A double that is a midpoint of singles is close to whatever was rounded to it. -/
theorem close_of_midpoint (hp : 52 ≤ p) (hn : 0 < n) (hn25 : n < 2 ^ 25)
    (hK : Format.double.Rounds (V * 2 ^ (p + 1)) (5 ^ Format.single.depth) K)
    (hmid : 2 * Format.double.steps K = n * 2 ^ e * 2 ^ (p + 1)) :
    2 ^ 28 * Nat.dist (2 * V) (n * spacing e) < spacing e := by
  have hbinade : Format.double.binade = 2 ^ 52 := rfl
  have hone : 2 ^ 52 ≤ 2 ^ p := Nat.pow_le_pow_right (by decide) hp
  rw [Nat.pow_succ] at hK hmid
  generalize 2 ^ p = P at hK hmid hone
  have hsteps : Format.double.steps K = n * 2 ^ e * P := by linarith
  have hlarge : Format.double.binade ≤ Format.double.steps K := by
    have h1 : 1 ≤ n * 2 ^ e := Nat.mul_pos hn (Nat.two_pow_pos e)
    rw [hsteps, hbinade]
    exact Nat.le_trans hone (Nat.le_mul_of_pos_left P h1)
  obtain ⟨h1, h2⟩ := hK.near hlarge
  have hprod : Format.double.steps K * 5 ^ Format.single.depth = n * spacing e * P := by
    rw [hsteps, spacing]
    ring
  have hV : 2 * Format.double.binade * (V * (P * 2)) = 2 ^ 53 * (2 * V) * P := by
    rw [hbinade]
    ring
  rw [hprod, hV, hbinade] at h1 h2
  have hP : 0 < P := by omega
  have h1' : 2 ^ 53 * (2 * V) ≤ (2 ^ 53 + 1) * (n * spacing e) := by
    refine Nat.le_of_mul_le_mul_right ?_ hP
    linarith
  have h2' : 2 ^ 53 * (n * spacing e) ≤ 2 ^ 53 * (2 * V) + n * spacing e := by
    refine Nat.le_of_mul_le_mul_right ?_ hP
    linarith
  have h3 : n * spacing e ≤ (2 ^ 25 - 1) * spacing e := Nat.mul_le_mul_right _ (by omega)
  have hpos := spacing_pos e
  unfold Nat.dist
  omega

/-- What is near to a number and close to a midpoint has a large power of ten. -/
theorem pow_of_close {h x grid S : Nat} (hn : n = 4 * h + 1 ∨ n = 4 * h + 3)
    (hnear : 2 * Nat.dist x ((2 * h + 1) * S) ≤ grid)
    (hclose : 2 ^ 28 * Nat.dist (2 * x) (n * S) < S) : (2 ^ 28 - 1) * S ≤ 2 ^ 28 * grid := by
  have h1 : (4 * h + 1) * S = 4 * (h * S) + S := by ring
  have h2 : (2 * h + 1) * S = 2 * (h * S) + S := by ring
  have h3 : (4 * h + 3) * S = 4 * (h * S) + 3 * S := by ring
  rw [h2] at hnear
  unfold Nat.dist at hclose hnear
  rcases hn with rfl | rfl
  · rw [h1] at hclose
    omega
  · rw [h3] at hclose
    omega

/-- The exponents of the finite numbers. -/
theorem exponent_lt {h : Nat} (hk : k < Format.single.infinity)
    (hkm : k = e * Format.single.binade + (2 * h + 1))
    (he : e = 0 ∨ Format.single.binade ≤ 2 * h + 1) : e < 254 := by
  have hbinade : Format.single.binade = 2 ^ 23 := rfl
  have hinf : Format.single.infinity = 255 * 2 ^ 23 := rfl
  rw [hbinade] at hkm he
  rw [hinf] at hk
  omega

/-- **The only rank that is missed.** A decimal next to an odd rank that reads back as single precision
does so over double precision, but for one rank. -/
theorem rank_of_nearestRank_ne (hp : 52 ≤ p) (hk : k < Format.single.infinity)
    (hread : Format.single.nearestRank (m * 10 ^ c) (5 ^ Format.single.depth) = k)
    (hnear : k % 2 = 1 →
      2 * Nat.dist (m * 10 ^ c) (exactDigits .single (Format.single.steps k)) ≤ 10 ^ c)
    (hne : Format.single.nearestRank
      (Format.double.steps
        (Format.double.nearestRank (m * 10 ^ c * 2 ^ (p + 1)) (5 ^ Format.single.depth)))
      (2 ^ (p + 1)) ≠ k) : k = 0x15ae43fd := by
  have hfive : 0 < 5 ^ Format.single.depth := Nat.pow_pos (by decide)
  have hwide : 2 * Format.single.binade ≤ Format.double.binade := by decide
  have hround : Format.single.Rounds (m * 10 ^ c * 2 ^ (p + 1))
      (5 ^ Format.single.depth * 2 ^ (p + 1)) k := by
    rw [← Format.nearestRank_eq_iff (Nat.mul_pos hfive (Nat.two_pow_pos _)),
      Format.nearestRank_mul _ _ _ (Nat.two_pow_pos _), hread]
  have hK := Format.double.rounds_nearestRank (m * 10 ^ c * 2 ^ (p + 1)) hfive
  obtain ⟨hodd, hmid⟩ :=
    (Format.nearestRank_nearestRank hwide hfive hround).resolve_left hne
  generalize Format.double.nearestRank (m * 10 ^ c * 2 ^ (p + 1)) (5 ^ Format.single.depth) = K
    at hK hmid
  obtain ⟨e, h, hkm, hh, he, hsteps, hlow, hhigh⟩ :=
    Format.exists_odd_significand (f := .single) rfl hodd
  have hbinade : Format.single.binade = 2 ^ 23 := rfl
  have hbetween := (Format.nearestRank_eq_iff_of_odd hodd hfive).1 hread
  have hnear := hnear hodd
  rw [hlow, hhigh, Nat.mul_assoc, Nat.mul_assoc, ← spacing] at hbetween
  rw [exactDigits, hsteps, Nat.mul_assoc, ← spacing] at hnear
  rw [hlow, hhigh] at hmid
  rw [hbinade] at hh
  have he254 := exponent_lt hk hkm he
  have key (n : Nat) (hn : n = 4 * h + 1 ∨ n = 4 * h + 3)
      (hmid : 2 * Format.double.steps K = n * 2 ^ e * 2 ^ (p + 1)) : e = 42 ∧ n = 22841339 := by
    have hclose := close_of_midpoint hp (by omega) (by omega) hK hmid
    refine eq_of_close he254 (by omega) (by omega) (pow_of_close hn hnear hclose) ?_ hclose
    rcases hn with rfl | rfl
    · exact Nat.ne_of_gt hbetween.1
    · exact Nat.ne_of_lt hbetween.2
  rcases hmid with hmid | hmid
  · have := key _ (.inl rfl) hmid
    omega
  · obtain ⟨rfl, hn⟩ := key _ (.inr rfl) hmid
    rw [hkm, hbinade]
    omega

/-! ## The conversion to single precision -/

/-- The steps of the two formats differ by a power of two. -/
theorem double_one (hp : Format.double.depth = Format.single.depth + (p + 1)) :
    Format.double.one = 2 ^ (p + 1) * Format.single.one := by
  rw [Format.one, Format.one, hp, Nat.pow_add, Nat.mul_comm]

theorem convert_single (hp : Format.double.depth = Format.single.depth + (p + 1)) (s : Bool)
    (hK : K < Format.double.infinity) :
    (ofRank .double s K).convert .single =
      ofRank .single s (Format.single.nearestRank (Format.double.steps K) (2 ^ (p + 1))) := by
  have hone : 0 < Format.single.one := Nat.two_pow_pos _
  rw [ofRank, convert]
  simp only [Nat.min_eq_left (Nat.le_of_lt hK), if_neg (Nat.ne_of_lt hK)]
  rw [round, double_one hp, Format.nearestRank_mul _ _ _ hone]

/-- What is finite as single precision is finite as double precision. -/
theorem nearestRank_lt_infinity (hp : Format.double.depth = Format.single.depth + (p + 1))
    (hk : k < Format.single.infinity)
    (hread : Format.single.nearestRank V (5 ^ Format.single.depth) = k) :
    Format.double.nearestRank (V * 2 ^ (p + 1)) (5 ^ Format.single.depth) <
      Format.double.infinity := by
  have hfive : 0 < 5 ^ Format.single.depth := Nat.pow_pos (by decide)
  have hwide : 2 * Format.single.binade ≤ Format.double.binade := by decide
  have hround := (Format.nearestRank_eq_iff hfive).1 hread
  have hle : 2 * Format.double.steps
      (Format.double.nearestRank (V * 2 ^ (p + 1)) (5 ^ Format.single.depth)) ≤
        Format.single.midpoint k * 2 ^ (p + 1) := by
    refine Format.two_mul_steps_nearestRank_le hwide hfive ?_
    rw [← Nat.mul_assoc, ← Nat.mul_assoc]
    exact Nat.mul_le_mul_right _ hround.le_upper
  have hmid : Format.single.midpoint k < 2 * Format.single.steps Format.single.infinity := by
    have h1 := Format.single.steps_lt_succ k
    have h2 := Format.single.steps_strictMono.monotone (Nat.succ_le_of_lt hk)
    rw [Format.midpoint]
    linarith
  have hinf : Format.single.steps Format.single.infinity * 2 ^ (p + 1) ≤
      Format.double.steps Format.double.infinity := by
    rw [Format.steps_infinity (by decide), Format.steps_infinity (by decide), double_one hp,
      Nat.mul_assoc, Nat.mul_comm Format.single.one]
    exact Nat.mul_le_mul_right _ (Nat.pow_le_pow_right (by decide) (by decide))
  refine Format.double.steps_strictMono.lt_iff_lt.1 ?_
  have := Nat.mul_lt_mul_of_pos_right hmid (Nat.two_pow_pos (p + 1))
  linarith

end

/-- **Over double precision back to single.** The shortest decimal of a single-precision number is
that number again after two roundings, with one exception. -/
theorem convert_shortest_iff (s : Bool) {k : Nat} (hk : k < Format.single.infinity) :
    ((shortest .single s k).toBinary .double).convert .single = ofRank .single s k ↔
      k ≠ 0x15ae43fd := by
  have hp : Format.double.depth = Format.single.depth + (924 + 1) := by decide
  constructor
  · rintro h rfl
    revert h
    cases s <;> decide +kernel
  intro hne
  obtain ⟨m, c, hd, hread, hnear⟩ := exists_shortest (f := .single) (by decide) rfl s hk
  rw [hd, toBinary_eq_round_five (by decide) hp, round, convert_single hp s (nearestRank_lt_infinity hp hk hread),
    ofRank_inj hk]
  exact Classical.not_not.1 fun h =>
    hne (rank_of_nearestRank_ne (by decide) hk hread hnear h)

end KernelFront.Binary
