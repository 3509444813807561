import KernelFront.Proofs.Binary.Shortest
import KernelFront.Proofs.Literal.Floats
import KernelFront.Value.Text

/-!
# The forms of a finite float

A finite float spells itself as a `FiniteText`: digits with a point among them, or one digit, maybe a
point and more digits, and an exponent. `withFraction` writes the point that may be missing in the second
form, so that a `FloatText` comes out in any case (`withFraction_chars`), and the number is the same
(`toRat_completed`): that of the shortest decimal, in positional and in exponent notation
(`Binary.exists_finiteText`).
-/

namespace KernelFront

open scoped Numeral

/-! ## Zeros -/

namespace Numeral

theorem value_replicate_append (a : Nat) (cs : List Char) :
    value 10 (List.replicate a '0' ++ cs) = value 10 cs := by
  induction a with
  | zero => rfl
  | succ a ih => exact ih

theorem value_append_replicate (cs : List Char) (b : Nat) :
    value 10 (cs ++ List.replicate b '0') = value 10 cs * 10 ^ b := by
  have hzero : value 10 (List.replicate b '0') = 0 := by
    have h := value_replicate_append b []
    rwa [List.append_nil] at h
  rw [value_append, hzero, List.length_replicate, Nat.add_zero, Nat.mul_comm]

end Numeral

theorem digit_of_mem_replicate {n : Nat} {c : Char} (hc : c ∈ List.replicate n '0') :
    Literal.DecimalDigit c := by
  rw [(List.mem_replicate.1 hc).2]
  decide

namespace Binary

/-! ## Inserting a fraction -/

theorem withFraction_of_not_mem {cs : List Char} (h : 'e' ∉ cs) : withFraction cs = cs := by
  have hrun : Run (· ≠ 'e') cs [] := ⟨fun c hc he => h (he ▸ hc), nofun⟩
  have hdrop := ((run_iff fun _ => decide_eq_true_iff).2 ⟨(List.append_nil cs).symm, hrun⟩).2
  simp only [withFraction, hdrop]
  exact if_neg fun h => h.1 rfl

theorem withFraction_append {mantissa : List Char} (h : 'e' ∉ mantissa) (exponent : List Char) :
    withFraction (mantissa ++ 'e' :: exponent) =
      (if '.' ∈ mantissa then mantissa else mantissa ++ ['.', '0']) ++ 'e' :: exponent := by
  have hrun : Run (· ≠ 'e') mantissa ('e' :: exponent) :=
    ⟨fun c hc he => h (he ▸ hc), fun c hc hne => hne (Option.some.inj hc).symm⟩
  obtain ⟨htake, hdrop⟩ := (run_iff fun _ => decide_eq_true_iff).2 ⟨rfl, hrun⟩
  simp only [withFraction, htake, hdrop]
  by_cases hpoint : '.' ∈ mantissa
  · rw [if_pos hpoint, if_neg fun h => h.2 hpoint]
  · rw [if_neg hpoint, if_pos ⟨nofun, hpoint⟩]

end Binary

/-- Digits with a point, or an exponent after one digit and maybe a point with more of them. -/
structure FiniteText where
  negative : Bool
  whole : Text
  /-- The digits after the point; without them there is no point. -/
  fraction : Text
  exponent : Option ExponentText
  digits : ∀ c ∈ whole ++ fraction, Literal.DecimalDigit c
  whole_ne : whole ≠ []
  point : exponent = none → fraction ≠ []
  leading : exponent ≠ none → whole.length = 1

namespace FiniteText

open Literal (DecimalDigit MantissaChar floatSign)

/-- The text up to the exponent. -/
def mantissaChars (t : FiniteText) : Text :=
  floatSign t.negative ++ (t.whole ++ if t.fraction = [] then [] else '.' :: t.fraction)

def chars (t : FiniteText) : Text := t.mantissaChars ++ FloatText.exponentChars t.exponent

/-- The number that the text spells. -/
def decimal (t : FiniteText) : Decimal :=
  ⟨t.negative, Numeral.value 10 (t.whole ++ t.fraction),
    t.exponent.elim 0 ExponentText.toInt - t.fraction.length⟩

/-- The text with a fraction, which is zero if there was none. -/
def completed (t : FiniteText) : FloatText where
  negative := t.negative
  whole := t.whole
  fraction := if t.fraction = [] then ['0'] else t.fraction
  exponent := t.exponent
  digits := by
    intro c hc
    split at hc
    · rcases List.mem_append.1 hc with hc | hc
      · exact t.digits c (List.mem_append_left _ hc)
      · obtain rfl := List.mem_singleton.1 hc
        decide
    · exact t.digits c hc
  whole_ne := t.whole_ne

variable (t : FiniteText)

/-! ## Characters -/

theorem digit_of_mem_whole {c : Char} (hc : c ∈ t.whole) : DecimalDigit c :=
  t.digits c (List.mem_append_left _ hc)

theorem mem_mantissaChars {c : Char} (hc : c ∈ t.mantissaChars) :
    c = '-' ∨ DecimalDigit c ∨ (c = '.' ∧ t.fraction ≠ []) := by
  rcases List.mem_append.1 hc with hc | hc
  · unfold floatSign at hc
    split at hc
    · exact .inl (List.mem_singleton.1 hc)
    · cases hc
  rcases List.mem_append.1 hc with hc | hc
  · exact .inr (.inl (t.digit_of_mem_whole hc))
  split at hc
  · cases hc
  · rename_i hne
    rcases List.mem_cons.1 hc with rfl | hc
    · exact .inr (.inr ⟨rfl, hne⟩)
    · exact .inr (.inl (t.digits c (List.mem_append_right _ hc)))

theorem exponent_not_mem : 'e' ∉ t.mantissaChars := by
  intro he
  rcases t.mem_mantissaChars he with he | he | ⟨he, -⟩
  · exact absurd he (by decide)
  · exact absurd he (by decide)
  · exact absurd he (by decide)

theorem point_mem_iff : '.' ∈ t.mantissaChars ↔ t.fraction ≠ [] := by
  constructor
  · intro hc
    rcases t.mem_mantissaChars hc with hc | hc | ⟨-, hne⟩
    · exact absurd hc (by decide)
    · exact absurd hc (by decide)
    · exact hne
  · intro hne
    simp [mantissaChars, hne]

/-! ## Completing -/

theorem withFraction_chars : Binary.withFraction t.chars = t.completed.chars := by
  unfold chars FloatText.chars FloatText.body completed
  cases he : t.exponent with
  | none =>
    rw [FloatText.exponentChars, List.append_nil, Binary.withFraction_of_not_mem t.exponent_not_mem]
    simp [mantissaChars, t.point he]
  | some e =>
    rw [FloatText.exponentChars, Binary.withFraction_append t.exponent_not_mem]
    by_cases hf : t.fraction = []
    · rw [if_neg fun h => t.point_mem_iff.1 h hf]
      simp [mantissaChars, hf]
    · rw [if_pos (t.point_mem_iff.2 hf)]
      simp [mantissaChars, hf]

/-- A zero after the point is a digit more and a power of ten less. -/
theorem toRat_completed : t.completed.decimal.toRat = t.decimal.toRat := by
  by_cases hf : t.fraction = []
  · have hvalue : Numeral.value 10 (t.whole ++ ['0']) = Numeral.value 10 t.whole * 10 ^ 1 :=
      Numeral.value_append_replicate t.whole 1
    simp only [FloatText.decimal, decimal, completed, hf, if_true, List.append_nil, hvalue,
      Decimal.toRat_mul_pow, List.length_singleton, List.length_nil]
    congr 2
    omega
  · simp only [FloatText.decimal, decimal, completed, hf, if_false]

/-- The text is a decimal as it stands, also without a point. -/
theorem parse?_chars : Decimal.parse? t.chars = some t.decimal := by
  have hend : ∀ c ∈ (FloatText.exponentChars t.exponent).head?, ¬ MantissaChar c :=
    fun c hc => (FloatText.not_digit_of_head_exponentChars hc).1
  rw [chars, mantissaChars, List.append_assoc, List.append_assoc]
  by_cases hf : t.fraction = []
  · rw [if_pos hf, List.nil_append,
      FloatText.parse?_whole _ (fun c => t.digit_of_mem_whole) t.whole_ne hend,
      FloatText.readExponent_exponentChars]
    simp [decimal, hf]
  · have hne : t.whole ++ t.fraction ≠ [] := List.append_ne_nil_of_left_ne_nil t.whole_ne _
    rw [if_neg hf, List.cons_append,
      FloatText.parse?_point _ t.digits hne fun c hc hd => hend c hc (.inl hd),
      FloatText.readExponent_exponentChars]
    rfl

/-- Zeros around the significant digits do not count, if the exponent goes with those at the end. -/
theorem toRat_of_digits {t : FiniteText} {d : Decimal} {ds : Text} {z a b : Nat}
    (hd : d.digits = Numeral.value 10 ds * 10 ^ z)
    (ht : t.whole ++ t.fraction = List.replicate a '0' ++ ds ++ List.replicate b '0')
    (he : t.exponent.elim 0 ExponentText.toInt - t.fraction.length + b = d.exponent + z) :
    t.decimal.toRat = (Decimal.mk t.negative d.digits d.exponent).toRat := by
  have hvalue : Numeral.value 10 (t.whole ++ t.fraction) = Numeral.value 10 ds * 10 ^ b := by
    rw [ht, List.append_assoc, Numeral.value_replicate_append, Numeral.value_append_replicate]
  rw [decimal, hvalue, hd, Decimal.toRat_mul_pow, Decimal.toRat_mul_pow, he]

end FiniteText

open Literal (DecimalDigit floatSign)

/-! ## The text of a decimal -/

namespace Decimal

/-- The digits of a number are the significant ones and zeros. -/
theorem exists_significant {d : Decimal} (hd : d.digits ≠ 0) :
    ∃ ds z, d.significant = (ds, d.exponent + (ds.length + z : Nat)) ∧ ds ≠ [] ∧
      (∀ c ∈ ds, DecimalDigit c) ∧ d.digits = Numeral.value 10 ds * 10 ^ z := by
  generalize hw : Numeral.decimal d.digits = w
  generalize hds : (w.reverse.dropWhile (· = '0')).reverse = ds
  have hzeros : w.reverse.takeWhile (· = '0') =
      List.replicate (w.reverse.takeWhile (· = '0')).length '0' :=
    List.eq_replicate_of_mem fun c hc =>
      of_decide_eq_true (List.all_eq_true.1 List.all_takeWhile c hc)
  generalize (w.reverse.takeWhile (· = '0')).length = z at hzeros
  have hsplit : w = ds ++ List.replicate z '0' := by
    rw [← hds, ← List.reverse_replicate, ← hzeros, ← List.reverse_append,
      List.takeWhile_append_dropWhile, List.reverse_reverse]
  have hvalue : d.digits = Numeral.value 10 ds * 10 ^ z := by
    rw [← Numeral.value_decimal d.digits, hw, hsplit, Numeral.value_append_replicate]
  refine ⟨ds, z, ?_, ?_, fun c hc => ?_, hvalue⟩
  · simp only [significant, hw, hds]
    rw [hsplit, List.length_append, List.length_replicate]
  · rintro rfl
    rw [Numeral.value_nil, Nat.zero_mul] at hvalue
    exact hd hvalue
  · refine Literal.decimalDigit_of_mem_decimal (n := d.digits) ?_
    rw [hw, hsplit]
    exact List.mem_append_left _ hc

/-- Positional notation puts the point among the digits, after zeros in front of them or at their
end. -/
theorem exists_positional {ds : List Char} (hds : ds ≠ []) (point : Int) :
    ∃ whole fraction a b, positional ds point = whole ++ '.' :: fraction ∧ whole ≠ [] ∧
      fraction ≠ [] ∧ whole ++ fraction = List.replicate a '0' ++ ds ++ List.replicate b '0' ∧
      (b : Int) - fraction.length = point - ds.length := by
  unfold positional
  split
  · rename_i hpoint
    refine ⟨['0'], List.replicate (-point).toNat '0' ++ ds, (-point).toNat + 1, 0, by simp, nofun,
      List.append_ne_nil_of_right_ne_nil _ hds, by simp [List.replicate_succ], ?_⟩
    rw [List.length_append, List.length_replicate]
    omega
  rename_i hpoint
  have hpos : 0 < ds.length := List.length_pos_iff.2 hds
  simp only
  rcases Nat.lt_or_ge point.toNat ds.length with hlt | hge
  · have hdrop : ds.drop point.toNat ≠ [] := by
      rw [Ne, List.drop_eq_nil_iff]
      omega
    have htake : ds.take point.toNat ≠ [] :=
      fun h => (List.take_eq_nil_iff.1 h).elim (by omega) hds
    rw [if_neg hdrop, Nat.sub_eq_zero_of_le (Nat.le_of_lt hlt)]
    refine ⟨ds.take point.toNat, ds.drop point.toNat, 0, 0, by simp, htake, hdrop, by simp, ?_⟩
    rw [List.length_drop]
    omega
  · rw [List.drop_eq_nil_of_le hge, List.take_of_length_le hge, if_pos rfl]
    refine ⟨ds ++ List.replicate (point.toNat - ds.length) '0', ['0'], 0,
      point.toNat - ds.length + 1, by simp, by simp [hds], nofun, by simp [List.replicate_succ'], ?_⟩
    rw [List.length_singleton]
    omega

/-- **A decimal spells itself in one of the forms**, in positional and in exponent notation. -/
theorem exists_finiteText {d : Decimal} (hd : d.digits ≠ 0) (s : Bool) :
    ∃ t : FiniteText, t.negative = s ∧ floatSign s ++ d.text = t.chars ∧
      t.decimal.toRat = (Decimal.mk s d.digits d.exponent).toRat := by
  obtain ⟨ds, z, hsig, hds, hdigit, hvalue⟩ := exists_significant hd
  have hmem {a b : Nat} {c : Char}
      (hc : c ∈ List.replicate a '0' ++ ds ++ List.replicate b '0') : DecimalDigit c := by
    rcases List.mem_append.1 hc with hc | hc
    · exact (List.mem_append.1 hc).elim digit_of_mem_replicate (hdigit c)
    · exact digit_of_mem_replicate hc
  rw [text, if_neg hd]
  simp only [hsig]
  split
  · obtain ⟨whole, fraction, a, b, htext, hwhole, hfraction, hparts, hlen⟩ :=
      exists_positional hds (d.exponent + (ds.length + z : Nat))
    let t : FiniteText := ⟨s, whole, fraction, none, fun c hc => hmem (hparts ▸ hc), hwhole,
      fun _ => hfraction, fun h => absurd rfl h⟩
    refine ⟨t, rfl, ?_, FiniteText.toRat_of_digits (t := t) hvalue hparts ?_⟩
    · rw [htext]
      simp [t, FiniteText.chars, FiniteText.mantissaChars, FloatText.exponentChars, hfraction]
    · show 0 - (fraction.length : Int) + b = d.exponent + z
      omega
  · have hpos : 0 < ds.length := List.length_pos_iff.2 hds
    have hdrop : ds.length ≤ 1 ↔ ds.drop 1 = [] := List.drop_eq_nil_iff.symm
    have hparts : ds.take 1 ++ ds.drop 1 = ds := List.take_append_drop 1 ds
    let t : FiniteText := ⟨s, ds.take 1, ds.drop 1,
      some (.ofInt (d.exponent + (ds.length + z : Nat) - 1)), fun c hc => hdigit c (hparts ▸ hc),
      fun h => (List.take_eq_nil_iff.1 h).elim (by decide) hds,
      fun h => absurd h (Option.some_ne_none _),
      fun _ => by rw [List.length_take]; omega⟩
    refine ⟨t, rfl, ?_, FiniteText.toRat_of_digits (t := t) (a := 0) (b := 0) hvalue ?_ ?_⟩
    · simp [t, FiniteText.chars, FiniteText.mantissaChars, FloatText.exponentChars, scientific, hdrop,
        ExponentText.chars_ofInt]
    · rw [List.replicate_zero, List.nil_append, List.append_nil]
      exact hparts
    · show (ExponentText.ofInt _).toInt - ((ds.drop 1).length : Int) + (0 : Nat) = d.exponent + z
      rw [ExponentText.toInt_ofInt, List.length_drop]
      omega

theorem toRat_eq_zero {d : Decimal} (h : d.digits = 0) : d.toRat = 0 := by
  rw [toRat, h]
  cases d.negative <;> exact Rat.zero_mul _

end Decimal

/-! ## The text of a float -/

namespace Binary

variable {f : Format}

theorem digits_shortest_ne_zero (hf : 2 ≤ f.exponentBits) (hb : f.binade % 2 = 0) (s : Bool) {k : Nat}
    (hk : k < f.infinity) (hk0 : k ≠ 0) : (shortest f s k).digits ≠ 0 := by
  obtain ⟨m, c, hd, hread, -⟩ := exists_shortest hf hb s hk
  rw [hd]
  rintro rfl
  rw [Nat.zero_mul, Format.nearestRank_zero (Nat.pow_pos (by decide))] at hread
  exact hk0 hread.symm

theorem digits_shortest_zero (s : Bool) : (shortest f s 0).digits = 0 := by
  rw [shortest, f.steps_zero, exactDigits, Nat.zero_mul]
  rfl

/-- **The text of a finite number is in one of the forms** and spells its shortest decimal. -/
theorem exists_finiteText (hf : 2 ≤ f.exponentBits) (hb : f.binade % 2 = 0) (s : Bool)
    (k : Fin (f.infinity + 1)) (hk : k < f.infinity) :
    ∃ t : FiniteText, text (.number s k) = t.chars ∧ t.negative = s ∧
      t.decimal.toRat = (shortest f s k).toRat := by
  have hsign : (if s then ['-'] else []) = floatSign s := rfl
  rw [text, hsign, if_neg (Nat.ne_of_lt hk)]
  by_cases hk0 : (k : Nat) = 0
  · rw [if_pos hk0, hk0]
    refine ⟨⟨s, ['0'], ['0'], none, fun c hc => digit_of_mem_replicate (n := 2) hc, nofun, nofun,
      fun h => absurd rfl h⟩, by cases s <;> rfl, rfl, ?_⟩
    rw [Decimal.toRat_eq_zero rfl, Decimal.toRat_eq_zero (digits_shortest_zero s)]
  · rw [if_neg hk0]
    obtain ⟨t, hs, ht, hrat⟩ :=
      Decimal.exists_finiteText (digits_shortest_ne_zero hf hb false hk hk0) s
    exact ⟨t, ht, hs, hrat⟩

end Binary

namespace Value

/-- The text of a finite float reads as the double nearest to its shortest decimal. -/
theorem read?_text_float (p : Precision) (s : Bool) (k : Fin (p.format.infinity + 1))
    (hk : k < p.format.infinity) :
    read? true (float p (.number s k)).text.toList =
      some (.float .double ((Binary.shortest p.format s k).toBinary .double), []) := by
  have hf : 2 ≤ p.format.exponentBits := by cases p <;> decide
  have hb : p.format.binade % 2 = 0 := by cases p <;> rfl
  obtain ⟨t, ht, hs, hrat⟩ := Binary.exists_finiteText hf hb s k hk
  have hfloat : t.completed.decimal.toBinary .double =
      (Binary.shortest p.format s k).toBinary .double :=
    Decimal.toBinary_congr (by decide) hs (t.toRat_completed.trans hrat)
  rw [toList_text, chars, ht, t.withFraction_chars, t.completed.read?_chars, hfloat]

end Value

end KernelFront
