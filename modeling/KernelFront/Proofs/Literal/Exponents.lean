import KernelFront.Proofs.Literal.Floats
import KernelFront.Proofs.Literal.Stability

/-!
# Malformed exponents

What follows an exponent marker is any literal, so that the text of a float need not be one that
`parse?` takes: `1e0x1F`, `1.5etrue`. The mantissa alone is tried then, as it was written, and a
mantissa goes on after its second point, where its number ends (`cases_points`). With one point at
most the number is the mantissa's, the one that the literal denotes without its exponent; with two of
them the second attempt fails as well and the float is zero (`malformed_exponent_falls_back_iff`).
-/

namespace KernelFront

/-- The digits before the first point. -/
def Literal.wholeDigits (digits : Text) : Text := digits.takeWhile (· ≠ '.')

/-- The digits after the first point, up to a second one. -/
def Literal.fractionDigits (digits : Text) : Text :=
  (digits.dropWhile (· ≠ '.')).tail.takeWhile (· ≠ '.')

/-- The number that a mantissa denotes; it ends at a second point. -/
def Mantissa.number (m : Mantissa) : Decimal :=
  ⟨m.sign.isNegative,
    Numeral.value 10 (Literal.wholeDigits m.digits ++ Literal.fractionDigits m.digits),
    -(Literal.fractionDigits m.digits).length⟩

def Decimal.scale (d : Decimal) (e : Int) : Decimal := ⟨d.negative, d.digits, e + d.exponent⟩

theorem Decimal.scale_zero (d : Decimal) : d.scale 0 = d := by
  rw [scale, Int.zero_add]

/-- A value holds a number as its kind can: a float is the one nearest to the number, and an integer
is the number modulo the width. -/
def Decimal.HeldBy (d : Decimal) : Value → Prop
  | .float p x => x = d.toBinary p.format
  | .int k x => d.exponent = 0 ∧
      x = BitVec.ofInt k.bits (if d.negative then -(d.digits : Int) else d.digits)
  | _ => False

namespace Literal

/-! ## Points -/

theorem run_point (cs : Text) :
    Run (· ≠ '.') (cs.takeWhile (· ≠ '.')) (cs.dropWhile (· ≠ '.')) :=
  (run_takeWhile (fun _ => decide_eq_true_iff) cs).2

/-- Digits with a point among them or without, where more follows only from a second point on. -/
theorem cases_points (digits : Text) :
    (digits = wholeDigits digits ∧ fractionDigits digits = [] ∧
      cutMantissa digits = wholeDigits digits) ∨
    ∃ more, (∀ c ∈ more.head?, c = '.') ∧
      digits = wholeDigits digits ++ '.' :: (fractionDigits digits ++ more) ∧
      cutMantissa digits = wholeDigits digits ++ '.' :: fractionDigits digits := by
  have hpoint (cs : Text) : ∀ c ∈ (cs.dropWhile (· ≠ '.')).head?, c = '.' :=
    fun c hc => Classical.not_not.1 ((run_point cs).maximal c hc)
  have hjoin : digits.takeWhile (· ≠ '.') ++ digits.dropWhile (· ≠ '.') = digits :=
    List.takeWhile_append_dropWhile
  cases hrest : digits.dropWhile (· ≠ '.') with
  | nil =>
    rw [hrest, List.append_nil] at hjoin
    refine .inl ⟨hjoin.symm, ?_, ?_⟩
    · rw [fractionDigits, hrest]
      rfl
    · simp only [cutMantissa, hrest, wholeDigits]
  | cons point rest =>
    obtain rfl : point = '.' := hpoint digits point (by rw [hrest]; rfl)
    have hfraction : fractionDigits digits = rest.takeWhile (· ≠ '.') := by
      rw [fractionDigits, hrest]
      rfl
    refine .inr ⟨rest.dropWhile (· ≠ '.'), hpoint rest, ?_, ?_⟩
    · rw [hfraction, List.takeWhile_append_dropWhile, wholeDigits, ← hrest, hjoin]
    · simp only [cutMantissa, hrest, hfraction, wholeDigits]

section

variable {digits : Text}

theorem decimalDigit_of_mem_takeWhile {cs : Text} (h : ∀ c ∈ cs, MantissaChar c) {c : Char}
    (hc : c ∈ cs.takeWhile (· ≠ '.')) : DecimalDigit c :=
  (h c (List.takeWhile_subset _ hc)).resolve_right ((run_point cs).all c hc)

theorem decimalDigit_of_mem_number (h : ∀ c ∈ digits, MantissaChar c) {c : Char}
    (hc : c ∈ wholeDigits digits ++ fractionDigits digits) : DecimalDigit c := by
  rcases List.mem_append.1 hc with hc | hc
  · exact decimalDigit_of_mem_takeWhile h hc
  · exact decimalDigit_of_mem_takeWhile
      (fun d hd => h d (List.dropWhile_subset _ (List.mem_of_mem_tail hd))) hc

theorem number_ne_nil (h : ∃ c ∈ cutMantissa digits, DecimalDigit c) :
    wholeDigits digits ++ fractionDigits digits ≠ [] := by
  obtain ⟨c, hc, hd⟩ := h
  rcases cases_points digits with ⟨-, -, hcut⟩ | ⟨more, -, -, hcut⟩
  · rw [hcut] at hc
    exact List.ne_nil_of_mem (List.mem_append_left _ hc)
  · rw [hcut] at hc
    rcases List.mem_append.1 hc with hc | hc
    · exact List.ne_nil_of_mem (List.mem_append_left _ hc)
    · have hfraction := (List.mem_cons.1 hc).resolve_left (ne_point_of_decimalDigit hd)
      exact List.ne_nil_of_mem (List.mem_append_right _ hfraction)

theorem count_number (h : ∀ c ∈ digits, MantissaChar c) :
    (wholeDigits digits).count '.' = 0 ∧ (fractionDigits digits).count '.' = 0 := by
  have hcount (cs : Text) (hcs : ∀ c ∈ cs, DecimalDigit c) : cs.count '.' = 0 :=
    List.count_eq_zero.2 fun hc => ne_point_of_decimalDigit (hcs _ hc) rfl
  exact ⟨hcount _ fun c hc => decimalDigit_of_mem_number h (List.mem_append_left _ hc),
    hcount _ fun c hc => decimalDigit_of_mem_number h (List.mem_append_right _ hc)⟩

/-- Only a second point leaves something behind. -/
theorem cases_count (h : ∀ c ∈ digits, MantissaChar c) :
    (digits.count '.' ≤ 1 ∧ cutMantissa digits = digits) ∨
    (1 < digits.count '.' ∧ ∃ more,
      digits = wholeDigits digits ++ '.' :: (fractionDigits digits ++ '.' :: more)) := by
  obtain ⟨hwhole, hfraction⟩ := count_number h
  rcases cases_points digits with ⟨hdigits, -, hcut⟩ | ⟨more, hmore, hdigits, hcut⟩
  · refine .inl ⟨?_, hcut.trans hdigits.symm⟩
    rw [hdigits, hwhole]
    exact Nat.zero_le 1
  · have hcount : digits.count '.' = 1 + more.count '.' := by
      rw [hdigits]
      simp [hwhole, hfraction, Nat.add_comm]
    cases more with
    | nil =>
      rw [List.append_nil, ← hcut] at hdigits
      exact .inl ⟨Nat.le_of_eq hcount, hdigits.symm⟩
    | cons c more =>
      obtain rfl : c = '.' := hmore c rfl
      refine .inr ⟨?_, more, hdigits⟩
      rw [hcount, List.count_cons_self]
      omega

end

/-! ## Exponents -/

/-- An integer as an exponent has it: digits after one sign at most. -/
inductive SignedDigits : Text → Prop where
  | intro {sign digits : Text} : sign ∈ [[], ['+'], ['-']] → digits ≠ [] →
      (∀ c ∈ digits, DecimalDigit c) → SignedDigits (sign ++ digits)

theorem readSign_append {sign digits : Text} (hsign : sign ∈ [[], ['+'], ['-']])
    (hdigits : ∀ c ∈ digits.head?, ¬ SignChar c) :
    (Decimal.readSign (sign ++ digits)).2 = digits := by
  simp only [List.mem_cons, List.not_mem_nil, or_false] at hsign
  rcases hsign with rfl | rfl | rfl
  · exact congrArg Prod.snd (readSign_floatSign false hdigits)
  · rfl
  · rfl

theorem exists_sign (e : Text) :
    ∃ sign ∈ [[], ['+'], ['-']], e = sign ++ (Decimal.readSign e).2 := by
  unfold Decimal.readSign
  split
  · exact ⟨['-'], by decide, rfl⟩
  · exact ⟨['+'], by decide, rfl⟩
  · exact ⟨[], by decide, rfl⟩

theorem signedDigits_iff {e : Text} :
    SignedDigits e ↔
      (Decimal.readSign e).2 ≠ [] ∧ ∀ c ∈ (Decimal.readSign e).2, DecimalDigit c := by
  constructor
  · rintro ⟨hsign, hne, hdigits⟩
    rw [readSign_append hsign fun c hc =>
      not_signChar_of_decimalDigit (hdigits c (List.mem_of_mem_head? hc))]
    exact ⟨hne, hdigits⟩
  · rintro ⟨hne, hdigits⟩
    obtain ⟨sign, hsign, he⟩ := exists_sign e
    rw [he]
    exact .intro hsign hne hdigits

/-- An exponent is read just where it is an integer. -/
theorem readExponent_eq_none_iff {e : Text} :
    Decimal.readExponent ('e' :: e) = none ↔ ¬ SignedDigits e := by
  have hall (digits : Text) :
      digits.all (Numeral.isDigit 10) = true ↔ ∀ c ∈ digits, DecimalDigit c := by
    simp only [List.all_eq_true, isDigit_ten_iff]
  have hread : Decimal.readExponent ('e' :: e) = none ↔
      Decimal.readExponentDigits (Decimal.readSign e).2 = none := by
    cases h : Decimal.readExponentDigits (Decimal.readSign e).2 <;> simp [Decimal.readExponent, h]
  rw [hread, signedDigits_iff, ← hall, Decimal.readExponentDigits]
  split
  · rename_i h
    exact iff_of_false (Option.some_ne_none _) (not_not_intro h)
  · rename_i h
    exact iff_of_true rfl h

/-! ## Parsing -/

section

variable {m : Mantissa} (hm : ∀ c ∈ m.digits, MantissaChar c)
  (hd : ∃ c ∈ cutMantissa m.digits, DecimalDigit c)

include hm hd

/-- The mantissa up to its second point is parsed as its number, scaled by the exponent. -/
theorem parse?_cutMantissa {rest : Text} (hrest : ∀ c ∈ rest.head?, ¬ MantissaChar c) :
    Decimal.parse? (floatSign m.sign.isNegative ++ (cutMantissa m.digits ++ rest)) =
      (Decimal.readExponent rest).map m.number.scale := by
  have hdigits : ∀ c ∈ wholeDigits m.digits ++ fractionDigits m.digits, DecimalDigit c :=
    fun c => decimalDigit_of_mem_number hm
  have hne := number_ne_nil hd
  rcases cases_points m.digits with ⟨-, hfraction, hcut⟩ | ⟨more, -, -, hcut⟩
  · rw [hfraction, List.append_nil] at hdigits hne
    rw [hcut, FloatText.parse?_whole _ hdigits hne hrest]
    refine congrArg (Option.map · _) (funext fun e => ?_)
    simp [Decimal.scale, Mantissa.number, hfraction]
  · rw [hcut, List.append_assoc]
    exact FloatText.parse?_point _ hdigits hne fun c hc hd => hrest c hc (.inl hd)

theorem parse?_cutMantissa_alone :
    Decimal.parse? (floatSign m.sign.isNegative ++ cutMantissa m.digits) = some m.number := by
  have hend : ∀ c ∈ ([] : Text).head?, ¬ MantissaChar c := nofun
  have h := parse?_cutMantissa hm hd hend
  rwa [List.append_nil, Decimal.readExponent, Option.map_some, Decimal.scale_zero] at h

/-- The mantissa as it was written is parsed only if it ends before a second point. -/
theorem parse?_mantissa : Decimal.parse? (floatSign m.sign.isNegative ++ m.digits) =
    if m.digits.count '.' ≤ 1 then some m.number else none := by
  rcases cases_count hm with ⟨hcount, hcut⟩ | ⟨hcount, more, hdigits⟩
  · have h := parse?_cutMantissa_alone hm hd
    rw [hcut] at h
    rw [h, if_pos hcount]
  · have hmore : ∀ c ∈ ('.' :: more).head?, ¬ DecimalDigit c := by
      intro c hc
      cases hc
      decide
    have h := FloatText.parse?_point m.sign.isNegative (fun c => decimalDigit_of_mem_number hm)
      (number_ne_nil hd) hmore
    rw [← hdigits] at h
    rw [h, if_neg (Nat.not_le.2 hcount)]
    rfl

/-- Without an exponent, a float is the number of its mantissa. -/
theorem floatValue_nil (p : Precision) :
    floatValue p m [] = .float p (m.number.toBinary p.format) := by
  have h : Decimal.parse? (floatChars m []) = some m.number := by
    rw [← parse?_cutMantissa_alone hm hd]
    simp [floatChars, exponentDigits]
  simp [floatValue, h]

/-- With an exponent that is no integer, a second point costs the number. -/
theorem floatValue_malformed (p : Precision) {exponent : Text}
    (he : exponentDigits exponent ≠ []) (hs : ¬ SignedDigits (exponentDigits exponent)) :
    floatValue p m exponent = .float p (if m.digits.count '.' ≤ 1 then m.number.toBinary p.format
      else Binary.zero p.format false) := by
  have hmarker : ∀ c ∈ ('e' :: exponentDigits exponent).head?, ¬ MantissaChar c := by
    intro c hc
    cases hc
    decide
  have h : Decimal.parse? (floatChars m exponent) = none := by
    have h := parse?_cutMantissa hm hd hmarker
    rw [readExponent_eq_none_iff.2 hs] at h
    simpa [floatChars, he] using h
  by_cases hcount : m.digits.count '.' ≤ 1
  · simp [floatValue, h, parse?_mantissa hm hd, hcount]
  · simp [floatValue, h, parse?_mantissa hm hd, hcount]

end

/-! ## The literal without its exponent -/

section

variable {signs : Bool} {cs rest : Text} {m : Mantissa}

theorem heldBy_plain (hm : ∀ c ∈ m.digits, MantissaChar c)
    (hd : ∃ c ∈ cutMantissa m.digits, DecimalDigit c) : m.number.HeldBy (plain m).value := by
  unfold value decimalValue
  split
  · rw [floatValue_nil hm hd]
    rfl
  · rename_i h
    have hpoint : '.' ∉ m.digits := fun hmem => h (.inl hmem)
    rcases cases_points m.digits with ⟨hwhole, hfraction, -⟩ | ⟨more, -, hdigits, -⟩
    · have hnumber : m.number = ⟨m.sign.isNegative, Numeral.value 10 m.digits, 0⟩ := by
        rw [Mantissa.number, hfraction, List.append_nil, ← hwhole]
        rfl
      rw [hnumber]
      exact ⟨rfl, rfl⟩
    · refine absurd ?_ hpoint
      rw [hdigits]
      exact List.mem_append_right _ List.mem_cons_self

/-! ## Main result -/

variable {upper : Bool} {exponent : Literal} {p : Precision} {x : Binary p.format}

theorem eq_of_value_scaled (hm : ∀ c ∈ m.digits, MantissaChar c)
    (hd : ∃ c ∈ cutMantissa m.digits, DecimalDigit c)
    (he : exponentDigits exponent.chars ≠ [])
    (hs : ¬ SignedDigits (exponentDigits exponent.chars))
    (hv : (scaled m upper exponent).value = .float p x) :
    x = if m.digits.count '.' ≤ 1 then m.number.toBinary p.format
      else Binary.zero p.format false := by
  change decimalValue exponent.value.kind.isFloat m exponent.chars = .float p x at hv
  by_cases hfloat : '.' ∈ m.digits ∨ exponent.value.kind.isFloat = true
  · rw [decimalValue, if_pos hfloat, floatValue_malformed hm hd _ he hs] at hv
    cases hv
    rfl
  · rw [decimalValue, if_neg hfloat] at hv
    cases congrArg Value.kind hv

/-- **A malformed exponent falls back to the mantissa alone, unless that has a second point.** The
literal without its exponent denotes the number of the mantissa. The literal with an exponent that is
no integer denotes the same number as long as one point at most is written; otherwise it is zero. -/
theorem malformed_exponent_falls_back_iff (h : Reads signs cs (.scaled m upper exponent) rest)
    (hv : Value.read? signs cs = some (.float p x, rest))
    (he : exponentDigits exponent.chars ≠ [])
    (hs : ¬ SignedDigits (exponentDigits exponent.chars))
    (hd : ∃ c ∈ cutMantissa m.digits, DecimalDigit c) :
    (∃ v, Value.read? signs m.chars = some (v, []) ∧ m.number.HeldBy v) ∧
      (x = m.number.toBinary p.format ↔ m.digits.count '.' ≤ 1 ∨
        m.number.toBinary p.format = Binary.zero p.format false) ∧
      (1 < m.digits.count '.' → x = Binary.zero p.format false) := by
  have hvalue : (scaled m upper exponent).value = .float p x := by
    rw [Value.read?_of_reads h] at hv
    exact congrArg Prod.fst (Option.some.inj hv)
  obtain ⟨after, hdecimal⟩ : ∃ after, ReadsMantissa signs m cs after := by
    cases h with
    | scaled hdecimal _ => exact ⟨_, hdecimal⟩
  have hm : ∀ c ∈ m.digits, MantissaChar c := by
    obtain ⟨-, -, hrun, -, -⟩ := hdecimal
    exact hrun.all
  have hx := eq_of_value_scaled hm hd he hs hvalue
  refine ⟨⟨_, Value.read?_of_reads (reads_plain hdecimal), heldBy_plain hm hd⟩, ?_⟩
  by_cases hcount : m.digits.count '.' ≤ 1
  · rw [if_pos hcount] at hx
    exact ⟨iff_of_true hx (.inl hcount), fun hmany => absurd hcount (Nat.not_le.2 hmany)⟩
  · rw [if_neg hcount] at hx
    refine ⟨?_, fun _ => hx⟩
    rw [or_iff_right hcount, hx]
    exact eq_comm

/-- The exponent of `-1e2e3f` is the float `2e3f`, so that the number is a single; `2e3` is no integer,
and what is left is the minus and the `1`, an integer by itself. -/
theorem malformed_exponent_falls_back_iff_nested :
    Reads true "-1e2e3f".toList (.scaled ⟨.given true [], ['1'], []⟩ false
        (.scaled ⟨.absent, ['2'], []⟩ false (.plain ⟨.absent, ['3'], ['f']⟩))) [] ∧
      Value.read? true "-1e2e3f".toList = some (.float .single (.ofBits _ 0xbf800000), []) ∧
      exponentDigits "2e3f".toList = "2e3".toList ∧ ¬ SignedDigits "2e3".toList ∧
      (∃ v, Value.read? true "-1".toList = some (v, []) ∧ Decimal.HeldBy ⟨true, 1, 0⟩ v) ∧
      Binary.ofBits Precision.single.format 0xbf800000 = Decimal.toBinary _ ⟨true, 1, 0⟩ := by
  have hreads : Reads true "-1e2e3f".toList (.scaled ⟨.given true [], ['1'], []⟩ false
      (.scaled ⟨.absent, ['2'], []⟩ false (.plain ⟨.absent, ['3'], ['f']⟩))) [] :=
    reads_of_read? (by decide +kernel)
  have hv : Value.read? true "-1e2e3f".toList = some (.float .single (.ofBits _ 0xbf800000), []) := by
    decide +kernel
  have hs : ¬ SignedDigits "2e3".toList := readExponent_eq_none_iff.1 (by decide +kernel)
  have h := malformed_exponent_falls_back_iff hreads hv (by decide +kernel) hs
    ⟨'1', by decide +kernel, by decide⟩
  exact ⟨hreads, hv, by decide +kernel, hs, h.1, h.2.1.2 (.inl (by decide))⟩

/-- The number of `1.5.2etrue` is the one of `1.5.2`, which is `1.5`, but its value is zero. -/
theorem malformed_exponent_falls_back_fails :
    Reads true "1.5.2etrue".toList (.scaled ⟨.absent, "1.5.2".toList, []⟩ false (.keyword true)) [] ∧
      exponentDigits (keyword true).chars ≠ [] ∧
      ¬ SignedDigits (exponentDigits (keyword true).chars) ∧
      (∃ c ∈ cutMantissa "1.5.2".toList, DecimalDigit c) ∧
      Mantissa.number ⟨.absent, "1.5.2".toList, []⟩ = ⟨false, 15, -1⟩ ∧
      Value.read? true "1.5.2".toList =
        some (.float .double (Decimal.toBinary _ ⟨false, 15, -1⟩), []) ∧
      Value.read? true "1.5.2etrue".toList = some (.float .double (.zero _ false), []) ∧
      Binary.zero Precision.double.format false ≠ Decimal.toBinary _ ⟨false, 15, -1⟩ :=
  ⟨reads_of_read? (by decide +kernel), by decide, readExponent_eq_none_iff.1 (by decide +kernel),
    ⟨'1', by decide +kernel, by decide⟩, by decide +kernel, by decide +kernel, by decide +kernel,
    by decide +kernel⟩

end

end Literal

end KernelFront
