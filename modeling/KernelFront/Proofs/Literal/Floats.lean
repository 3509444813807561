import Mathlib.Data.List.TakeDrop
import KernelFront.Proofs.Literal.Printing

/-!
# Float texts

A `FloatText` is what a float is printed as: digits, a point, digits, and maybe an exponent. Such a
text is one literal, and it denotes the double nearest to the decimal number that it spells
(`read?_chars`). Nothing of it is lost on the way: it has no blanks, no suffix letters and one point,
so that `floatChars` gives the text itself and `parse?` takes it whole. The exponent is a literal of its
own, an integer (`ExponentText.reads_chars`), so that it does not make a single of the number.
-/

namespace KernelFront

namespace Literal

theorem not_decimalDigit_of_suffixLetter {c : Char} (hc : SuffixLetter c) : ¬ DecimalDigit c := by
  simp only [SuffixLetter, List.mem_cons, List.not_mem_nil, or_false] at hc
  rcases hc with rfl | rfl | rfl | rfl | rfl | rfl <;> decide

theorem ne_point_of_decimalDigit {c : Char} (h : DecimalDigit c) : c ≠ '.' := by
  rintro rfl
  revert h
  decide

/-- What was written after the exponent marker. -/
def exponentText : Literal → Text
  | scaled _ _ exponent => exponent.chars
  | _ => []

/-- The digits before a point. -/
theorem split_point {digits rest : Text} (h : ∀ c ∈ digits, DecimalDigit c)
    (hrest : ∀ c ∈ rest.head?, c = '.') :
    (digits ++ rest).takeWhile (· ≠ '.') = digits ∧
      (digits ++ rest).dropWhile (· ≠ '.') = rest :=
  (run_iff fun _ => decide_eq_true_iff).2
    ⟨rfl, fun c hc => ne_point_of_decimalDigit (h c hc), fun c hc hne => hne (hrest c hc)⟩

theorem readSign_floatSign (negative : Bool) {body : Text} (h : ∀ c ∈ body.head?, ¬ SignChar c) :
    Decimal.readSign (floatSign negative ++ body) = (negative, body) := by
  cases negative with
  | true => rfl
  | false =>
    show Decimal.readSign body = _
    unfold Decimal.readSign
    split
    · exact absurd (.inr rfl) (h _ rfl)
    · exact absurd (.inl rfl) (h _ rfl)
    · rfl

end Literal

/-! ## Exponents -/

/-- The exponent of a float: digits, and maybe a minus in front of them. -/
structure ExponentText where
  negative : Bool
  digits : Text
  ne_nil : digits ≠ []
  digit : ∀ c ∈ digits, Literal.DecimalDigit c

namespace ExponentText

open Literal

variable (e : ExponentText)

def chars : Text := floatSign e.negative ++ e.digits

def toInt : Int := if e.negative then -(Numeral.value 10 e.digits : Int) else Numeral.value 10 e.digits

def literal : Literal := .plain ⟨minus e.negative, e.digits, []⟩

theorem chars_literal : e.literal.chars = e.chars := by
  simp [literal, Literal.chars, Mantissa.chars, chars_minus, chars]

theorem chars_ne_nil : e.chars ≠ [] := List.append_ne_nil_of_right_ne_nil _ e.ne_nil

theorem mem_chars {c : Char} (hc : c ∈ e.chars) : c = '-' ∨ DecimalDigit c := by
  rcases List.mem_append.1 hc with hc | hc
  · unfold floatSign at hc
    split at hc
    · exact .inl (List.mem_singleton.1 hc)
    · cases hc
  · exact .inr (e.digit c hc)

theorem integerText : IntegerText e.digits [] [] where
  ne_nil := e.ne_nil
  digit := e.digit
  letter := nofun
  ends := nofun
  lone_zero _ _ := nofun

theorem reads_chars : Reads true e.chars e.literal [] := by
  have h := e.integerText.reads (allowed_minus e.negative)
  rwa [List.append_nil, List.append_nil, chars_minus] at h

theorem isFloat_literal : e.literal.value.kind.isFloat = false := by
  rw [literal, value_plain e.digit e.integerText.letter]
  rfl

/-- It has neither blanks nor suffix letters. -/
theorem exponentDigits_chars : exponentDigits e.chars = e.chars := by
  refine List.filter_eq_self.2 fun c hc => ?_
  rcases e.mem_chars hc with rfl | hd
  · rfl
  have hblank : ¬ isAsciiBlank c = true :=
    fun h => not_decimalDigit_of_blankChar ((isAsciiBlank_iff c).1 h) hd
  have hsuffix : ¬ isSuffixLetter c = true :=
    fun h => not_decimalDigit_of_suffixLetter ((isSuffixLetter_iff c).1 h) hd
  rw [Bool.eq_false_iff.2 hblank, Bool.eq_false_iff.2 hsuffix]
  rfl

theorem readExponent_chars : Decimal.readExponent ('e' :: e.chars) = some e.toInt := by
  have hsign : Decimal.readSign e.chars = (e.negative, e.digits) :=
    readSign_floatSign _ fun c hc =>
      not_signChar_of_decimalDigit (e.digit c (List.mem_of_mem_head? hc))
  have hall : e.digits.all (Numeral.isDigit 10) = true :=
    List.all_eq_true.2 fun c hc => (isDigit_ten_iff c).2 (e.digit c hc)
  have hdigits : Decimal.readExponentDigits e.digits = some (Numeral.value 10 e.digits) := by
    rw [Decimal.readExponentDigits, if_pos ⟨e.ne_nil, hall⟩]
  rw [Decimal.readExponent, if_pos (.inl rfl)]
  simp only [hsign, hdigits]
  rfl

/-- The exponent that an integer is written as. -/
def ofInt (z : Int) : ExponentText where
  negative := decide (z < 0)
  digits := Numeral.decimal z.natAbs
  ne_nil := Nat.toDigits_ne_nil
  digit _ hc := decimalDigit_of_mem_decimal hc

theorem chars_ofInt (z : Int) : (ofInt z).chars = Numeral.integer z := by
  rw [integer_eq, chars_minus]
  rfl

theorem toInt_ofInt (z : Int) : (ofInt z).toInt = z := by
  simp only [toInt, ofInt, Numeral.value_decimal, decide_eq_true_eq]
  split <;> omega

end ExponentText

/-! ## Float texts -/

/-- A sign, digits, a point, digits, and maybe an exponent. -/
structure FloatText where
  negative : Bool
  whole : Text
  fraction : Text
  exponent : Option ExponentText
  digits : ∀ c ∈ whole ++ fraction, Literal.DecimalDigit c
  whole_ne : whole ≠ []

namespace FloatText

open Literal

def exponentChars : Option ExponentText → Text
  | none => []
  | some e => 'e' :: e.chars

/-- The text without its sign. -/
def body (t : FloatText) : Text := t.whole ++ '.' :: (t.fraction ++ exponentChars t.exponent)

def chars (t : FloatText) : Text := floatSign t.negative ++ t.body

/-- The number that the text spells. -/
def decimal (t : FloatText) : Decimal :=
  ⟨t.negative, Numeral.value 10 (t.whole ++ t.fraction),
    t.exponent.elim 0 ExponentText.toInt - t.fraction.length⟩

def mantissa (t : FloatText) : Mantissa := ⟨minus t.negative, t.whole ++ '.' :: t.fraction, []⟩

def literal (t : FloatText) : Literal :=
  match t.exponent with
  | none => .plain t.mantissa
  | some e => .scaled t.mantissa false e.literal

variable (t : FloatText)

/-! ## Characters -/

theorem digit_of_mem_whole {c : Char} (hc : c ∈ t.whole) : DecimalDigit c :=
  t.digits c (List.mem_append_left _ hc)

theorem digit_of_mem_fraction {c : Char} (hc : c ∈ t.fraction) : DecimalDigit c :=
  t.digits c (List.mem_append_right _ hc)

theorem head_body {c : Char} (hc : c ∈ t.body.head?) : DecimalDigit c := by
  obtain ⟨d, ds, hd⟩ := List.exists_cons_of_ne_nil t.whole_ne
  rw [body, hd] at hc
  cases hc
  exact t.digit_of_mem_whole (by rw [hd]; exact List.mem_cons_self)

theorem not_digit_of_head_exponentChars {e : Option ExponentText} {c : Char}
    (hc : c ∈ (exponentChars e).head?) : ¬ MantissaChar c ∧ ¬ SuffixLetter c := by
  cases e with
  | none => cases hc
  | some e =>
    cases hc
    decide

/-! ## The grammar -/

/-- No marker of a radix can be the second character of a number with a point. -/
theorem unannounced_body : Unannounced t.body := by
  intro r upper digits ha
  have hmarker : ¬ MantissaChar (r.marker upper) := by cases r <;> cases upper <;> decide
  unfold Announces body at ha
  match hw : t.whole with
  | [] => exact t.whole_ne hw
  | [c] =>
    rw [hw] at ha
    injection ha with _ ha
    injection ha with ha
    exact hmarker (ha ▸ .inr rfl)
  | c :: d :: ds =>
    rw [hw] at ha
    injection ha with _ ha
    injection ha with ha
    exact hmarker (ha ▸ .inl (t.digit_of_mem_whole (by rw [hw]; simp)))

theorem readsMantissa_chars :
    Literal.ReadsMantissa true t.mantissa t.chars (exponentChars t.exponent) := by
  obtain ⟨d, ds, hd⟩ := List.exists_cons_of_ne_nil t.whole_ne
  have hbody : t.mantissa.digits ++ (t.mantissa.suffix ++ exponentChars t.exponent) = t.body := by
    simp [mantissa, body]
  have hdigit : d ∈ t.whole := by
    rw [hd]
    exact List.mem_cons_self
  refine .intro ?_ ?_ ⟨fun c hc => ?_, ?_⟩ ⟨d, ?_, t.digit_of_mem_whole hdigit⟩ ⟨nofun, ?_⟩
  · rw [hbody, chars, ← chars_minus]
    exact (allowed_minus _).signed fun c => t.head_body
  · rw [hbody]
    exact t.unannounced_body
  · rcases List.mem_append.1 hc with hc | hc
    · exact .inl (t.digit_of_mem_whole hc)
    rcases List.mem_cons.1 hc with rfl | hc
    · exact .inr rfl
    · exact .inl (t.digit_of_mem_fraction hc)
  · exact fun c hc => (not_digit_of_head_exponentChars hc).1
  · exact List.mem_append_left _ hdigit
  · exact fun c hc => (not_digit_of_head_exponentChars hc).2

theorem reads_chars : Reads true t.chars t.literal [] := by
  have h := t.readsMantissa_chars
  unfold literal
  cases he : t.exponent with
  | none =>
    rw [he] at h
    exact .plain h nofun
  | some e =>
    rw [he] at h
    exact .scaled h e.reads_chars

/-! ## The value -/

/-- There is only one point to cut at. -/
theorem cutMantissa_digits : cutMantissa t.mantissa.digits = t.mantissa.digits := by
  have hpoint : ∀ c ∈ ('.' :: t.fraction).head?, c = '.' := fun c hc => (Option.some.inj hc).symm
  have hend : ∀ c ∈ ([] : Text).head?, c = '.' := nofun
  obtain ⟨h1, h2⟩ := split_point (fun c => t.digit_of_mem_whole) hpoint
  obtain ⟨h3, -⟩ := split_point (fun c => t.digit_of_mem_fraction) hend
  rw [List.append_nil] at h3
  simp only [cutMantissa, mantissa, h1, h2, h3]

theorem exponentText_literal :
    t.literal.exponentText = t.exponent.elim [] ExponentText.chars := by
  unfold literal
  cases t.exponent with
  | none => rfl
  | some e => exact e.chars_literal

/-- What is parsed is the whole text. -/
theorem floatChars_literal : floatChars t.mantissa t.literal.exponentText = t.chars := by
  rw [exponentText_literal, floatChars, cutMantissa_digits]
  cases he : t.exponent with
  | none => simp [mantissa, chars, body, exponentChars, he, isNegative_minus, exponentDigits]
  | some e =>
    simp [mantissa, chars, body, exponentChars, he, isNegative_minus, e.exponentDigits_chars,
      e.chars_ne_nil]

theorem mantissa?_literal : t.literal.mantissa? = some t.mantissa := by
  unfold literal
  cases t.exponent <;> rfl

/-- The point makes a double of it, because the exponent is no float. -/
theorem value_literal_eq_floatValue :
    t.literal.value = floatValue .double t.mantissa t.literal.exponentText := by
  have hdot : '.' ∈ t.mantissa.digits := by simp [mantissa]
  unfold literal
  cases t.exponent with
  | none =>
    show decimalValue false t.mantissa [] = _
    rw [decimalValue, if_pos (.inl hdot)]
    rfl
  | some e =>
    show decimalValue e.literal.value.kind.isFloat t.mantissa e.literal.chars = _
    rw [e.isFloat_literal, decimalValue, if_pos (.inl hdot)]
    rfl

/-! ## Parsing -/

theorem span_digits {digits rest : Text} (h : Run DecimalDigit digits rest) :
    (digits ++ rest).span (Numeral.isDigit 10) = (digits, rest) := by
  obtain ⟨h1, h2⟩ := (run_iff isDigit_ten_iff).2 ⟨rfl, h⟩
  rw [List.span_eq_takeWhile_dropWhile, h1, h2]

/-- A text with a point is parsed up to the exponent, which decides whether there is a number. -/
theorem parse?_point (negative : Bool) {whole fraction rest : Text}
    (hdigits : ∀ c ∈ whole ++ fraction, DecimalDigit c) (hne : whole ++ fraction ≠ [])
    (hrest : ∀ c ∈ rest.head?, ¬ DecimalDigit c) :
    Decimal.parse? (floatSign negative ++ (whole ++ '.' :: (fraction ++ rest))) =
      (Decimal.readExponent rest).map fun e =>
        ⟨negative, Numeral.value 10 (whole ++ fraction), e - fraction.length⟩ := by
  have hwhole : ∀ c ∈ whole, DecimalDigit c := fun c hc => hdigits c (List.mem_append_left _ hc)
  have hfraction : ∀ c ∈ fraction, DecimalDigit c :=
    fun c hc => hdigits c (List.mem_append_right _ hc)
  have hpoint : Run DecimalDigit whole ('.' :: (fraction ++ rest)) :=
    ⟨hwhole, fun c hc hd => by cases hc; exact absurd hd (by decide)⟩
  have hsign : ∀ c ∈ (whole ++ '.' :: (fraction ++ rest)).head?, ¬ SignChar c := by
    cases whole with
    | nil =>
      intro c hc
      cases hc
      decide
    | cons d ds =>
      intro c hc
      cases hc
      exact not_signChar_of_decimalDigit (hwhole d List.mem_cons_self)
  rw [Decimal.parse?, readSign_floatSign _ hsign]
  simp only [span_digits hpoint, Decimal.readFraction, span_digits ⟨hfraction, hrest⟩]
  rw [if_neg hne]

/-- A text without a point is parsed up to the exponent as well. -/
theorem parse?_whole (negative : Bool) {whole rest : Text}
    (hdigits : ∀ c ∈ whole, DecimalDigit c) (hne : whole ≠ [])
    (hrest : ∀ c ∈ rest.head?, ¬ MantissaChar c) :
    Decimal.parse? (floatSign negative ++ (whole ++ rest)) =
      (Decimal.readExponent rest).map fun e => ⟨negative, Numeral.value 10 whole, e⟩ := by
  have hsign : ∀ c ∈ (whole ++ rest).head?, ¬ SignChar c := by
    obtain ⟨d, ds, rfl⟩ := List.exists_cons_of_ne_nil hne
    intro c hc
    cases hc
    exact not_signChar_of_decimalDigit (hdigits d List.mem_cons_self)
  have hfraction : Decimal.readFraction rest = ([], rest) := by
    unfold Decimal.readFraction
    split
    · exact absurd (.inr rfl) (hrest _ rfl)
    · rfl
  have hspan := span_digits ⟨hdigits, fun c hc hd => hrest c hc (.inl hd)⟩
  rw [Decimal.parse?, readSign_floatSign _ hsign]
  simp only [hspan, hfraction, List.append_nil]
  rw [if_neg hne]
  simp

theorem readExponent_exponentChars (e : Option ExponentText) :
    Decimal.readExponent (exponentChars e) = some (e.elim 0 ExponentText.toInt) := by
  cases e with
  | none => rfl
  | some e => exact e.readExponent_chars

theorem parse?_chars : Decimal.parse? t.chars = some t.decimal := by
  have hend : ∀ c ∈ (exponentChars t.exponent).head?, ¬ DecimalDigit c :=
    fun c hc hd => (not_digit_of_head_exponentChars hc).1 (.inl hd)
  have hne : t.whole ++ t.fraction ≠ [] := fun h => t.whole_ne (List.append_eq_nil_iff.1 h).1
  rw [chars, body, parse?_point _ t.digits hne hend, readExponent_exponentChars]
  rfl

theorem value_literal : t.literal.value = .float .double (t.decimal.toBinary .double) := by
  rw [value_literal_eq_floatValue]
  simp [floatValue, floatChars_literal, parse?_chars, Precision.format]

/-- **A float text reads as one double.** -/
theorem read?_chars :
    Value.read? true t.chars = some (.float .double (t.decimal.toBinary .double), []) := by
  rw [Value.read?_of_reads t.reads_chars, value_literal]

end FloatText

end KernelFront
