import Mathlib.Data.Bool.AllAny
import KernelFront.Proofs.Literal.Reading
import KernelFront.Proofs.Value.Integers

/-!
# Decimal integers

A decimal integer is digits and suffix letters without a point, an `F` or an exponent (`IntegerText`),
after a sign that may stand there (`Sign.Allowed`). It is one literal, and its letters alone fix its
kind. `decimal_integer_denotes`: the value is the integer that the digits spell, taken once into the
range of that kind, however many digits there are. A 64-bit word that wraps around at every digit is
enough to find it (`Numeral.word`), because each kind is at most as wide.
-/

namespace KernelFront

/-! ## Digits in a word -/

namespace Numeral

/-- Reading digits on in a word is reading on from the number that the word holds, if that is so for
one digit. -/
theorem foldl_ofNat {radix : Nat} (step : BitVec 64 → BitVec 64 → BitVec 64)
    (hstep : ∀ n c, step (BitVec.ofNat 64 n) (BitVec.ofNat 64 ((digit? radix c).getD 0)) =
      BitVec.ofNat 64 (radix * n + (digit? radix c).getD 0)) (cs : List Char) (n : Nat) :
    cs.foldl (fun w c => step w (BitVec.ofNat 64 ((digit? radix c).getD 0))) (BitVec.ofNat 64 n) =
      BitVec.ofNat 64 (cs.foldl (fun n c => radix * n + (digit? radix c).getD 0) n) := by
  induction cs generalizing n with
  | nil => rfl
  | cons c cs ih => rw [List.foldl_cons, List.foldl_cons, hstep, ih]

theorem word_eq (cs : List Char) : word cs = BitVec.ofNat 64 (value 10 cs) := by
  refine foldl_ofNat (fun w d => w * 10 + d) (fun n c => ?_) cs 0
  rw [BitVec.ofNat_add, BitVec.ofNat_mul, BitVec.mul_comm]
  rfl

end Numeral

/-- A word with its sign, cut to a width that is not greater, is the signed number modulo the width. -/
theorem ofInt_eq_setWidth {w : Nat} (hw : w ≤ 64) (negative : Bool) (n : Nat) :
    BitVec.ofInt w (if negative then -(n : Int) else n) =
      (if negative then -BitVec.ofNat 64 n else BitVec.ofNat 64 n).setWidth w := by
  have hword : (if negative then -BitVec.ofNat 64 n else BitVec.ofNat 64 n) =
      BitVec.ofInt 64 (if negative then -(n : Int) else n) := by
    cases negative with
    | false => rfl
    | true => exact (BitVec.ofInt_neg (n := n)).symm
  rw [hword, setWidth_ofInt hw]

namespace Literal

/-! ## Characters -/

theorem not_decimalDigit_of_blankChar {c : Char} (hc : BlankChar c) : ¬ DecimalDigit c := by
  simp only [BlankChar, List.mem_cons, List.not_mem_nil, or_false] at hc
  rcases hc with rfl | rfl | rfl | rfl | rfl <;> decide

theorem not_signChar_of_decimalDigit {c : Char} (hc : DecimalDigit c) : ¬ SignChar c := by
  rintro (rfl | rfl) <;> revert hc <;> decide

theorem not_decimalDigit_marker (r : Radix) (upper : Bool) : ¬ DecimalDigit (r.marker upper) := by
  cases r <;> cases upper <;> decide

/-- The suffix letters of an integer: those that do not make a float of it. -/
def IntegerLetter (c : Char) : Prop := c ∈ ['L', 'l', 'U', 'u']

instance (c : Char) : Decidable (IntegerLetter c) := inferInstanceAs (Decidable (c ∈ _))

theorem IntegerLetter.suffixLetter {c : Char} (h : IntegerLetter c) : SuffixLetter c := by
  simp only [IntegerLetter, List.mem_cons, List.not_mem_nil, or_false] at h
  rcases h with rfl | rfl | rfl | rfl <;> decide

theorem IntegerLetter.not_mantissaChar {c : Char} (h : IntegerLetter c) : ¬ MantissaChar c := by
  simp only [IntegerLetter, List.mem_cons, List.not_mem_nil, or_false] at h
  rcases h with rfl | rfl | rfl | rfl <;> decide

theorem IntegerLetter.ne_marker {c : Char} (h : IntegerLetter c) (r : Radix) (upper : Bool) :
    c ≠ r.marker upper := by
  simp only [IntegerLetter, List.mem_cons, List.not_mem_nil, or_false] at h
  rcases h with rfl | rfl | rfl | rfl <;> cases r <;> cases upper <;> decide

end Literal

/-! ## Signs -/

namespace Sign

open Literal

/-- The sign may stand in front of a number: it is asked for, and only blanks come after it. -/
def Allowed (signs : Bool) : Sign → Prop
  | absent => True
  | given _ blanks => signs = true ∧ ∀ c ∈ blanks, BlankChar c

theorem Allowed.signed {signs : Bool} {sign : Sign} (h : sign.Allowed signs) {body : Text}
    (hb : ∀ c ∈ body.head?, DecimalDigit c) : Signed signs sign (sign.chars ++ body) body := by
  cases sign with
  | absent => exact .absent fun c hc => not_signChar_of_decimalDigit (hb c hc)
  | given negative blanks =>
    obtain ⟨hs, hblanks⟩ := h
    exact .given hs ⟨hblanks, fun c hc hblank => not_decimalDigit_of_blankChar hblank (hb c hc)⟩

end Sign

/-! ## Integers -/

namespace Literal

/-- Digits, suffix letters, and a text that neither goes on with the number nor makes it another one.
A marker behind a lone zero would announce a radix. -/
structure IntegerText (digits suffix t : Text) : Prop where
  ne_nil : digits ≠ []
  digit : ∀ c ∈ digits, DecimalDigit c
  letter : ∀ c ∈ suffix, IntegerLetter c
  ends : ∀ c ∈ t.head?, ¬ MantissaChar c ∧ ¬ SuffixLetter c ∧ c ≠ 'E' ∧ c ≠ 'e'
  lone_zero : digits = ['0'] → suffix = [] → ∀ c ∈ t.head?, c ∉ ['b', 'B', 'x', 'X']

section

variable {signs : Bool} {sign : Sign} {digits suffix t : Text}

theorem IntegerText.unannounced (h : IntegerText digits suffix t) :
    Unannounced (digits ++ (suffix ++ t)) := by
  intro r upper rest ha
  match hd : digits with
  | [] => exact h.ne_nil rfl
  | [d] =>
    obtain ⟨rfl, htail⟩ := List.cons.inj ha
    match hs : suffix with
    | [] =>
      have hhead : r.marker upper ∈ t.head? := by
        rw [show t = _ from htail]
        rfl
      exact h.lone_zero rfl rfl _ hhead (by cases r <;> cases upper <;> decide)
    | c :: cs =>
      exact (h.letter c List.mem_cons_self).ne_marker r upper (List.cons.inj htail).1
  | d :: e :: ds =>
    obtain ⟨he, -⟩ := List.cons.inj (List.cons.inj ha).2
    refine not_decimalDigit_marker r upper (he ▸ h.digit e ?_)
    exact List.mem_cons_of_mem _ List.mem_cons_self

theorem IntegerText.reads (h : IntegerText digits suffix t) (hsign : sign.Allowed signs) :
    Reads signs (sign.chars ++ (digits ++ (suffix ++ t))) (.plain ⟨sign, digits, suffix⟩) t := by
  obtain ⟨d, ds, hd⟩ := List.exists_cons_of_ne_nil h.ne_nil
  have hmem : d ∈ digits := by
    rw [hd]
    exact List.mem_cons_self
  have hhead : ∀ c ∈ (digits ++ (suffix ++ t)).head?, DecimalDigit c := by
    intro c hc
    rw [hd] at hc
    obtain rfl := Option.some.inj hc
    exact h.digit _ hmem
  have hrun : ∀ c ∈ (suffix ++ t).head?, ¬ MantissaChar c := by
    intro c hc
    cases hs : suffix with
    | nil => exact (h.ends c (by rwa [hs] at hc)).1
    | cons e es =>
      rw [hs] at hc
      obtain rfl := Option.some.inj hc
      exact (h.letter _ (by rw [hs]; exact List.mem_cons_self)).not_mantissaChar
  refine .plain ⟨hsign.signed hhead, h.unannounced, ⟨fun c hc => .inl (h.digit c hc), hrun⟩,
    ⟨d, hmem, h.digit d hmem⟩, fun c hc => (h.letter c hc).suffixLetter,
    fun c hc => (h.ends c hc).2.1⟩ fun upper hu => ?_
  cases upper with
  | true => exact (h.ends _ hu).2.2.1 rfl
  | false => exact (h.ends _ hu).2.2.2 rfl

/-- Without a point and an `F`, a number is the integer of its digits. -/
theorem value_plain (hdigit : ∀ c ∈ digits, DecimalDigit c) (hletter : ∀ c ∈ suffix, IntegerLetter c) :
    (plain ⟨sign, digits, suffix⟩).value =
      .ofInt (suffixKind suffix) (if sign.isNegative then -(Numeral.value 10 digits : Int)
        else Numeral.value 10 digits) := by
  have hpoint : '.' ∉ digits := fun hc => absurd (hdigit _ hc) (by decide)
  have hmarked : (suffix.any fun c => c == 'F' || c == 'f') = false := by
    refine List.any_eq_false.2 fun c hc => ?_
    have := hletter c hc
    simp only [IntegerLetter, List.mem_cons, List.not_mem_nil, or_false] at this
    rcases this with rfl | rfl | rfl | rfl <;> decide
  rw [value, hmarked, decimalValue, if_neg (by simp [hpoint]), integerValue]

end

end Literal

/-! ## Main result -/

namespace Value

open Literal (IntegerText suffixKind)

variable {signs : Bool} {sign : Sign} {digits suffix t : Text}

/-- **A decimal integer denotes its number modulo the width of its kind.** The letters fix the kind: a
`U` for unsigned, an `L` for 64 bits. The payload is the only integer of that kind that is congruent to
the number with its sign, and also what a 64-bit word that wraps around holds in the end, negated there
and cut to the width. What follows is left. -/
theorem decimal_integer_denotes (hsign : sign.Allowed signs) (h : IntegerText digits suffix t) :
    ∃ (k : IntKind) (x : BitVec k.bits),
      read? signs (sign.chars ++ digits ++ suffix ++ t) = some (.int k x, t) ∧
        (k.signed = false ↔ 'U' ∈ suffix ∨ 'u' ∈ suffix) ∧
        (k.width = if 'L' ∈ suffix ∨ 'l' ∈ suffix then .w64 else .w32) ∧
        (∀ n, k.Represents (if sign.isNegative then -(Numeral.value 10 digits : Int)
          else Numeral.value 10 digits) n ↔ n = k.read x) ∧
        x = (if sign.isNegative then -Numeral.word digits else Numeral.word digits).setWidth k.bits := by
  refine ⟨suffixKind suffix, BitVec.ofInt _ (if sign.isNegative then -(Numeral.value 10 digits : Int)
    else Numeral.value 10 digits), ?_, Literal.signed_suffixKind suffix,
    Literal.width_suffixKind suffix, fun n => ?_, ?_⟩
  · rw [List.append_assoc, List.append_assoc, read?_of_reads (h.reads hsign),
      Literal.value_plain h.digit h.letter]
    rfl
  · have hread := (suffixKind suffix).represents_read_ofInt
      (if sign.isNegative then -(Numeral.value 10 digits : Int) else Numeral.value 10 digits)
    exact ⟨fun hn => hn.unique hread, fun hn => hn ▸ hread⟩
  · rw [Numeral.word_eq]
    exact ofInt_eq_setWidth (suffixKind suffix).bits_le _ _

/-- Past 64 bits the number wraps around before its sign counts, and the plus behind it is no sign of
its own. -/
theorem decimal_integer_denotes_wraps :
    (Sign.given true [' ', '\t']).Allowed true ∧
      IntegerText "18446744073709551617".toList "lU".toList "+1".toList ∧
      ∃ x, read? true "- \t18446744073709551617lU+1".toList = some (.int .uint64 x, "+1".toList) ∧
        IntKind.uint64.read x = 18446744073709551615 := by
  have hsign : (Sign.given true [' ', '\t']).Allowed true :=
    ⟨rfl, List.all_iff_forall_prop.1 (by decide)⟩
  have htext : IntegerText "18446744073709551617".toList "lU".toList "+1".toList :=
    { ne_nil := by decide
      digit := List.all_iff_forall_prop.1 (by decide)
      letter := List.all_iff_forall_prop.1 (by decide)
      ends := by
        rintro c ⟨⟩
        decide
      lone_zero := fun _ => nofun }
  obtain ⟨k, x, hread, hsigned, hwidth, hpayload, -⟩ := decimal_integer_denotes hsign htext
  obtain rfl : k = .uint64 := by
    rcases k with ⟨signed, width⟩
    obtain rfl : signed = false := hsigned.2 (by decide)
    obtain rfl : width = .w64 := hwidth
    rfl
  refine ⟨hsign, htext, x, hread, ((hpayload _).1 ⟨by decide, by decide, ?_⟩).symm⟩
  decide +kernel

end Value

end KernelFront
