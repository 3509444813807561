import Mathlib.Tactic.SplitIfs
import KernelFront.Proofs.Folding.Expressions
import KernelFront.Proofs.Literal.Floats
import KernelFront.Proofs.Literal.Stability

/-!
# A sign as a part of a literal and as an operator

A decimal number is read in the same way with a sign in front of it, and what it denotes then is what the
operator makes of its value (`exists_reads_signed`). An integer can be negated before it is reduced to its
width and after it (`integerValue_signed`). A float has the sign of the decimal that its text denotes,
also where only the mantissa can be parsed (`floatValue_eq`), and rounding is symmetric
(`Decimal.toBinary_neg`); where no decimal is denoted, the zero of the literal is positive whatever its
sign, and equal to the one that the operator negates. The source is one written expression either way,
with an operator or without.
-/

namespace KernelFront

/-- The operator that a sign is. -/
def UnaryOp.ofSign (negative : Bool) : UnaryOp := if negative then .negative else .positive

/-- Equal values of one kind. -/
structure Value.Agree (a b : Value) : Prop where
  kind : a.kind = b.kind
  eq : a.eq b = true

theorem Value.agree_float {p : Precision} {x y : Binary p.format} (h : x.eq y = true) :
    Agree (.float p x) (.float p y) :=
  ⟨rfl, by cases p <;> exact h⟩

/-- The number with a sign directly in front of it. -/
def Mantissa.signed (m : Mantissa) (negative : Bool) : Mantissa := { m with sign := .given negative [] }

/-! ## Decimals -/

namespace Decimal

/-- The number with a sign. -/
def signed (negative : Bool) (d : Decimal) : Decimal := { d with negative := negative }

/-- Rounding does not depend on the sign. -/
theorem toBinary_neg (f : Format) (d : Decimal) :
    ((d.signed false).toBinary f).neg = (d.signed true).toBinary f := by
  unfold signed toBinary
  dsimp only
  split_ifs <;> rfl

/-- The float nearest to a decimal, and zero without one. -/
def toBinaryOrZero (f : Format) : Option Decimal → Binary f
  | some d => d.toBinary f
  | none => .zero f false

/-- The negation has the other sign, but for the zero that no decimal denotes: there the zeros of both
signs meet. -/
theorem eq_neg_toBinaryOrZero (p : Precision) (d? : Option Decimal) :
    (toBinaryOrZero p.format (d?.map (signed true))).eq
      (toBinaryOrZero p.format (d?.map (signed false))).neg = true := by
  cases d? with
  | none => cases p <;> rfl
  | some d =>
    show ((d.signed true).toBinary p.format).eq ((d.signed false).toBinary p.format).neg = true
    rw [toBinary_neg]
    exact toBinary_eq_self ..

/-- The sign of a text is that of the number that it denotes. -/
theorem parse?_floatSign (negative : Bool) {body : List Char}
    (h : ∀ c ∈ body.head?, ¬ Literal.SignChar c) :
    parse? (Literal.floatSign negative ++ body) = (parse? body).map (signed negative) := by
  have hbody : readSign body = (false, body) := Literal.readSign_floatSign false h
  simp only [parse?, Literal.readSign_floatSign negative h, hbody]
  split_ifs
  · rfl
  · rw [Option.map_map]
    rfl

end Decimal

namespace Literal

theorem not_signChar_of_mantissaChar {c : Char} (h : MantissaChar c) : ¬ SignChar c :=
  fun hc => not_wordChar_of_signChar hc h.wordChar

/-! ## Values of decimal numbers -/

theorem head?_cutMantissa (digits : Text) : (cutMantissa digits).head? = digits.head? := by
  cases digits with
  | nil => rfl
  | cons c r =>
    by_cases hc : c = '.'
    · simp [cutMantissa, hc]
    · simp only [cutMantissa, ne_eq, hc, not_false_eq_true, decide_true, List.takeWhile_cons_of_pos,
        List.dropWhile_cons_of_pos]
      split <;> rfl

/-- The decimal that a number denotes without its sign, if it denotes one. -/
def decimal? (m : Mantissa) (exponent : Text) : Option Decimal :=
  (Decimal.parse? (floatChars { m with sign := .absent } exponent)).orElse fun _ =>
    Decimal.parse? m.digits

/-- The sign of a number is that of the decimal it denotes; without one the number is zero. -/
theorem floatValue_eq (p : Precision) {m : Mantissa} (exponent : Text)
    (hm : ∃ c ∈ m.digits.head?, MantissaChar c) :
    floatValue p m exponent = .float p
      (Decimal.toBinaryOrZero p.format ((decimal? m exponent).map (Decimal.signed m.sign.isNegative))) := by
  obtain ⟨c, hc, hmantissa⟩ := hm
  have hdigits : ∀ d ∈ m.digits.head?, ¬ SignChar d := fun d hd =>
    Option.mem_unique hc hd ▸ not_signChar_of_mantissaChar hmantissa
  have hbody : ∀ d ∈ (floatChars { m with sign := .absent } exponent).head?, ¬ SignChar d := by
    show ∀ d ∈ (cutMantissa m.digits ++ _).head?, _
    rw [List.head?_append, head?_cutMantissa, Option.mem_def.1 hc]
    rintro d ⟨⟩
    exact not_signChar_of_mantissaChar hmantissa
  have hchars : floatChars m exponent =
      floatSign m.sign.isNegative ++ floatChars { m with sign := .absent } exponent :=
    List.append_assoc ..
  rw [floatValue, hchars, Decimal.parse?_floatSign _ hbody, Decimal.parse?_floatSign _ hdigits, decimal?]
  cases Decimal.parse? (floatChars { m with sign := .absent } exponent) <;> rfl

/-! ## The unary operators -/

section

variable (negative : Bool) {m : Mantissa} (hsign : m.sign = .absent)

include hsign

theorem integerValue_signed : Value.unary (.ofSign negative) (integerValue m) =
    .ok (integerValue (m.signed negative)) := by
  obtain ⟨_, digits, suffix⟩ := m
  cases hsign
  cases negative with
  | false => rfl
  | true =>
    show Except.ok (Value.int _ (-BitVec.ofInt _ (Numeral.value 10 digits : Int))) = .ok (.int _ _)
    rw [← BitVec.ofInt_neg]
    rfl

theorem floatValue_signed (p : Precision) (exponent : Text)
    (hm : ∃ c ∈ m.digits.head?, MantissaChar c) :
    ∃ b, Value.unary (.ofSign negative) (floatValue p m exponent) = .ok b ∧
      Value.Agree (floatValue p (m.signed negative) exponent) b := by
  cases negative with
  | false =>
    refine ⟨floatValue p m exponent, rfl, ?_⟩
    have hsame : floatValue p (m.signed false) exponent = floatValue p m exponent := by
      obtain ⟨_, digits, suffix⟩ := m
      cases hsign
      rfl
    rw [hsame]
    exact ⟨rfl, floatValue_eq_self ..⟩
  | true =>
    rw [floatValue_eq p exponent hm, floatValue_eq p exponent (m := m.signed true) hm, hsign]
    exact ⟨_, rfl, Value.agree_float (Decimal.eq_neg_toBinaryOrZero p (decimal? m exponent))⟩

theorem decimalValue_signed (marked : Bool) (exponent : Text)
    (hm : ∃ c ∈ m.digits.head?, MantissaChar c) :
    ∃ b, Value.unary (.ofSign negative) (decimalValue marked m exponent) = .ok b ∧
      Value.Agree (decimalValue marked (m.signed negative) exponent) b := by
  by_cases hf : '.' ∈ m.digits ∨ marked = true
  · have hf' : '.' ∈ (m.signed negative).digits ∨ marked = true := hf
    rw [decimalValue, if_pos hf, decimalValue, if_pos hf']
    exact floatValue_signed negative hsign _ exponent hm
  · have hf' : ¬ ('.' ∈ (m.signed negative).digits ∨ marked = true) := hf
    rw [decimalValue, if_neg hf, decimalValue, if_neg hf', integerValue_signed negative hsign]
    exact ⟨_, rfl, rfl, Value.int_eq_self ..⟩

end

/-! ## Reading -/

section

variable {d rest : Text} (negative : Bool)

theorem not_blankChar_of_mantissaChar {c : Char} (h : MantissaChar c) : ¬ BlankChar c := by
  intro hc
  rcases h with h | rfl
  · exact not_decimalDigit_of_blankChar hc h
  · revert hc
    decide

theorem sign_eq_absent {sign : Sign} {body : Text} (h : Signed false sign d body) :
    sign = .absent ∧ d = body := by
  cases h with
  | absent => exact ⟨rfl, rfl⟩
  | given h => cases h

/-- A decimal number without a sign takes one. -/
theorem readsMantissa_signed {m : Mantissa} (h : ReadsMantissa false m d rest) :
    m.sign = .absent ∧ (∃ c ∈ m.digits.head?, MantissaChar c) ∧
      ReadsMantissa true (m.signed negative) ((if negative then '-' else '+') :: d) rest := by
  obtain ⟨hs, hu, hrun, ⟨c, hc, hd⟩, hsuffix⟩ := h
  obtain ⟨hsign, rfl⟩ := sign_eq_absent hs
  obtain ⟨e, r, hdigits⟩ := List.exists_cons_of_ne_nil (List.ne_nil_of_mem hc)
  have he : MantissaChar e := hrun.all e (hdigits ▸ List.mem_cons_self)
  have hblank : Run BlankChar [] (m.digits ++ (m.suffix ++ rest)) := by
    refine ⟨nofun, fun b hb => ?_⟩
    rw [hdigits] at hb
    cases hb
    exact not_blankChar_of_mantissaChar he
  exact ⟨hsign, ⟨e, by rw [hdigits]; rfl, he⟩, .given rfl hblank, hu, hrun, ⟨c, hc, hd⟩, hsuffix⟩

/-- A number reads with a sign as well, and denotes what the operator makes of it. A keyword takes no
sign, and one more bit may widen the kind of a radix number. -/
theorem exists_reads_signed {l : Literal} (h : Reads false d l [])
    (hstart : ∃ c ∈ d.head?, MantissaChar c) (hradix : Unannounced d) :
    ∃ l', Reads true ((if negative then '-' else '+') :: d) l' [] ∧
      ∃ b, Value.unary (.ofSign negative) l.value = .ok b ∧ Value.Agree l'.value b := by
  cases h with
  | keyword b =>
    obtain ⟨c, hc, hm⟩ := hstart
    cases b <;> cases hc <;> exact absurd hm (by decide)
  | radix hs ha =>
    obtain ⟨-, rfl⟩ := sign_eq_absent hs
    exact absurd ha (hradix _ _ _)
  | plain h hend =>
    obtain ⟨hsign, hm, h'⟩ := readsMantissa_signed negative h
    exact ⟨_, .plain h' hend, decimalValue_signed negative hsign _ [] hm⟩
  | dangling h hclosed =>
    obtain ⟨hsign, hm, h'⟩ := readsMantissa_signed negative h
    exact ⟨_, .dangling h' hclosed, decimalValue_signed negative hsign _ [] hm⟩
  | scaled h hexponent =>
    obtain ⟨hsign, hm, h'⟩ := readsMantissa_signed negative h
    exact ⟨_, .scaled h' hexponent, decimalValue_signed negative hsign _ _ hm⟩

end

end Literal

/-! ## Folding -/

/-- A source that is a written expression has it as its one statement. -/
theorem Expression.Written.all_eq {signs : Bool} {e : Expression} {source : Text}
    (h : e.Written signs source) : Statement.all source = [(0, source)] := by
  obtain ⟨c, hc, hblank, hslash⟩ := h.exists_head
  obtain ⟨r, hsource⟩ := List.head?_eq_some_iff.1 hc
  obtain ⟨d, hd, hlast⟩ := h.endsIn_not_blank
  have htrims : source.Trims [] source [] :=
    ⟨by simp, nofun, fun b hb => Option.mem_unique hc hb ▸ hblank,
      fun b hb => Option.mem_unique hd hb ▸ hlast⟩
  have hstatement : Statement.isStatement source = true := by
    refine Statement.isStatement_iff.2 ⟨by rw [hsource]; nofun, fun hcomment => hslash ?_⟩
    rw [hsource, List.cons_prefix_cons] at hcomment
    exact hcomment.1.symm
  exact Statement.all_of_trims h.oneLine htrims hstatement

theorem foldSource_of_written {signs : Bool} {e : Expression} {source : Text} {v : Value}
    (h : e.Written signs source) (hv : e.result = .ok v) :
    foldSource signs source = .ok [⟨Statement.span 0 source, String.ofList source, v⟩] := by
  rw [foldSource, h.all_eq, List.map_singleton, Statement.fold_written h, hv]
  rfl

section

open Literal

/-- **A sign means the same as a part of a decimal literal and as an operator.** Folding succeeds either
way, with values of one kind that are equal, whatever suffix, exponent or point the number has and
however much it overflows. -/
theorem literal_sign_agrees_with_operator (d : Text) (v : Value) (hline : '\n' ∉ d)
    (hstart : ∃ c ∈ d.head?, MantissaChar c) (hradix : Unannounced d)
    (hread : Value.read? false d = some (v, [])) (negative : Bool) :
    let source : Text := (if negative then '-' else '+') :: d
    ∃ a b, a.kind = b.kind ∧ a.eq b = true ∧
      foldSource true source = .ok [⟨Statement.span 0 source, String.ofList source, a⟩] ∧
      foldSource false source = .ok [⟨Statement.span 0 source, String.ofList source, b⟩] := by
  intro source
  obtain ⟨l, hl, rfl⟩ := Value.exists_reads_of_read? hread
  obtain ⟨l', hl', b, hb, hagree⟩ := exists_reads_signed negative hl hstart hradix
  have hsource : '\n' ∉ source := by
    simp only [source, List.mem_cons, hline, or_false]
    cases negative <;> decide
  have hliteral : Expression.Written true ⟨none, l'.value, .none⟩ ([] ++ (source ++ [])) :=
    .intro .none ⟨Value.read?_of_reads hl', hsource⟩ .none
  have hoperator : Expression.Written false ⟨some (.unary (.ofSign negative)), l.value, .none⟩
      (Lead.chars (.unary (.ofSign negative)) ++ [] ++ (d ++ [])) :=
    .intro (.some nofun nofun) ⟨hread, hline⟩ .none
  have hchars : Lead.chars (.unary (.ofSign negative)) ++ [] ++ (d ++ []) = source := by
    cases negative <;> simp [Lead.chars, UnaryOp.ofSign, UnaryOp.symbol, source]
  rw [List.nil_append, List.append_nil] at hliteral
  rw [hchars] at hoperator
  refine ⟨l'.value, b, hagree.kind, hagree.eq, foldSource_of_written hliteral rfl, ?_⟩
  refine foldSource_of_written hoperator ?_
  show (Value.unary (.ofSign negative) l.value >>= Tail.run .none) = .ok b
  rw [hb]
  rfl

/-- The exponent of `1.5.2etrue` is no integer and its mantissa no number, so that a minus leaves the zero
of the literal positive and makes the operator's negative. -/
theorem literal_sign_agrees_with_operator_zero :
    let d : Text := "1.5.2etrue".toList
    let v : Value := .float .double (Binary.zero _ false)
    '\n' ∉ d ∧ (∃ c ∈ d.head?, MantissaChar c) ∧ Unannounced d ∧
      Value.read? false d = some (v, []) ∧
      ∃ a b, a.kind = b.kind ∧ a.eq b = true ∧
        foldSource true ('-' :: d) = .ok [⟨⟨0, 11⟩, "-1.5.2etrue", a⟩] ∧
        foldSource false ('-' :: d) = .ok [⟨⟨0, 11⟩, "-1.5.2etrue", b⟩] ∧ a ≠ b := by
  intro d v
  have hread : Value.read? false d = some (v, []) := by decide +kernel
  have hstart : ∃ c ∈ d.head?, MantissaChar c := ⟨'1', rfl, by decide⟩
  have hradix : Unannounced d := fun _ _ _ h => absurd (List.cons.inj h).1 (by decide)
  have hline : '\n' ∉ d := by decide
  obtain ⟨a, b, hkind, heq, ha, hb⟩ :=
    literal_sign_agrees_with_operator d v hline hstart hradix hread true
  refine ⟨hline, hstart, hradix, hread, a, b, hkind, heq, ha, hb, ?_⟩
  rintro rfl
  have hne : foldSource true ('-' :: d) ≠ foldSource false ('-' :: d) := by decide +kernel
  exact hne (ha.trans hb.symm)

/-- A radix number is signed just if the sign is its own. -/
example :
    foldSource true "-0xff".toList = .ok [⟨⟨0, 5⟩, "-0xff", .int .int16 (-255)⟩] ∧
      foldSource false "-0xff".toList = .ok [⟨⟨0, 5⟩, "-0xff", .int .uint16 (-255)⟩] := by
  decide +kernel

end

end KernelFront
