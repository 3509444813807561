import KernelFront.Literal.Grammar
import KernelFront.Literal.Reader

/-!
# The reader and the grammar of literals

`reader_takes_grammar`: the reader takes exactly what the grammar reads. Each part of the reader has
its part of the grammar (`signRead?_iff`, `radixRead?_iff`, `readDigits?_iff`, `mantissaRead?_iff`);
the two ways to take a run of characters agree by `run_iff`. Whether the reader refuses does not
depend on what it would read after an exponent marker, so refusal is settled first
(`not_opens_of_read?`) and the grammar by induction after it.
-/

namespace KernelFront

/-- Taking characters while they are in a class takes the run that the class has there. -/
theorem run_iff {p : Char → Bool} {q : Char → Prop} (hp : ∀ c, p c = true ↔ q c)
    {cs run rest : Text} :
    cs.takeWhile p = run ∧ cs.dropWhile p = rest ↔ cs = run ++ rest ∧ Run q run rest := by
  constructor
  · rintro ⟨rfl, rfl⟩
    refine ⟨List.takeWhile_append_dropWhile.symm, fun c hc => ?_, fun c hc => ?_⟩
    · exact (hp c).1 (List.all_eq_true.1 List.all_takeWhile c hc)
    · have h := List.head?_dropWhile_not p cs
      rw [Option.mem_def.1 hc] at h
      exact fun hq => Bool.false_ne_true (h.symm.trans ((hp c).2 hq))
  · rintro ⟨rfl, hall, hmax⟩
    have hrun : ∀ c ∈ run, p c = true := fun c hc => (hp c).2 (hall c hc)
    have hrest : rest.takeWhile p = [] ∧ rest.dropWhile p = rest := by
      cases rest with
      | nil => exact ⟨rfl, rfl⟩
      | cons c r =>
        have hc : p c = false := Bool.eq_false_iff.2 fun h => hmax c rfl ((hp c).1 h)
        simp [hc]
    rw [List.takeWhile_append_of_pos hrun, List.dropWhile_append_of_pos hrun, hrest.1, hrest.2,
      List.append_nil]
    exact ⟨rfl, rfl⟩

/-- Every text starts with a run of every class, if only an empty one. -/
theorem run_takeWhile {p : Char → Bool} {q : Char → Prop} (hp : ∀ c, p c = true ↔ q c)
    (cs : Text) :
    cs = cs.takeWhile p ++ cs.dropWhile p ∧ Run q (cs.takeWhile p) (cs.dropWhile p) :=
  (run_iff hp).1 ⟨rfl, rfl⟩

namespace Literal

/-! ## Characters -/

/-- The three ranges of digits, each up to the radix. -/
theorem isDigit_iff_toNat (radix : Nat) (c : Char) :
    Numeral.isDigit radix c = true ↔
      (48 ≤ c.toNat ∧ c.toNat ≤ 57 ∧ c.toNat < radix + 48) ∨
        (97 ≤ c.toNat ∧ c.toNat ≤ 102 ∧ c.toNat < radix + 87) ∨
          (65 ≤ c.toNat ∧ c.toNat ≤ 70 ∧ c.toNat < radix + 55) := by
  show ((if 48 ≤ c.toNat ∧ c.toNat ≤ 57 then some (c.toNat - 48)
    else if 97 ≤ c.toNat ∧ c.toNat ≤ 102 then some (c.toNat - 97 + 10)
    else if 65 ≤ c.toNat ∧ c.toNat ≤ 70 then some (c.toNat - 65 + 10)
    else none).filter (· < radix)).isSome = true ↔ _
  rw [Option.isSome_filter]
  by_cases h0 : 48 ≤ c.toNat ∧ c.toNat ≤ 57
  · rw [if_pos h0, Option.any_some, decide_eq_true_iff]
    omega
  by_cases ha : 97 ≤ c.toNat ∧ c.toNat ≤ 102
  · rw [if_neg h0, if_pos ha, Option.any_some, decide_eq_true_iff]
    omega
  by_cases hA : 65 ≤ c.toNat ∧ c.toNat ≤ 70
  · rw [if_neg h0, if_neg ha, if_pos hA, Option.any_some, decide_eq_true_iff]
    omega
  · rw [if_neg h0, if_neg ha, if_neg hA, Option.any_none]
    refine iff_of_false Bool.false_ne_true ?_
    omega

theorem isDigit_ten_iff (c : Char) : Numeral.isDigit 10 c = true ↔ DecimalDigit c := by
  rw [isDigit_iff_toNat]
  show _ ↔ 48 ≤ c.toNat ∧ c.toNat ≤ 57
  omega

theorem isDigit_iff_radixDigit (r : Radix) (c : Char) : r.isDigit c = true ↔ RadixDigit r c := by
  unfold Radix.isDigit
  rw [isDigit_iff_toNat]
  cases r with
  | binary =>
    show _ ↔ c = '0' ∨ c = '1'
    rw [← Char.toNat_inj, ← Char.toNat_inj]
    show (_ ∧ _ ∧ c.toNat < 2 + 48 ∨ _ ∧ _ ∧ c.toNat < 2 + 87 ∨ _ ∧ _ ∧ c.toNat < 2 + 55) ↔
      c.toNat = 48 ∨ c.toNat = 49
    omega
  | hexadecimal =>
    show (_ ∧ _ ∧ c.toNat < 16 + 48 ∨ _ ∧ _ ∧ c.toNat < 16 + 87 ∨ _ ∧ _ ∧ c.toNat < 16 + 55) ↔
      (48 ≤ c.toNat ∧ c.toNat ≤ 57) ∨ (97 ≤ c.toNat ∧ c.toNat ≤ 102) ∨
        (65 ≤ c.toNat ∧ c.toNat ≤ 70)
    omega

theorem isMantissaChar_iff (c : Char) : isMantissaChar c = true ↔ MantissaChar c := by
  simp [isMantissaChar, MantissaChar, isDigit_ten_iff]

theorem isSuffixLetter_iff (c : Char) : isSuffixLetter c = true ↔ SuffixLetter c := by
  simp [isSuffixLetter, SuffixLetter, or_assoc]

theorem isAsciiBlank_iff (c : Char) : isAsciiBlank c = true ↔ BlankChar c := by
  simp [isAsciiBlank, BlankChar, or_assoc]

/-! ## Parts -/

section

variable {signs : Bool} {sign : Sign} {cs body digits after rest : Text} {r : Radix} {m : Mantissa}
  {b upper : Bool}

theorem readKeyword?_iff : readKeyword? cs = some (b, rest) ↔ cs = keywordChars b ++ rest := by
  refine ⟨eq_append_of_readKeyword?, ?_⟩
  rintro rfl
  cases b <;> rfl

theorem signRead?_iff : Sign.read? signs cs = some (sign, body) ↔ Signed signs sign cs body := by
  constructor
  · intro h
    unfold Sign.read? at h
    split at h
    · rename_i c r
      split at h
      · rename_i hc
        split at h
        · rename_i hsigns
          cases h
          obtain ⟨hr, hrun⟩ := run_takeWhile isAsciiBlank_iff r
          have key : Signed signs (.given (c == '-') _) _ _ := .given hsigns hrun
          rw [← hr] at key
          rcases hc with rfl | rfl <;> exact key
        · cases h
      · rename_i hc
        cases h
        refine .absent fun d hd => ?_
        cases hd
        exact hc
    · cases h
      exact .absent fun d hd => by cases hd
  · intro h
    cases h with
    | absent hd =>
      cases cs with
      | nil => rfl
      | cons c r =>
        have hc : ¬ (c = '+' ∨ c = '-') := hd c rfl
        simp [Sign.read?, hc]
    | @given negative blanks body hsigns hrun =>
      obtain ⟨h1, h2⟩ := (run_iff isAsciiBlank_iff).2 ⟨rfl, hrun⟩
      cases negative <;> simp [Sign.read?, hsigns, h1, h2]

theorem radixRead?_iff : Radix.read? body = some ((r, upper), after) ↔ Announces body r upper after := by
  refine ⟨Radix.eq_append_of_read?, ?_⟩
  rintro rfl
  cases r <;> cases upper <;> rfl

theorem radixRead?_eq_none_iff : Radix.read? body = none ↔ Unannounced body := by
  constructor
  · intro h r upper digits ha
    rw [radixRead?_iff.2 ha] at h
    cases h
  · intro h
    cases hr : Radix.read? body with
    | none => rfl
    | some found => exact absurd (radixRead?_iff.1 hr) (h _ _ _)

theorem readDigits?_iff :
    readDigits? r body = some (digits, rest) ↔
      body = digits ++ rest ∧ digits ≠ [] ∧ Run (RadixDigit r) digits rest := by
  rw [and_left_comm, ← run_iff (isDigit_iff_radixDigit r)]
  simp only [readDigits?]
  split
  · rename_i h
    simp only [reduceCtorEq, false_iff, not_and]
    rintro hne rfl
    exact absurd h hne
  · rename_i h
    simp only [Option.some.injEq, Prod.mk.injEq]
    constructor
    · rintro ⟨rfl, rfl⟩
      exact ⟨h, rfl, rfl⟩
    · exact And.right

theorem mantissaRead?_iff :
    Mantissa.read? sign body = some (m, rest) ↔
      m.sign = sign ∧ body = m.digits ++ (m.suffix ++ rest) ∧
        Run MantissaChar m.digits (m.suffix ++ rest) ∧ (∃ c ∈ m.digits, DecimalDigit c) ∧
        Run SuffixLetter m.suffix rest := by
  simp only [Mantissa.read?]
  constructor
  · intro h
    split at h
    · rename_i hd
      cases h
      obtain ⟨h1, h2⟩ := run_takeWhile isMantissaChar_iff body
      obtain ⟨h3, h4⟩ := run_takeWhile isSuffixLetter_iff (body.dropWhile isMantissaChar)
      obtain ⟨c, hc, hcd⟩ := List.any_eq_true.1 hd
      rw [h3] at h1 h2
      exact ⟨rfl, h1, h2, ⟨c, hc, (isDigit_ten_iff c).1 hcd⟩, h4⟩
    · cases h
  · rintro ⟨rfl, rfl, h2, ⟨c, hc, hcd⟩, h4⟩
    obtain ⟨e1, e2⟩ := (run_iff isMantissaChar_iff).2 ⟨rfl, h2⟩
    obtain ⟨e3, e4⟩ := (run_iff isSuffixLetter_iff).2 ⟨rfl, h4⟩
    rw [e1, e2, e3, e4, if_pos (List.any_eq_true.2 ⟨c, hc, (isDigit_ten_iff c).2 hcd⟩)]

theorem readMarker?_iff : readMarker? after = some (upper, rest) ↔ after = exponentMarker upper :: rest := by
  refine ⟨eq_cons_of_readMarker?, ?_⟩
  rintro rfl
  cases upper <;> rfl

theorem readMarker?_eq_none_iff :
    readMarker? after = none ↔ ∀ upper, after.head? ≠ some (exponentMarker upper) := by
  constructor
  · intro h upper hu
    obtain ⟨r, rfl⟩ := List.head?_eq_some_iff.1 hu
    rw [readMarker?_iff.2 rfl] at h
    cases h
  · intro h
    cases hr : readMarker? after with
    | none => rfl
    | some found => exact absurd (congrArg List.head? (readMarker?_iff.1 hr)) (h _)

theorem readsMantissa_iff :
    ReadsMantissa signs m cs rest ↔ ∃ sign body, Sign.read? signs cs = some (sign, body) ∧
      Radix.read? body = none ∧ Mantissa.read? sign body = some (m, rest) := by
  constructor
  · rintro ⟨hs, hu, hrun, hd, hsuffix⟩
    exact ⟨m.sign, _, signRead?_iff.2 hs, radixRead?_eq_none_iff.2 hu,
      mantissaRead?_iff.2 ⟨rfl, rfl, hrun, hd, hsuffix⟩⟩
  · rintro ⟨sign, body, hs, hu, hm⟩
    obtain ⟨rfl, rfl, hrun, hd, hsuffix⟩ := mantissaRead?_iff.1 hm
    exact ⟨signRead?_iff.1 hs, radixRead?_eq_none_iff.1 hu, hrun, hd, hsuffix⟩

/-- No keyword stands where a number does. -/
theorem readKeyword?_eq_none (hs : Signed signs sign cs body)
    (hb : ∃ c ∈ body.head?, MantissaChar c) : readKeyword? cs = none := by
  obtain ⟨c, hc, hm⟩ := hb
  cases hk : readKeyword? cs with
  | none => rfl
  | some found =>
    exfalso
    have hcs := readKeyword?_iff.1 hk
    cases hs with
    | absent =>
      rw [hcs] at hc
      rcases found with ⟨_ | _, _⟩ <;> cases hc <;> revert hm <;> unfold MantissaChar DecimalDigit <;>
        decide
    | @given negative =>
      rcases found with ⟨_ | _, _⟩ <;> cases negative <;> exact absurd (List.cons.inj hcs).1 (by decide)

/-! ## The reader -/

/-- The reader without the proofs that it ends. -/
theorem read?_eq (signs : Bool) (cs : Text) : read? signs cs =
    match readKeyword? cs with
    | some (b, r) => some (keyword b, r)
    | none => (Sign.read? signs cs).bind fun (sign, body) =>
      match Radix.read? body with
      | some ((r, upper), after) =>
        (readDigits? r after).map fun (digits, rest) => (radix sign r upper digits, rest)
      | none => (Mantissa.read? sign body).bind fun (m, after) =>
        match readMarker? after with
        | none => some (plain m, after)
        | some (upper, after) =>
          match read? true after with
          | none => some (dangling m upper, after)
          | some (exponent, rest) => some (scaled m upper exponent, rest) := by
  fun_cases read? signs cs <;> simp [*]

theorem read?_of_readsMantissa (h : ReadsMantissa signs m cs after) : read? signs cs =
    match readMarker? after with
    | none => some (plain m, after)
    | some (upper, after) =>
      match read? true after with
      | none => some (dangling m upper, after)
      | some (exponent, rest) => some (scaled m upper exponent, rest) := by
  obtain ⟨sign, body, hs, hu, hm⟩ := readsMantissa_iff.1 h
  obtain ⟨-, hbody, hrun, ⟨c, hc, -⟩, -⟩ := mantissaRead?_iff.1 hm
  have hk : readKeyword? cs = none := by
    refine readKeyword?_eq_none (signRead?_iff.1 hs) ?_
    obtain ⟨d, ds, hd⟩ := List.exists_cons_of_ne_nil (List.ne_nil_of_mem hc)
    rw [hbody, hd]
    exact ⟨d, rfl, hrun.all d (by rw [hd]; exact List.mem_cons_self)⟩
  rw [read?_eq, hk]
  simp only [hs, Option.bind_some, hu, hm]

theorem read?_of_radix (hs : Signed signs sign cs body) (ha : Announces body r upper after) :
    read? signs cs =
      (readDigits? r after).map fun (digits, rest) => (radix sign r upper digits, rest) := by
  have hk : readKeyword? cs = none := by
    refine readKeyword?_eq_none hs ⟨'0', ?_, .inl (by unfold DecimalDigit; decide)⟩
    rw [ha]
    rfl
  rw [read?_eq, hk]
  simp only [signRead?_iff.2 hs, Option.bind_some, radixRead?_iff.2 ha]

theorem not_opens_of_read? (h : read? signs cs = none) : ¬ Opens signs cs := by
  rintro (⟨b, rest, hk⟩ | ⟨sign, body, hs, hn⟩)
  · rw [read?_eq, readKeyword?_iff.2 hk] at h
    cases h
  rcases hn with ⟨r, upper, digits, ha, c, hc, hcd⟩ | ⟨hu, run, rest, rfl, hrun, hd⟩
  · rw [read?_of_radix hs ha] at h
    have hdigits : readDigits? r digits = none := Option.map_eq_none_iff.1 h
    obtain ⟨h1, h2⟩ := run_takeWhile (isDigit_iff_radixDigit r) digits
    refine absurd (readDigits?_iff.2 ⟨h1, ?_, h2⟩) (by rw [hdigits]; exact nofun)
    obtain ⟨ds, rfl⟩ := List.head?_eq_some_iff.1 hc
    simp [(isDigit_iff_radixDigit r c).2 hcd]
  · obtain ⟨h3, h4⟩ := run_takeWhile isSuffixLetter_iff rest
    rw [h3] at hs hu hrun
    have hm : ReadsMantissa signs ⟨sign, run, _⟩ cs _ := ⟨hs, hu, hrun, hd, h4⟩
    rw [read?_of_readsMantissa hm] at h
    split at h
    · cases h
    · split at h <;> cases h

theorem reads_of_read? {l : Literal} (h : read? signs cs = some (l, rest)) :
    Reads signs cs l rest := by
  fun_induction read? signs cs generalizing l rest with
  | case1 _ _ b r hk =>
    cases h
    rw [readKeyword?_iff.1 hk]
    exact .keyword b r
  | case2 => cases h
  | case3 _ _ _ sign cs' hs r upper cs'' hr =>
    obtain ⟨⟨digits, t⟩, hd, e⟩ := Option.map_eq_some_iff.1 h
    cases e
    obtain ⟨rfl, hne, hrun⟩ := readDigits?_iff.1 hd
    exact .radix (signRead?_iff.1 hs) (radixRead?_iff.1 hr) hne hrun
  | case4 => cases h
  | case5 _ _ _ sign cs' hs hr m r hm he =>
    cases h
    exact .plain (readsMantissa_iff.2 ⟨_, _, hs, hr, hm⟩) (readMarker?_eq_none_iff.1 he)
  | case6 _ _ _ sign cs' hs hr m r hm upper r' he _ hn =>
    cases h
    rw [readMarker?_iff.1 he] at hm
    exact .dangling (readsMantissa_iff.2 ⟨_, _, hs, hr, hm⟩) (not_opens_of_read? hn)
  | case7 _ _ _ sign cs' hs hr m r hm upper r' he _ exponent t hn ih =>
    cases h
    rw [readMarker?_iff.1 he] at hm
    exact .scaled (readsMantissa_iff.2 ⟨_, _, hs, hr, hm⟩) (ih hn)

theorem opens_of_readsMantissa (h : ReadsMantissa signs m cs rest) : Opens signs cs := by
  obtain ⟨hs, hu, hrun, hd, -⟩ := h
  exact .inr ⟨_, _, hs, .inr ⟨hu, _, _, rfl, hrun, hd⟩⟩

theorem Reads.opens {l : Literal} (h : Reads signs cs l rest) : Opens signs cs := by
  cases h with
  | keyword b rest => exact .inl ⟨b, rest, rfl⟩
  | radix hs ha hne hrun =>
    obtain ⟨c, ds, rfl⟩ := List.exists_cons_of_ne_nil hne
    exact .inr ⟨_, _, hs, .inl ⟨_, _, _, ha, c, rfl, hrun.all c List.mem_cons_self⟩⟩
  | plain h _ => exact opens_of_readsMantissa h
  | dangling h _ => exact opens_of_readsMantissa h
  | scaled h _ => exact opens_of_readsMantissa h

theorem read?_of_reads {l : Literal} (h : Reads signs cs l rest) :
    read? signs cs = some (l, rest) := by
  induction h with
  | keyword b rest => rw [read?_eq, readKeyword?_iff.2 rfl]
  | radix hs ha hne hrun => rw [read?_of_radix hs ha, readDigits?_iff.2 ⟨rfl, hne, hrun⟩]; rfl
  | plain h he => rw [read?_of_readsMantissa h, readMarker?_eq_none_iff.2 he]
  | @dangling _ _ _ _ rest h ho =>
    have hn : read? true rest = none := by
      cases hr : read? true rest with
      | none => rfl
      | some found => exact absurd (reads_of_read? hr).opens ho
    rw [read?_of_readsMantissa h, readMarker?_iff.2 rfl]
    simp only [hn]
  | scaled h _ ih =>
    rw [read?_of_readsMantissa h, readMarker?_iff.2 rfl]
    simp only [ih]

end

theorem opens_iff {signs : Bool} {cs : Text} :
    Opens signs cs ↔ ∃ l rest, Reads signs cs l rest := by
  constructor
  · intro h
    cases hr : read? signs cs with
    | none => exact absurd h (not_opens_of_read? hr)
    | some found => exact ⟨_, _, reads_of_read? hr⟩
  · rintro ⟨l, rest, h⟩
    exact h.opens

/-! ## Kinds -/

theorem kind_decimalValue (marked : Bool) (m : Mantissa) (exponent : Text) :
    (decimalValue marked m exponent).kind =
      if marked then .float .single
      else if '.' ∈ m.digits then .float .double
      else .int (suffixKind m.suffix) := by
  unfold decimalValue
  cases marked with
  | true =>
    rw [if_pos (.inr rfl)]
    rfl
  | false =>
    by_cases hp : '.' ∈ m.digits
    · rw [if_pos (.inl hp)]
      simp [hp, floatValue, Value.kind]
    · rw [if_neg (by simp [hp])]
      simp [hp, integerValue, Value.ofInt, Value.kind]

theorem isFloat_iff (k : Kind) : k.isFloat = true ↔ k = .float .single ∨ k = .float .double := by
  rcases k with _ | _ | _ | (_ | _) | _ <;> simp [Kind.isFloat]

theorem kind_value {l : Literal} {m : Mantissa} (h : l.mantissa? = some m) :
    ∃ marked : Bool, (marked = true ↔ l.Marked) ∧
      l.value.kind = if marked then .float .single
        else if '.' ∈ m.digits then .float .double
        else .int (suffixKind m.suffix) := by
  cases l with
  | keyword | radix => cases h
  | plain =>
    cases h
    exact ⟨_, by simp [Marked, and_or_left, exists_or], kind_decimalValue _ _ _⟩
  | dangling =>
    cases h
    exact ⟨false, by simp [Marked], kind_decimalValue _ _ _⟩
  | scaled =>
    cases h
    exact ⟨_, isFloat_iff _, kind_decimalValue _ _ _⟩

/-- A literal denotes a truth value or a number. -/
theorem kind_value_ne (l : Literal) : l.value.kind ≠ .unset ∧ l.value.kind ≠ .pointer := by
  cases hm : l.mantissa? with
  | some m =>
    obtain ⟨marked, -, e⟩ := kind_value hm
    rw [e]
    split
    · exact ⟨nofun, nofun⟩
    · split <;> exact ⟨nofun, nofun⟩
  | none =>
    cases l with
    | keyword | radix => exact ⟨nofun, nofun⟩
    | plain | dangling | scaled => cases hm

theorem value_ne_unset (l : Literal) : l.value ≠ .unset :=
  fun h => (kind_value_ne l).1 (congrArg Value.kind h)

theorem signed_suffixKind (suffix : Text) :
    (suffixKind suffix).signed = false ↔ 'U' ∈ suffix ∨ 'u' ∈ suffix := by
  simp [suffixKind, and_or_left, exists_or]

theorem width_suffixKind (suffix : Text) :
    (suffixKind suffix).width = if 'L' ∈ suffix ∨ 'l' ∈ suffix then .w64 else .w32 := by
  simp [suffixKind, and_or_left, exists_or]

/-! ## Main result -/

/-- **The reader takes exactly the literals of the grammar.** It refuses a text just where no literal
starts; what it takes is the grammar's literal with all its characters, and a decimal number has the
kind that its point, its suffix letters and its exponent give. -/
theorem reader_takes_grammar (signs : Bool) (cs : Text) :
    (∀ l rest, read? signs cs = some (l, rest) ↔ Reads signs cs l rest) ∧
      (∀ v rest, Value.read? signs cs = some (v, rest) ↔
        ∃ l, Reads signs cs l rest ∧ l.value = v) ∧
      (Value.read? signs cs = none ↔ ¬ Opens signs cs) ∧
      (Opens signs cs ↔ ∃ l rest, Reads signs cs l rest) ∧
      (∀ l rest, Reads signs cs l rest →
        cs = l.chars ++ rest ∧ l.value ≠ .unset ∧
          ∀ m, l.mantissa? = some m →
            (l.value.kind = .float .single ↔ l.Marked) ∧
            (l.value.kind = .float .double ↔ ¬ l.Marked ∧ '.' ∈ m.digits) ∧
            (¬ l.Marked → '.' ∉ m.digits → ∃ k, l.value.kind = .int k ∧
              (k.signed = false ↔ 'U' ∈ m.suffix ∨ 'u' ∈ m.suffix) ∧
              k.width = if 'L' ∈ m.suffix ∨ 'l' ∈ m.suffix then .w64 else .w32)) := by
  have hread : ∀ l rest, read? signs cs = some (l, rest) ↔ Reads signs cs l rest :=
    fun l rest => ⟨reads_of_read?, read?_of_reads⟩
  refine ⟨hread, fun v rest => ?_, ?_, opens_iff, fun l rest h => ⟨?_, value_ne_unset l, ?_⟩⟩
  · unfold Value.read?
    constructor
    · intro h
      obtain ⟨⟨l, r⟩, hl, e⟩ := Option.map_eq_some_iff.1 h
      cases e
      exact ⟨l, reads_of_read? hl, rfl⟩
    · rintro ⟨l, hl, rfl⟩
      rw [read?_of_reads hl]
      rfl
  · unfold Value.read?
    rw [Option.map_eq_none_iff, opens_iff]
    constructor
    · rintro hn ⟨l, rest, h⟩
      rw [read?_of_reads h] at hn
      cases hn
    · intro hn
      cases hr : read? signs cs with
      | none => rfl
      | some found => exact absurd ⟨_, _, reads_of_read? hr⟩ hn
  · exact eq_append_of_read? (read?_of_reads h)
  · intro m hm
    obtain ⟨marked, hmarked, hk⟩ := kind_value hm
    rw [hk, ← hmarked]
    cases marked with
    | true => simp
    | false =>
      by_cases hp : '.' ∈ m.digits
      · simp [hp]
      · refine ⟨by simp [hp], by simp [hp], fun _ _ =>
          ⟨suffixKind m.suffix, by simp [hp], ?_, ?_⟩⟩
        · exact signed_suffixKind m.suffix
        · exact width_suffixKind m.suffix

/-- The letter of `2.f` is forgotten when an exponent follows: `-0x1` is no float, so that the number
is a double, and the suffix letter after it is left. -/
theorem reader_takes_radix_exponent :
    Reads false "2.fe-0x1Lz".toList
        (.scaled ⟨.absent, ['2', '.'], ['f']⟩ false (.radix (.given true []) .hexadecimal false ['1']))
        ['L', 'z'] ∧
      (∃ l, Reads false "2.fe-0x1Lz".toList l ['L', 'z'] ∧ l.value.kind = .float .double) ∧
      ¬ Opens true "-0x".toList := by
  have h := reader_takes_grammar false "2.fe-0x1Lz".toList
  have hl := (h.1 (.scaled ⟨.absent, ['2', '.'], ['f']⟩ false
    (.radix (.given true []) .hexadecimal false ['1'])) ['L', 'z']).1 (by decide +kernel)
  refine ⟨hl, ⟨_, hl, ?_⟩, ?_⟩
  · refine ((h.2.2.2.2 _ _ hl).2.2 _ rfl).2.1.2 ⟨?_, by decide⟩
    rintro (hm | hm) <;> revert hm <;> decide +kernel
  · exact (reader_takes_grammar true "-0x".toList).2.2.1.1 (by decide +kernel)

end Literal

/-! ## Values -/

namespace Value

variable {signs : Bool} {cs rest : Text}

theorem read?_of_reads {l : Literal} (h : Literal.Reads signs cs l rest) :
    read? signs cs = some (l.value, rest) := by
  rw [read?, Literal.read?_of_reads h]
  rfl

theorem exists_reads_of_read? {v : Value} (h : read? signs cs = some (v, rest)) :
    ∃ l, Literal.Reads signs cs l rest ∧ l.value = v := by
  obtain ⟨⟨l, r⟩, hl, e⟩ := Option.map_eq_some_iff.1 h
  cases e
  exact ⟨l, Literal.reads_of_read? hl, rfl⟩

end Value

end KernelFront
