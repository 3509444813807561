import KernelFront.Proofs.Literal.Reading

/-!
# Literals in context

`Reads.append`: a literal that is all of a text is also what is read where more text follows, as long
as it ends there (`Ends`). That is a matter of the first character, except after an exponent marker,
behind which a signed literal would still be read. The literal itself starts and ends with characters
of its own, which no blank is (`Reads.starts`, `Reads.endsIn_word`).
-/

namespace KernelFront

theorem Run.append {p : Char → Prop} {run rest t : Text} (h : Run p run rest)
    (ht : ∀ c ∈ t.head?, ¬ p c) : Run p run (rest ++ t) := by
  refine ⟨h.all, ?_⟩
  cases rest with
  | nil => exact ht
  | cons c rest => exact fun d hd => h.maximal d hd

namespace Literal

/-! ## Characters -/

/-- The characters that literals are made of, between the sign of a number and the next sign: ASCII
letters and digits, and the point. -/
def WordChar (c : Char) : Prop :=
  ('0' ≤ c ∧ c ≤ '9') ∨ ('a' ≤ c ∧ c ≤ 'z') ∨ ('A' ≤ c ∧ c ≤ 'Z') ∨ c = '.'

instance (c : Char) : Decidable (WordChar c) := inferInstanceAs (Decidable (_ ∨ _))

theorem MantissaChar.wordChar {c : Char} (h : MantissaChar c) : WordChar c :=
  h.elim .inl fun h => .inr (.inr (.inr h))

theorem SuffixLetter.wordChar {c : Char} (h : SuffixLetter c) : WordChar c := by
  simp only [SuffixLetter, List.mem_cons, List.not_mem_nil, or_false] at h
  rcases h with rfl | rfl | rfl | rfl | rfl | rfl <;> decide

theorem RadixDigit.wordChar {r : Radix} {c : Char} (h : RadixDigit r c) : WordChar c := by
  cases r with
  | binary => rcases h with rfl | rfl <;> decide
  | hexadecimal =>
    rcases h with h | ⟨ha, hf⟩ | ⟨ha, hf⟩
    · exact .inl h
    · exact .inr (.inl ⟨ha, Char.le_trans hf (by decide)⟩)
    · exact .inr (.inr (.inl ⟨ha, Char.le_trans hf (by decide)⟩))

theorem wordChar_marker (r : Radix) (upper : Bool) : WordChar (r.marker upper) := by
  cases r <;> cases upper <;> decide

theorem wordChar_exponentMarker (upper : Bool) : WordChar (exponentMarker upper) := by
  cases upper <;> decide

theorem not_wordChar_of_signChar {c : Char} (h : SignChar c) : ¬ WordChar c := by
  rcases h with rfl | rfl <;> decide

theorem not_blankChar_of_signChar {c : Char} (h : SignChar c) : ¬ BlankChar c := by
  rcases h with rfl | rfl <;> decide

theorem WordChar.bounds {c : Char} (h : WordChar c) : 46 ≤ c.toNat ∧ c.toNat ≤ 122 := by
  have hc : (48 ≤ c.toNat ∧ c.toNat ≤ 57) ∨ (97 ≤ c.toNat ∧ c.toNat ≤ 122) ∨
      (65 ≤ c.toNat ∧ c.toNat ≤ 90) ∨ c.toNat = 46 :=
    h.imp_right (Or.imp_right (Or.imp_right (congrArg Char.toNat)))
  omega

theorem not_isBlank_of_wordChar {c : Char} (h : WordChar c) : isBlank c = false := by
  have hbounds := h.bounds
  refine Bool.eq_false_iff.2 fun hblank => ?_
  simp only [isBlank, Bool.or_eq_true, Bool.and_eq_true, decide_eq_true_iff, beq_iff_eq] at hblank
  omega

theorem not_isBlank_of_signChar {c : Char} (h : SignChar c) : isBlank c = false := by
  rcases h with rfl | rfl <;> decide

/-! ## The end of a literal -/

/-- A literal ends before the text: no character of a word comes next, nor a literal with its sign,
which an exponent marker would take. -/
structure Ends (t : Text) : Prop where
  word : ∀ c ∈ t.head?, ¬ WordChar c
  closed : ¬ Opens true t

theorem not_opensNumber {body : Text} (h : ∀ c ∈ body.head?, ¬ WordChar c) :
    ¬ OpensNumber body := by
  rintro (⟨r, upper, digits, rfl, -⟩ | ⟨-, run, rest, rfl, hrun, c, hc, -⟩)
  · exact h '0' rfl (by decide)
  · obtain ⟨d, ds, rfl⟩ := List.exists_cons_of_ne_nil (List.ne_nil_of_mem hc)
    exact h d rfl (hrun.all d List.mem_cons_self).wordChar

/-- Where a number may have a sign, the sign and its blanks are read first. -/
theorem not_opens {signs : Bool} {t : Text} (h : ∀ c ∈ t.head?, ¬ WordChar c)
    (hs : ∀ sign body, Signed signs sign t body → ∀ c ∈ body.head?, ¬ WordChar c) :
    ¬ Opens signs t := by
  rintro (⟨b, rest, rfl⟩ | ⟨sign, body, hsign, hnumber⟩)
  · cases b
    · exact h 'f' rfl (by decide)
    · exact h 't' rfl (by decide)
  · exact not_opensNumber (hs sign body hsign) hnumber

/-- Nothing is read on from a text that starts neither with a sign nor with a word. -/
theorem ends_of_head {t : Text} (h : ∀ c ∈ t.head?, ¬ WordChar c ∧ ¬ SignChar c) : Ends t := by
  refine ⟨fun c hc => (h c hc).1, not_opens (fun c hc => (h c hc).1) fun sign body hsign => ?_⟩
  cases hsign with
  | absent => exact fun c hc => (h c hc).1
  | @given negative =>
    refine absurd ?_ (h _ rfl).2
    cases negative
    · exact .inl rfl
    · exact .inr rfl

/-- A step has two signs, and only one belongs to a number. -/
theorem ends_signs {c d : Char} (hc : SignChar c) (hd : SignChar d) (t : Text) :
    Ends (c :: d :: t) := by
  have hword : ∀ e ∈ (c :: d :: t).head?, ¬ WordChar e := fun e he =>
    Option.some.inj he ▸ not_wordChar_of_signChar hc
  refine ⟨hword, not_opens hword fun sign body hsign => ?_⟩
  generalize hcs : c :: d :: t = cs at hsign
  cases hsign with
  | absent habsent => exact absurd hc (habsent c (hcs ▸ rfl))
  | @given _ blanks _ _ hrun =>
    obtain ⟨-, htail⟩ := List.cons.inj hcs
    cases blanks with
    | nil =>
      obtain rfl : d :: t = body := htail
      exact fun e he => Option.some.inj he ▸ not_wordChar_of_signChar hd
    | cons b blanks =>
      obtain ⟨rfl, -⟩ := List.cons.inj htail
      exact absurd (hrun.all d List.mem_cons_self) (not_blankChar_of_signChar hd)

/-! ## Appending -/

section

variable {signs : Bool} {sign : Sign} {cs body rest t : Text} {m : Mantissa} {l : Literal}

theorem Signed.append (h : Signed signs sign cs body) (hb : body ≠ []) (t : Text) :
    Signed signs sign (cs ++ t) (body ++ t) := by
  obtain ⟨c, body, rfl⟩ := List.exists_cons_of_ne_nil hb
  cases h with
  | absent h => exact .absent h
  | @given negative blanks _ hs hrun =>
    have hrun' : Run BlankChar blanks (c :: body ++ t) := ⟨hrun.all, hrun.maximal⟩
    have h := @Signed.given signs negative blanks _ hs hrun'
    rwa [← List.append_assoc, ← List.cons_append] at h

theorem Unannounced.append (h : Unannounced body) (hb : body ≠ [])
    (ht : ∀ c ∈ t.head?, ¬ WordChar c) : Unannounced (body ++ t) := by
  intro r upper digits ha
  match body, hb with
  | [c], _ =>
    -- The zero would be the literal's, and the marker the first character after it.
    obtain ⟨-, htail⟩ := List.cons.inj ha
    exact ht _ (by rw [show t = _ from htail]; rfl) (wordChar_marker r upper)
  | c :: d :: body, _ =>
    obtain ⟨hc, htail⟩ := List.cons.inj ha
    obtain ⟨hd, -⟩ := List.cons.inj htail
    exact h r upper body (by rw [hc, hd]; rfl)

theorem ReadsMantissa.append (h : ReadsMantissa signs m cs rest) (ht : ∀ c ∈ t.head?, ¬ WordChar c) :
    ReadsMantissa signs m (cs ++ t) (rest ++ t) := by
  obtain ⟨hs, hu, hrun, ⟨c, hc, hd⟩, hsuffix⟩ := h
  have hbody : m.digits ++ (m.suffix ++ rest) ≠ [] := List.append_ne_nil_of_left_ne_nil
    (List.ne_nil_of_mem hc) _
  have hassoc : m.digits ++ (m.suffix ++ (rest ++ t)) = m.digits ++ (m.suffix ++ rest) ++ t := by
    simp only [List.append_assoc]
  refine ⟨?_, ?_, ?_, ⟨c, hc, hd⟩, hsuffix.append fun c hc h => ht c hc h.wordChar⟩
  · exact hassoc ▸ hs.append hbody t
  · exact hassoc ▸ hu.append hbody ht
  · rw [← List.append_assoc]
    exact hrun.append fun c hc h => ht c hc h.wordChar

/-- **A literal is read in context.** -/
theorem Reads.append (h : Reads signs cs l []) (ht : Ends t) : Reads signs (cs ++ t) l t := by
  -- Nothing follows the exponent either, so that it meets the same text.
  generalize hrest : ([] : Text) = rest at h
  induction h with
  | keyword b rest =>
    subst hrest
    rw [List.append_nil]
    exact .keyword b t
  | @radix _ _ _ body r upper digits rest hs ha hne hrun =>
    subst hrest
    rw [List.append_nil] at ha
    have hbody : body ≠ [] := by rw [ha]; nofun
    have ha' : Announces (body ++ t) r upper (digits ++ t) := by rw [ha]; rfl
    exact .radix (hs.append hbody t) ha' hne (hrun.append fun c hc h => ht.word c hc h.wordChar)
  | plain h he =>
    subst hrest
    refine .plain (h.append ht.word) fun upper hu => ?_
    exact ht.word _ hu (wordChar_exponentMarker upper)
  | dangling h ho =>
    subst hrest
    exact .dangling (h.append ht.word) ht.closed
  | scaled h _ ih => exact .scaled (h.append ht.word) (ih hrest)

/-! ## The ends of the text -/

/-- How a literal starts: with a word, or with a sign and what the sign belongs to. -/
inductive Starts (signs : Bool) : Text → Prop where
  | word {c : Char} {r : Text} : WordChar c → Starts signs (c :: r)
  | sign {c d : Char} {r : Text} : signs = true → SignChar c → BlankChar d ∨ WordChar d →
      Starts signs (c :: d :: r)

theorem Starts.append (h : Starts signs cs) (t : Text) : Starts signs (cs ++ t) := by
  cases h with
  | word hc => exact .word hc
  | sign hs hc hd => exact .sign hs hc hd

theorem Starts.head (h : Starts signs cs) : ∃ c ∈ cs.head?, WordChar c ∨ SignChar c := by
  cases h with
  | word hc => exact ⟨_, rfl, .inl hc⟩
  | sign _ hc _ => exact ⟨_, rfl, .inr hc⟩

theorem Starts.not_blank (h : Starts signs cs) : ∀ c ∈ cs.head?, isBlank c = false := by
  intro c hc
  obtain ⟨d, hd, hchar⟩ := h.head
  obtain rfl := Option.mem_unique hc hd
  exact hchar.elim not_isBlank_of_wordChar not_isBlank_of_signChar

theorem Signed.starts (h : Signed signs sign cs body) (hb : ∃ c ∈ body.head?, WordChar c) :
    Starts signs cs := by
  obtain ⟨c, hc, hword⟩ := hb
  obtain ⟨body, rfl⟩ := List.head?_eq_some_iff.1 hc
  cases h with
  | absent => exact .word hword
  | @given negative blanks _ hs hrun =>
    have hsign : SignChar (if negative then '-' else '+') := by cases negative <;> decide
    cases blanks with
    | nil => exact .sign hs hsign (.inr hword)
    | cons b blanks => exact .sign hs hsign (.inl (hrun.all b List.mem_cons_self))

theorem ReadsMantissa.starts (h : ReadsMantissa signs m cs rest) : Starts signs cs := by
  obtain ⟨hs, -, hrun, ⟨c, hc, -⟩, -⟩ := h
  obtain ⟨d, ds, hd⟩ := List.exists_cons_of_ne_nil (List.ne_nil_of_mem hc)
  refine hs.starts ⟨d, by rw [hd]; rfl, (hrun.all d ?_).wordChar⟩
  rw [hd]
  exact List.mem_cons_self

theorem Reads.starts (h : Reads signs cs l rest) : Starts signs cs := by
  cases h with
  | keyword b rest => cases b <;> exact .word (by decide)
  | radix hs ha _ _ => exact hs.starts ⟨'0', by rw [ha]; rfl, by decide⟩
  | plain h _ => exact h.starts
  | dangling h _ => exact h.starts
  | scaled h _ => exact h.starts

/-- The last character is of a class. -/
def EndsIn (p : Char → Prop) (cs : Text) : Prop := ∃ c ∈ cs.getLast?, p c

theorem endsIn_of_all {p : Char → Prop} (hne : cs ≠ []) (h : ∀ c ∈ cs, p c) : EndsIn p cs :=
  ⟨cs.getLast hne, List.getLast?_eq_some_getLast hne, h _ (List.getLast_mem hne)⟩

theorem EndsIn.append_left {p : Char → Prop} (h : EndsIn p cs) (front : Text) :
    EndsIn p (front ++ cs) := by
  obtain ⟨c, hc, hp⟩ := h
  refine ⟨c, ?_, hp⟩
  rw [List.getLast?_append, Option.mem_def.1 hc]
  rfl

theorem ReadsMantissa.endsIn_word (h : ReadsMantissa signs m cs rest) : EndsIn WordChar m.chars := by
  obtain ⟨-, -, hrun, ⟨c, hc, -⟩, hsuffix⟩ := h
  have hword : EndsIn WordChar (m.digits ++ m.suffix) := by
    refine endsIn_of_all (List.append_ne_nil_of_left_ne_nil (List.ne_nil_of_mem hc) _)
      fun d hd => ?_
    rcases List.mem_append.1 hd with hd | hd
    · exact (hrun.all d hd).wordChar
    · exact (hsuffix.all d hd).wordChar
  rw [Mantissa.chars, List.append_assoc]
  exact hword.append_left _

theorem Reads.endsIn_word (h : Reads signs cs l rest) : EndsIn WordChar l.chars := by
  induction h with
  | keyword b rest =>
    cases b
    · exact ⟨'e', rfl, by decide⟩
    · exact ⟨'e', rfl, by decide⟩
  | @radix _ sign _ _ r upper digits _ _ _ hne hrun =>
    have hdigits := endsIn_of_all hne fun c hc => (hrun.all c hc).wordChar
    exact (hdigits.append_left ['0', r.marker upper]).append_left sign.chars
  | plain h _ => exact h.endsIn_word
  | @dangling _ m _ upper _ _ _ =>
    exact EndsIn.append_left ⟨_, rfl, wordChar_exponentMarker upper⟩ m.chars
  | @scaled _ m _ upper _ _ _ _ _ ih =>
    exact (ih.append_left [exponentMarker upper]).append_left m.chars

end

end Literal

end KernelFront
