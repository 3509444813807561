import KernelFront.Proofs.Literal.Forms

/-!
# Double precision in print

`double_reads_back`: whatever form a finite float is printed in, its text is one literal, a double, that
is parsed from the text as it stands (`FiniteText.reads_withFraction`). The text of a finite double spells
a decimal that reads back as the double (`toBinary_shortest`), so that printing loses nothing, its sign
included. An infinity and `nan` print as words that no literal starts with.
-/

namespace KernelFront

namespace Binary

/-- What is not finite is an infinity or `nan`. -/
theorem text_of_not_finite {f : Format} {x : Binary f} (h : x.isFinite = false) :
    x.text ∈ [['i', 'n', 'f'], ['-', 'i', 'n', 'f'], ['N', 'a', 'N']] := by
  cases x with
  | nan => exact List.mem_cons_of_mem _ (List.mem_cons_of_mem _ List.mem_cons_self)
  | number s k =>
    have hk : (k : Nat) = f.infinity :=
      Nat.le_antisymm (Nat.le_of_lt_succ k.isLt) (Nat.le_of_not_lt (of_decide_eq_false h))
    rw [text, if_pos hk]
    cases s <;> decide

end Binary

/-- The text of a finite float, with a fraction, is one literal; it is parsed as it stands. -/
theorem FiniteText.reads_withFraction (t : FiniteText) :
    ∃ l m, Literal.Reads true (Binary.withFraction t.chars) l [] ∧ l.mantissa? = some m ∧
      Literal.floatChars m l.exponentText = Binary.withFraction t.chars ∧
      l.value = Literal.floatValue .double m l.exponentText ∧
      l.value = .float .double (t.completed.decimal.toBinary .double) := by
  rw [t.withFraction_chars]
  exact ⟨_, _, t.completed.reads_chars, t.completed.mantissa?_literal,
    t.completed.floatChars_literal, t.completed.value_literal_eq_floatValue,
    t.completed.value_literal⟩

namespace Value

/-- No literal starts with a word that stands for what is not finite. -/
theorem read?_text_not_finite (p : Precision) {x : Binary p.format} (h : x.isFinite = false) :
    read? true (float p x).text.toList = none := by
  rw [toList_text, chars]
  have htext := Binary.text_of_not_finite h
  simp only [List.mem_cons, List.not_mem_nil, or_false] at htext
  rcases htext with ht | ht | ht <;> rw [ht] <;> decide +kernel

/-- **Doubles read back from their texts.** A text in any form of a finite float is completed to one
literal, a double; the text handed to the parser is the whole completed text, and it denotes the same
number as the first one, with the same sign. So a finite double is what its text reads as. The texts of
the infinities and of `nan` are no literals. -/
theorem double_reads_back :
    (∀ t : FiniteText, ∃ l m d d',
      Literal.read? true (Binary.withFraction t.chars) = some (l, []) ∧ l.mantissa? = some m ∧
        Literal.floatChars m l.exponentText = Binary.withFraction t.chars ∧
        l.value = Literal.floatValue .double m l.exponentText ∧
        Decimal.parse? t.chars = some d ∧
        Decimal.parse? (Binary.withFraction t.chars) = some d' ∧
        d'.negative = d.negative ∧ d'.toRat = d.toRat ∧
        l.value = .float .double (d'.toBinary .double)) ∧
    (∀ x : Binary Precision.double.format, x.isFinite = true →
      (∃ (t : FiniteText) (d : Decimal), x.text = t.chars ∧ Decimal.parse? x.text = some d ∧
        d.toBinary .double = x) ∧
      ofString (float .double x).text = float .double x) ∧
    ∀ x : Binary Precision.double.format, x.isFinite = false →
      read? true (float .double x).text.toList = none := by
  refine ⟨fun t => ?_, fun x hx => ?_, fun x hx => read?_text_not_finite .double hx⟩
  · obtain ⟨l, m, hreads, hm, hchars, hvalue, hdouble⟩ := t.reads_withFraction
    have hparse : Decimal.parse? (Binary.withFraction t.chars) = some t.completed.decimal := by
      rw [t.withFraction_chars, t.completed.parse?_chars]
    exact ⟨l, m, t.decimal, t.completed.decimal, Literal.read?_of_reads hreads, hm, hchars, hvalue,
      t.parse?_chars, hparse, rfl, t.toRat_completed, hdouble⟩
  · cases x with
    | nan => cases hx
    | number s k =>
      have hk : k < Precision.double.format.infinity := of_decide_eq_true hx
      obtain ⟨t, ht, hs, hrat⟩ := Binary.exists_finiteText (by decide) (by decide) s k hk
      have hshortest := Binary.toBinary_shortest (by decide) (by decide) s k hk
      refine ⟨⟨t, t.decimal, ht, by rw [ht, t.parse?_chars], ?_⟩, ?_⟩
      · exact (Decimal.toBinary_congr (by decide) hs hrat).trans hshortest
      · rw [ofString, read?_text_float .double s k hk]
        exact congrArg (float .double) hshortest

/-- The double next to `-1e-7` has no point in its text before it is completed; minus infinity prints as
a word. -/
theorem double_reads_back_completed :
    let x : Binary Precision.double.format := .ofBits _ 0xbe7ad7f29abcaf48
    let y : Binary Precision.double.format := .infinity _ true
    x.isFinite = true ∧ x.text = "-1e-7".toList ∧ (float .double x).text = "-1.0e-7" ∧
      ofString "-1.0e-7" = float .double x ∧
      y.isFinite = false ∧ (float .double y).text = "-inf" ∧ read? true "-inf".toList = none := by
  intro x y
  have hx : x.isFinite = true := by decide
  have hy : y.isFinite = false := by decide
  have htext : (float .double x).text = "-1.0e-7" := by decide +kernel
  have hinf : (float .double y).text = "-inf" := by decide +kernel
  refine ⟨hx, by decide +kernel, htext, ?_, hy, hinf, ?_⟩
  · rw [← htext]
    exact (double_reads_back.2.1 x hx).2
  · rw [← hinf]
    exact double_reads_back.2.2 y hy

end Value

end KernelFront
