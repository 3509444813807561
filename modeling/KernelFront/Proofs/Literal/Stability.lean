import KernelFront.Proofs.Literal.Context

/-!
# Stability of reading

A literal is settled by its own characters. `Reads.alone` drops what follows a literal, and
`Reads.append` (in `Proofs/Literal/Context`) puts a text behind it that the literal ends before;
`read_stable` says both of the values that are read. The step that carries the first one is
`ReadsMantissa.take`: the sign, the digits and the suffix of a number stay what they are when the end of
what follows them is cut off, also behind an exponent marker.
-/

namespace KernelFront

theorem run_of_append {p : Char → Prop} {run rest t : Text} (h : Run p run (rest ++ t)) :
    Run p run rest := by
  refine ⟨h.all, fun c hc => h.maximal c ?_⟩
  rw [List.head?_append, Option.mem_def.1 hc]
  rfl

namespace Literal

section

variable {signs : Bool} {sign : Sign} {cs body rest t : Text} {m : Mantissa} {l : Literal}

/-! ## Dropping what follows -/

/-- A sign is read before any body that starts in the same way. -/
theorem Signed.congr {other : Text} (h : Signed signs sign cs body)
    (hhead : other.head? = body.head?) : Signed signs sign (sign.chars ++ other) other := by
  cases h with
  | absent h => exact .absent (hhead ▸ h)
  | given hs hrun => exact .given hs ⟨hrun.all, hhead ▸ hrun.maximal⟩

theorem unannounced_of_append (h : Unannounced (body ++ t)) : Unannounced body := by
  intro r upper digits ha
  refine h r upper (digits ++ t) ?_
  rw [ha]
  rfl

theorem ReadsMantissa.take (h : ReadsMantissa signs m cs (rest ++ t)) :
    ReadsMantissa signs m (m.chars ++ rest) rest := by
  obtain ⟨hs, hu, hrun, ⟨c, hc, hd⟩, hsuffix⟩ := h
  obtain ⟨d, ds, hdigits⟩ := List.exists_cons_of_ne_nil (List.ne_nil_of_mem hc)
  have hchars : m.chars ++ rest = m.sign.chars ++ (m.digits ++ (m.suffix ++ rest)) := by
    simp [Mantissa.chars]
  have hassoc : m.digits ++ (m.suffix ++ (rest ++ t)) = m.digits ++ (m.suffix ++ rest) ++ t := by
    simp only [List.append_assoc]
  rw [hchars]
  refine .intro (hs.congr (by rw [hdigits]; rfl)) ?_ ?_ ⟨c, hc, hd⟩ (run_of_append hsuffix)
  · exact unannounced_of_append (hassoc ▸ hu)
  · rw [← List.append_assoc] at hrun
    exact run_of_append hrun

theorem reads_plain (h : ReadsMantissa signs m cs rest) : Reads signs m.chars (.plain m) [] := by
  have h : ReadsMantissa signs m (m.chars ++ []) [] := ReadsMantissa.take (t := rest) h
  rw [List.append_nil] at h
  exact .plain h fun _ => nofun

/-- **A literal is read from its own characters**, whatever followed it. -/
theorem Reads.alone (h : Reads signs cs l rest) : Reads signs l.chars l [] := by
  induction h with
  | @keyword signs b rest =>
    have h : Reads signs (keywordChars b ++ []) (.keyword b) [] := .keyword b []
    rwa [List.append_nil] at h
  | @radix _ _ _ _ _ _ _ rest hs ha hne hrun =>
    refine .radix (hs.congr (by rw [ha]; rfl)) ?_ hne (run_of_append (t := rest) hrun)
    rw [List.append_nil]
    rfl
  | plain h _ => exact reads_plain h
  | @dangling signs m _ upper rest h ho =>
    have h : ReadsMantissa signs m (m.chars ++ [exponentMarker upper]) [exponentMarker upper] :=
      ReadsMantissa.take (t := rest) h
    exact .dangling h (ends_of_head (t := []) nofun).closed
  | @scaled signs m _ upper _ exponent rest h hr ih =>
    -- The text is cut off where the exponent ends, so that it meets its own characters.
    rw [eq_append_of_read? (read?_of_reads hr)] at h
    have h : ReadsMantissa signs m (m.chars ++ exponentMarker upper :: exponent.chars)
        (exponentMarker upper :: exponent.chars) := ReadsMantissa.take (t := rest) h
    exact .scaled h ih

end

end Literal

/-! ## Values -/

/-- A number is equal to itself; only `nan` is not. -/
theorem Binary.ofRank_eq_self (f : Format) (s : Bool) (k : Nat) :
    (ofRank f s k).eq (ofRank f s k) = true := by
  simp [Binary.eq, compareWith, key?, ofRank]

theorem Decimal.toBinary_eq_self (f : Format) (d : Decimal) :
    (d.toBinary f).eq (d.toBinary f) = true := by
  unfold toBinary
  simp only
  split
  · exact Binary.ofRank_eq_self ..
  split
  · exact Binary.ofRank_eq_self ..
  split
  · exact Binary.ofRank_eq_self ..
  · exact Binary.ofRank_eq_self ..

theorem Value.int_eq_self (k : IntKind) (x : BitVec k.bits) : (int k x).eq (int k x) = true := by
  simp [Value.eq]

namespace Literal

theorem floatValue_eq_self (p : Precision) (m : Mantissa) (exponent : Text) :
    (floatValue p m exponent).eq (floatValue p m exponent) = true := by
  have hfloat {x : Binary p.format} (h : x.eq x = true) :
      (Value.float p x).eq (.float p x) = true := by
    cases p <;> exact h
  unfold floatValue
  simp only
  split
  · exact hfloat (Decimal.toBinary_eq_self ..)
  · exact hfloat (Binary.ofRank_eq_self ..)

theorem decimalValue_eq_self (marked : Bool) (m : Mantissa) (exponent : Text) :
    (decimalValue marked m exponent).eq (decimalValue marked m exponent) = true := by
  unfold decimalValue
  split
  · exact floatValue_eq_self ..
  · exact Value.int_eq_self ..

/-- What a literal denotes is equal to itself: it is never `nan`. -/
theorem value_eq_self (l : Literal) : l.value.eq l.value = true := by
  cases l with
  | keyword b => exact beq_self_eq_true b
  | radix => exact Value.int_eq_self ..
  | plain | dangling | scaled => exact decimalValue_eq_self ..

end Literal

/-! ## Main result -/

namespace Value

open Literal (WordChar SignChar)

/-- **Reading is stable under context.** What follows a literal can be dropped: the characters that were
taken give the same value by themselves. And any text can follow that starts neither with a sign nor
with a letter, a digit or a point: it is left as it is. The value that is compared is never `nan`. -/
theorem read_stable (signs : Bool) :
    (∀ cs v rest, read? signs cs = some (v, rest) →
      v.eq v = true ∧ ∃ p, cs = p ++ rest ∧ read? signs p = some (v, [])) ∧
    ∀ p v t, read? signs p = some (v, []) → (∀ c ∈ t.head?, ¬ WordChar c ∧ ¬ SignChar c) →
      read? signs (p ++ t) = some (v, t) := by
  refine ⟨fun cs v rest h => ?_, fun p v t h ht => ?_⟩
  · obtain ⟨l, hl, rfl⟩ := exists_reads_of_read? h
    exact ⟨l.value_eq_self, l.chars, Literal.eq_append_of_read? (Literal.read?_of_reads hl),
      read?_of_reads hl.alone⟩
  · obtain ⟨l, hl, rfl⟩ := exists_reads_of_read? h
    exact read?_of_reads (hl.append (Literal.ends_of_head ht))

/-- No digit follows the marker in `0xg`, so that the exponent of `-2.5e` is missing and its value is
`-2.5`. A blank keeps the next sign away from it. -/
theorem read_stable_dangling :
    let v : Value := .float .double (.ofBits _ 0xc004000000000000)
    read? true "-2.5e0xg".toList = some (v, "0xg".toList) ∧
      (∃ p, "-2.5e0xg".toList = p ++ "0xg".toList ∧ read? true p = some (v, [])) ∧
      (∀ c ∈ " +1".toList.head?, ¬ WordChar c ∧ ¬ SignChar c) ∧
      read? true ("-2.5e".toList ++ " +1".toList) = some (v, " +1".toList) := by
  intro v
  have hread : read? true "-2.5e0xg".toList = some (v, "0xg".toList) := by decide +kernel
  have halone : read? true "-2.5e".toList = some (v, []) := by decide +kernel
  have hhead : ∀ c ∈ " +1".toList.head?, ¬ WordChar c ∧ ¬ SignChar c := by
    rintro c ⟨⟩
    decide
  exact ⟨hread, ((read_stable true).1 _ _ _ hread).2, hhead,
    (read_stable true).2 _ _ _ halone hhead⟩

end Value

end KernelFront
