import KernelFront.Proofs.Folding.Concatenation
import KernelFront.Proofs.Literal.Reading

/-!
# Lines and their statements

What the statements of a source are, said of the source alone: `Text.Laid` are its lines,
`Text.Trims` a text between blanks, and a `StatementLine` is the trimmed text of a line that is
neither blank nor a comment. The statements are the texts of this form (`mem_all_iff`) and come in
order (`pairwise_all`); a source without a line feed has the one between its blanks (`all_of_trims`).
-/

namespace KernelFront

namespace Text

/-! ## Trimming -/

/-- A text between the blanks at its ends. -/
structure Trims (cs indent t trailing : Text) : Prop where
  eq : cs = indent ++ (t ++ trailing)
  blank : ∀ c ∈ indent ++ trailing, isBlank c = true
  head : ∀ c ∈ t.head?, isBlank c = false
  last : ∀ c ∈ t.getLast?, isBlank c = false

theorem trimStart_append {indent t : Text} (hi : ∀ c ∈ indent, isBlank c = true)
    (ht : ∀ c ∈ t.head?, isBlank c = false) : trimStart (indent ++ t) = t :=
  ((run_iff (p := isBlank) (fun _ => Iff.rfl)).2
    ⟨rfl, hi, fun c hc => Bool.not_eq_true _ ▸ ht c hc⟩).2

theorem trimEnd_append {t trailing : Text} (hi : ∀ c ∈ trailing, isBlank c = true)
    (ht : ∀ c ∈ t.getLast?, isBlank c = false) : trimEnd (t ++ trailing) = t := by
  have h : trimStart (trailing.reverse ++ t.reverse) = t.reverse :=
    trimStart_append (fun c hc => hi c (List.mem_reverse.1 hc))
      fun c hc => ht c (by rwa [List.head?_reverse] at hc)
  rw [trimEnd, List.reverse_append]
  exact (congrArg List.reverse h).trans t.reverse_reverse

theorem exists_trimStart (cs : Text) : ∃ indent, cs = indent ++ cs.trimStart ∧
    (∀ c ∈ indent, isBlank c = true) ∧ ∀ c ∈ cs.trimStart.head?, isBlank c = false := by
  obtain ⟨h, hrun⟩ := run_takeWhile (p := isBlank) (fun _ => Iff.rfl) cs
  exact ⟨_, h, hrun.all, fun c hc => Bool.eq_false_iff.2 (hrun.maximal c hc)⟩

theorem exists_trimEnd (cs : Text) : ∃ trailing, cs = cs.trimEnd ++ trailing ∧
    (∀ c ∈ trailing, isBlank c = true) ∧ ∀ c ∈ cs.trimEnd.getLast?, isBlank c = false := by
  obtain ⟨indent, h, hblank, hhead⟩ := exists_trimStart cs.reverse
  refine ⟨indent.reverse, ?_, fun c hc => hblank c (List.mem_reverse.1 hc), fun c hc => hhead c ?_⟩
  · rw [trimEnd, ← List.reverse_append]
    exact (congrArg List.reverse h).symm ▸ cs.reverse_reverse.symm
  · rwa [trimEnd, List.getLast?_reverse] at hc

/-- Every text is trimmed by its own blanks. -/
theorem exists_trims (cs : Text) :
    ∃ indent trailing, cs.Trims indent cs.trim trailing ∧ cs.trimStart = cs.trim ++ trailing := by
  obtain ⟨indent, hi, hindent, hhead⟩ := exists_trimStart cs
  obtain ⟨trailing, ht, htrailing, hlast⟩ := exists_trimEnd cs.trimStart
  refine ⟨indent, trailing, ⟨?_, ?_, fun c hc => ?_, hlast⟩, ht⟩
  · rw [trim, ← ht, ← hi]
  · intro c hc
    exact (List.mem_append.1 hc).elim (hindent c) (htrailing c)
  · obtain ⟨r, hr⟩ := List.head?_eq_some_iff.1 hc
    refine hhead c ?_
    rw [ht, ← trim, hr]
    rfl

/-- A text has no other trimmed form. -/
theorem Trims.eq_trim {cs indent t trailing : Text} (h : cs.Trims indent t trailing) (ht : t ≠ []) :
    cs.trimStart = t ++ trailing ∧ cs.trim = t := by
  have hindent : ∀ c ∈ indent, isBlank c = true := fun c hc => h.blank c (List.mem_append_left _ hc)
  have htrailing : ∀ c ∈ trailing, isBlank c = true :=
    fun c hc => h.blank c (List.mem_append_right _ hc)
  have hstart : cs.trimStart = t ++ trailing := by
    rw [h.eq]
    obtain ⟨d, r, rfl⟩ := List.exists_cons_of_ne_nil ht
    exact trimStart_append hindent h.head
  exact ⟨hstart, by rw [trim, hstart, trimEnd_append htrailing h.last]⟩

/-! ## Lines -/

/-- The lines of a text from an offset on, each with its own offset and its line feed. -/
inductive Laid : Nat → Text → List (Nat × Text) → Prop where
  | last {k : Nat} {l : Text} : '\n' ∉ l → Laid k l [(k, l)]
  | cons {k : Nat} {l r : Text} {ls : List (Nat × Text)} : '\n' ∉ l →
      Laid (k + l.size + 1) r ls → Laid k (l ++ '\n' :: r) ((k, l ++ ['\n']) :: ls)

theorem laid_lines (k : Nat) (cs : Text) : Laid k cs (cs.lines k) := by
  fun_induction Text.lines k cs with
  | case1 k => exact .last List.not_mem_nil
  | case2 k r ih => exact .cons (l := []) List.not_mem_nil ih
  | case3 k c r hc hl ih =>
    rw [hl] at ih
    cases ih
  | case4 k c r hc o line others hl ih =>
    rw [hl] at ih
    generalize hk : k + c.utf8Size = k' at ih
    cases ih with
    | last hline => exact .last (by simp [Ne.symm hc, hline])
    | @cons _ l r _ hline hr =>
      rw [← hk, Nat.add_assoc k, ← size_cons] at hr
      exact .cons (l := c :: l) (by simp [Ne.symm hc, hline]) hr

/-- A line of a source without its line feed, and what stands before and after it. -/
structure IsLine (source before line after : Text) : Prop where
  eq : source = before ++ (line ++ after)
  oneLine : '\n' ∉ line
  starts : ∀ c ∈ before.getLast?, c = '\n'
  ends : ∀ c ∈ after.head?, c = '\n'

theorem Laid.exists_isLine {k : Nat} {cs : Text} {ls : List (Nat × Text)} (h : Laid k cs ls) :
    ∀ m ∈ ls, ∃ before line after, cs.IsLine before line after ∧ m.1 = k + before.size ∧
      (m.2 = line ∨ m.2 = line ++ ['\n']) := by
  induction h with
  | @last k l hl =>
    intro m hm
    obtain rfl := List.mem_singleton.1 hm
    exact ⟨[], l, [], ⟨by simp, hl, nofun, nofun⟩, rfl, .inl rfl⟩
  | @cons k l r ls hl _ ih =>
    intro m hm
    rcases List.mem_cons.1 hm with rfl | hm
    · refine ⟨[], l, '\n' :: r, ⟨rfl, hl, nofun, fun c hc => ?_⟩, rfl, .inr rfl⟩
      exact (Option.some.inj hc).symm
    · obtain ⟨before, line, after, ⟨rfl, hline, hs, he⟩, hk, hm⟩ := ih m hm
      refine ⟨l ++ '\n' :: before, line, after, ⟨by simp, hline, fun c hc => ?_, he⟩, ?_, hm⟩
      · rw [List.getLast?_append, List.getLast?_cons, Option.some_or] at hc
        cases hb : before.getLast? with
        | none => simpa [hb] using Eq.symm hc
        | some d => simpa [hb, hs d hb] using Eq.symm hc
      · rw [hk, size_append, size_cons, show Char.utf8Size '\n' = 1 by decide]
        omega

/-- What stands before a line is empty or has a line feed, and so has what stands after it. -/
theorem IsLine.newline_mem {cs before line after : Text} (h : cs.IsLine before line after) :
    (before ≠ [] → '\n' ∈ before) ∧ (after ≠ [] → '\n' ∈ after) := by
  refine ⟨fun hne => ?_, fun hne => ?_⟩
  · exact h.starts _ (List.getLast?_eq_some_getLast hne) ▸ List.getLast_mem hne
  · obtain ⟨c, r, rfl⟩ := List.exists_cons_of_ne_nil hne
    exact h.ends c rfl ▸ List.mem_cons_self

/-- A line of a text with a line feed is the first one, or a line of what follows the line feed. -/
theorem IsLine.at_newline {l r before line after : Text} (hl : '\n' ∉ l)
    (h : IsLine (l ++ '\n' :: r) before line after) :
    (before = [] ∧ line = l) ∨ ∃ rest, before = l ++ '\n' :: rest ∧ r.IsLine rest line after := by
  have hclass (c : Char) : decide (c ≠ '\n') = true ↔ c ≠ '\n' := decide_eq_true_iff
  -- Up to the first line feed a text can be read in one way only.
  have hfirst {m t : Text} (hm : '\n' ∉ m) (ht : ∀ c ∈ t.head?, c = '\n')
      (he : l ++ '\n' :: r = m ++ t) : m = l ∧ t = '\n' :: r := by
    have hmax : ∀ c ∈ ('\n' :: r).head?, ¬ c ≠ '\n' := fun c hc hne => hne (Option.some.inj hc).symm
    have h1 := (run_iff hclass).2 ⟨rfl, ⟨fun c hc e => hl (e ▸ hc), hmax⟩⟩
    have h2 := (run_iff hclass).2 ⟨he, ⟨fun c hc e => hm (e ▸ hc), fun c hc hne => hne (ht c hc)⟩⟩
    exact ⟨h2.1.symm.trans h1.1, h2.2.symm.trans h1.2⟩
  by_cases hb : before = []
  · subst hb
    exact .inl ⟨rfl, (hfirst h.oneLine h.ends h.eq).1⟩
  · obtain ⟨first, rest, rfl, hno⟩ := List.eq_append_cons_of_mem (h.newline_mem.1 hb)
    obtain ⟨rfl, hr⟩ := hfirst hno (t := '\n' :: (rest ++ (line ++ after)))
      (fun c hc => (Option.some.inj hc).symm) (by rw [h.eq]; simp)
    refine .inr ⟨rest, rfl, (List.cons.inj hr).2.symm, h.oneLine, fun c hc => h.starts c ?_, h.ends⟩
    rw [List.getLast?_append, List.getLast?_cons, Option.mem_def.1 hc]
    rfl

/-- No line is left out. -/
theorem Laid.exists_mem {k : Nat} {cs : Text} {ls : List (Nat × Text)} (h : Laid k cs ls)
    {before line after : Text} (hl : cs.IsLine before line after) :
    ∃ m ∈ ls, m.1 = k + before.size ∧ (m.2 = line ∨ m.2 = line ++ ['\n']) := by
  induction h generalizing before with
  | @last k l hno =>
    obtain rfl := hl.eq
    simp only [List.mem_append, not_or] at hno
    have hbefore : before = [] := Classical.byContradiction fun hne => hno.1 (hl.newline_mem.1 hne)
    have hafter : after = [] := Classical.byContradiction fun hne => hno.2.2 (hl.newline_mem.2 hne)
    subst hbefore hafter
    exact ⟨_, List.mem_singleton_self _, rfl, .inl (List.append_nil _)⟩
  | @cons k l r ls hno _ ih =>
    rcases hl.at_newline hno with ⟨rfl, rfl⟩ | ⟨rest, rfl, hr⟩
    · exact ⟨_, List.mem_cons_self, rfl, .inr rfl⟩
    · obtain ⟨m, hm, hk, hline⟩ := ih hr
      refine ⟨m, List.mem_cons_of_mem _ hm, ?_, hline⟩
      rw [hk, size_append, size_cons, show Char.utf8Size '\n' = 1 by decide]
      omega

theorem Laid.pairwise {k : Nat} {cs : Text} {ls : List (Nat × Text)} (h : Laid k cs ls) :
    ls.Pairwise fun a b => a.1 + a.2.size ≤ b.1 := by
  induction h with
  | last => exact List.pairwise_singleton _ _
  | @cons k l r ls hl hr ih =>
    refine List.pairwise_cons.2 ⟨fun b hb => ?_, ih⟩
    obtain ⟨before, -, -, -, hk, -⟩ := hr.exists_isLine b hb
    rw [hk, size_append, show size ['\n'] = 1 by decide]
    dsimp only
    omega

end Text

/-! ## Statements -/

/-- The statement of a line of a source: all of the line but the blanks at its ends. -/
structure StatementLine (source : Text) (span : Span) (statement : Text) : Prop where
  place : ∃ before line after indent trailing, source.IsLine before line after ∧
    line.Trims indent statement trailing ∧ span = ⟨before.size + indent.size, statement.size⟩
  ne_nil : statement ≠ []
  noComment : ¬ ['/', '/'] <+: statement

namespace Statement

theorem isStatement_iff {statement : Text} :
    isStatement statement = true ↔ statement ≠ [] ∧ ¬ ['/', '/'] <+: statement := by
  rw [isStatement, Bool.and_eq_true, decide_eq_true_iff, Bool.not_eq_true', ← Bool.not_eq_true,
    List.isPrefixOf_iff_prefix]

/-- A line is cut at its ends only. -/
theorem ofLine_eq (line : Nat × Text) : ∃ indent trailing,
    line.2.Trims indent (ofLine line).2 trailing ∧ (ofLine line).1 = line.1 + indent.size := by
  obtain ⟨indent, trailing, h, hs⟩ := line.2.exists_trims
  refine ⟨indent, trailing, h, ?_⟩
  have hsize := congrArg Text.size h.eq
  rw [Text.size_append] at hsize
  simp only [ofLine, hs]
  omega

/-- The line feed of a line does not show in its statement. -/
theorem ofLine_of_isLine {m : Nat × Text} {line : Text} (hm : m.2 = line ∨ m.2 = line ++ ['\n'])
    (hne : m.2.trim ≠ []) : ofLine m = ofLine (m.1, line) := by
  obtain ⟨k, m⟩ := m
  rcases hm with rfl | rfl
  · rfl
  · have hne' : line.trim ≠ [] := by rwa [Text.trim_append_blank (by decide)] at hne
    exact @ofLine_append_newline (k, line) hne'

theorem statementLine_of_mem_all {source : Text} {s : Nat × Text} (hs : s ∈ all source) :
    StatementLine source (span s.1 s.2) s.2 := by
  obtain ⟨hs, hstatement⟩ := List.mem_filter.1 hs
  obtain ⟨hne, hcomment⟩ := isStatement_iff.1 hstatement
  obtain ⟨m, hm, rfl⟩ := List.mem_map.1 hs
  obtain ⟨before, line, after, hline, hk, hm⟩ := (source.laid_lines 0).exists_isLine _ hm
  rw [Nat.zero_add] at hk
  have hof : ofLine m = ofLine (before.size, line) := by rw [ofLine_of_isLine hm hne, hk]
  rw [hof] at hne hcomment ⊢
  obtain ⟨indent, trailing, htrims, hstart⟩ := ofLine_eq (before.size, line)
  refine ⟨⟨before, line, after, indent, trailing, hline, htrims, ?_⟩, hne, hcomment⟩
  rw [span, hstart]

/-- The statements of a source are the trimmed texts of its lines that are neither blank nor
comments, each at its offset. -/
theorem mem_all_iff {source : Text} {s : Nat × Text} :
    s ∈ all source ↔ StatementLine source (span s.1 s.2) s.2 := by
  refine ⟨statementLine_of_mem_all, fun ⟨hplace, hne, hcomment⟩ => ?_⟩
  obtain ⟨before, line, after, indent, trailing, hline, htrims, hspan⟩ := hplace
  obtain ⟨m, hmem, hk, hm⟩ := (source.laid_lines 0).exists_mem hline
  obtain ⟨hstart, htrim⟩ := htrims.eq_trim hne
  have hof : ofLine m = s := by
    have hm' : m.2.trim = s.2 := by
      rcases hm with hm | hm
      · rw [hm, htrim]
      · rw [hm, Text.trim_append_blank (by decide), htrim]
    have hsize := congrArg Text.size htrims.eq
    rw [Text.size_append] at hsize
    have hoffset : s.1 = before.size + indent.size := congrArg Span.start hspan
    rw [ofLine_of_isLine hm (hm' ▸ hne), hk]
    refine Prod.ext ?_ htrim
    simp only [ofLine, hstart]
    omega
  exact List.mem_filter.2 ⟨hof ▸ List.mem_map_of_mem hmem, isStatement_iff.2 ⟨hne, hcomment⟩⟩

theorem pairwise_all (source : Text) :
    (all source).Pairwise fun s t => s.1 + s.2.size ≤ t.1 := by
  refine List.Pairwise.filter _ (List.pairwise_map.2 ?_)
  refine (source.laid_lines 0).pairwise.imp fun {a b} h => ?_
  obtain ⟨_, _, ha, hka⟩ := ofLine_eq a
  obtain ⟨_, _, _, hkb⟩ := ofLine_eq b
  have hsize := congrArg Text.size ha.eq
  simp only [Text.size_append] at hsize
  omega

/-- A source of one line has the statement between its blanks. -/
theorem all_of_trims {source indent statement trailing : Text} (hline : '\n' ∉ source)
    (h : source.Trims indent statement trailing) (hs : isStatement statement = true) :
    all source = [(indent.size, statement)] := by
  have hlines : source.lines 0 = [(0, source)] := by
    have hlaid := source.laid_lines 0
    generalize source.lines 0 = ls at hlaid
    cases hlaid with
    | last => rfl
    | cons => simp at hline
  obtain ⟨hstart, htrim⟩ := h.eq_trim (isStatement_iff.1 hs).1
  have hof : ofLine (0, source) = (indent.size, statement) := by
    have hsize := congrArg Text.size h.eq
    rw [Text.size_append] at hsize
    simp only [ofLine, hstart, htrim, Prod.mk.injEq, and_true]
    omega
  simp [all, hlines, hof, hs]

end Statement

end KernelFront
