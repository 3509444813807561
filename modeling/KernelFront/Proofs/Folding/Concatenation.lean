import KernelFront.Proofs.Outcome.Collecting
import KernelFront.Statement.Report

/-!
# Folding line by line

A statement never leaves its line, so a source that is put together at a line feed folds to what its
two parts fold to: `foldSource_append` merges the two outcomes, where every place of the second part
moves right by the bytes before it. `all_append` is the same for the statements. The two need that
the offset of a text is only ever added (`lines_shift`, `fold_shift`) and that the line feed at the
seam disappears in trimming (`trim_append_blank`).
-/

namespace KernelFront

/-! ## Lines -/

namespace Text

theorem lines_shift (n k : Nat) (cs : Text) :
    cs.lines (n + k) = (cs.lines k).map fun line => (n + line.1, line.2) := by
  fun_induction Text.lines k cs with
  | case1 => rfl
  | case2 k r ih => simp [lines, Nat.add_assoc, ih]
  | case3 k c r hc hl ih => simp [lines, hc, Nat.add_assoc, ih, hl]
  | case4 k c r hc o line others hl ih => simp [lines, hc, Nat.add_assoc, ih, hl]

/-- A line feed ends the last line of the text before it; the text after it starts a line. -/
theorem lines_append (k : Nat) (s t : Text) :
    ∃ initial last, s.lines k = initial ++ [last] ∧
      (s ++ '\n' :: t).lines k =
        initial ++ (last.1, last.2 ++ ['\n']) :: t.lines (k + s.size + 1) := by
  induction s generalizing k with
  | nil => exact ⟨[], (k, []), rfl, by simp [lines]; rfl⟩
  | cons c s ih =>
    obtain ⟨initial, last, hs, hst⟩ := ih (k + c.utf8Size)
    have hk : k + size (c :: s) + 1 = k + c.utf8Size + size s + 1 := by
      rw [size_cons]; omega
    rw [hk, List.cons_append]
    by_cases hc : c = '\n'
    · subst hc
      exact ⟨(k, ['\n']) :: initial, last, by simp [lines, hs], by simp [lines, hst]⟩
    · cases initial with
      | nil => exact ⟨[], (k, c :: last.2), by simp [lines, hc, hs], by simp [lines, hc, hst]⟩
      | cons line initial =>
        exact ⟨(k, c :: line.2) :: initial, last, by simp [lines, hc, hs],
          by simp [lines, hc, hst]⟩

/-! ## The blank at the seam -/

theorem trimStart_append_blank {cs : Text} {c : Char} (h : cs.trimStart ≠ []) :
    trimStart (cs ++ [c]) = cs.trimStart ++ [c] := by
  unfold trimStart at *
  rw [List.dropWhile_append, if_neg (by simpa using h)]

theorem trim_append_blank {cs : Text} {c : Char} (hc : isBlank c = true) :
    trim (cs ++ [c]) = cs.trim := by
  by_cases h : cs.trimStart = []
  · have h' : trimStart (cs ++ [c]) = [] := by
      unfold trimStart at *
      rw [List.dropWhile_append, h]
      simp [hc]
    rw [trim, trim, h, h']
  · rw [trim, trimStart_append_blank h]
    simp [trim, trimEnd, hc]

end Text

/-! ## Statements -/

namespace Statement

theorem ofLine_shift (n : Nat) (line : Nat × Text) :
    ofLine (n + line.1, line.2) = (n + (ofLine line).1, (ofLine line).2) := by
  simp [ofLine, Nat.add_assoc]

/-- A line with a statement has the same one without its line feed. -/
theorem ofLine_append_newline {line : Nat × Text} (h : line.2.trim ≠ []) :
    ofLine (line.1, line.2 ++ ['\n']) = ofLine line := by
  have hs : line.2.trimStart ≠ [] := by
    intro e
    exact h (by rw [Text.trim, e]; rfl)
  simp only [ofLine, Text.trim_append_blank (show isBlank '\n' = true by decide),
    Text.trimStart_append_blank hs, Text.size_append]
  congr 2
  omega

theorem filter_ofLine_append_newline (line : Nat × Text) :
    [ofLine (line.1, line.2 ++ ['\n'])].filter (fun s => isStatement s.2) =
      [ofLine line].filter fun s => isStatement s.2 := by
  by_cases h : line.2.trim = []
  · have h' : (ofLine (line.1, line.2 ++ ['\n'])).2 = [] := by
      rw [ofLine, Text.trim_append_blank (by decide), h]
    have h'' : (ofLine line).2 = [] := h
    simp [h', h'', isStatement]
  · rw [ofLine_append_newline h]

/-- The statements before and after a line feed are the statements of the source. -/
theorem all_append (s t : Text) :
    all (s ++ '\n' :: t) = all s ++ (all t).map fun p => (s.size + 1 + p.1, p.2) := by
  obtain ⟨initial, last, hs, hst⟩ := s.lines_append 0 t
  have hlines : (t.lines (0 + s.size + 1)).map ofLine =
      ((t.lines 0).map ofLine).map fun p => (s.size + 1 + p.1, p.2) := by
    rw [Nat.zero_add, ← Nat.add_zero (s.size + 1), Text.lines_shift, List.map_map, List.map_map]
    exact List.map_congr_left fun line _ => ofLine_shift _ line
  have hfilter (ps : List (Nat × Text)) :
      (ps.map fun p => (s.size + 1 + p.1, p.2)).filter (fun p => isStatement p.2) =
        (ps.filter fun p => isStatement p.2).map fun p => (s.size + 1 + p.1, p.2) := by
    rw [List.filter_map]; rfl
  have hseam := filter_ofLine_append_newline last
  simp only [all, hst, hs, List.map_append, List.map_cons, List.map_nil, hlines]
  rw [← List.singleton_append, List.filter_append, List.filter_append, List.filter_append, hseam,
    hfilter, List.append_assoc]

/-- Folding a statement looks at its offset only to place what it reports. -/
theorem fold_shift (signs : Bool) (n start : Nat) (statement : Text) :
    fold signs (n + start) statement =
      (fold signs start statement).shift n (FoldedStatement.shift n) := by
  unfold fold
  cases evaluate signs statement with
  | error fault =>
    simp [Outcome.failed, Outcome.shift, Diagnostic.shift, spanOf, Span.shift, Nat.add_assoc]
  | ok found =>
    obtain ⟨v, cs⟩ := found
    dsimp only
    split
    · simp [Outcome.ok, Outcome.shift, FoldedStatement.shift, span, Span.shift]
    · simp [Outcome.recovered, Outcome.shift, FoldedStatement.shift, Diagnostic.shift, span, spanOf,
        Span.shift, Nat.add_assoc]

end Statement

/-! ## Sources -/

theorem foldSource_append (signs : Bool) (s t : Text) :
    foldSource signs (s ++ '\n' :: t) =
      (foldSource signs s).merge (· ++ ·)
        ((foldSource signs t).shift (s.size + 1) (List.map (.shift (s.size + 1)))) := by
  have ht : ((Statement.all t).map fun p => (s.size + 1 + p.1, p.2)).map
      (fun p => Statement.fold signs p.1 p.2) =
      ((Statement.all t).map fun p => Statement.fold signs p.1 p.2).map
        (.shift (s.size + 1) (.shift (s.size + 1))) := by
    rw [List.map_map, List.map_map]
    exact List.map_congr_left fun p _ => Statement.fold_shift signs _ p.1 p.2
  rw [foldSource, Statement.all_append, List.map_append, ht, Outcome.collect_append,
    Outcome.collect_map_shift]
  rfl

/-! ## Reports -/

namespace Outcome

/-- Whether a diagnostic is upgraded does not depend on its place. -/
theorem isUpgraded_shift (codes : List Code) (n : Nat) (entry : Severity × Diagnostic) :
    isUpgraded (fun d => d.code ∈ codes) (entry.1, entry.2.shift n) =
      isUpgraded (fun d => d.code ∈ codes) entry := rfl

end Outcome

namespace Report

theorem value_ofSource_eq_some {o : Options} {source : Text} {out : String} :
    (ofSource o source).value = some out ↔
      ∃ lines, (foldSource o.signs source).value = some lines ∧
        (∀ entry ∈ (foldSource o.signs source).diagnostics,
          Outcome.isUpgraded (fun d => d.code ∈ o.upgraded) entry = false) ∧
        render o.format lines = out := by
  simp only [ofSource, Outcome.map, Option.map_eq_some_iff, Outcome.value_upgrade_eq_some,
    and_assoc]

/-- Line by line formats write the lines one after the other and say nothing of their places. -/
theorem render_append_shift {format : ReportFormat} (h : format ≠ .debug) (n : Nat)
    (ls rs : List FoldedStatement) :
    render format (ls ++ rs.map (.shift n)) = render format ls ++ render format rs := by
  have hjoin (f : FoldedStatement → String) (hf : ∀ line, f (line.shift n) = f line) :
      String.join ((ls ++ rs.map (FoldedStatement.shift n)).map f) =
        String.join (ls.map f) ++ String.join (rs.map f) := by
    rw [List.map_append, List.map_map, String.join_append]
    exact congrArg _ (congrArg _ (List.map_congr_left fun line _ => hf line))
  cases format with
  | values => exact hjoin valuesLine fun _ => rfl
  | kinds => exact hjoin kindsLine fun _ => rfl
  | debug => exact absurd rfl h

theorem value_ofSource_append {o : Options} (h : o.format ≠ .debug) {s t : Text} {a b : String}
    (hs : (ofSource o s).value = some a) (ht : (ofSource o t).value = some b) :
    (ofSource o (s ++ '\n' :: t)).value = some (a ++ b) := by
  obtain ⟨ls, hls, hl, rfl⟩ := value_ofSource_eq_some.1 hs
  obtain ⟨rs, hrs, hr, rfl⟩ := value_ofSource_eq_some.1 ht
  refine value_ofSource_eq_some.2 ⟨ls ++ rs.map (.shift (s.size + 1)), ?_, ?_, ?_⟩
  · rw [foldSource_append]
    simp [Outcome.merge, Outcome.shift, hls, hrs]
  · intro entry he
    rw [foldSource_append] at he
    rcases List.mem_append.1 he with he | he
    · exact hl entry he
    · obtain ⟨e, ht, rfl⟩ := List.mem_map.1 he
      rw [Outcome.isUpgraded_shift]
      exact hr e ht
  · exact render_append_shift h _ ls rs

end Report

/-- **A source folds line by line.** Of two texts put together at a line feed, lines and diagnostics
are those of the first text and then those of the second one, moved right; the reports that say
nothing of places are joined as they are. -/
theorem foldSource_at_newline (signs : Bool) (s t : Text) :
    foldSource signs (s ++ '\n' :: t) =
      (foldSource signs s).merge (· ++ ·)
        ((foldSource signs t).shift (s.size + 1) (List.map (.shift (s.size + 1)))) ∧
    (∀ lines, (foldSource signs (s ++ '\n' :: t)).value = some lines ↔
      ∃ ls rs, (foldSource signs s).value = some ls ∧ (foldSource signs t).value = some rs ∧
        lines = ls ++ rs.map (.shift (s.size + 1))) ∧
    (foldSource signs (s ++ '\n' :: t)).diagnostics =
      (foldSource signs s).diagnostics ++
        (foldSource signs t).diagnostics.map (fun e => (e.1, e.2.shift (s.size + 1))) ∧
    (∀ (n : Nat) (d : Diagnostic), (d.shift n).code = d.code ∧ (d.shift n).message = d.message) ∧
    ∀ o : Options, o.format ≠ .debug → ∀ a b, (Report.ofSource o s).value = some a →
      (Report.ofSource o t).value = some b →
        (Report.ofSource o (s ++ '\n' :: t)).value = some (a ++ b) := by
  refine ⟨foldSource_append signs s t, fun lines => ?_, ?_, fun _ _ => ⟨rfl, rfl⟩,
    fun o h a b => Report.value_ofSource_append h⟩
  · rw [foldSource_append]
    simp only [Outcome.merge, Outcome.shift, Option.bind_eq_some_iff, Option.map_eq_some_iff]
    constructor
    · rintro ⟨ls, hs, _, ⟨rs, ht, rfl⟩, rfl⟩
      exact ⟨ls, rs, hs, ht, rfl⟩
    · rintro ⟨ls, rs, hs, ht, rfl⟩
      exact ⟨ls, hs, _, ⟨rs, ht, rfl⟩, rfl⟩
  · rw [foldSource_append]
    rfl

/-- Two texts with a comment, a blank line and ignored characters. -/
theorem foldSource_at_newline_ignored :
    let s : Text := "0x10L é".toList
    let t : Text := "\n// note\n 7 - 2 x".toList
    (Report.ofSource {} s).value = some "16 uint16\n" ∧
      (Report.ofSource {} t).value = some "5 int32\n" ∧
      (Report.ofSource {} (s ++ '\n' :: t)).value = some ("16 uint16\n" ++ "5 int32\n") := by
  intro s t
  have hs : (Report.ofSource {} s).value = some "16 uint16\n" := by decide +kernel
  have ht : (Report.ofSource {} t).value = some "5 int32\n" := by decide +kernel
  exact ⟨hs, ht, (foldSource_at_newline true s t).2.2.2.2 {} (by decide) _ _ hs ht⟩

end KernelFront
