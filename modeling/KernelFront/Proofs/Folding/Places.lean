import Mathlib.Data.List.Forall2
import KernelFront.Proofs.Folding.Lines

/-!
# Places point into the source

`foldSource_places`: every span that folding gives or reports covers the text that it is said to
cover. Inside a statement, the text that is left to read is always a suffix of it, and a fault marks
the start of such a suffix (`Fault.Within`, kept by every reader: `sound_evaluate`). A place is
computed from the length of the suffix alone, which is enough to find it again (`Covers.part`).
-/

namespace KernelFront

/-! ## Covered texts -/

/-- The span is the place of a text in the source, between two characters. -/
def Span.Covers (s : Span) (source t : Text) : Prop :=
  ∃ before after, source = before ++ (t ++ after) ∧ s = ⟨before.size, t.size⟩

theorem Text.size_utf8Encode (cs : Text) : cs.utf8Encode.size = cs.size := by
  induction cs with
  | nil => rfl
  | cons c cs ih =>
    rw [List.utf8Encode_cons, ByteArray.size_append, ih, size_cons, List.utf8Encode_singleton,
      List.size_toByteArray, String.length_utf8EncodeChar]

namespace Span.Covers

variable {s : Span} {source t : Text}

theorem stop_le (h : s.Covers source t) : s.stop ≤ source.size := by
  obtain ⟨before, after, rfl, rfl⟩ := h
  simp only [stop, Text.size_append]
  omega

/-- The bytes of the span are those of the text. -/
theorem bytes_eq (h : s.Covers source t) :
    (String.ofList source).toByteArray.extract s.start s.stop = (String.ofList t).toByteArray := by
  obtain ⟨before, after, rfl, rfl⟩ := h
  simp only [String.toByteArray_ofList, List.utf8Encode_append, stop, ← Text.size_utf8Encode]
  exact (ByteArray.extract_append_size_add (i := 0)).trans (ByteArray.extract_append_eq_left rfl)

/-- A part of what a span covers has its place in the span. -/
theorem part {left : Text} (h : s.Covers source t) (hleft : left <:+ t) {marked : Text}
    (hmarked : marked <+: left) :
    (Span.mk (s.start + (t.size - left.size)) marked.size).Covers source marked := by
  obtain ⟨before, after, rfl, rfl⟩ := h
  obtain ⟨read, rfl⟩ := hleft
  obtain ⟨rest, rfl⟩ := hmarked
  refine ⟨before ++ read, rest ++ after, by simp, ?_⟩
  simp only [Text.size_append, Span.mk.injEq, and_true]
  omega

end Span.Covers

theorem StatementLine.covers {source : Text} {span : Span} {statement : Text}
    (h : StatementLine source span statement) : span.Covers source statement := by
  obtain ⟨before, line, after, indent, trailing, ⟨rfl, -, -, -⟩, ⟨rfl, -, -, -⟩, rfl⟩ := h.place
  exact ⟨before ++ indent, trailing ++ after, by simp, by rw [Text.size_append]⟩

theorem StatementLine.oneLine {source : Text} {span : Span} {statement : Text}
    (h : StatementLine source span statement) : '\n' ∉ statement := by
  obtain ⟨before, line, after, indent, trailing, ⟨-, hline, -, -⟩, ⟨rfl, -, -, -⟩, -⟩ := h.place
  exact fun hn => hline (by simp [hn])

theorem StatementLine.trimmed {source : Text} {span : Span} {statement : Text}
    (h : StatementLine source span statement) :
    (∀ c ∈ statement.head?, isBlank c = false) ∧ ∀ c ∈ statement.getLast?, isBlank c = false := by
  obtain ⟨_, _, _, _, _, -, ht, -⟩ := h.place
  exact ⟨ht.head, ht.last⟩

/-! ## Faults -/

/-- A fault marks the text that its cause names, where it stands in the statement; a value that
cannot be computed marks the whole statement. -/
structure Fault.Within (statement : Text) (f : Fault) : Prop where
  left : f.left <:+ statement
  marked : f.marked <+: f.left
  named : f.cause = .invalidLiteral (String.ofList f.marked) ∨
    f.cause = .unknownOperator (String.ofList f.marked) ∨
    ∃ e, f.cause = .value e ∧ f.marked = statement

namespace Statement

section

variable {α β : Type} {statement : Text} {P : α → Prop} {Q : β → Prop}

/-- A part of folding has a result in `P`, or a fault that lies within the statement. -/
def Sound (statement : Text) (P : α → Prop) : Except Fault α → Prop
  | .error f => f.Within statement
  | .ok a => P a

theorem Sound.bind {x : Except Fault α} {f : α → Except Fault β} (hx : Sound statement P x)
    (hf : ∀ a, P a → Sound statement Q (f a)) : Sound statement Q (x >>= f) := by
  cases x with
  | error e => exact hx
  | ok a => exact hf a hx

end

section

variable {signs : Bool} {statement cs : Text}

theorem trimStart_suffix (h : cs <:+ statement) : cs.trimStart <:+ statement :=
  (List.dropWhile_suffix isBlank).trans h

theorem sound_readLiteral (h : cs <:+ statement) :
    Sound statement (fun found => found.2 <:+ statement) (readLiteral signs cs) := by
  have hcs := trimStart_suffix h
  unfold readLiteral
  dsimp only
  split
  · rename_i found hf
    obtain ⟨⟨l, rest⟩, hl, rfl⟩ := Option.map_eq_some_iff.1 hf
    exact (List.suffix_append l.chars rest).trans (Literal.eq_append_of_read? hl ▸ hcs)
  · exact ⟨hcs, List.takeWhile_prefix _, .inl rfl⟩

theorem sound_readConnective (h : cs <:+ statement) :
    Sound statement (fun found => ∀ c rest, found = some (c, rest) → rest <:+ statement)
      (readConnective cs) := by
  unfold readConnective
  split
  · exact nofun
  · split
    · split
      · rename_i found hf
        rintro c rest ⟨⟩
        exact (List.suffix_append c.chars rest).trans (Connective.eq_append_of_read? hf ▸ h)
      · exact ⟨h, List.takeWhile_prefix _, .inr (.inl rfl)⟩
    · exact nofun

theorem sound_operate (r : Except ValueError Value) :
    Sound statement (fun _ => True) (operate statement r) := by
  cases r with
  | error e => exact ⟨List.suffix_refl _, List.prefix_refl _, .inr (.inr ⟨e, rfl, rfl⟩)⟩
  | ok v => trivial

theorem sound_foldHead (signs : Bool) (statement : Text) :
    Sound statement (fun found => found.2 <:+ statement) (foldHead signs statement) := by
  have hstart : statement.trimStart <:+ statement := trimStart_suffix (List.suffix_refl _)
  have hrest (lead? : Option Lead) (cs : Text) (h : cs <:+ statement) :
      Sound statement (fun found => found.2 <:+ statement)
        (readLiteral signs cs >>= fun found =>
          operate statement (applyLead lead? found.1) >>= fun v => pure (v, found.2)) :=
    (sound_readLiteral h).bind fun found hfound => (sound_operate _).bind fun _ _ => hfound
  unfold foldHead
  dsimp only
  cases hl : Lead.read? signs statement.trimStart with
  | none => exact hrest none _ hstart
  | some found =>
    have hfound : found.2 <:+ statement.trimStart := ⟨_, (Lead.eq_append_of_read? hl).symm⟩
    exact hrest (some found.1) _ (hfound.trans hstart)

theorem sound_foldTail (lhs : Value) (h : cs <:+ statement) :
    Sound statement (fun found => found.2 <:+ statement) (foldTail signs statement lhs cs) := by
  have hcs := trimStart_suffix h
  unfold foldTail
  dsimp only
  cases hs : StepOp.read? cs.trimStart with
  | some found =>
    have hfound : found.2 <:+ cs.trimStart := ⟨_, (StepOp.read?_iff.1 hs).symm⟩
    exact (sound_operate _).bind fun _ _ => hfound.trans hcs
  | none =>
    refine (sound_readConnective hcs).bind fun found hfound => ?_
    cases found with
    | none => exact hcs
    | some found =>
      refine (sound_readLiteral (hfound _ _ rfl)).bind fun rhs hrhs => ?_
      exact (sound_operate _).bind fun _ _ => hrhs

/-- Whatever a statement is, folding it leaves a suffix of it or marks a fault in it. -/
theorem sound_evaluate (signs : Bool) (statement : Text) :
    Sound statement (fun found => found.2 <:+ statement) (evaluate signs statement) :=
  (sound_foldHead signs statement).bind fun found hfound => sound_foldTail found.1 hfound

end

/-! ## Reports -/

/-- What a diagnostic about a statement says of the text `t` that it covers. -/
def Quotes (statement t : Text) : Cause → Prop
  | .invalidLiteral found => (Cause.invalidLiteral found).message =
    if t = [] then "expected a literal"
    else "expected a literal, found " ++ Cause.quoted (String.ofList t)
  | .trailingCharacters rest => (Cause.trailingCharacters rest).message =
    "trailing characters " ++ Cause.quoted (String.ofList t) ++ " are ignored"
  | .unknownOperator operator => (Cause.unknownOperator operator).message =
    "unknown operator " ++ Cause.quoted (String.ofList t)
  | .value _ => t = statement
  | .duplicateQualifier _ => False

/-- A diagnostic about a statement of a source: it lies within the statement, and what it covers is
what its message quotes, or else the whole statement. -/
structure Reports (source : Text) (s : Nat × Text) (d : Diagnostic) : Prop where
  start : s.1 ≤ d.span.start
  stop : d.span.stop ≤ s.1 + s.2.size
  marks : ∃ t, d.span.Covers source t ∧ Quotes s.2 t d.cause

theorem quotes_invalidLiteral (statement t : Text) :
    Quotes statement t (.invalidLiteral (String.ofList t)) := by
  have hiff : String.ofList t = "" ↔ t = [] := by simp
  show (if String.ofList t = "" then _ else _) = _
  simp only [hiff]

section

variable {source : Text} {s : Nat × Text} {left marked : Text}

theorem start_le_spanOf : s.1 ≤ (spanOf s.1 s.2 left marked).start := Nat.le_add_right _ _

theorem stop_spanOf_le (hleft : left <:+ s.2) (hmarked : marked <+: left) :
    (spanOf s.1 s.2 left marked).stop ≤ s.1 + s.2.size := by
  obtain ⟨read, hread⟩ := hleft
  obtain ⟨rest, rfl⟩ := hmarked
  have hsize := congrArg Text.size hread
  simp only [Text.size_append] at hsize
  simp only [spanOf, Span.stop, Text.size_append]
  omega

theorem reports_of_within {f : Fault} (hs : (span s.1 s.2).Covers source s.2) (hf : f.Within s.2) :
    Reports source s ⟨f.cause, spanOf s.1 s.2 f.left f.marked, []⟩ := by
  refine ⟨start_le_spanOf, stop_spanOf_le hf.left hf.marked, f.marked, hs.part hf.left hf.marked, ?_⟩
  rcases hf.named with hc | hc | ⟨e, hc, he⟩ <;> rw [hc]
  · exact quotes_invalidLiteral s.2 f.marked
  · exact rfl
  · exact he

theorem reports_trailing {rest : Text} (hs : (span s.1 s.2).Covers source s.2)
    (hrest : rest <:+ s.2) :
    Reports source s
      ⟨.trailingCharacters (String.ofList rest), spanOf s.1 s.2 rest rest, []⟩ :=
  ⟨start_le_spanOf, stop_spanOf_le hrest (List.prefix_refl _), rest,
    hs.part hrest (List.prefix_refl _), rfl⟩

/-- A statement folds to one line, if any, and to one diagnostic, if any. -/
theorem fold_places (signs : Bool) (hs : (span s.1 s.2).Covers source s.2) :
    (∀ line, (fold signs s.1 s.2).value = some line →
      line.span = span s.1 s.2 ∧ line.source = String.ofList s.2) ∧
    ((fold signs s.1 s.2).diagnostics = [] ∨
      ∃ entry, (fold signs s.1 s.2).diagnostics = [entry] ∧ Reports source s entry.2) := by
  have hsound := sound_evaluate signs s.2
  unfold fold
  cases he : evaluate signs s.2 with
  | error f =>
    rw [he] at hsound
    exact ⟨nofun, .inr ⟨_, rfl, reports_of_within hs hsound⟩⟩
  | ok found =>
    rw [he] at hsound
    dsimp only
    split
    · refine ⟨fun line hline => ?_, .inl rfl⟩
      cases hline
      exact ⟨rfl, rfl⟩
    · refine ⟨fun line hline => ?_, .inr ⟨_, rfl, reports_trailing hs (trimStart_suffix hsound)⟩⟩
      cases hline
      exact ⟨rfl, rfl⟩

end

end Statement

/-! ## Sources -/

/-- A folded line shows its place in the source: the bytes of its span are its text, which is what a
line of the source has between its blanks. -/
structure FoldedStatement.Placed (source : Text) (line : FoldedStatement) : Prop where
  within : line.span.stop ≤ source.size
  bytes : (String.ofList source).toByteArray.extract line.span.start line.span.stop =
    line.source.toByteArray
  statement : StatementLine source line.span line.source.toList
  ne_empty : line.source ≠ ""
  head : ∀ c ∈ line.source.toList.head?, isBlank c = false
  last : ∀ c ∈ line.source.toList.getLast?, isBlank c = false
  oneLine : '\n' ∉ line.source.toList
  noComment : ¬ ['/', '/'] <+: line.source.toList

theorem StatementLine.placed {source : Text} {line : FoldedStatement}
    (h : StatementLine source line.span line.source.toList) : line.Placed source where
  within := h.covers.stop_le
  bytes := h.covers.bytes_eq.trans (by rw [String.ofList_toList])
  statement := h
  ne_empty := fun he => h.ne_nil (by rw [he]; rfl)
  head := h.trimmed.1
  last := h.trimmed.2
  oneLine := h.oneLine
  noComment := h.noComment

/-- The lines of a folded source are its statements, in order. -/
theorem foldSource_lines {signs : Bool} {source : Text} {lines : List FoldedStatement}
    (h : (foldSource signs source).value = some lines) :
    lines.map (fun line => (line.span, line.source)) =
      (Statement.all source).map fun s => (Statement.span s.1 s.2, String.ofList s.2) := by
  have h := Outcome.value_collect_eq_some.1 h
  rw [List.map_map] at h
  -- The lines are known as values of outcomes only, so they are compared under `some`.
  refine List.map_injective_iff.2 (fun _ _ => Option.some.inj) ?_
  calc (lines.map fun line => (line.span, line.source)).map some
      = (lines.map some).map (Option.map fun line => (line.span, line.source)) := by simp
    _ = (Statement.all source).map fun s =>
          (Statement.fold signs s.1 s.2).value.map fun line => (line.span, line.source) := by
        rw [← h, List.map_map]; rfl
    _ = ((Statement.all source).map fun s =>
          (Statement.span s.1 s.2, String.ofList s.2)).map some := ?_
  rw [List.map_map]
  refine List.map_congr_left fun s hs => ?_
  have hmem : (Statement.fold signs s.1 s.2).value ∈ lines.map some := h ▸ List.mem_map_of_mem hs
  obtain ⟨line, -, hline⟩ := List.mem_map.1 hmem
  obtain ⟨hspan, hsource⟩ := (Statement.fold_places signs
    (Statement.statementLine_of_mem_all hs).covers).1 line hline.symm
  rw [← hline, Option.map_some, hspan, hsource]
  rfl

/-- Where each part adds one entry or none, the entries belong to a selection of the parts. -/
theorem forall₂_flatMap {α β : Type} {P : α → β → Prop} {f : α → List β} {as : List α}
    (h : ∀ a ∈ as, f a = [] ∨ ∃ b, f a = [b] ∧ P a b) :
    ∃ chosen, chosen.Sublist as ∧ List.Forall₂ P chosen (as.flatMap f) := by
  induction as with
  | nil => exact ⟨[], .slnil, .nil⟩
  | cons a as ih =>
    obtain ⟨chosen, hsub, hall⟩ := ih fun b hb => h b (List.mem_cons_of_mem _ hb)
    rw [List.flatMap_cons]
    rcases h a List.mem_cons_self with ha | ⟨b, hb, hP⟩
    · rw [ha]
      exact ⟨chosen, hsub.cons a, hall⟩
    · rw [hb]
      exact ⟨a :: chosen, hsub.cons_cons a, .cons hP hall⟩

/-- **Folding points into the source.** The lines of a folded source stand where they say, one after
the other. The diagnostics belong to statements of the source, one each and in their order, and each
covers the part of its statement that its message quotes, or all of it. -/
theorem foldSource_places (signs : Bool) (source : Text) :
    (∀ lines, (foldSource signs source).value = some lines →
      (∀ line ∈ lines, line.Placed source) ∧
      lines.Pairwise fun l l' => l.span.stop ≤ l'.span.start ∧ l.span.start < l'.span.start) ∧
    ∃ statements : List (Nat × Text),
      (∀ s ∈ statements, StatementLine source (Statement.span s.1 s.2) s.2) ∧
      (statements.Pairwise fun s t => s.1 + s.2.size ≤ t.1 ∧ s.1 < t.1) ∧
      List.Forall₂ (fun s entry => Statement.Reports source s entry.2) statements
        (foldSource signs source).diagnostics := by
  have hall : ∀ s ∈ Statement.all source, StatementLine source (Statement.span s.1 s.2) s.2 :=
    fun s hs => Statement.statementLine_of_mem_all hs
  have hpairs : (Statement.all source).Pairwise fun s t => s.1 + s.2.size ≤ t.1 ∧ s.1 < t.1 := by
    refine (Statement.pairwise_all source).imp_of_mem fun {s t} hs _ h => ⟨h, ?_⟩
    have := List.length_pos_of_ne_nil (hall s hs).ne_nil
    have := Text.length_le_size s.2
    omega
  refine ⟨fun lines hlines => ⟨fun line hline => ?_, ?_⟩, ?_⟩
  · have hmem := List.mem_map_of_mem (f := fun l : FoldedStatement => (l.span, l.source)) hline
    rw [foldSource_lines hlines] at hmem
    obtain ⟨s, hs, he⟩ := List.mem_map.1 hmem
    obtain ⟨hspan, hsource⟩ := Prod.mk.inj he
    refine StatementLine.placed ?_
    rw [← hspan, ← hsource, String.toList_ofList]
    exact hall s hs
  · have hspans : lines.map (·.span) = (Statement.all source).map fun s =>
        Statement.span s.1 s.2 := by
      simpa [Function.comp_def] using congrArg (List.map Prod.fst) (foldSource_lines hlines)
    have hpairs' : (lines.map (·.span)).Pairwise fun a b => a.stop ≤ b.start ∧ a.start < b.start := by
      rw [hspans]
      exact List.pairwise_map.2 hpairs
    exact List.pairwise_map.1 hpairs'
  · rw [foldSource, Outcome.diagnostics_collect, List.flatMap_map]
    obtain ⟨statements, hsub, hreports⟩ := forall₂_flatMap fun s hs =>
      (Statement.fold_places signs (hall s hs).covers).2
    exact ⟨statements, fun s hs => hall s (hsub.subset hs), hpairs.sublist hsub, hreports⟩

/-- Two lines between blanks of several bytes, the second one with ignored characters. -/
theorem foldSource_places_ignored :
    let source : Text := " 1 + 2\n\u00a0- 3  é\u2003x \n//".toList
    let lines : List FoldedStatement :=
      [⟨⟨1, 5⟩, "1 + 2", .int .int32 3⟩, ⟨⟨9, 11⟩, "- 3  é\u2003x", .int .int32 (-3)⟩]
    (foldSource false source).value = some lines ∧
      (∀ line ∈ lines, line.Placed source) ∧
      lines.Pairwise fun l l' => l.span.stop ≤ l'.span.start ∧ l.span.start < l'.span.start := by
  intro source lines
  have h : (foldSource false source).value = some lines := by decide +kernel
  exact ⟨h, (foldSource_places false source).1 lines h⟩

end KernelFront
