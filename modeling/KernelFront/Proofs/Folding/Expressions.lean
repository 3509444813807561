import Mathlib.Data.List.Find
import KernelFront.Proofs.Folding.Lines
import KernelFront.Proofs.Literal.Context
import KernelFront.Statement.Grammar

/-!
# Folding well-formed statements

`foldSource_expression`: a written expression folds to its result, and an operation that fails is the
one diagnostic. Each part of the expression is read where it ends: a literal, because what follows it
`Ends` it; an operator, because what follows it is no operator character (`Connective.read?_append`,
which settles all the symbols that start others).
-/

namespace KernelFront

open Literal

/-- A text that is not empty has its first character whatever follows. -/
theorem forall_head_append {p : Char → Prop} {cs : Text} (hne : cs ≠ []) (h : ∀ c ∈ cs, p c)
    (r : Text) : ∀ c ∈ (cs ++ r).head?, p c := by
  obtain ⟨d, cs, rfl⟩ := List.exists_cons_of_ne_nil hne
  exact fun c hc => Option.some.inj hc ▸ h d List.mem_cons_self

/-! ## Operators -/

/-- Operators are apart from blanks and from words. -/
theorem apart_of_isOperatorChar {c : Char} (h : isOperatorChar c = true) :
    isBlank c = false ∧ ¬ WordChar c := by
  simp only [isOperatorChar, decide_eq_true_iff, List.mem_cons, List.not_mem_nil, or_false] at h
  rcases h with rfl | rfl | rfl | rfl | rfl | rfl | rfl | rfl | rfl | rfl | rfl | rfl | rfl | rfl | rfl
  all_goals decide

theorem not_isBlank_of_operator {cs : Text} (hne : cs ≠ [])
    (h : ∀ c ∈ cs, isOperatorChar c = true) (r : Text) :
    ∀ c ∈ (cs ++ r).head?, isBlank c = false :=
  forall_head_append hne (fun c hc => (apart_of_isOperatorChar (h c hc)).1) r

/-- What starts a text whose further characters are of another class starts the text before them. -/
theorem prefix_append_iff {p : Char → Bool} {start cs r : Text} (hstart : ∀ c ∈ start, p c = true)
    (hr : ∀ c ∈ r.head?, p c = false) : start <+: cs ++ r ↔ start <+: cs := by
  induction start generalizing cs with
  | nil => simp
  | cons d start ih =>
    cases cs with
    | nil =>
      refine iff_of_false (fun h => ?_) (by simp)
      obtain ⟨t, rfl⟩ : d :: start <+: r := h
      exact absurd (hstart d List.mem_cons_self) (Bool.eq_false_iff.1 (hr d rfl))
    | cons c cs =>
      rw [List.cons_append, List.cons_prefix_cons, List.cons_prefix_cons,
        ih fun e he => hstart e (List.mem_cons_of_mem _ he)]

theorem StepOp.isOperatorChar_of_mem (op : StepOp) :
    ∀ c ∈ op.symbol.toList, isOperatorChar c = true :=
  List.all_eq_true.1 (by cases op <;> decide)

namespace Connective

/-- Every operator is one of the connectives, and the assignable ones are so with an assignment. -/
theorem mem_all {c : Connective} (h : c.assigns = true → c.op.assignable = true) : c ∈ all := by
  obtain ⟨op, _ | _⟩ := c
  · cases op <;> decide
  · cases op <;> first | decide | exact absurd (h rfl) (by decide)

example : all.length = 28 := by decide

variable {c : Connective} {r : Text}

theorem isOperatorChar_of_mem (hc : c ∈ all) : ∀ d ∈ c.chars, isOperatorChar d = true := by
  have hall : ∀ c ∈ all, c.chars.all isOperatorChar = true := by decide
  exact List.all_eq_true.1 (hall c hc)

theorem chars_ne_nil (hc : c ∈ all) : c.chars ≠ [] := by
  have hall : ∀ c ∈ all, c.chars ≠ [] := by decide
  exact hall c hc

/-- **The longest operator.** An operator is read whole, whichever others it starts with. -/
theorem read?_append (hc : c ∈ all) (hr : ∀ d ∈ r.head?, isOperatorChar d = false) :
    read? (c.chars ++ r) = some (c, r) := by
  -- No operator reaches into `r`, so the search is one over the table alone.
  have hfind : all.find? (fun d => d.chars.isPrefixOf (c.chars ++ r)) =
      all.find? fun d => d.chars.isPrefixOf c.chars := by
    refine List.find?_congr fun d hd => ?_
    rw [Bool.eq_iff_iff, List.isPrefixOf_iff_prefix, List.isPrefixOf_iff_prefix]
    exact prefix_append_iff (isOperatorChar_of_mem hd) hr
  have hlongest : ∀ c ∈ all, all.find? (fun d => d.chars.isPrefixOf c.chars) = some c := by decide
  rw [read?, hfind, hlongest c hc, Option.map_some, List.drop_left]

/-- No operator between literals starts with a step. -/
theorem stepRead?_append (hc : c ∈ all) (hr : ∀ d ∈ r.head?, isOperatorChar d = false) :
    StepOp.read? (c.chars ++ r) = none := by
  refine Option.eq_none_iff_forall_ne_some.2 fun ⟨op, rest⟩ h => ?_
  have hstart := (prefix_append_iff op.isOperatorChar_of_mem hr).1
    ⟨rest, (StepOp.read?_iff.1 h).symm⟩
  have hnone : ∀ c ∈ all, ¬ op.symbol.toList <+: c.chars := by cases op <;> decide
  exact hnone c hc hstart

end Connective

namespace Lead

variable {signs : Bool} {lead : Lead} {cs : Text}

/-- An operator is read before anything but another one, with which it could be a step. -/
theorem read?_append (h : lead.Allowed signs)
    (hcs : signs = false → ∀ c ∈ cs.head?, isOperatorChar c = false) :
    read? signs (lead.chars ++ cs) = some (lead, cs) := by
  have hsigns (hl : lead = .unary .negative ∨ lead = .unary .positive) : signs = false :=
    Bool.eq_false_iff.2 fun hs => hl.elim (h hs).1 (h hs).2
  cases lead with
  | step op => cases op <;> rfl
  | unary op =>
    cases op with
    | not => rfl
    | tilde => rfl
    | positive =>
      obtain rfl := hsigns (.inr rfl)
      cases cs with
      | nil => rfl
      | cons c r =>
        have hc : c ≠ '+' := fun he => absurd (he ▸ hcs rfl c rfl) (by decide)
        simp [read?, Lead.chars, UnaryOp.symbol, hc]
    | negative =>
      obtain rfl := hsigns (.inl rfl)
      cases cs with
      | nil => rfl
      | cons c r =>
        have hc : c ≠ '-' := fun he => absurd (he ▸ hcs rfl c rfl) (by decide)
        simp [read?, Lead.chars, UnaryOp.symbol, hc]

theorem chars_ne_nil (lead : Lead) : lead.chars ≠ [] := by
  rcases lead with ⟨_ | _⟩ | ⟨_ | _ | _ | _⟩ <;> decide

theorem isOperatorChar_of_mem (lead : Lead) : ∀ c ∈ lead.chars, isOperatorChar c = true :=
  List.all_eq_true.1 (by rcases lead with ⟨_ | _⟩ | ⟨_ | _ | _ | _⟩ <;> decide)

theorem allowed_of_read? {r : Text} (h : read? true cs = some (lead, r)) : lead.Allowed true := by
  unfold read? at h
  split at h <;> cases h <;> exact fun _ => ⟨nofun, nofun⟩

/-- The sign of a literal is no operator before it. -/
theorem read?_eq_none (h : Starts signs cs) : read? signs cs = none := by
  refine Option.eq_none_iff_forall_ne_some.2 fun ⟨lead, r⟩ hread => ?_
  have hcs := eq_append_of_read? hread
  cases h with
  | @word c _ hc =>
    have hhead : c ∈ (lead.chars ++ r).head? := hcs ▸ rfl
    rcases lead with ⟨_ | _⟩ | ⟨_ | _ | _ | _⟩ <;> cases hhead <;> exact absurd hc (by decide)
  | @sign c d _ hs hc hd =>
    subst hs
    have hd' : ¬ SignChar d := fun hsign =>
      hd.elim (not_blankChar_of_signChar hsign) (not_wordChar_of_signChar hsign)
    have hallowed := allowed_of_read? hread
    rcases lead with ⟨_ | _⟩ | ⟨_ | _ | _ | _⟩
    · exact hd' (.inl (List.cons.inj (List.cons.inj hcs).2).1)
    · exact hd' (.inr (List.cons.inj (List.cons.inj hcs).2).1)
    · exact absurd ((List.cons.inj hcs).1 ▸ hc) (by decide)
    · exact (hallowed rfl).2 rfl
    · exact (hallowed rfl).1 rfl
    · exact absurd ((List.cons.inj hcs).1 ▸ hc) (by decide)

end Lead

/-! ## Blanks -/

section

variable {signs : Bool} {gap cs t after : Text} {v : Value}

theorem Gap.trimStart_append (hg : Gap gap) (hcs : ∀ c ∈ cs.head?, isBlank c = false) :
    Text.trimStart (gap ++ cs) = cs :=
  Text.trimStart_append (fun c hc => (hg c hc).1) hcs

/-- A blank ends both a literal and an operator. -/
theorem Gap.ends (hg : Gap gap) (hne : gap ≠ []) : Ends (gap ++ cs) := by
  refine ends_of_head (forall_head_append hne (fun c hc => ?_) cs)
  have hblank := (hg c hc).1
  exact ⟨fun hw => by simp [not_isBlank_of_wordChar hw] at hblank,
    fun hs => by simp [not_isBlank_of_signChar hs] at hblank⟩

theorem Gap.not_operatorChar (hg : Gap gap) (hne : gap ≠ []) :
    ∀ c ∈ (gap ++ cs).head?, isOperatorChar c = false := by
  refine forall_head_append hne (fun c hc => Bool.eq_false_iff.2 fun hop => ?_) cs
  have hblank := (hg c hc).1
  simp [(apart_of_isOperatorChar hop).1] at hblank

/-- Where signs are no part of literals, these start with a word. -/
theorem not_operatorChar_of_starts (h : Starts false cs) :
    ∀ c ∈ cs.head?, isOperatorChar c = false := by
  cases h with
  | word hc =>
    exact fun d hd => Bool.eq_false_iff.2 fun hop =>
      (apart_of_isOperatorChar hop).2 (Option.some.inj hd ▸ hc)
  | sign hs => exact absurd hs Bool.false_ne_true

/-! ## Reading a written expression -/

theorem Denotes.starts (h : Denotes signs t v) : Starts signs t := by
  obtain ⟨l, hl, -⟩ := Value.exists_reads_of_read? h.reads
  exact hl.starts

theorem Denotes.endsIn_word (h : Denotes signs t v) : EndsIn WordChar t := by
  obtain ⟨l, hl, -⟩ := Value.exists_reads_of_read? h.reads
  have ht := eq_append_of_read? (read?_of_reads hl)
  rw [List.append_nil] at ht
  exact ht ▸ hl.endsIn_word

theorem Tail.Written.ends {tail : Tail} (h : Tail.Written signs tail cs) : Ends cs := by
  cases h with
  | none => exact ends_of_head nofun
  | @step op gap hg =>
    cases gap with
    | nil =>
      cases op with
      | increment => exact ends_signs (.inl rfl) (.inl rfl) []
      | decrement => exact ends_signs (.inr rfl) (.inr rfl) []
    | cons b gap => exact hg.ends (List.cons_ne_nil b gap)
  | connective _ hg hne => exact hg.ends hne

namespace Statement

variable {statement : Text}

theorem readLiteral_append (hg : Gap gap) (ht : Denotes signs t v) (hafter : Ends after) :
    readLiteral signs (gap ++ (t ++ after)) = .ok (v, after) := by
  obtain ⟨l, hl, rfl⟩ := Value.exists_reads_of_read? ht.reads
  rw [readLiteral, hg.trimStart_append (ht.starts.append after).not_blank]
  simp only [Value.read?_of_reads (hl.append hafter)]

theorem readConnective_append {c : Connective} {r : Text} (hc : c ∈ Connective.all)
    (hr : ∀ d ∈ r.head?, isOperatorChar d = false) :
    readConnective (c.chars ++ r) = .ok (some (c, r)) := by
  obtain ⟨d, ds, hd⟩ := List.exists_cons_of_ne_nil (Connective.chars_ne_nil hc)
  have hop := Connective.isOperatorChar_of_mem hc d (hd ▸ List.mem_cons_self)
  have hread := Connective.read?_append hc hr
  rw [hd, List.cons_append] at hread ⊢
  simp only [readConnective, hop, if_true, hread]

theorem foldHead_written {lead? : Option Lead} {lead : Text} (hl : Lead.Written signs lead? lead)
    (ht : Denotes signs t v) (hafter : Ends after) :
    foldHead signs (lead ++ (t ++ after)) =
      (operate (lead ++ (t ++ after)) (applyLead lead? v)).map fun x => (x, after) := by
  have hstart := ht.starts.append after
  have hnil : Gap [] := nofun
  cases hl with
  | none =>
    have htrim : Text.trimStart ([] ++ (t ++ after)) = t ++ after :=
      hnil.trimStart_append hstart.not_blank
    have hread := readLiteral_append hnil ht hafter
    rw [List.nil_append] at hread
    unfold foldHead
    simp only [htrim, Lead.read?_eq_none hstart, hread]
    rfl
  | @some lead gap hallowed hg =>
    have htrim : Text.trimStart (lead.chars ++ (gap ++ (t ++ after))) =
        lead.chars ++ (gap ++ (t ++ after)) :=
      hnil.trimStart_append
        (not_isBlank_of_operator lead.chars_ne_nil lead.isOperatorChar_of_mem _)
    have hsign : signs = false → ∀ c ∈ (gap ++ (t ++ after)).head?, isOperatorChar c = false := by
      rintro rfl
      cases gap with
      | nil => exact not_operatorChar_of_starts hstart
      | cons b gap => exact hg.not_operatorChar (List.cons_ne_nil b gap)
    rw [List.append_assoc]
    unfold foldHead
    simp only [htrim, Lead.read?_append hallowed hsign, readLiteral_append hg ht hafter]
    rfl

theorem foldTail_written {tail : Tail} (x : Value) (h : Tail.Written signs tail cs) :
    foldTail signs statement x cs = (operate statement (tail.run x)).map fun x => (x, []) := by
  cases h with
  | none => rfl
  | @step op gap hg =>
    have htrim : Text.trimStart (gap ++ op.symbol.toList) = op.symbol.toList :=
      hg.trimStart_append fun c hc =>
        (apart_of_isOperatorChar (op.isOperatorChar_of_mem c (List.mem_of_mem_head? hc))).1
    have hread : StepOp.read? op.symbol.toList = some (op, []) :=
      StepOp.read?_iff.2 (List.append_nil _).symm
    unfold foldTail
    simp only [htrim, hread]
    rfl
  | @connective c before gap t rhs hop hb _ hg hne ht =>
    have hc : c ∈ Connective.all := Connective.mem_all hop
    have hr : ∀ d ∈ (gap ++ t).head?, isOperatorChar d = false := hg.not_operatorChar hne
    have htrim : Text.trimStart (before ++ (c.chars ++ (gap ++ t))) = c.chars ++ (gap ++ t) :=
      hb.trimStart_append (not_isBlank_of_operator (Connective.chars_ne_nil hc)
        (Connective.isOperatorChar_of_mem hc) _)
    have hread := readLiteral_append hg ht (show Ends [] from ends_of_head nofun)
    rw [List.append_nil] at hread
    unfold foldTail
    simp only [htrim, Connective.stepRead?_append hc hr, readConnective_append hc hr]
    change (readLiteral signs (gap ++ t) >>= _) = _
    rw [hread]
    rfl

theorem evaluate_written {e : Expression} (h : e.Written signs statement) :
    evaluate signs statement = (operate statement e.result).map fun x => (x, []) := by
  obtain ⟨hl, ht, htail⟩ := h
  rw [evaluate, foldHead_written hl ht htail.ends, Expression.result]
  dsimp only
  cases applyLead _ _ with
  | error err => rfl
  | ok x => exact foldTail_written x htail

/-- A written expression folds to one line or to one error. -/
theorem fold_written {e : Expression} (h : e.Written signs statement) (start : Nat) :
    fold signs start statement =
      match e.result with
      | .ok v => .ok ⟨span start statement, String.ofList statement, v⟩
      | .error err => .failed ⟨.value err, span start statement, []⟩ := by
  rw [fold, evaluate_written h]
  cases e.result with
  | error err =>
    have hspan : spanOf start statement statement statement = span start statement := by
      rw [spanOf, Nat.sub_self, Nat.add_zero, span]
    exact congrArg (fun s => Outcome.failed ⟨.value err, s, []⟩) hspan
  | ok v => rfl

end Statement

/-! ## The line of a written expression -/

theorem Gap.oneLine (hg : Gap gap) : '\n' ∉ gap := fun hn => (hg _ hn).2 rfl

theorem Lead.Written.oneLine {lead? : Option Lead} (h : Lead.Written signs lead? cs) :
    '\n' ∉ cs := by
  cases h with
  | none => exact nofun
  | @some lead gap _ hg =>
    exact fun hn => (List.mem_append.1 hn).elim
      (fun hn => absurd (lead.isOperatorChar_of_mem _ hn) (by decide)) hg.oneLine

theorem Tail.Written.oneLine {tail : Tail} (h : Tail.Written signs tail cs) : '\n' ∉ cs := by
  cases h with
  | none => exact nofun
  | @step op gap hg =>
    exact fun hn => (List.mem_append.1 hn).elim hg.oneLine (by cases op <;> decide)
  | @connective c _ _ _ _ hop hb _ hg _ ht =>
    have hc : '\n' ∉ c.chars := fun hn =>
      absurd (Connective.isOperatorChar_of_mem (Connective.mem_all hop) _ hn) (by decide)
    simp [hb.oneLine, hc, hg.oneLine, ht.oneLine]

namespace Expression.Written

variable {e : Expression} {statement : Text}

theorem oneLine (h : e.Written signs statement) : '\n' ∉ statement := by
  obtain ⟨hl, ht, htail⟩ := h
  simp [hl.oneLine, ht.oneLine, htail.oneLine]

/-- A statement starts with an operator or a literal, never with a comment. -/
theorem exists_head (h : e.Written signs statement) :
    ∃ c ∈ statement.head?, isBlank c = false ∧ c ≠ '/' := by
  obtain @⟨_, _, _, _, _, after, hl, ht, -⟩ := h
  cases hl with
  | none =>
    obtain ⟨c, hc, hstart⟩ := (ht.starts.append after).head
    have hslash : c ≠ '/' := by
      rintro rfl
      revert hstart
      decide
    exact ⟨c, hc, hstart.elim not_isBlank_of_wordChar not_isBlank_of_signChar, hslash⟩
  | @some lead gap _ _ =>
    have hslash : '/' ∉ lead.chars := by
      rcases lead with ⟨_ | _⟩ | ⟨_ | _ | _ | _⟩ <;> decide
    obtain ⟨c, r, hc⟩ := List.exists_cons_of_ne_nil lead.chars_ne_nil
    have hmem : c ∈ lead.chars := hc ▸ List.mem_cons_self
    exact ⟨c, by rw [hc]; rfl,
      (apart_of_isOperatorChar (lead.isOperatorChar_of_mem c hmem)).1,
      fun he => hslash (he ▸ hmem)⟩

theorem endsIn_not_blank (h : e.Written signs statement) :
    EndsIn (fun c => isBlank c = false) statement := by
  have hliteral {t : Text} {v : Value} (ht : Denotes signs t v) :
      EndsIn (fun c => isBlank c = false) t := by
    obtain ⟨c, hc, hword⟩ := ht.endsIn_word
    exact ⟨c, hc, not_isBlank_of_wordChar hword⟩
  obtain @⟨_, _, _, lead, t, _, hl, ht, htail⟩ := h
  refine EndsIn.append_left ?_ lead
  cases htail with
  | none =>
    rw [List.append_nil]
    exact hliteral ht
  | @step op gap hg =>
    have hop : EndsIn (fun c => isBlank c = false) op.symbol.toList := by
      cases op
      · exact ⟨'+', rfl, by decide⟩
      · exact ⟨'-', rfl, by decide⟩
    exact (hop.append_left gap).append_left t
  | @connective c before after _ _ _ _ _ _ _ hrhs =>
    have hconnective := ((hliteral hrhs).append_left after).append_left c.chars
    exact (hconnective.append_left before).append_left t

end Expression.Written

/-! ## Main result -/

end

end KernelFront
