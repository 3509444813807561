import Mathlib.Data.List.Forall2
import KernelFront.Proofs.Folding.Lines
import KernelFront.Proofs.Outcome.States
import KernelFront.Proofs.Value.Updates

/-!
# What folding can produce

`foldSource_produces`: each statement contributes a line, a line with a warning about ignored text, or
an error, and nothing else (`Contributes`); the result has a line for each statement or no value at
all. Literals are scalars, and no operator leaves them: a scalar is neither missing nor an address, so
an operator on scalars has a scalar or an error that is not about a missing operand (`GivesScalar`).
-/

namespace KernelFront

/-! ## Scalars -/

theorem BinaryOp.ne_notSet_of_fault {op : BinaryOp} {kind : Kind} {a b : Value} {e : ValueError}
    (ha : a ≠ .unset) (hb : b ≠ .unset) (h : op.fault? kind a b = some e) : e ≠ .notSet := by
  unfold fault? at h
  rw [if_neg (not_or.2 ⟨ha, hb⟩)] at h
  rintro rfl
  split at h <;> simp at h

namespace Value

/-- An operation gives a scalar, or an error that is not about a missing operand. -/
def GivesScalar : Except ValueError Value → Prop
  | .error e => e ≠ .notSet
  | .ok v => v.IsScalar

variable {a b v : Value}

/-- The kinds of scalars are those from `bool` to `double`. -/
theorem IsScalar.rank_bounds (h : v.IsScalar) :
    Kind.bool.rank ≤ v.kind.rank ∧ v.kind.rank ≤ (Kind.float .double).rank := by
  revert h
  unfold IsScalar
  generalize v.kind = k
  rcases k with _ | _ | ⟨_ | _, _ | _ | _ | _⟩ | (_ | _) | _ <;> decide

theorem givesScalar_binary (op : BinaryOp) (ha : a.IsScalar) (hb : b.IsScalar) :
    GivesScalar (binary op a b) := by
  obtain ⟨hset, hptr⟩ := ha.promote hb
  cases hf : op.fault? (Kind.promote a.kind b.kind) a b with
  | some e =>
    rw [binary_of_fault hset hptr hf]
    exact BinaryOp.ne_notSet_of_fault ha.ne_unset hb.ne_unset hf
  | none =>
    obtain ⟨v, hv, hkind⟩ := exists_binary hset hptr hf
    rw [hv]
    show v.kind ≠ .unset ∧ v.kind ≠ .pointer
    rw [hkind]
    exact resultKind_ne op hset hptr

theorem givesScalar_unary (op : UnaryOp) (ha : a.IsScalar) : GivesScalar (unary op a) := by
  cases a with
  | unset => exact absurd rfl ha.1
  | pointer => exact absurd rfl ha.2
  | bool | int => cases op <;> exact ⟨nofun, nofun⟩
  | float =>
    cases op with
    | tilde => exact nofun
    | _ => exact ⟨nofun, nofun⟩

theorem givesScalar_step (op : StepOp) (ha : a.IsScalar) : GivesScalar (a.step op) := by
  cases a with
  | unset => exact absurd rfl ha.1
  | pointer => exact absurd rfl ha.2
  | bool => exact nofun
  | int | float => exact ⟨nofun, nofun⟩

/-- Keeping the value from before the step needs the step all the same. -/
theorem givesScalar_post (op : StepOp) (ha : a.IsScalar) :
    GivesScalar ((Update.post op).run a).1 := by
  have h := givesScalar_step op ha
  rw [Update.result_post]
  cases hs : a.step op with
  | error e =>
    rw [hs] at h
    exact h
  | ok w => exact ha

theorem isScalar_of_read? {signs : Bool} {cs rest : Text} (h : read? signs cs = some (v, rest)) :
    v.IsScalar := by
  obtain ⟨l, -, rfl⟩ := exists_reads_of_read? h
  exact l.kind_value_ne

end Value

/-! ## Statements -/

/-- The codes of the errors that a statement can have. -/
def Code.faults : List Code :=
  [.invalidLiteral, .unknownOperator, .floatOperand, .boolOperand, .divisionByZero]

theorem Cause.code_value_mem {e : ValueError} (h : e ≠ .notSet) :
    (Cause.value e).code ∈ Code.faults := by
  cases e with
  | notSet => exact absurd rfl h
  | floatOperand | boolOperand | divisionByZero => simp [Cause.code, Code.faults]

namespace Statement

section

variable {α β : Type} {P : α → Prop} {Q : β → Prop}

/-- A part of folding has a result in `P`, or a fault of a code that a statement can have. -/
def Gives (P : α → Prop) : Except Fault α → Prop
  | .error f => f.cause.code ∈ Code.faults
  | .ok a => P a

theorem Gives.bind {x : Except Fault α} {f : α → Except Fault β} (hx : Gives P x)
    (hf : ∀ a, P a → Gives Q (f a)) : Gives Q (x >>= f) := by
  cases x with
  | error e => exact hx
  | ok a => exact hf a hx

end

section

variable {signs : Bool} {statement cs : Text}

theorem gives_readLiteral : Gives (fun found => found.1.IsScalar) (readLiteral signs cs) := by
  unfold readLiteral
  dsimp only
  split
  · rename_i found hf
    exact Value.isScalar_of_read? hf
  · exact List.mem_cons_self

theorem gives_readConnective : Gives (fun _ => True) (readConnective cs) := by
  unfold readConnective
  split
  · trivial
  · split
    · split
      · trivial
      · exact List.mem_cons_of_mem _ List.mem_cons_self
    · trivial

theorem gives_operate {r : Except ValueError Value} (h : Value.GivesScalar r) :
    Gives Value.IsScalar (operate statement r) := by
  cases r with
  | error e => exact Cause.code_value_mem h
  | ok v => exact h

theorem givesScalar_applyLead (lead? : Option Lead) {v : Value} (hv : v.IsScalar) :
    Value.GivesScalar (applyLead lead? v) := by
  cases lead? with
  | none => exact hv
  | some lead =>
    cases lead with
    | step op =>
      rw [applyLead, Update.result_pre]
      exact Value.givesScalar_step op hv
    | unary op => exact Value.givesScalar_unary op hv

theorem givesScalar_applyConnective (c : Connective) {lhs rhs : Value} (hl : lhs.IsScalar)
    (hr : rhs.IsScalar) : Value.GivesScalar (applyConnective c lhs rhs) := by
  rw [applyConnective, Update.result_assign, ite_self]
  exact Value.givesScalar_binary c.op hl hr

theorem gives_foldHead (signs : Bool) (statement : Text) :
    Gives (fun found => found.1.IsScalar) (foldHead signs statement) := by
  have hrest (lead? : Option Lead) (cs : Text) :
      Gives (fun found => found.1.IsScalar)
        (readLiteral signs cs >>= fun found =>
          operate statement (applyLead lead? found.1) >>= fun v => pure (v, found.2)) :=
    gives_readLiteral.bind fun found hfound =>
      (gives_operate (givesScalar_applyLead lead? hfound)).bind fun _ hv => hv
  unfold foldHead
  dsimp only
  cases Lead.read? signs statement.trimStart with
  | none => exact hrest none _
  | some found => exact hrest (some found.1) _

theorem gives_foldTail {lhs : Value} (hl : lhs.IsScalar) :
    Gives (fun found => found.1.IsScalar) (foldTail signs statement lhs cs) := by
  unfold foldTail
  dsimp only
  cases StepOp.read? cs.trimStart with
  | some found =>
    exact (gives_operate (Value.givesScalar_post found.1 hl)).bind fun _ hv => hv
  | none =>
    refine gives_readConnective.bind fun found _ => ?_
    cases found with
    | none => exact hl
    | some found =>
      refine gives_readLiteral.bind fun rhs hrhs => ?_
      exact (gives_operate (givesScalar_applyConnective found.1 hl hrhs)).bind fun _ hv => hv

/-- A statement has a scalar, or a fault of a code that a statement can have. -/
theorem gives_evaluate (signs : Bool) (statement : Text) :
    Gives (fun found => found.1.IsScalar) (evaluate signs statement) :=
  (gives_foldHead signs statement).bind fun _ hfound => gives_foldTail hfound

end

/-- What folding a statement can come to: a line, a line and a warning about ignored text, or an
error. -/
inductive Contributes (s : Nat × Text) : Outcome FoldedStatement → Prop where
  | line {v : Value} : v.IsScalar → Contributes s (.ok ⟨span s.1 s.2, String.ofList s.2, v⟩)
  | ignored {v : Value} {d : Diagnostic} : v.IsScalar → d.code = .trailingCharacters →
      Contributes s (.recovered ⟨span s.1 s.2, String.ofList s.2, v⟩ d)
  | fault {d : Diagnostic} : d.code ∈ Code.faults → Contributes s (.failed d)

theorem contributes_fold (signs : Bool) (s : Nat × Text) :
    Contributes s (fold signs s.1 s.2) := by
  have h := gives_evaluate signs s.2
  unfold fold
  cases he : evaluate signs s.2 with
  | error f =>
    rw [he] at h
    exact .fault h
  | ok found =>
    rw [he] at h
    dsimp only
    split
    · exact .line h
    · exact .ignored h rfl

namespace Contributes

variable {s : Nat × Text} {o : Outcome FoldedStatement}

theorem length_diagnostics_le (h : Contributes s o) : o.diagnostics.length ≤ 1 := by
  cases h <;> exact Nat.le_of_ble_eq_true rfl

theorem consistent (h : Contributes s o) : o.Consistent := by
  cases h with
  | line => exact Outcome.consistent_ok _
  | ignored => exact Outcome.consistent_recovered _ _
  | fault => exact Outcome.consistent_failed _

/-- A warning is about ignored text, and an error has one of the codes of errors. -/
theorem code_of_mem (h : Contributes s o) {entry : Severity × Diagnostic}
    (he : entry ∈ o.diagnostics) :
    (entry.1 = .recoverable ∧ entry.2.code = .trailingCharacters) ∨
      (entry.1 = .error ∧ entry.2.code ∈ Code.faults) := by
  cases h with
  | line => cases he
  | ignored _ hcode =>
    obtain rfl := List.mem_singleton.1 he
    exact .inl ⟨rfl, hcode⟩
  | fault hcode =>
    obtain rfl := List.mem_singleton.1 he
    exact .inr ⟨rfl, hcode⟩

theorem line_eq (h : Contributes s o) {line : FoldedStatement} (hl : o.value = some line) :
    line.span = span s.1 s.2 ∧ line.source = String.ofList s.2 ∧ line.value.IsScalar := by
  cases h with
  | line hv | ignored hv =>
    obtain rfl := Option.some.inj hl
    exact ⟨rfl, rfl, hv⟩
  | fault => cases hl

end Contributes

end Statement

/-! ## Sources -/

theorem diagnostics_foldSource (signs : Bool) (source : Text) :
    (foldSource signs source).diagnostics =
      (Statement.all source).flatMap fun s => (Statement.fold signs s.1 s.2).diagnostics := by
  rw [foldSource, Outcome.diagnostics_collect, List.flatMap_map]

theorem consistent_foldSource (signs : Bool) (source : Text) :
    (foldSource signs source).Consistent := by
  refine Outcome.consistent_collect fun o ho => ?_
  obtain ⟨s, -, rfl⟩ := List.mem_map.1 ho
  exact (Statement.contributes_fold signs s).consistent

/-- A warning about a source is about ignored text, and an error has one of the codes of errors. -/
theorem code_of_mem_foldSource {signs : Bool} {source : Text} {entry : Severity × Diagnostic}
    (he : entry ∈ (foldSource signs source).diagnostics) :
    (entry.1 = .recoverable ∧ entry.2.code = .trailingCharacters) ∨
      (entry.1 = .error ∧ entry.2.code ∈ Code.faults) := by
  rw [diagnostics_foldSource] at he
  obtain ⟨s, -, he⟩ := List.mem_flatMap.1 he
  exact (Statement.contributes_fold signs s).code_of_mem he

/-- The folded lines are those of the statements, one for one. -/
theorem forall₂_foldSource {signs : Bool} {source : Text} {lines : List FoldedStatement}
    (h : (foldSource signs source).value = some lines) :
    List.Forall₂ (fun s line => line.span = Statement.span s.1 s.2 ∧
      line.source = String.ofList s.2 ∧ line.value.IsScalar) (Statement.all source) lines := by
  have hvalues : (Statement.all source).map (fun s => (Statement.fold signs s.1 s.2).value) =
      lines.map some := by
    rw [← Outcome.value_collect_eq_some.1 h, List.map_map]
    rfl
  have hfold : List.Forall₂ (fun s line => (Statement.fold signs s.1 s.2).value = some line)
      (Statement.all source) lines := by
    rw [← List.forall₂_eq_eq_eq, List.forall₂_map_left_iff, List.forall₂_map_right_iff] at hvalues
    exact hvalues
  exact hfold.imp fun s line hline => (Statement.contributes_fold signs s).line_eq hline

/-- **What folding can produce.** Every line of the source that is neither blank nor a comment
contributes one diagnostic at most: a warning about ignored text or an error, each with its own codes.
There is a result exactly where none of them contributes an error, and then it has one line for each
of them, in order, whose value is a truth value or a number. -/
theorem foldSource_produces (signs : Bool) (source : Text) :
    (∀ s, s ∈ Statement.all source ↔ StatementLine source (Statement.span s.1 s.2) s.2) ∧
    (foldSource signs source).diagnostics =
      (Statement.all source).flatMap (fun s => (Statement.fold signs s.1 s.2).diagnostics) ∧
    (∀ s ∈ Statement.all source, (Statement.fold signs s.1 s.2).diagnostics.length ≤ 1) ∧
    (∀ entry ∈ (foldSource signs source).diagnostics,
      (entry.1 = .recoverable ∧ entry.2.code = .trailingCharacters) ∨
      (entry.1 = .error ∧ entry.2.code ∈ [.invalidLiteral, .unknownOperator, .floatOperand,
        .boolOperand, .divisionByZero])) ∧
    ((∃ lines, (foldSource signs source).value = some lines) ↔
      ∀ s ∈ Statement.all source, ¬ (Statement.fold signs s.1 s.2).HasError) ∧
    ∀ lines, (foldSource signs source).value = some lines →
      List.Forall₂ (fun s line => line.span = Statement.span s.1 s.2 ∧
        line.source = String.ofList s.2 ∧ line.value.kind ≠ .unset ∧ line.value.kind ≠ .pointer ∧
        Kind.bool.rank ≤ line.value.kind.rank ∧
        line.value.kind.rank ≤ (Kind.float .double).rank) (Statement.all source) lines := by
  refine ⟨fun s => Statement.mem_all_iff, diagnostics_foldSource signs source, fun s _ => ?_,
    fun entry he => code_of_mem_foldSource he, ?_, fun lines hlines => ?_⟩
  · exact (Statement.contributes_fold signs s).length_diagnostics_le
  · have hnone : (foldSource signs source).value = none ↔ (foldSource signs source).HasError :=
      consistent_foldSource signs source
    rw [← Option.ne_none_iff_exists', Ne, hnone, foldSource, Outcome.hasError_collect]
    simp
  · exact (forall₂_foldSource hlines).imp fun s line h => by
      obtain ⟨hspan, hsource, hv⟩ := h
      exact ⟨hspan, hsource, hv.1, hv.2, hv.rank_bounds⟩

/-- A comment, a truth value and a float with ignored text after it. -/
theorem foldSource_produces_ignored :
    let source : Text := "// a\n!0\n2.5f * 2 L".toList
    let lines : List FoldedStatement :=
      [⟨⟨5, 2⟩, "!0", .bool true⟩,
        ⟨⟨8, 10⟩, "2.5f * 2 L", .float .single (.ofBits _ 0x40a00000)⟩]
    (foldSource true source).value = some lines ∧
      List.Forall₂ (fun s line => line.span = Statement.span s.1 s.2 ∧
        line.source = String.ofList s.2 ∧ line.value.kind ≠ .unset ∧ line.value.kind ≠ .pointer ∧
        Kind.bool.rank ≤ line.value.kind.rank ∧
        line.value.kind.rank ≤ (Kind.float .double).rank) (Statement.all source) lines := by
  intro source lines
  have h : (foldSource true source).value = some lines := by decide +kernel
  exact ⟨h, (foldSource_produces true source).2.2.2.2.2 lines h⟩

end KernelFront
