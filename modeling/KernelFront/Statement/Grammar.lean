import KernelFront.Statement.Basic

/-!
# The grammar of statements

An `Expression` is a literal with an operator before it and one after it, if any, and its `result` is
what the operators on values make of it. `Expression.Written` says how it may be written: with any
blanks after the first operator and before a step, and with some on both sides of an operator between
two literals. The reader takes more than this; a literal that follows an operator at once is read too.
-/

namespace KernelFront

/-- Blanks within a line. -/
def Gap (g : Text) : Prop := ∀ c ∈ g, isBlank c = true ∧ c ≠ '\n'

instance (g : Text) : Decidable (Gap g) := List.decidableBAll _ g

/-- All of the text is one literal, within a line, and denotes the value. -/
structure Denotes (signs : Bool) (t : Text) (v : Value) : Prop where
  reads : Value.read? signs t = some (v, [])
  oneLine : '\n' ∉ t

/-- What follows the first literal of a statement. -/
inductive Tail where
  | none
  | step (op : StepOp)
  | connective (c : Connective) (rhs : Value)
  deriving DecidableEq, Repr

/-- A statement without faults. -/
structure Expression where
  lead? : Option Lead
  operand : Value
  tail : Tail
  deriving DecidableEq, Repr

/-! ## Results -/

/-- What follows the first literal, applied to the value before it. -/
def Tail.run (tail : Tail) (x : Value) : Except ValueError Value :=
  match tail with
  | .none => .ok x
  | .step op => ((Update.post op).run x).1
  | .connective c b => Statement.applyConnective c x b

/-- The value of an expression: what is written before the operand comes first. -/
def Expression.result (e : Expression) : Except ValueError Value := do
  let x ← Statement.applyLead e.lead? e.operand
  e.tail.run x

/-! ## Texts -/

/-- Where signs belong to the literals, a single sign is no operator. -/
def Lead.Allowed (signs : Bool) (lead : Lead) : Prop :=
  signs = true → lead ≠ .unary .negative ∧ lead ≠ .unary .positive

/-- The text is the operator before a literal with the blanks after it, or empty. -/
inductive Lead.Written (signs : Bool) : Option Lead → Text → Prop where
  | none : Written signs none []
  | some {lead : Lead} {gap : Text} : lead.Allowed signs → Gap gap →
      Written signs (some lead) (lead.chars ++ gap)

/-- The text is what follows a literal. -/
inductive Tail.Written (signs : Bool) : Tail → Text → Prop where
  | none : Written signs .none []
  | step {op : StepOp} {gap : Text} : Gap gap → Written signs (.step op) (gap ++ op.symbol.toList)
  | connective {c : Connective} {before after t : Text} {rhs : Value} :
      (c.assigns = true → c.op.assignable = true) → Gap before → before ≠ [] → Gap after →
      after ≠ [] → Denotes signs t rhs →
      Written signs (.connective c rhs) (before ++ (c.chars ++ (after ++ t)))

/-- The text is the expression. -/
inductive Expression.Written (signs : Bool) : Expression → Text → Prop where
  | intro {lead? : Option Lead} {operand : Value} {tail : Tail} {lead t after : Text} :
      Lead.Written signs lead? lead → Denotes signs t operand → Tail.Written signs tail after →
      Written signs ⟨lead?, operand, tail⟩ (lead ++ (t ++ after))

end KernelFront
