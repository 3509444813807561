import KernelFront.Text.Blank
import KernelFront.Value.Operator

/-!
# The operators of a statement

A statement is a literal with at most one operator: before it (`Lead`), after it, or between it and
a second literal (`Connective`). Connectives are read by longest match, so `connectives` lists the
long ones first.
-/

namespace KernelFront

/-- An operator before a literal. -/
inductive Lead where
  | step (op : StepOp)
  | unary (op : UnaryOp)
  deriving DecidableEq, Repr

/-- The symbol of an operator before a literal. -/
def Lead.chars : Lead → Text
  | step op => op.symbol.toList
  | unary op => op.symbol.toList

/-- Reads an operator before a literal. Where signs belong to the literals, a single minus or plus
is none. -/
def Lead.read? (signs : Bool) : Text → Option (Lead × Text)
  | '+' :: '+' :: r => some (.step .increment, r)
  | '-' :: '-' :: r => some (.step .decrement, r)
  | '!' :: r => some (.unary .not, r)
  | '~' :: r => some (.unary .tilde, r)
  | '-' :: r => if signs then none else some (.unary .negative, r)
  | '+' :: r => if signs then none else some (.unary .positive, r)
  | _ => none

theorem Lead.eq_append_of_read? {signs : Bool} {cs r : Text} {lead : Lead}
    (h : Lead.read? signs cs = some (lead, r)) : cs = lead.chars ++ r := by
  unfold Lead.read? at h
  split at h
  all_goals first
    | cases h
      rfl
    | split at h <;> cases h
      rfl
    | cases h

/-- Reads a step after a literal. -/
def StepOp.read? : Text → Option (StepOp × Text)
  | '+' :: '+' :: r => some (.increment, r)
  | '-' :: '-' :: r => some (.decrement, r)
  | _ => none

theorem StepOp.read?_iff {op : StepOp} {cs r : Text} :
    StepOp.read? cs = some (op, r) ↔ cs = op.symbol.toList ++ r := by
  constructor
  · intro h
    unfold StepOp.read? at h
    split at h <;> cases h <;> rfl
  · rintro rfl
    cases op <;> rfl

/-- A binary operator, alone or as a compound assignment. -/
structure Connective where
  op : BinaryOp
  assigns : Bool
  deriving DecidableEq, Repr

namespace Connective

/-- The symbol of a connective. -/
def chars (c : Connective) : Text := c.op.chars ++ if c.assigns then ['='] else []

/-- All connectives, the longest first. -/
def all : List Connective :=
  let plain := BinaryOp.all.map fun op => Connective.mk op false
  let compound := (BinaryOp.all.filter BinaryOp.assignable).map fun op => Connective.mk op true
  [3, 2, 1].flatMap fun n => (plain ++ compound).filter fun c => c.chars.length == n

/-- Reads the longest connective at the start of a text. -/
def read? (cs : Text) : Option (Connective × Text) :=
  (all.find? fun c => c.chars.isPrefixOf cs).map fun c => (c, cs.drop c.chars.length)

theorem eq_append_of_read? {cs r : Text} {c : Connective} (h : read? cs = some (c, r)) :
    cs = c.chars ++ r := by
  obtain ⟨d, hd, e⟩ := Option.map_eq_some_iff.1 h
  cases e
  have hp : c.chars.isPrefixOf cs = true := by simpa using List.find?_some hd
  exact (List.prefix_iff_eq_append.1 (List.isPrefixOf_iff_prefix.1 hp)).symm

end Connective

/-- The characters that operators are made of. -/
def isOperatorChar (c : Char) : Bool :=
  c ∈ ['+', '-', '*', '/', '%', '&', '|', '^', '<', '>', '=', '!', '~', '?', ':']

end KernelFront
