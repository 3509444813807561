import KernelFront.Literal.Reader
import KernelFront.Outcome
import KernelFront.Statement.Token
import KernelFront.Value.Arithmetic

/-!
# Folding one statement

`Statement.fold` reads a statement and computes it in one pass, from left to right: the lead and its
literal, then what joins it. The first fault ends the statement. A `Fault` keeps the text that was
left at the fault and the part of it that the fault is about, which is all that its span needs. Text
left over after a complete statement is reported and ignored.
-/

namespace KernelFront

/-- Why a statement has no value: the text left at the fault and the part of it that is marked. -/
structure Fault where
  cause : Cause
  left : Text
  marked : Text
  deriving DecidableEq, Repr

/-- A statement folded to its value. -/
structure FoldedStatement where
  span : Span
  source : String
  value : Value
  deriving DecidableEq, Repr

/-- The line with its span moved to the right. -/
def FoldedStatement.shift (n : Nat) (line : FoldedStatement) : FoldedStatement :=
  { line with span := line.span.shift n }

namespace Statement

/-- The span of `marked`, which stands where only `left` is left of the statement. -/
def spanOf (start : Nat) (statement left marked : Text) : Span :=
  ⟨start + (statement.size - left.size), marked.size⟩

/-- The span of a whole statement. -/
def span (start : Nat) (statement : Text) : Span := ⟨start, statement.size⟩

/-- Reads a literal after any blanks. -/
def readLiteral (signs : Bool) (cs : Text) : Except Fault (Value × Text) :=
  let cs := cs.trimStart
  match Value.read? signs cs with
  | some found => .ok found
  | none => .error ⟨.invalidLiteral (String.ofList cs.word), cs, cs.word⟩

/-- Reads a connective; operator characters that form none are a fault. -/
def readConnective (cs : Text) : Except Fault (Option (Connective × Text)) :=
  match cs with
  | [] => .ok none
  | c :: _ =>
    if isOperatorChar c then
      match Connective.read? cs with
      | some found => .ok (some found)
      | none =>
        let operator := cs.takeWhile isOperatorChar
        .error ⟨.unknownOperator (String.ofList operator), cs, operator⟩
    else .ok none

/-- A value operation within a statement: its fault marks the whole statement. -/
def operate (statement : Text) (r : Except ValueError Value) : Except Fault Value :=
  r.mapError fun e => ⟨.value e, statement, statement⟩

/-- The operator before a literal, applied to it. -/
def applyLead (lead? : Option Lead) (v : Value) : Except ValueError Value :=
  match lead? with
  | none => .ok v
  | some (.step op) => ((Update.pre op).run v).1
  | some (.unary op) => Value.unary op v

/-- The operator between two literals, applied to them. -/
def applyConnective (c : Connective) (lhs rhs : Value) : Except ValueError Value :=
  if c.assigns then ((Update.assign c.op rhs).run lhs).1 else Value.binary c.op lhs rhs

/-- Reads the lead and the literal after it. -/
def foldHead (signs : Bool) (statement : Text) : Except Fault (Value × Text) := do
  let cs := statement.trimStart
  let (lead?, cs) := match Lead.read? signs cs with
    | some (lead, cs) => (some lead, cs)
    | none => (none, cs)
  let (v, cs) ← readLiteral signs cs
  let v ← operate statement (applyLead lead? v)
  pure (v, cs)

/-- Reads what follows the first literal: a step, a connective with a second literal, or nothing. -/
def foldTail (signs : Bool) (statement : Text) (lhs : Value) (cs : Text) :
    Except Fault (Value × Text) :=
  let cs := cs.trimStart
  match StepOp.read? cs with
  | some (op, cs) => do
    let v ← operate statement ((Update.post op).run lhs).1
    pure (v, cs)
  | none => do
    match ← readConnective cs with
    | none => pure (lhs, cs)
    | some (c, cs) => do
      let (rhs, cs) ← readLiteral signs cs
      let v ← operate statement (applyConnective c lhs rhs)
      pure (v, cs)

/-- The value of a statement and the text after it. -/
def evaluate (signs : Bool) (statement : Text) : Except Fault (Value × Text) := do
  let (lhs, cs) ← foldHead signs statement
  foldTail signs statement lhs cs

/-- Folds the statement that starts at an offset of the source. -/
def fold (signs : Bool) (start : Nat) (statement : Text) : Outcome FoldedStatement :=
  match evaluate signs statement with
  | .error fault => .failed ⟨fault.cause, spanOf start statement fault.left fault.marked, []⟩
  | .ok (v, cs) =>
    let line : FoldedStatement := ⟨span start statement, String.ofList statement, v⟩
    let rest := cs.trimStart
    if rest = [] then .ok line
    else
      .recovered line
        ⟨.trailingCharacters (String.ofList rest), spanOf start statement rest rest, []⟩

end Statement

end KernelFront
