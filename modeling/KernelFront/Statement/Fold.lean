import KernelFront.Statement.Basic

/-!
# Folding a source text

A source has one statement a line. Blank lines and lines that start with `//` have none. The lines
are folded one by one, each at its offset, and their outcomes collected.
-/

namespace KernelFront

/-- The lines of a text, each with its offset; the line feed belongs to the line before it. -/
def Text.lines (offset : Nat) : Text → List (Nat × Text)
  | [] => [(offset, [])]
  | c :: r =>
    if c = '\n' then (offset, [c]) :: lines (offset + c.utf8Size) r
    else
      match lines (offset + c.utf8Size) r with
      | [] => [(offset, [c])]
      | (_, line) :: others => (offset, c :: line) :: others

namespace Statement

/-- Whether a trimmed line has a statement. -/
def isStatement (line : Text) : Bool := line ≠ [] && !(['/', '/'].isPrefixOf line)

/-- The statement of a line, moved past the blanks before it. -/
def ofLine (line : Nat × Text) : Nat × Text :=
  (line.1 + (line.2.size - line.2.trimStart.size), line.2.trim)

/-- The statements of a source text with their offsets. -/
def all (source : Text) : List (Nat × Text) :=
  ((source.lines 0).map ofLine).filter fun s => isStatement s.2

end Statement

/-- Folds every statement of a source text. -/
def foldSource (signs : Bool) (source : Text) : Outcome (List FoldedStatement) :=
  .collect ((Statement.all source).map fun s => Statement.fold signs s.1 s.2)

end KernelFront
