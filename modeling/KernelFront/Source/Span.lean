/-!
# Spans and tokens

A span is a range of byte offsets into a source text. Texts are lists of characters, and `size`
counts the bytes of one, so an offset is always the size of what comes before it.
-/

namespace KernelFront

/-- A text as the readers walk over it. -/
abbrev Text := List Char

/-- The number of bytes of a text. -/
def Text.size : Text → Nat
  | [] => 0
  | c :: cs => c.utf8Size + Text.size cs

@[simp]
theorem Text.size_nil : Text.size [] = 0 := rfl

@[simp]
theorem Text.size_cons (c : Char) (cs : Text) : Text.size (c :: cs) = c.utf8Size + cs.size := rfl

@[simp]
theorem Text.size_append (cs ds : Text) : Text.size (cs ++ ds) = cs.size + ds.size := by
  induction cs with
  | nil => simp
  | cons c cs ih => rw [List.cons_append, size_cons, size_cons, ih, Nat.add_assoc]

/-- A character takes a byte at least. -/
theorem Text.length_le_size (cs : Text) : cs.length ≤ cs.size := by
  induction cs with
  | nil => exact Nat.le_refl _
  | cons c cs ih =>
    have := c.utf8Size_pos
    simp only [List.length_cons, size_cons]
    omega

/-- The bytes from `start` on, `length` of them. -/
structure Span where
  start : Nat := 0
  length : Nat := 0
  deriving DecidableEq, Repr, Inhabited

namespace Span

/-- The span between two offsets; it is empty if the second comes before the first. -/
def between (start stop : Nat) : Span := ⟨start, stop - start⟩

/-- The offset just past the span. -/
def stop (s : Span) : Nat := s.start + s.length

def isEmpty (s : Span) : Bool := s.length == 0

/-- The span moved to the right. -/
def shift (n : Nat) (s : Span) : Span := { s with start := n + s.start }

/-- The two offsets with two points between them. -/
def text (s : Span) : String := toString s.start ++ ".." ++ toString s.stop

end Span

/-- A piece of source text and where it was found. -/
structure Token where
  span : Span
  text : String
  deriving DecidableEq, Repr, Inhabited

/-- A token that comes from no source text. -/
def Token.synthetic (text : String) : Token := ⟨{}, text⟩

end KernelFront
