import KernelFront.Source.Span

/-!
# Printers

A printer collects text. Lines that continue an open parenthesis are aligned with it: `indent` gives
as many spaces as there are characters after the last line feed. What prints may read the indent, so
what it prints can depend on what stands before it; `Prints` says of a text that it is printed wherever
the printer stands.
-/

namespace KernelFront

/-- The text printed so far. -/
structure Printer where
  text : String := ""
  deriving DecidableEq, Repr, Inhabited

namespace Printer

/-- Prints a text at the end. -/
def push (p : Printer) (s : String) : Printer := ⟨p.text ++ s⟩

@[simp]
theorem push_push (p : Printer) (s t : String) : (p.push s).push t = p.push (s ++ t) := by
  simp [push, String.append_assoc]

@[simp]
theorem push_empty (p : Printer) : p.push "" = p := by
  simp [push]

/-- The number of characters after the last line feed. -/
def column (p : Printer) : Nat := (p.text.toList.reverse.takeWhile (· ≠ '\n')).length

/-- Spaces up to the current column. -/
def indent (p : Printer) : String := String.ofList (List.replicate p.column ' ')

/-! ## Texts that do not depend on their place -/

/-- `f` prints `s` wherever the printer stands. -/
def Prints (f : Printer → Printer) (s : String) : Prop := ∀ p, f p = p.push s

/-- `f` prints the same text wherever the printer stands: the one that it prints first of all. -/
def Steady (f : Printer → Printer) : Prop := Prints f (f {}).text

variable {α : Type} {f g : Printer → Printer} {s t : String}

theorem Prints.text_eq (h : Prints f s) : (f {}).text = s := by
  rw [h {}]
  exact String.empty_append

theorem Prints.steady (h : Prints f s) : Steady f := by
  rw [Steady, h.text_eq]
  exact h

theorem prints_push (s : String) : Prints (·.push s) s := fun _ => rfl

theorem Prints.comp (hf : Prints f s) (hg : Prints g t) : Prints (fun p => g (f p)) (s ++ t) := by
  intro p
  show g (f p) = p.push (s ++ t)
  rw [hg, hf, push_push]

theorem Prints.foldl {f : Printer → α → Printer} {s : α → String} {l : List α}
    (h : ∀ a ∈ l, Prints (f · a) (s a)) :
    Prints (fun p => l.foldl f p) (String.join (l.map s)) := by
  induction l with
  | nil => exact fun p => (push_empty p).symm
  | cons a l ih =>
    obtain ⟨ha, hl⟩ := List.forall_mem_cons.1 h
    rw [List.map_cons, String.join_cons]
    exact ha.comp (ih hl)

end Printer

end KernelFront
