import KernelFront.Proofs.Outcome.Collecting

/-!
# Sequencing outcomes

`andThen_sequences`: sequencing obeys the laws of a monad with `ok` for its unit, and `map` is the case
of a stage that cannot fail. A `Pipeline` is a chain of stages of any length, each of which continues
with the value of the one before. Associativity makes it one stage (`Pipeline.run_eq_andThen`), and so a
run reports what its stages report, in their order, up to the first one that fails
(`Pipeline.diagnostics_run`).
-/

namespace KernelFront

/-- Stages that run one after the other, each on the value of the one before it. -/
inductive Pipeline : Type → Type → Type 1 where
  | done {α : Type} : Pipeline α α
  | stage {α β γ : Type} (f : α → Outcome β) (rest : Pipeline β γ) : Pipeline α γ

namespace Outcome

variable {α β γ : Type}

theorem value_andThen (o : Outcome α) (f : α → Outcome β) :
    (o.andThen f).value = o.value.bind fun a => (f a).value := by
  cases h : o.value with
  | none => rw [andThen_of_none h]; rfl
  | some a => rw [andThen_of_value h]; rfl

theorem diagnostics_andThen (o : Outcome α) (f : α → Outcome β) :
    (o.andThen f).diagnostics = o.diagnostics ++ o.value.elim [] fun a => (f a).diagnostics := by
  cases h : o.value with
  | none => rw [andThen_of_none h]; exact (List.append_nil _).symm
  | some a => rw [andThen_of_value h]; rfl

theorem andThen_assoc (o : Outcome α) (f : α → Outcome β) (g : β → Outcome γ) :
    (o.andThen f).andThen g = o.andThen fun a => (f a).andThen g := by
  obtain ⟨_ | a, ds⟩ := o
  · rfl
  · refine Outcome.ext ?_ ?_
    · simp only [value_andThen, Option.bind_some]
    · simp only [value_andThen, diagnostics_andThen, Option.bind_some, Option.elim_some,
        List.append_assoc]

theorem andThen_ok (o : Outcome α) : o.andThen ok = o := by
  obtain ⟨_ | a, ds⟩ := o
  · rfl
  · exact Outcome.ext rfl (List.append_nil ds)

theorem map_eq_andThen (o : Outcome α) (h : α → β) : o.map h = o.andThen fun a => ok (h a) := by
  obtain ⟨_ | a, ds⟩ := o
  · rfl
  · exact Outcome.ext rfl (List.append_nil ds).symm

end Outcome

namespace Pipeline

open Outcome

variable {α β : Type}

/-- Continues with one stage after the other. -/
def run {α β : Type} : Pipeline α β → Outcome α → Outcome β
  | done, o => o
  | stage f rest, o => rest.run (o.andThen f)

/-- What the stages that are reached report, each on its own, after what stands at the start. A stage
that fails is the last one. -/
def reports {α β : Type} : Pipeline α β → Outcome α → List (List (Severity × Diagnostic))
  | done, o => [o.diagnostics]
  | stage f rest, o => o.diagnostics :: o.value.elim [] fun a => rest.reports (f a)

/-- The value that comes out at the end, if no stage fails. -/
def result? {α β : Type} : Pipeline α β → α → Option β
  | done, a => some a
  | stage f rest, a => (f a).value.bind rest.result?

/-- A pipeline is one stage that runs all of it. -/
theorem run_eq_andThen (c : Pipeline α β) (o : Outcome α) :
    c.run o = o.andThen fun a => c.run (ok a) := by
  induction c with
  | done => exact (andThen_ok o).symm
  | stage f rest ih =>
    simp only [run, ok_andThen]
    rw [ih, andThen_assoc]
    exact congrArg o.andThen (funext fun a => (ih (f a)).symm)

theorem value_run (c : Pipeline α β) (o : Outcome α) : (c.run o).value = o.value.bind c.result? := by
  induction c with
  | done => obtain ⟨_ | a, ds⟩ := o <;> rfl
  | stage f rest ih =>
    rw [run, ih, value_andThen, Option.bind_assoc]
    rfl

/-- A run reports what its stages report, in their order. -/
theorem diagnostics_run (c : Pipeline α β) (o : Outcome α) :
    (c.run o).diagnostics = (c.reports o).flatten := by
  induction c with
  | done => exact List.flatten_singleton.symm
  | stage f rest ih =>
    rw [run, run_eq_andThen, andThen_assoc, diagnostics_andThen, reports, List.flatten_cons]
    cases o.value with
    | none => rfl
    | some a =>
      have hrest : (f a).andThen (fun b => rest.run (ok b)) = rest.run (f a) :=
        (run_eq_andThen rest (f a)).symm
      simp only [Option.elim_some, hrest, ih]

/-- A failed start runs no stage. -/
theorem run_failed (c : Pipeline α β) (ds : List (Severity × Diagnostic)) :
    c.run ⟨none, ds⟩ = ⟨none, ds⟩ := by
  rw [run_eq_andThen]
  rfl

end Pipeline

namespace Outcome

/-! ## Main result -/

/-- **Outcomes are sequenced lawfully**, as to values and all diagnostics: grouping does not matter, `ok`
adds nothing on either side, and `map` is a stage that is always `ok`. In a chain of any length the
result is that of the stages on values alone, and the diagnostics are those of the stages that are
reached, each once and in order; behind a failure nothing runs. -/
theorem andThen_sequences {α β γ δ : Type} (m : Outcome α) (f : α → Outcome β) (g : β → Outcome γ)
    (h : α → β) (x : α) (c : Pipeline α δ) :
    (m.andThen f).andThen g = m.andThen (fun a => (f a).andThen g) ∧
      (ok x).andThen f = f x ∧
      m.andThen ok = m ∧
      m.map h = m.andThen (fun a => ok (h a)) ∧
      (c.run m).value = m.value.bind c.result? ∧
      (c.run m).diagnostics = (c.reports m).flatten ∧
      ∀ ds, c.run ⟨none, ds⟩ = ⟨none, ds⟩ :=
  ⟨andThen_assoc m f g, ok_andThen x f, andThen_ok m, map_eq_andThen m h, c.value_run m,
    c.diagnostics_run m, c.run_failed⟩

/-- The third of four stages fails: the reports end with its own. -/
example (d e w : Diagnostic) :
    (Pipeline.stage (fun n => recovered (n + 1) d) (.stage (fun n => ok (n * 2))
      (.stage (fun _ => (failed e : Outcome Nat)) (.stage (fun n => recovered n d) .done)))).reports
        (recovered 3 w) = [[(.recoverable, w)], [(.recoverable, d)], [], [(.error, e)]] := rfl

end Outcome

end KernelFront
