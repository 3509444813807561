import KernelFront.Outcome

/-!
# The states of an outcome

`Reachable` holds of the outcomes that the constructors and operations make, in any order and any
number. Each operation changes the value and the diagnostics apart from each other; they stay in step
(`Consistent`): the value is missing exactly where there is an error. `reachable_in_one_state` says
what follows for the three tests.
-/

namespace KernelFront

namespace Outcome

variable {α β γ : Type}

def HasError (o : Outcome α) : Prop := ∃ d, (Severity.error, d) ∈ o.diagnostics

/-- The value is missing where there is an error, and only there. -/
def Consistent (o : Outcome α) : Prop := o.value = none ↔ o.HasError

/-- The outcomes that the constructors and operations make. -/
inductive Reachable : {α : Type} → Outcome α → Prop where
  | ok {α : Type} (a : α) : Reachable (ok a)
  | recovered {α : Type} (a : α) (d : Diagnostic) : Reachable (recovered a d)
  | failed {α : Type} (d : Diagnostic) : Reachable (failed d : Outcome α)
  | default {α : Type} [Inhabited α] : Reachable (default : Outcome α)
  | addRecoverable {α : Type} {o : Outcome α} (d : Diagnostic) :
      Reachable o → Reachable (o.addRecoverable d)
  | addError {α : Type} {o : Outcome α} (d : Diagnostic) : Reachable o → Reachable (o.addError d)
  | upgradeM {α σ : Type} {o : Outcome α} (p : Diagnostic → StateM σ Bool) (s : σ) :
      Reachable o → Reachable ((o.upgradeM p).run s).1
  | map {α β : Type} {o : Outcome α} (f : α → β) : Reachable o → Reachable (o.map f)
  | andThen {α β : Type} {o : Outcome α} (f : α → Outcome β) :
      Reachable o → (∀ a, o.value = some a → Reachable (f a)) → Reachable (o.andThen f)
  | merge {α β γ : Type} {o : Outcome α} {other : Outcome β} (f : α → β → γ) :
      Reachable o → Reachable other → Reachable (merge f o other)
  | collect {α : Type} {os : List (Outcome α)} :
      (∀ o ∈ os, Reachable o) → Reachable (collect os)

/-! ## Upgrading -/

@[simp]
theorem isUpgraded_error (p : Diagnostic → Bool) (d : Diagnostic) :
    isUpgraded p (.error, d) = false := rfl

@[simp]
theorem isUpgraded_recoverable (p : Diagnostic → Bool) (d : Diagnostic) :
    isUpgraded p (.recoverable, d) = p d := rfl

/-- A predicate without a memory upgrades as `upgrade` does. -/
theorem upgradeM_pure {σ : Type} (p : Diagnostic → Bool) (o : Outcome α) :
    (o.upgradeM fun d => (pure (p d) : StateM σ Bool)) = pure (o.upgrade p) := by
  have hfold : ∀ (es : List (Severity × Diagnostic)) (acc : Outcome α),
      es.foldlM (pushUpgraded fun d => (pure (p d) : StateM σ Bool)) acc =
        pure ⟨if es.any (isUpgraded p) then none else acc.value, acc.diagnostics ++
          es.map fun entry => if isUpgraded p entry then (.error, entry.2) else entry⟩ := by
    intro es
    induction es with
    | nil => simp
    | cons entry es ih =>
      intro acc
      obtain ⟨severity, d⟩ := entry
      cases severity with
      | error => cases hes : es.any (isUpgraded p) <;> simp [pushUpgraded, ih, hes]
      | recoverable =>
        cases hp : p d <;> cases hes : es.any (isUpgraded p) <;>
          simp [pushUpgraded, ih, hp, hes, addRecoverable, addError]
  rw [upgradeM, hfold, List.nil_append, upgrade]

theorem Reachable.upgrade {o : Outcome α} (p : Diagnostic → Bool) (h : o.Reachable) :
    (o.upgrade p).Reachable := by
  have h := Reachable.upgradeM (fun d => (pure (p d) : StateM Unit Bool)) () h
  rwa [upgradeM_pure] at h

/-! ## Each operation keeps the value and the diagnostics in step -/

theorem consistent_ok (a : α) : (ok a).Consistent := by simp [Consistent, HasError, ok]

theorem consistent_recovered (a : α) (d : Diagnostic) : (recovered a d).Consistent := by
  simp [Consistent, HasError, recovered]

theorem consistent_failed (d : Diagnostic) : (failed d : Outcome α).Consistent := by
  simp [Consistent, HasError, failed]

theorem consistent_addError (o : Outcome α) (d : Diagnostic) : (o.addError d).Consistent := by
  simp [Consistent, HasError, addError]

section

variable {o : Outcome α} {other : Outcome β}

theorem Consistent.addRecoverable (h : o.Consistent) (d : Diagnostic) :
    (o.addRecoverable d).Consistent := by
  unfold Consistent HasError at h ⊢
  simpa [Outcome.addRecoverable] using h

theorem Consistent.upgradeM {σ : Type} (h : o.Consistent) (p : Diagnostic → StateM σ Bool) (s : σ) :
    ((o.upgradeM p).run s).1.Consistent := by
  -- An error that is still to be taken over counts already.
  have hfold : ∀ (es : List (Severity × Diagnostic)) (acc : Outcome α) (s : σ),
      (acc.value = none ↔ acc.HasError ∨ ∃ d, (Severity.error, d) ∈ es) →
        ((es.foldlM (pushUpgraded p) acc).run s).1.Consistent := by
    intro es
    induction es with
    | nil =>
      intro acc s hacc
      show acc.Consistent
      simpa [Consistent] using hacc
    | cons entry es ih =>
      intro acc s hacc
      obtain ⟨severity, d⟩ := entry
      rw [List.foldlM_cons]
      cases severity with
      | error =>
        refine ih { acc with diagnostics := acc.diagnostics ++ [(.error, d)] } s ?_
        simpa [HasError] using hacc
      | recoverable =>
        refine ih (if (p d s).1 then acc.addError d else acc.addRecoverable d) (p d s).2 ?_
        split
        · simp [Outcome.addError, HasError]
        · simpa [Outcome.addRecoverable, HasError] using hacc
  refine hfold o.diagnostics ⟨o.value, []⟩ s ?_
  simpa [Consistent, HasError] using h

theorem Consistent.map (h : o.Consistent) (f : α → β) : (o.map f).Consistent := by
  unfold Consistent HasError at h ⊢
  simpa [Outcome.map] using h

theorem Consistent.andThen (h : o.Consistent) {f : α → Outcome β}
    (hf : ∀ a, o.value = some a → (f a).Consistent) : (o.andThen f).Consistent := by
  unfold Consistent at h
  cases hv : o.value with
  | none =>
    rw [andThen_of_none hv]
    exact iff_of_true rfl (h.1 hv)
  | some a =>
    have hno : ¬ o.HasError := fun he => by simp [h.2 he] at hv
    rw [andThen_of_value hv]
    unfold Consistent HasError at *
    simp only [not_exists] at hno
    simpa [hno] using hf a hv

theorem Consistent.merge (h : o.Consistent) (h' : other.Consistent) (f : α → β → γ) :
    (Outcome.merge f o other).Consistent := by
  unfold Consistent HasError at h h' ⊢
  simp only [Outcome.merge, List.mem_append, exists_or, ← h, ← h']
  cases o.value <;> cases other.value <;> simp

theorem consistent_collect {os : List (Outcome α)} (h : ∀ o ∈ os, o.Consistent) :
    (collect os).Consistent := by
  induction os with
  | nil => exact consistent_ok []
  | cons o os ih =>
    rw [collect_cons]
    exact (h o List.mem_cons_self).merge (ih fun o ho => h o (List.mem_cons_of_mem _ ho)) List.cons

/-- A collection has the errors of its items. -/
theorem hasError_collect {os : List (Outcome α)} :
    (collect os).HasError ↔ ∃ o ∈ os, o.HasError := by
  unfold HasError
  rw [diagnostics_collect]
  simp only [List.mem_flatMap]
  exact ⟨fun ⟨d, o, ho, hd⟩ => ⟨o, ho, d, hd⟩, fun ⟨o, ho, d, hd⟩ => ⟨d, o, ho, hd⟩⟩

theorem Reachable.consistent (h : o.Reachable) : o.Consistent := by
  induction h with
  | ok a => exact consistent_ok a
  | recovered a d => exact consistent_recovered a d
  | failed d => exact consistent_failed d
  | default => exact consistent_ok _
  | addRecoverable d _ ih => exact ih.addRecoverable d
  | addError d _ _ => exact consistent_addError _ d
  | upgradeM p s _ ih => exact ih.upgradeM p s
  | map f _ ih => exact ih.map f
  | andThen f _ _ ih ihf => exact ih.andThen ihf
  | merge f _ _ ih ih' => exact ih.merge ih' f
  | collect _ ih => exact consistent_collect ih

/-! ## Main result -/

/-- **Every outcome that can be made is in one of the three states**, and the three tests tell which:
a value and no diagnostics, a value and recoverable diagnostics, or no value and an error. -/
theorem reachable_in_one_state (h : o.Reachable) :
    (o.value = none ↔ o.HasError) ∧
      o.isOk.toNat + o.isRecovered.toNat + o.isFailed.toNat = 1 ∧
      (o.isOk → (∃ a, o.value = some a) ∧ o.diagnostics = []) ∧
      (o.isRecovered → (∃ a, o.value = some a) ∧ o.diagnostics ≠ [] ∧
        ∀ entry ∈ o.diagnostics, entry.1 = .recoverable) ∧
      (o.isFailed → o.value = none ∧ o.HasError) := by
  have hc : o.value = none ↔ o.HasError := h.consistent
  refine ⟨hc, ?_, fun hok => ?_, fun hrec => ?_, fun hfail => ?_⟩
  · cases hv : o.value <;> cases hd : o.diagnostics <;> simp [isOk, isRecovered, isFailed, hv, hd]
  · simpa [isOk, Option.isSome_iff_exists] using hok
  · obtain ⟨⟨a, ha⟩, hd⟩ : (∃ a, o.value = some a) ∧ o.diagnostics ≠ [] := by
      simpa [isRecovered, Option.isSome_iff_exists] using hrec
    refine ⟨⟨a, ha⟩, hd, fun entry hentry => ?_⟩
    -- An error among the diagnostics would have taken the value.
    cases hs : entry.1 with
    | recoverable => rfl
    | error =>
      have he : o.HasError := ⟨entry.2, by rwa [← hs]⟩
      simp [hc.2 he] at ha
  · have hv : o.value = none := by simpa [isFailed] using hfail
    exact ⟨hv, hc.1 hv⟩

/-- A collection with an ignored rest, once that is taken for an error. -/
theorem reachable_in_one_state_upgraded :
    let rest : Diagnostic := ⟨.trailingCharacters "L", ⟨1, 1⟩, []⟩
    let o := (collect [ok 1, recovered 2 rest]).upgrade fun d => d.code = .trailingCharacters
    o.Reachable ∧ (o.value = none ↔ o.HasError) ∧
      o.isOk.toNat + o.isRecovered.toNat + o.isFailed.toNat = 1 ∧
      o.isFailed = true ∧ o.value = none ∧ o.HasError := by
  intro rest o
  have hitems : ∀ item ∈ [ok 1, recovered 2 rest], item.Reachable := by
    simp only [List.forall_mem_cons, List.not_mem_nil, false_implies, implies_true, and_true]
    exact ⟨.ok 1, .recovered 2 rest⟩
  have h : o.Reachable := (Reachable.collect hitems).upgrade _
  obtain ⟨hvalue, hone, -, -, hfailed⟩ := reachable_in_one_state h
  have hf : o.isFailed = true := by decide
  exact ⟨h, hvalue, hone, hf, hfailed hf⟩

end

end Outcome

end KernelFront
