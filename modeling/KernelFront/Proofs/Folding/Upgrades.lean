import KernelFront.Proofs.Folding.Concatenation
import KernelFront.Proofs.Folding.Results

/-!
# Diagnostics that count as errors

`ofSource_upgrades`: options that ask for diagnostics to count as errors change how they are reported,
and whether there is an output, but not what is reported and not the output. Only warnings can be
upgraded, and every warning of a source is about ignored text (`code_of_mem_foldSource`), so that of
all codes that one alone matters (`ofSource_congr`).
-/

namespace KernelFront

namespace Outcome

variable {α β : Type}

/-- Two outcomes are in the same of the three states. -/
structure SameState (o : Outcome α) (other : Outcome β) : Prop where
  isOk : o.isOk = other.isOk
  isRecovered : o.isRecovered = other.isRecovered
  isFailed : o.isFailed = other.isFailed

theorem sameState_of_isSome {o : Outcome α} {other : Outcome β}
    (hv : o.value.isSome = other.value.isSome)
    (hd : o.diagnostics.isEmpty = other.diagnostics.isEmpty) : o.SameState other := by
  refine ⟨?_, ?_, ?_⟩
  · rw [Outcome.isOk, Outcome.isOk, hv, hd]
  · rw [Outcome.isRecovered, Outcome.isRecovered, hv, hd]
  · rw [Outcome.isFailed, Outcome.isFailed, ← Option.not_isSome, ← Option.not_isSome, hv]

end Outcome

namespace Report

variable {o : Options} {source : Text}

/-- A diagnostic of a folded source is upgraded where it is a warning and its code is asked for, and
that is the code of ignored text. -/
theorem isUpgraded_foldSource {signs : Bool} {entry : Severity × Diagnostic} (codes : List Code)
    (he : entry ∈ (foldSource signs source).diagnostics) :
    Outcome.isUpgraded (fun d => d.code ∈ codes) entry =
      (entry.1 == .recoverable && decide (.trailingCharacters ∈ codes)) := by
  obtain ⟨severity, d⟩ := entry
  rcases code_of_mem_foldSource he with ⟨rfl, hcode⟩ | ⟨rfl, -⟩
  · rw [Outcome.isUpgraded_recoverable, hcode]
    rfl
  · rfl

theorem ofSource_congr {codes : List Code}
    (h : .trailingCharacters ∈ codes ↔ .trailingCharacters ∈ o.upgraded) :
    ofSource { o with upgraded := codes } source = ofSource o source := by
  refine congrArg (Outcome.map _) (Outcome.upgrade_congr fun entry he => ?_)
  rw [isUpgraded_foldSource codes he, isUpgraded_foldSource o.upgraded he, decide_eq_decide.2 h]

theorem diagnostics_ofSource (o : Options) (source : Text) :
    (ofSource o source).diagnostics = (foldSource o.signs source).diagnostics.map fun entry =>
      (if entry.1 = .error ∨ entry.2.code ∈ o.upgraded then .error else .recoverable, entry.2) := by
  refine (Outcome.diagnostics_upgrade _ _).trans (List.map_congr_left fun entry _ => ?_)
  simp only [Outcome.raised, decide_eq_true_eq]

theorem isFailed_ofSource_iff :
    (ofSource o source).isFailed = true ↔ (foldSource o.signs source).isFailed = true ∨
      ∃ entry ∈ (foldSource o.signs source).diagnostics, entry.2.code ∈ o.upgraded := by
  have h := (consistent_foldSource o.signs source).value_upgrade_eq_none
    (p := fun d => d.code ∈ o.upgraded)
  simp only [decide_eq_true_eq] at h
  simp only [Outcome.isFailed, Option.isNone_iff_eq_none, ← h]
  exact Option.map_eq_none_iff

/-- The output, if there is one, is the one without upgrades. -/
theorem value_ofSource_eq {out : String} (h : (ofSource o source).value = some out) :
    (ofSource { o with upgraded := [] } source).value = some out := by
  obtain ⟨lines, hlines, -, rfl⟩ := value_ofSource_eq_some.1 h
  refine value_ofSource_eq_some.2 ⟨lines, hlines, fun entry _ => ?_, rfl⟩
  simp [Outcome.isUpgraded]

theorem isEmpty_diagnostics_ofSource (o : Options) (source : Text) :
    (ofSource o source).diagnostics.isEmpty = (foldSource o.signs source).diagnostics.isEmpty := by
  rw [diagnostics_ofSource, List.isEmpty_map]

theorem isFailed_ofSource_mono {codes : List Code} (h : o.upgraded ⊆ codes)
    (hfailed : (ofSource o source).isFailed = true) :
    (ofSource { o with upgraded := codes } source).isFailed = true := by
  rcases isFailed_ofSource_iff.1 hfailed with hfold | ⟨entry, he, hcode⟩
  · exact isFailed_ofSource_iff.2 (.inl hfold)
  · exact isFailed_ofSource_iff.2 (.inr ⟨entry, he, h hcode⟩)

/-- A source with an output that an upgrade takes has warnings. -/
theorem isRecovered_ofSource {codes : List Code} {out : String}
    (h : (ofSource o source).value = some out)
    (hfailed : (ofSource { o with upgraded := codes } source).isFailed = true) :
    (ofSource o source).isRecovered = true := by
  have hfold : ¬ (foldSource o.signs source).isFailed = true := by
    obtain ⟨lines, hlines, -⟩ := value_ofSource_eq_some.1 h
    simp [Outcome.isFailed, hlines]
  obtain ⟨entry, he, -⟩ := (isFailed_ofSource_iff.1 hfailed).resolve_left hfold
  have hempty : (foldSource o.signs source).diagnostics.isEmpty = false :=
    List.isEmpty_eq_false_iff_exists_mem.2 ⟨entry, he⟩
  rw [Outcome.isRecovered, isEmpty_diagnostics_ofSource, hempty, h]
  rfl

/-- Asking for more codes takes the output of a source with warnings, or changes nothing. -/
theorem ofSource_grows {codes : List Code} (h : o.upgraded ⊆ codes) :
    ((ofSource { o with upgraded := codes } source).value = (ofSource o source).value ∧
      (ofSource { o with upgraded := codes } source).SameState (ofSource o source)) ∨
    ((ofSource o source).isRecovered = true ∧
      (ofSource { o with upgraded := codes } source).isFailed = true) := by
  have hempty : (ofSource { o with upgraded := codes } source).diagnostics.isEmpty =
      (ofSource o source).diagnostics.isEmpty := by
    rw [isEmpty_diagnostics_ofSource, isEmpty_diagnostics_ofSource]
  -- What is left to settle is whether the two values agree.
  suffices hvalue : (ofSource { o with upgraded := codes } source).value =
      (ofSource o source).value ∨ ((ofSource o source).isRecovered = true ∧
        (ofSource { o with upgraded := codes } source).isFailed = true) from
    hvalue.imp_left fun hv => ⟨hv, Outcome.sameState_of_isSome (by rw [hv]) hempty⟩
  cases hold : (ofSource o source).value with
  | none =>
    have hfailed : (ofSource o source).isFailed = true := by
      rw [Outcome.isFailed, hold]
      rfl
    exact .inl (Option.isNone_iff_eq_none.1 (isFailed_ofSource_mono h hfailed))
  | some out =>
    cases hnew : (ofSource { o with upgraded := codes } source).value with
    | none =>
      have hfailed : (ofSource { o with upgraded := codes } source).isFailed = true := by
        rw [Outcome.isFailed, hnew]
        rfl
      exact .inr ⟨isRecovered_ofSource hold hfailed, hfailed⟩
    | some out' =>
      have h1 := value_ofSource_eq hnew
      have h2 := value_ofSource_eq hold
      exact .inl (h1.symm.trans h2)

/-- With the strict options nothing that is left to report leaves an output. -/
theorem isRecovered_ofSource_strict (o : Options) (source : Text) :
    (ofSource o.strict source).isRecovered = false := by
  cases hv : (ofSource o.strict source).value with
  | none => simp [Outcome.isRecovered, hv]
  | some out =>
    obtain ⟨lines, hlines, hkept, -⟩ := value_ofSource_eq_some.1 hv
    have hnone : (foldSource o.strict.signs source).diagnostics = [] := by
      refine List.eq_nil_iff_forall_not_mem.2 fun entry he => ?_
      obtain ⟨severity, d⟩ := entry
      cases severity with
      | error =>
        have hvalue := (consistent_foldSource o.strict.signs source).2 ⟨d, he⟩
        rw [hlines] at hvalue
        cases hvalue
      | recoverable =>
        have hup := hkept _ he
        rw [isUpgraded_foldSource _ he] at hup
        simp [Options.strict] at hup
    rw [Outcome.isRecovered, isEmpty_diagnostics_ofSource, hnone]
    exact Bool.and_false _

/-- **Upgrades change how diagnostics are reported, and nothing else.** All diagnostics stay, in
order; those that were errors or have a code that is asked for are errors. There is no output where
there is an error, and else the output is the one without upgrades. Of the codes, that of ignored text
alone matters. Asking for more takes the output of a source with warnings or changes nothing; the
format changes neither the diagnostics nor the state; and strict options leave no warnings. -/
theorem ofSource_upgrades (o : Options) (source : Text) :
    (ofSource o source).diagnostics = (foldSource o.signs source).diagnostics.map (fun entry =>
      (if entry.1 = .error ∨ entry.2.code ∈ o.upgraded then .error else .recoverable, entry.2)) ∧
    ((ofSource o source).isFailed = true ↔ (foldSource o.signs source).isFailed = true ∨
      ∃ entry ∈ (foldSource o.signs source).diagnostics, entry.2.code ∈ o.upgraded) ∧
    (∀ out, (ofSource o source).value = some out →
      (ofSource { o with upgraded := [] } source).value = some out) ∧
    (∀ codes, (.trailingCharacters ∈ codes ↔ .trailingCharacters ∈ o.upgraded) →
      ofSource { o with upgraded := codes } source = ofSource o source) ∧
    (∀ codes, o.upgraded ⊆ codes →
      ((ofSource { o with upgraded := codes } source).value = (ofSource o source).value ∧
        (ofSource { o with upgraded := codes } source).SameState (ofSource o source)) ∨
      ((ofSource o source).isRecovered = true ∧
        (ofSource { o with upgraded := codes } source).isFailed = true)) ∧
    (∀ format, (ofSource { o with format := format } source).diagnostics =
        (ofSource o source).diagnostics ∧
      (ofSource { o with format := format } source).SameState (ofSource o source)) ∧
    (ofSource o.strict source).isRecovered = false := by
  refine ⟨diagnostics_ofSource o source, isFailed_ofSource_iff, fun out => value_ofSource_eq,
    fun codes => ofSource_congr, fun codes => ofSource_grows, fun format => ⟨rfl, ?_⟩,
    isRecovered_ofSource_strict o source⟩
  refine Outcome.sameState_of_isSome ?_ rfl
  exact (Option.isSome_map ..).trans (Option.isSome_map ..).symm

/-- A source with an ignored rest: the code of another warning changes nothing, its own code takes the
output. -/
theorem ofSource_upgrades_ignored :
    let source : Text := "2 x\n1 << 3".toList
    let named : Options := { upgraded := [.duplicateQualifier] }
    (ofSource {} source).value = some "2 int32\n8 int32\n" ∧
      (.trailingCharacters ∈ named.upgraded ↔ Code.trailingCharacters ∈ ({} : Options).upgraded) ∧
      ofSource named source = ofSource {} source ∧
      (ofSource {} source).isRecovered = true ∧ (ofSource (Options.strict {}) source).isFailed = true := by
  intro source named
  have hvalue : (ofSource {} source).value = some "2 int32\n8 int32\n" := by decide +kernel
  have hcodes : .trailingCharacters ∈ named.upgraded ↔
      Code.trailingCharacters ∈ ({} : Options).upgraded := by decide
  have hfailed : (ofSource (Options.strict {}) source).isFailed = true := by decide +kernel
  obtain ⟨-, -, -, hcongr, hgrows, -⟩ := ofSource_upgrades {} source
  refine ⟨hvalue, hcodes, hcongr _ hcodes, ?_, hfailed⟩
  rcases hgrows [.trailingCharacters] (List.nil_subset _) with ⟨-, hsame⟩ | ⟨hrec, -⟩
  · exact absurd (hsame.isFailed.symm.trans hfailed) (by rw [Outcome.isFailed, hvalue]; decide)
  · exact hrec

end Report

end KernelFront
