import KernelFront.Proofs.Outcome.States

/-!
# Merging, collecting and upgrading

`collecting_loses_nothing`: a collection has the values of all its items or none, and every diagnostic of
every item, in order. It is what merging the items one after the other into one outcome comes to
(`collect_eq_foldl`). Upgrading may come before a merge or after it (`upgrade_merge`), and so before or
after a collection; two upgrades are one (`upgrade_upgrade`), since an upgraded diagnostic is an error,
and no upgrade looks at errors.
-/

namespace KernelFront

attribute [ext] Outcome

namespace Outcome

variable {α β γ : Type}

/-! ## Upgrading -/

/-- A diagnostic after an upgrade. -/
def raised (p : Diagnostic → Bool) (entry : Severity × Diagnostic) : Severity × Diagnostic :=
  (if entry.1 = .error ∨ p entry.2 then .error else .recoverable, entry.2)

theorem diagnostics_upgrade (p : Diagnostic → Bool) (o : Outcome α) :
    (o.upgrade p).diagnostics = o.diagnostics.map (raised p) := by
  refine List.map_congr_left fun ⟨severity, d⟩ _ => ?_
  cases severity with
  | error => simp [raised]
  | recoverable => cases hp : p d <;> simp [raised, hp]

theorem value_upgrade (p : Diagnostic → Bool) (o : Outcome α) :
    (o.upgrade p).value = if o.diagnostics.any (isUpgraded p) then none else o.value := rfl

section

variable {p q : Diagnostic → Bool}

/-- The value stays where nothing is chosen. -/
theorem value_upgrade_eq_some {o : Outcome α} {a : α} :
    (o.upgrade p).value = some a ↔
      o.value = some a ∧ ∀ entry ∈ o.diagnostics, isUpgraded p entry = false := by
  rw [value_upgrade]
  by_cases h : o.diagnostics.any (isUpgraded p) = true
  · obtain ⟨entry, he, hp⟩ := List.any_eq_true.1 h
    simp only [h, if_true, reduceCtorEq, false_iff, not_and]
    exact fun _ hall => Bool.false_ne_true ((hall entry he).symm.trans hp)
  · simp only [h, Bool.false_eq_true, if_false]
    simp only [List.any_eq_true, not_exists, not_and, Bool.not_eq_true] at h
    exact ⟨fun hv => ⟨hv, h⟩, And.left⟩

/-- Upgrading looks at nothing but which diagnostics it is to upgrade. -/
theorem upgrade_congr {o : Outcome α}
    (h : ∀ entry ∈ o.diagnostics, isUpgraded p entry = isUpgraded q entry) :
    o.upgrade p = o.upgrade q := by
  have hany : o.diagnostics.any (isUpgraded p) = o.diagnostics.any (isUpgraded q) := by
    rw [Bool.eq_iff_iff, List.any_eq_true, List.any_eq_true]
    exact exists_congr fun entry => and_congr_right fun he => by rw [h entry he]
  rw [upgrade, upgrade, hany, List.map_congr_left fun entry he => by rw [h entry he]]

/-- Upgrading takes the value where it makes an error. An error that was there took it before. -/
theorem Consistent.value_upgrade_eq_none {o : Outcome α} (h : o.Consistent) :
    (o.upgrade p).value = none ↔ o.value = none ∨ ∃ entry ∈ o.diagnostics, p entry.2 = true := by
  rw [value_upgrade]
  constructor
  · split
    · rename_i hany
      obtain ⟨⟨severity, d⟩, he, hp⟩ := List.any_eq_true.1 hany
      exact fun _ => .inr ⟨_, he, (Bool.and_eq_true_iff.1 hp).2⟩
    · exact .inl
  · rintro (hnone | ⟨⟨severity, d⟩, he, hp⟩)
    · rw [hnone, ite_self]
    · cases severity with
      | error => rw [h.2 ⟨d, he⟩, ite_self]
      | recoverable => rw [if_pos (List.any_eq_true.2 ⟨_, he, hp⟩)]

theorem raised_raised (entry : Severity × Diagnostic) :
    raised q (raised p entry) = raised (fun d => p d || q d) entry := by
  obtain ⟨_ | _, d⟩ := entry <;> cases hp : p d <;> simp [raised, hp]

/-- The second upgrade chooses among what the first one left recoverable. -/
theorem isUpgraded_raised (entry : Severity × Diagnostic) :
    (isUpgraded q (raised p entry) || isUpgraded p entry) =
      isUpgraded (fun d => p d || q d) entry := by
  obtain ⟨_ | _, d⟩ := entry <;> cases hp : p d <;> simp [raised, isUpgraded, hp]

theorem any_isUpgraded_raised (entries : List (Severity × Diagnostic)) :
    ((entries.map (raised p)).any (isUpgraded q) || entries.any (isUpgraded p)) =
      entries.any (isUpgraded fun d => p d || q d) := by
  induction entries with
  | nil => rfl
  | cons entry entries ih =>
    rw [List.map_cons, List.any_cons, List.any_cons, List.any_cons, ← ih, ← isUpgraded_raised]
    ac_rfl

/-- Two upgrades are one that chooses what either of them chooses. -/
theorem upgrade_upgrade (o : Outcome α) :
    (o.upgrade p).upgrade q = o.upgrade fun d => p d || q d := by
  refine Outcome.ext ?_ ?_
  · rw [value_upgrade, value_upgrade, value_upgrade, diagnostics_upgrade, ← any_isUpgraded_raised]
    cases (o.diagnostics.map (raised p)).any (isUpgraded q) <;> rfl
  · rw [diagnostics_upgrade, diagnostics_upgrade, diagnostics_upgrade, List.map_map]
    exact List.map_congr_left fun entry _ => raised_raised entry

/-! ## Merging -/

/-- A merge has a value where both outcomes have one. -/
theorem value_merge_eq_some {f : α → β → γ} {o : Outcome α} {other : Outcome β} {c : γ} :
    (merge f o other).value = some c ↔
      ∃ a b, o.value = some a ∧ other.value = some b ∧ c = f a b := by
  simp only [merge, Option.bind_eq_some_iff, Option.map_eq_some_iff]
  constructor
  · rintro ⟨a, ha, b, hb, rfl⟩
    exact ⟨a, b, ha, hb, rfl⟩
  · rintro ⟨a, b, ha, hb, rfl⟩
    exact ⟨a, ha, b, hb, rfl⟩

/-- Upgrading both parts of a merge is upgrading the merge. -/
theorem upgrade_merge (f : α → β → γ) (o : Outcome α) (other : Outcome β) :
    (merge f o other).upgrade p = merge f (o.upgrade p) (other.upgrade p) := by
  refine Outcome.ext ?_ ?_
  · have hany : (merge f o other).diagnostics.any (isUpgraded p) =
        (o.diagnostics.any (isUpgraded p) || other.diagnostics.any (isUpgraded p)) :=
      List.any_append
    rw [value_upgrade, hany]
    simp only [merge, value_upgrade]
    cases o.diagnostics.any (isUpgraded p) <;> cases other.diagnostics.any (isUpgraded p) <;> simp
  · exact List.map_append

/-- Upgrading every item is upgrading the collection. -/
theorem upgrade_collect (os : List (Outcome α)) :
    (collect os).upgrade p = collect (os.map (upgrade p)) := by
  induction os with
  | nil => rfl
  | cons o os ih => rw [collect_cons, upgrade_merge, ih, List.map_cons, collect_cons]

end

/-! ## Collecting -/

theorem merge_append_ok (o : Outcome (List α)) : merge (· ++ ·) o (ok []) = o := by
  obtain ⟨_ | as, ds⟩ := o <;> simp [merge, ok]

/-- Merging items one after the other into an outcome appends their collection to it. -/
theorem foldl_merge (os : List (Outcome α)) (all : Outcome (List α)) :
    os.foldl (merge fun as a => as ++ [a]) all = merge (· ++ ·) all (collect os) := by
  induction os generalizing all with
  | nil => exact (merge_append_ok all).symm
  | cons o os ih =>
    rw [List.foldl_cons, ih, collect_cons]
    refine Outcome.ext ?_ (List.append_assoc ..)
    simp only [merge]
    cases all.value <;> cases o.value <;> cases (collect os).value <;> simp

/-- A collection grows by one item at a time. -/
theorem collect_eq_foldl (os : List (Outcome α)) :
    collect os = os.foldl (merge fun as a => as ++ [a]) (ok []) := by
  rw [foldl_merge]
  obtain ⟨_ | as, ds⟩ := collect os <;> rfl

theorem isSome_value_collect (os : List (Outcome α)) :
    (collect os).value.isSome = os.all fun o => o.value.isSome := by
  induction os with
  | nil => rfl
  | cons o os ih =>
    rw [List.all_cons, ← ih, collect_cons]
    simp only [merge]
    cases o.value <;> cases (collect os).value <;> rfl

/-! ## Main result -/

/-- **Collecting and merging lose nothing, and upgrading commutes with them.** A collection, made by
merging one item after the other, has all values in order where every item has one, and always all
diagnostics in order; in two parts it is the merge of both collections. It does not matter whether items
are upgraded or what is made of them, nor in which of two upgrades a diagnostic is chosen, and an upgrade
leaves every diagnostic where it is. None of this needs the outcomes to be consistent. -/
theorem collecting_loses_nothing (f : α → β → γ) (o : Outcome α) (other : Outcome β)
    (os ps : List (Outcome α)) (p q : Diagnostic → Bool) :
    collect os = os.foldl (merge fun as a => as ++ [a]) (ok []) ∧
      ((collect os).value.isSome ↔ ∀ item ∈ os, item.value.isSome) ∧
      (∀ as, (collect os).value = some as ↔ os.map value = as.map some) ∧
      (collect os).diagnostics = os.flatMap diagnostics ∧
      collect (os ++ ps) = merge (· ++ ·) (collect os) (collect ps) ∧
      (∀ c, (merge f o other).value = some c ↔
        ∃ a b, o.value = some a ∧ other.value = some b ∧ c = f a b) ∧
      (merge f o other).diagnostics = o.diagnostics ++ other.diagnostics ∧
      (merge f o other).upgrade p = merge f (o.upgrade p) (other.upgrade p) ∧
      (collect os).upgrade p = collect (os.map (upgrade p)) ∧
      (o.upgrade p).upgrade q = o.upgrade (fun d => p d || q d) ∧
      (o.upgrade q).upgrade p = o.upgrade (fun d => p d || q d) ∧
      (o.upgrade p).diagnostics.map Prod.snd = o.diagnostics.map Prod.snd := by
  refine ⟨collect_eq_foldl os, ?_, fun as => value_collect_eq_some, diagnostics_collect os,
    collect_append os ps, fun c => value_merge_eq_some, rfl, upgrade_merge f o other,
    upgrade_collect os, upgrade_upgrade o, ?_, ?_⟩
  · rw [isSome_value_collect, List.all_eq_true]
  · rw [upgrade_upgrade]
    exact congrArg o.upgrade (funext fun d => Bool.or_comm ..)
  · rw [diagnostics_upgrade, List.map_map]
    rfl

end Outcome

end KernelFront
