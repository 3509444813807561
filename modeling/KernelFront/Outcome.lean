import KernelFront.Diagnostic

/-!
# Outcomes

An outcome is a value together with the diagnostics of producing it. It is in one of three states:
*ok* has a value and no diagnostics, *recovered* a value and recoverable diagnostics only, *failed*
no value and at least one error. The constructors and operations below keep to these states: whoever
adds an error drops the value.
-/

namespace KernelFront

/-- Whether a diagnostic leaves the value usable. -/
inductive Severity where
  | recoverable
  | error
  deriving DecidableEq, Repr

/-- A value, if there is one, and the diagnostics in the order in which they arose. -/
structure Outcome (α : Type) where
  value : Option α
  diagnostics : List (Severity × Diagnostic)
  deriving DecidableEq, Repr

namespace Outcome

variable {α β : Type}

def ok (a : α) : Outcome α := ⟨some a, []⟩

/-- A value that was recovered from a fault. -/
def recovered (a : α) (d : Diagnostic) : Outcome α := ⟨some a, [(.recoverable, d)]⟩

def failed (d : Diagnostic) : Outcome α := ⟨none, [(.error, d)]⟩

instance [Inhabited α] : Inhabited (Outcome α) := ⟨ok default⟩

def isOk (o : Outcome α) : Bool := o.value.isSome && o.diagnostics.isEmpty

def isRecovered (o : Outcome α) : Bool := o.value.isSome && !o.diagnostics.isEmpty

def isFailed (o : Outcome α) : Bool := o.value.isNone

/-- Adds a recoverable diagnostic at the end. -/
def addRecoverable (o : Outcome α) (d : Diagnostic) : Outcome α :=
  { o with diagnostics := o.diagnostics ++ [(.recoverable, d)] }

/-- Adds an error at the end and drops the value. -/
def addError (o : Outcome α) (d : Diagnostic) : Outcome α :=
  ⟨none, o.diagnostics ++ [(.error, d)]⟩

/-- Whether a diagnostic is recoverable and chosen by `p`. -/
def isUpgraded (p : Diagnostic → Bool) (entry : Severity × Diagnostic) : Bool :=
  entry.1 == .recoverable && p entry.2

/-- Turns the recoverable diagnostics chosen by `p` into errors. -/
def upgrade (p : Diagnostic → Bool) (o : Outcome α) : Outcome α :=
  ⟨if o.diagnostics.any (isUpgraded p) then none else o.value,
    o.diagnostics.map fun entry => if isUpgraded p entry then (.error, entry.2) else entry⟩

/-- Takes over a diagnostic, as an error if it is recoverable and `p` chooses it. Errors are not
shown to `p`. -/
def pushUpgraded {σ : Type} (p : Diagnostic → StateM σ Bool) (o : Outcome α) :
    Severity × Diagnostic → StateM σ (Outcome α)
  | (.error, d) => pure { o with diagnostics := o.diagnostics ++ [(.error, d)] }
  | (.recoverable, d) => do return if ← p d then o.addError d else o.addRecoverable d

/-- Upgrades as a predicate chooses that remembers what it was shown. -/
def upgradeM {σ : Type} (p : Diagnostic → StateM σ Bool) (o : Outcome α) : StateM σ (Outcome α) :=
  o.diagnostics.foldlM (pushUpgraded p) ⟨o.value, []⟩

def map (f : α → β) (o : Outcome α) : Outcome β := ⟨o.value.map f, o.diagnostics⟩

/-- Continues with the value; the diagnostics of both parts stay, in order. -/
def andThen (o : Outcome α) (f : α → Outcome β) : Outcome β :=
  match o.value with
  | some a => ⟨(f a).value, o.diagnostics ++ (f a).diagnostics⟩
  | none => ⟨none, o.diagnostics⟩

@[simp]
theorem ok_andThen (a : α) (f : α → Outcome β) : (ok a).andThen f = f a := rfl

theorem andThen_of_value {o : Outcome α} {a : α} (h : o.value = some a) (f : α → Outcome β) :
    o.andThen f = ⟨(f a).value, o.diagnostics ++ (f a).diagnostics⟩ := by
  simp [andThen, h]

theorem andThen_of_none {o : Outcome α} (h : o.value = none) (f : α → Outcome β) :
    o.andThen f = ⟨none, o.diagnostics⟩ := by
  simp [andThen, h]

/-- Both outcomes: the values combined if there are two, the diagnostics one after the other. -/
def merge {γ : Type} (f : α → β → γ) (o : Outcome α) (other : Outcome β) : Outcome γ :=
  ⟨o.value.bind fun a => other.value.map (f a), o.diagnostics ++ other.diagnostics⟩

/-- The values of all outcomes, if none failed, and all diagnostics. -/
def collect (os : List (Outcome α)) : Outcome (List α) :=
  os.foldr (merge List.cons) (ok [])

@[simp]
theorem collect_nil : collect ([] : List (Outcome α)) = ok [] := rfl

@[simp]
theorem collect_cons (o : Outcome α) (os : List (Outcome α)) :
    collect (o :: os) = merge List.cons o (collect os) := rfl

/-- Collecting in two parts is collecting once. -/
theorem collect_append (os ps : List (Outcome α)) :
    collect (os ++ ps) = merge (· ++ ·) (collect os) (collect ps) := by
  induction os with
  | nil => simp [merge, ok]
  | cons o os ih =>
    rw [List.cons_append, collect_cons, collect_cons, ih]
    simp only [merge, List.append_assoc, mk.injEq, and_true]
    cases o.value <;> cases (collect os).value <;> cases (collect ps).value <;> rfl

/-- Collecting has a value where all outcomes have one. -/
theorem value_collect_eq_some {os : List (Outcome α)} {as : List α} :
    (collect os).value = some as ↔ os.map value = as.map some := by
  induction os generalizing as with
  | nil => cases as <;> simp [ok]
  | cons o os ih =>
    cases as with
    | nil => simp [merge, Option.bind_eq_some_iff]
    | cons a as => simp [merge, ih, Option.bind_eq_some_iff]

/-- The outcome for a text that stands further to the right: `f` moves the value. -/
def shift (n : Nat) (f : α → β) (o : Outcome α) : Outcome β :=
  ⟨o.value.map f, o.diagnostics.map fun entry => (entry.1, entry.2.shift n)⟩

theorem collect_map_shift (n : Nat) (f : α → β) (os : List (Outcome α)) :
    collect (os.map (shift n f)) = (collect os).shift n (List.map f) := by
  induction os with
  | nil => rfl
  | cons o os ih =>
    rw [List.map_cons, collect_cons, collect_cons, ih]
    simp only [merge, shift, List.map_append, mk.injEq, and_true]
    cases o.value <;> cases (collect os).value <;> rfl

/-- No diagnostic is lost, and they stay in order. -/
theorem diagnostics_collect (os : List (Outcome α)) :
    (collect os).diagnostics = os.flatMap diagnostics := by
  induction os with
  | nil => rfl
  | cons o os ih => rw [collect_cons, List.flatMap_cons, ← ih]; rfl

end Outcome

end KernelFront
