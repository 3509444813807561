import KernelFront.Proofs.Value.Operators

/-!
# Runs on a variable

A run is any sequence of operations on one variable, and `transitions` lists each of them with the
variable before and after it. `transitions_keep` collects what holds of every run. It rests on what
one operation does: a failing one and one without a result change nothing, a step keeps the kind, and
any other assignment leaves a value of the kind that its operator yields (`Effect`, `effect_run`).
-/

namespace KernelFront

namespace Kind

/-- Where the right operand is no address, a kind without operators is the kind on the left. -/
theorem promote_eq_left {a b : Kind} (h : promote a b = .unset ∨ promote a b = .pointer)
    (hb : b ≠ .pointer) : promote a b = a := by
  rcases promote_eq_or a b with ha | hp
  · exact ha
  rcases h with hu | hptr
  · have hrank := rank_le_promote_left a b
    rw [hu] at hrank
    rw [hu]
    exact (rank_injective (Nat.le_zero.1 hrank)).symm
  · exact absurd (hp.symm.trans hptr) hb

theorem eq_pointer_of_rank_le {k : Kind} (h : pointer.rank ≤ k.rank) : k = pointer := by
  revert h
  rcases k with _ | _ | ⟨_ | _, _ | _ | _ | _⟩ | (_ | _) | _ <;> decide

end Kind

/-- No operator gives a result on an operand that is missing or an address. -/
theorem Value.eq_unset_of_binary {op : BinaryOp} {a b v : Value}
    (ha : a.kind = .unset ∨ a.kind = .pointer) (h : binary op a b = .ok v) : v = .unset := by
  by_cases hnone : Kind.promote a.kind b.kind = .unset ∨ Kind.promote a.kind b.kind = .pointer
  · rw [binary_of_no_operators hnone] at h
    exact (Except.ok.inj h).symm
  obtain ⟨hset, hptr⟩ := not_or.1 hnone
  rcases ha with ha | ha
  · cases a with
    | unset =>
      rw [binary_of_missing hset hptr (.inl rfl)] at h
      cases h
    | _ => cases ha
  · have hrank := Kind.rank_le_promote_left a.kind b.kind
    rw [ha] at hrank hptr
    exact absurd (Kind.eq_pointer_of_rank_le hrank) hptr

namespace Update

/-- The assignments by an operator with an assignment form, and the steps. -/
def isCompound : Update → Bool
  | assign op _ => op.assignable
  | pre _ | post _ => true

/-- An operation of a run, with the variable before and after it. -/
structure Transition where
  before : Value
  update : Update
  after : Value

/-- The transitions of a run, one for each operation, from a variable that holds `v`. -/
def transitions (v : Value) : List Update → List Transition
  | [] => []
  | u :: us => ⟨v, u, (u.run v).2⟩ :: transitions (u.run v).2 us

/-! ## One operation -/

/-- What an operation on a variable can do: `Effect u v result w` takes it from `v` to `w`. -/
inductive Effect : Update → Value → Except ValueError Value → Value → Prop where
  | fault {u : Update} {v : Value} {e : ValueError} : Effect u v (.error e) v
  | noResult {op : BinaryOp} {v rhs : Value} : Value.binary op v rhs = .ok .unset →
      Effect (.assign op rhs) v (.ok .unset) v
  | assigned {op : BinaryOp} {v rhs w : Value} : Value.binary op v rhs = .ok w → w ≠ .unset →
      Effect (.assign op rhs) v (.ok w) w
  | pre {op : StepOp} {v w : Value} : v.step op = .ok w → Effect (.pre op) v (.ok w) w
  | post {op : StepOp} {v w : Value} : v.step op = .ok w → Effect (.post op) v (.ok v) w

theorem effect_run (u : Update) (v : Value) : Effect u v (u.run v).1 (u.run v).2 := by
  cases u with
  | assign op rhs =>
    cases h : Value.binary op v rhs with
    | error e => simpa only [run, h] using Effect.fault
    | ok w =>
      cases w with
      | unset => simpa only [run, h] using Effect.noResult h
      | _ => simpa only [run, h] using Effect.assigned h fun hw => by cases hw
  | pre op =>
    cases h : v.step op with
    | error e => simpa only [run, h] using Effect.fault
    | ok w => simpa only [run, h] using Effect.pre h
  | post op =>
    cases h : v.step op with
    | error e => simpa only [run, h] using Effect.fault
    | ok w => simpa only [run, h] using Effect.post h

/-- A step stays within its kind, and where there is nothing to step to, in its place. -/
theorem step_keeps {op : StepOp} {v w : Value} (h : v.step op = .ok w) :
    w.kind = v.kind ∧ (v.kind = .unset ∨ v.kind = .pointer → w = v) := by
  cases v with
  | bool => cases h
  | unset | pointer =>
    obtain rfl := Except.ok.inj h
    exact ⟨rfl, fun _ => rfl⟩
  | int | float =>
    obtain rfl := Except.ok.inj h
    exact ⟨rfl, fun hv => by rcases hv with hv | hv <;> cases hv⟩

section

variable {u : Update} {v w : Value} {result : Except ValueError Value}

theorem Effect.of_error {e : ValueError} (h : Effect u v (.error e) w) : w = v := by
  cases h
  rfl

/-- A variable without operators keeps what it holds. -/
theorem Effect.keeps (h : Effect u v result w) (hv : v.kind = .unset ∨ v.kind = .pointer) :
    w = v := by
  cases h with
  | fault | noResult => rfl
  | pre h | post h => exact (step_keeps h).2 hv
  | assigned h hw => exact absurd (Value.eq_unset_of_binary hv h) hw

/-- A variable with a value never loses it. -/
theorem Effect.kind_ne (h : Effect u v result w) (hset : v.kind ≠ .unset) (hptr : v.kind ≠ .pointer) :
    w.kind ≠ .unset ∧ w.kind ≠ .pointer := by
  cases h with
  | fault | noResult => exact ⟨hset, hptr⟩
  | pre h | post h => rw [(step_keeps h).1]; exact ⟨hset, hptr⟩
  | assigned h hw =>
    rcases Value.binary_eq_ok h with ⟨hunset, -⟩ | ⟨hset, hptr, -⟩
    · exact absurd hunset hw
    · exact ⟨hset, hptr⟩

theorem resultKind_of_assignable {op : BinaryOp} (h : op.assignable) (kind : Kind) :
    op.resultKind kind = kind := by
  cases op <;> first | rfl | cases h

theorem Effect.rank_le (h : Effect u v result w) (hu : u.isCompound) :
    v.kind.rank ≤ w.kind.rank := by
  cases h with
  | fault | noResult => exact Nat.le_refl _
  | pre h | post h => exact Nat.le_of_eq (congrArg Kind.rank (step_keeps h).1.symm)
  | assigned h hw =>
    rcases Value.binary_eq_ok h with ⟨hunset, -⟩ | ⟨-, -, hkind⟩
    · exact absurd hunset hw
    · rw [hkind, resultKind_of_assignable hu]
      exact Kind.rank_le_promote_left ..

/-- An assignment that succeeds leaves the promoted kind, unless an address is assigned. -/
theorem Effect.kind_assign {op : BinaryOp} {rhs r : Value}
    (h : Effect (.assign op rhs) v (.ok r) w) (hop : op.assignable) (hrhs : rhs.kind ≠ .pointer) :
    w.kind = Kind.promote v.kind rhs.kind := by
  cases h with
  | noResult h =>
    rcases Value.binary_eq_ok h with ⟨-, hkind⟩ | ⟨hset, -⟩
    · exact (Kind.promote_eq_left hkind hrhs).symm
    · exact absurd rfl hset
  | assigned h hw =>
    rcases Value.binary_eq_ok h with ⟨hunset, -⟩ | ⟨-, -, hkind⟩
    · exact absurd hunset hw
    · rw [hkind, resultKind_of_assignable hop]

end

/-! ## Runs -/

section

variable {us : List Update} {v : Value}

/-- What every operation keeps holds at both ends of every transition. -/
theorem forall_transitions {P : Value → Prop}
    (hstep : ∀ (u : Update) (v : Value), P v → P (u.run v).2) (hv : P v) :
    ∀ t ∈ transitions v us, P t.before ∧ P t.after := by
  induction us generalizing v with
  | nil =>
    intro t ht
    cases ht
  | cons u us ih =>
    intro t ht
    have hnext : P (u.run v).2 := hstep u v hv
    rw [transitions, List.mem_cons] at ht
    rcases ht with rfl | ht
    · exact ⟨hv, hnext⟩
    · exact ih hnext t ht

theorem effect_of_mem {t : Transition} (h : t ∈ transitions v us) :
    t.update ∈ us ∧ Effect t.update t.before (t.update.run t.before).1 t.after := by
  induction us generalizing v with
  | nil => cases h
  | cons u us ih =>
    rw [transitions, List.mem_cons] at h
    rcases h with rfl | h
    · exact ⟨List.mem_cons_self, effect_run u v⟩
    · exact ⟨List.mem_cons_of_mem _ (ih h).1, (ih h).2⟩

end

/-- **What holds of every run on a variable.** A failing operation changes nothing. A variable that
is not set, or holds an address, stays so, and any other keeps a value. If only the operators with an
assignment form are used, the kind never goes back in the promotion order, and an assignment leaves
the promoted kind. -/
theorem transitions_keep (v : Value) (us : List Update) :
    (∀ t ∈ transitions v us,
      (∀ e, (t.update.run t.before).1 = .error e → t.after = t.before) ∧
      (v = .unset → t.after = .unset) ∧ (∀ a, v = .pointer a → t.after = .pointer a) ∧
      (v.kind ≠ .unset → v.kind ≠ .pointer → t.after.kind ≠ .unset ∧ t.after.kind ≠ .pointer)) ∧
    ((∀ u ∈ us, u.isCompound) → ∀ t ∈ transitions v us,
      t.before.kind.rank ≤ t.after.kind.rank ∧
      ∀ op rhs r, t.update = .assign op rhs → rhs.kind ≠ .pointer →
        (t.update.run t.before).1 = .ok r →
          t.after.kind = Kind.promote t.before.kind rhs.kind) := by
  have hfixed : v.kind = .unset ∨ v.kind = .pointer → ∀ t ∈ transitions v us, t.after = v :=
    fun hv t ht => (forall_transitions (P := (· = v))
      (fun u w hw => ((effect_run u w).keeps (hw ▸ hv)).trans hw) rfl t ht).2
  refine ⟨fun t ht => ⟨fun e he => ?_, ?_, ?_, fun hset hptr => ?_⟩, fun hus t ht => ?_⟩
  · have heffect := (effect_of_mem ht).2
    rw [he] at heffect
    exact heffect.of_error
  · rintro rfl
    exact hfixed (.inl rfl) t ht
  · rintro a rfl
    exact hfixed (.inr rfl) t ht
  · exact (forall_transitions (P := fun w => w.kind ≠ .unset ∧ w.kind ≠ .pointer)
      (fun u w hw => (effect_run u w).kind_ne hw.1 hw.2) ⟨hset, hptr⟩ t ht).2
  · obtain ⟨hmem, heffect⟩ := effect_of_mem ht
    refine ⟨heffect.rank_le (hus _ hmem), fun op rhs r hassign hrhs hok => ?_⟩
    have hop := hus _ hmem
    rw [hok, hassign] at heffect
    rw [hassign] at hop
    exact heffect.kind_assign hop hrhs

end Update

end KernelFront
