import KernelFront.Proofs.Value.Integers

/-!
# Unary operators and steps

At an integer kind the unary operators and the steps are what a binary operator does with a constant of
the kind: the negation subtracts from zero, the complement is an exclusive or with all ones, a step adds
its distance (`step_int`). So `-` and `~` undo themselves, and a step is undone by the opposite one.
`unary_and_steps_agree` adds what the two forms of a step have in common at every kind.
-/

namespace KernelFront

namespace StepOp

/-- The step back. -/
def opposite : StepOp → StepOp
  | increment => decrement
  | decrement => increment

theorem delta_opposite (op : StepOp) : op.opposite.delta = -op.delta := by cases op <;> rfl

end StepOp

namespace Value

/-! ## Integers -/

section

variable {k : IntKind} (x : BitVec k.bits)

/-- Two values of one integer kind are not converted. -/
theorem binary_int (op : BinaryOp) (y : BitVec k.bits) :
    binary op (int k x) (int k y) = op.onInt k x y := by
  rw [binary_eq_onInt op (Kind.promote_self _) rfl rfl, IntKind.ofInt_read, IntKind.ofInt_read]

theorem unary_negative_int : unary .negative (int k x) = binary .sub (ofInt k 0) (int k x) := by
  rw [ofInt, binary_int]
  show Except.ok (int k (-x)) = .ok (int k (BitVec.ofInt k.bits 0 - x))
  rw [BitVec.ofInt_ofNat, BitVec.zero_sub]

theorem unary_tilde_int :
    unary .tilde (int k x) = binary .xor (int k x) (int k (BitVec.allOnes k.bits)) := by
  rw [binary_int]
  show Except.ok (int k (~~~x)) = .ok (int k (x ^^^ BitVec.allOnes k.bits))
  rw [BitVec.xor_allOnes]

/-- The complement is one less than the negation. -/
theorem unary_tilde_eq_sub :
    unary .tilde (int k x) = (unary .negative (int k x)).bind (binary .sub · (ofInt k 1)) := by
  show Except.ok (int k (~~~x)) = binary .sub (int k (-x)) (ofInt k 1)
  rw [ofInt, binary_int]
  show Except.ok (int k (~~~x)) = .ok (int k (-x - BitVec.ofInt k.bits 1))
  rw [BitVec.ofInt_ofNat, BitVec.not_eq_neg_add]

theorem step_int (op : StepOp) :
    step op (int k x) = binary .add (int k x) (ofInt k op.delta) := (binary_int x .add _).symm

theorem step_decrement_int :
    step .decrement (int k x) = binary .sub (int k x) (ofInt k 1) := by
  rw [ofInt, binary_int]
  show Except.ok (int k (x + BitVec.ofInt k.bits (-1))) = .ok (int k (x - BitVec.ofInt k.bits 1))
  rw [BitVec.ofInt_neg, BitVec.sub_eq_add_neg]

/-- The step back from where a step leads. -/
theorem step_opposite (op : StepOp) {w : Value} (h : step op (int k x) = .ok w) :
    step op.opposite w = .ok (int k x) := by
  obtain rfl := Except.ok.inj h
  show Except.ok (int k (x + BitVec.ofInt k.bits op.delta + BitVec.ofInt k.bits op.opposite.delta)) = _
  rw [StepOp.delta_opposite, BitVec.ofInt_neg, BitVec.add_assoc, ← BitVec.sub_eq_add_neg,
    BitVec.sub_self, BitVec.add_zero]

end

end Value

/-! ## The two forms of a step -/

namespace Update

open Value (step)

theorem run_pre {op : StepOp} {v w : Value} (h : step op v = .ok w) : (pre op).run v = (.ok w, w) := by
  simp only [run, h]

/-- Both forms of a step fail on truth values, and elsewhere lead to the same value: the first form
has it as the result, the second one the value before. -/
theorem run_pre_post (op : StepOp) (v : Value) :
    (v.kind = .bool ∧ ∃ e, (pre op).run v = (.error e, v) ∧ (post op).run v = (.error e, v)) ∨
      (v.kind ≠ .bool ∧ ∃ w, (pre op).run v = (.ok w, w) ∧ (post op).run v = (.ok v, w)) := by
  cases v with
  | bool => exact .inl ⟨rfl, _, rfl, rfl⟩
  | _ => exact .inr ⟨nofun, _, rfl, rfl⟩

end Update

/-! ## Main result -/

namespace Value

/-- **Unary operators and steps do what the binary operators do.** At an integer kind this is so with
the constants 0, 1 and all ones of the kind, `-` and `~` undo themselves and the two steps undo each
other. At every kind the two forms of a step fail on the same variables and leave them the same. -/
theorem unary_and_steps_agree :
    (∀ (k : IntKind) (x : BitVec k.bits),
      unary .negative (int k x) = binary .sub (ofInt k 0) (int k x) ∧
      unary .tilde (int k x) = binary .xor (int k x) (int k (BitVec.allOnes k.bits)) ∧
      unary .tilde (int k x) = (unary .negative (int k x)).bind (binary .sub · (ofInt k 1)) ∧
      (∃ w, unary .negative (int k x) = .ok w ∧ unary .negative w = .ok (int k x)) ∧
      (∃ w, unary .tilde (int k x) = .ok w ∧ unary .tilde w = .ok (int k x)) ∧
      (∃ w, binary .add (int k x) (ofInt k 1) = .ok w ∧
        (Update.pre .increment).run (int k x) = (.ok w, w) ∧
        (Update.pre .decrement).run w = (.ok (int k x), int k x)) ∧
      ∃ w, binary .sub (int k x) (ofInt k 1) = .ok w ∧
        (Update.pre .decrement).run (int k x) = (.ok w, w) ∧
        (Update.pre .increment).run w = (.ok (int k x), int k x)) ∧
    ∀ (op : StepOp) (v : Value),
      (v.kind = .bool ∧
        ∃ e, (Update.pre op).run v = (.error e, v) ∧ (Update.post op).run v = (.error e, v)) ∨
      (v.kind ≠ .bool ∧
        ∃ w, (Update.pre op).run v = (.ok w, w) ∧ (Update.post op).run v = (.ok v, w)) := by
  refine ⟨fun k x => ⟨unary_negative_int x, unary_tilde_int x, unary_tilde_eq_sub x,
    ⟨int k (-x), rfl, ?_⟩, ⟨int k (~~~x), rfl, ?_⟩, ?_, ?_⟩, Update.run_pre_post⟩
  · show Except.ok (int k (- -x)) = _
    rw [BitVec.neg_neg]
  · show Except.ok (int k (~~~ ~~~x)) = _
    rw [BitVec.not_not]
  · have hstep : step .increment (int k x) = .ok _ := rfl
    exact ⟨_, (step_int x .increment).symm.trans hstep, Update.run_pre hstep,
      Update.run_pre (step_opposite x .increment hstep)⟩
  · have hstep : step .decrement (int k x) = .ok _ := rfl
    exact ⟨_, (step_decrement_int x).symm.trans hstep, Update.run_pre hstep,
      Update.run_pre (step_opposite x .decrement hstep)⟩

end Value

end KernelFront
