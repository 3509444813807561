import KernelFront.Proofs.Value.Operators

/-!
# Exchanging the operands

Some operators have a mirror image, an operator that gives the same with the operands exchanged
(`BinaryOp.mirror?`): less and greater are mirror images of each other, and the operators declared
commutative are their own. `binary_mirror` proves it for whole results, errors included. So
`binary_comm_iff`: the operators declared commutative are commutative, and no other operator is.

A float operator is exact up to one rounding, and its exact result is symmetric where the sum or the
product of integers is. There is one `nan`, so the equations hold as they stand.
-/

namespace KernelFront

namespace Binary

variable {f : Format}

theorem addFinite_comm (s : Bool) (j : Nat) (t : Bool) (k : Nat) :
    addFinite f s j t k = addFinite f t k s j := by
  simp only [addFinite, Int.add_comm (signedSteps f s j), Bool.and_comm s]

theorem add_comm (x y : Binary f) : x.add y = y.add x := by
  cases x with
  | nan => cases y <;> rfl
  | number s j =>
    cases y with
    | nan => rfl
    | number t k =>
      unfold add
      by_cases hj : j = f.infinity <;> by_cases hk : k = f.infinity
      · -- Two infinities: their sum is one of them, so they have to be the same.
        cases s <;> cases t <;> simp [hj, hk]
      · simp [hj, hk]
      · simp [hj, hk]
      · simp only [hj, hk, if_false, addFinite_comm s]

theorem mul_comm (x y : Binary f) : x.mul y = y.mul x := by
  cases x with
  | nan => cases y <;> rfl
  | number s j =>
    cases y with
    | nan => rfl
    | number t k =>
      simp only [mul, Bool.or_comm, Bool.xor_comm s, Nat.mul_comm (f.steps j)]

theorem eq_comm (x y : Binary f) : x.eq y = y.eq x := by
  unfold eq compareWith
  cases x.key? <;> cases y.key? <;> first | rfl | exact Bool.beq_comm

end Binary

namespace BinaryOp

/-- The operator that gives the same with its operands exchanged. -/
def mirror? : BinaryOp → Option BinaryOp
  | lt => some gt
  | le => some ge
  | ge => some le
  | gt => some lt
  | sub | div | mod | shiftLeft | shiftRight => none
  | op => some op

variable {op op' : BinaryOp}

theorem mirror?_of_isCommutative (h : op.isCommutative) : op.mirror? = some op := by
  cases op <;> first | rfl | cases h

theorem onInt_mirror (h : op.mirror? = some op') {k : IntKind} (x y : BitVec k.bits) :
    op.onInt k x y = op'.onInt k y x := by
  cases op <;> cases h
  case mult => simp only [onInt, BitVec.mul_comm]
  case add => simp only [onInt, BitVec.add_comm]
  case bitAnd => simp only [onInt, BitVec.and_comm]
  case bitOr => simp only [onInt, BitVec.or_comm]
  case xor => simp only [onInt, BitVec.xor_comm]
  case eq => simp only [onInt, Bool.beq_comm]
  case ne => simp only [onInt, bne_comm]
  case and => simp only [onInt, Bool.and_comm]
  case or => simp only [onInt, Bool.or_comm]
  all_goals rfl

theorem onFloat_mirror (h : op.mirror? = some op') {p : Precision} (x y : Binary p.format) :
    op.onFloat p x y = op'.onFloat p y x := by
  cases op <;> cases h
  case mult => simp only [onFloat, Binary.mul_comm]
  case add => simp only [onFloat, Binary.add_comm]
  case eq => simp only [onFloat, Binary.eq_comm]
  case ne => simp only [onFloat, Binary.eq_comm]
  case and => simp only [onFloat, Bool.and_comm]
  case or => simp only [onFloat, Bool.or_comm]
  all_goals rfl

end BinaryOp

namespace Value

/-- An operator on two values is its mirror image on the exchanged values. -/
theorem binary_mirror {op op' : BinaryOp} (h : op.mirror? = some op') (a b : Value) :
    binary op a b = binary op' b a := by
  have hkind := Kind.promote_comm a.kind b.kind
  cases operands a b with
  | none hnone => rw [binary_of_no_operators hnone, binary_of_no_operators (hkind ▸ hnone)]
  | missing hset hptr hmissing =>
    rw [binary_of_missing hset hptr hmissing,
      binary_of_missing (hkind ▸ hset) (hkind ▸ hptr) hmissing.symm]
  | integers hk ha hb =>
    rw [binary_of_integers op hk ha hb, binary_of_integers op' (hkind ▸ hk) hb ha,
      BinaryOp.onInt_mirror h, hkind]
  | floats hp hx hy =>
    rw [binary_of_floats op hp hx hy, binary_of_floats op' (hkind ▸ hp) hy hx,
      BinaryOp.onFloat_mirror h]

/-- **The operators declared commutative are those that are.** Exchanging the operands of one changes
nothing, whatever their kinds: neither a result nor an error. -/
theorem binary_comm_iff (op : BinaryOp) :
    op.isCommutative ↔ ∀ a b, binary op a b = binary op b a := by
  refine ⟨fun h a b => binary_mirror (BinaryOp.mirror?_of_isCommutative h) a b, fun h => ?_⟩
  -- Three and one tell every other operator from its exchange.
  have hresult := congrArg Except.toOption (h (ofInt .int8 3) (ofInt .int8 1))
  revert hresult
  cases op <;> decide

end Value

end KernelFront
