import KernelFront.Proofs.Value.Integers

/-!
# Division and remainder

`division_with_remainder`: quotient times divisor plus remainder is the dividend, at every kind that
computes with integers. The quotient is truncated toward zero and the remainder has the sign of the
dividend (`IntKind.Division`). One quotient is out of range, that of the least integer of a signed kind
by minus one; it wraps around to the dividend, and the equation holds there as well, because the product
and the sum wrap around in the same way. A dividend that was never set has no quotient
(`division_fails_unset`).
-/

namespace KernelFront

namespace IntKind

variable {k : IntKind}

/-- The quotient that no integer of the kind is: that of the least integer by minus one. -/
def Overflows (k : IntKind) (x y : Int) : Prop := k.signed ∧ x = k.min ∧ y = -1

/-- `q` and `r` are the quotient and the remainder of `x` by `y` in a kind. -/
structure Division (k : IntKind) (x y q r : Int) : Prop where
  sign_remainder : r = 0 ∨ r.sign = x.sign
  remainder_lt : |r| < |y|
  quotient : ¬ k.Overflows x y → q = x.tdiv y
  wrapped : k.Overflows x y → q = k.min ∧ r = 0

/-! ## Patterns of bits -/

/-- The quotient of two patterns, read as integers of the kind. -/
def quotient (k : IntKind) (u v : BitVec k.bits) : BitVec k.bits :=
  if k.signed then u.sdiv v else u.udiv v

/-- The remainder of two patterns, read as integers of the kind. -/
def remainder (k : IntKind) (u v : BitVec k.bits) : BitVec k.bits :=
  if k.signed then u.srem v else u.umod v

theorem read_remainder (u v : BitVec k.bits) :
    k.read (k.remainder u v) = (k.read u).tmod (k.read v) := by
  unfold read remainder
  split
  · exact BitVec.toInt_srem u v
  · rw [BitVec.umod_eq, BitVec.toNat_umod, Int.ofNat_tmod]

theorem quotient_eq_ofInt (u v : BitVec k.bits) :
    k.quotient u v = BitVec.ofInt k.bits ((k.read u).tdiv (k.read v)) := by
  unfold read quotient
  split
  · rw [← BitVec.toInt_inj, BitVec.toInt_sdiv, BitVec.toInt_ofInt]
  · rw [← Int.ofNat_tdiv, ← BitVec.toNat_udiv, BitVec.ofInt_natCast, BitVec.ofNat_toNat,
      BitVec.setWidth_eq, BitVec.udiv_eq]

theorem quotient_mul_add_remainder (u v : BitVec k.bits) :
    k.quotient u v * v + k.remainder u v = u := by
  calc k.quotient u v * v + k.remainder u v
      = BitVec.ofInt k.bits ((k.read u).tdiv (k.read v) * k.read v +
          (k.read u).tmod (k.read v)) := by
        rw [BitVec.ofInt_add, BitVec.ofInt_mul, ← quotient_eq_ofInt, ← read_remainder, ofInt_read,
          ofInt_read]
    _ = u := by rw [Int.tdiv_mul_add_tmod, ofInt_read]

/-- The patterns of the two operands whose quotient is out of range. -/
theorem read_intMin (hk : k.signed) :
    k.read (BitVec.intMin k.bits) = k.min ∧ k.read (-1#k.bits) = -1 := by
  revert hk
  rcases k with ⟨_ | _, _ | _ | _ | _⟩ <;> decide

theorem read_quotient {u v : BitVec k.bits} (h : ¬ k.Overflows (k.read u) (k.read v)) :
    k.read (k.quotient u v) = (k.read u).tdiv (k.read v) := by
  cases hk : k.signed with
  | true =>
    have hne : u ≠ BitVec.intMin k.bits ∨ v ≠ -1#k.bits := by
      by_contra hboth
      obtain ⟨rfl, rfl⟩ : u = BitVec.intMin k.bits ∧ v = -1#k.bits := by simpa using hboth
      exact h ⟨hk, read_intMin hk⟩
    simp only [read, quotient, hk, if_true]
    exact BitVec.toInt_sdiv_of_ne_or_ne u v hne
  | false =>
    simp only [read, quotient, hk, Bool.false_eq_true, if_false]
    rw [BitVec.udiv_eq, BitVec.toNat_udiv, Int.ofNat_tdiv]

/-- The quotient that is out of range wraps around to the dividend. -/
theorem quotient_of_overflows {u v : BitVec k.bits} (h : k.Overflows (k.read u) (k.read v)) :
    k.read (k.quotient u v) = k.min ∧ k.read (k.remainder u v) = 0 := by
  obtain ⟨hk, hu, hv⟩ := h
  rw [read_remainder, quotient_eq_ofInt, hu, hv]
  revert hk
  rcases k with ⟨_ | _, _ | _ | _ | _⟩ <;> decide

theorem division_read {u v : BitVec k.bits} (hv : v ≠ 0) :
    k.Division (k.read u) (k.read v) (k.read (k.quotient u v)) (k.read (k.remainder u v)) where
  sign_remainder := by
    rw [read_remainder, Int.sign_tmod]
    split
    · exact .inl (Int.tmod_eq_zero_of_dvd ‹_›)
    · exact .inr rfl
  remainder_lt := by
    have hread : (k.read v).natAbs ≠ 0 := fun h =>
      hv (read_injective (by rw [Int.natAbs_eq_zero.1 h, read_zero]))
    rw [read_remainder, Int.abs_eq_natAbs, Int.abs_eq_natAbs, Int.natAbs_tmod]
    exact Int.ofNat_lt.2 (Nat.mod_lt _ (Nat.pos_of_ne_zero hread))
  quotient := read_quotient
  wrapped := quotient_of_overflows

end IntKind

/-! ## Operators -/

namespace BinaryOp

variable {k : IntKind} {v : BitVec k.bits}

theorem onInt_div (u : BitVec k.bits) (hv : v ≠ 0) :
    div.onInt k u v = .ok (.int k (k.quotient u v)) :=
  if_neg hv

theorem onInt_mod (u : BitVec k.bits) (hv : v ≠ 0) :
    mod.onInt k u v = .ok (.int k (k.remainder u v)) :=
  if_neg hv

end BinaryOp

namespace Kind

/-- What an operand was promoted to is not promoted any further by it. -/
theorem promote_promote_right (a b : Kind) : promote (promote a b) b = promote a b :=
  rank_injective (by simp only [rank_promote, Nat.max_assoc, Nat.max_self])

end Kind

namespace Value

variable {a b : Value}

theorem exists_bool {v : Value} (h : v.kind.rank ≤ Kind.bool.rank) (hv : v ≠ .unset) :
    ∃ t, v = .bool t := by
  have hint := Kind.rank_bool_lt_int .int32
  rcases bool_or_int (Nat.le_trans h (Nat.le_of_lt hint)) hv with ht | ⟨k, x, rfl⟩
  · exact ht
  · exact absurd h (Nat.not_le.2 (Kind.rank_bool_lt_int k))

/-- Truth values divide as the integers 0 and 1, and the only divisor is 1. -/
theorem division_bool (s : Bool) :
    binary .div (bool s) (bool true) = .ok (.bool s) ∧
      binary .mod (bool s) (bool true) = .ok (.bool false) ∧
      binary .mult (bool s) (bool true) = .ok (.bool s) ∧
      binary .add (bool s) (bool false) = .ok (.bool s) := by
  cases s <;> exact ⟨rfl, rfl, rfl, rfl⟩

/-- At an integer kind the divisor is cast twice, once to divide and once to multiply, and to the same
pattern: the promoted kind of the quotient and the divisor is that of the two operands. -/
theorem division_int {k : IntKind} {m n : Int} (hk : Kind.promote a.kind b.kind = .int k)
    (ha : a.integer? = some m) (hb : b.integer? = some n) (hzero : BitVec.ofInt k.bits n ≠ 0) :
    ∃ q r, binary .div a b = .ok (.int k q) ∧ binary .mod a b = .ok (.int k r) ∧
      binary .mult (.int k q) b = .ok (.int k (q * BitVec.ofInt k.bits n)) ∧
      binary .add (.int k (q * BitVec.ofInt k.bits n)) (.int k r) =
        .ok (.int k (BitVec.ofInt k.bits m)) ∧
      k.Division (k.read (BitVec.ofInt k.bits m)) (k.read (BitVec.ofInt k.bits n)) (k.read q)
        (k.read r) := by
  have hright (q : BitVec k.bits) : Kind.promote (Value.int k q).kind b.kind = .int k := by
    rw [kind, ← hk, Kind.promote_promote_right]
  refine ⟨_, _, ?_, ?_, ?_, ?_, IntKind.division_read hzero⟩
  · rw [binary_eq_onInt .div hk ha hb, BinaryOp.onInt_div _ hzero]
  · rw [binary_eq_onInt .mod hk ha hb, BinaryOp.onInt_mod _ hzero]
  · rw [binary_eq_onInt .mult (hright _) rfl hb, IntKind.ofInt_read]
    rfl
  · rw [binary_eq_onInt .add (Kind.promote_self _) rfl rfl, IntKind.ofInt_read, IntKind.ofInt_read]
    show Except.ok (Value.int k (_ + _)) = _
    rw [IntKind.quotient_mul_add_remainder]

/-- **Division and remainder fit together.** Where both operands stand for integers and the divisor is
not zero, the quotient times the divisor plus the remainder is the dividend, cast to the promoted kind.
At an integer kind quotient and remainder are those of the representatives of the operands in its
range. -/
theorem division_with_remainder {P : Kind} {n : Int} (hP : Kind.promote a.kind b.kind = P)
    (hkind : P = .bool ∨ P.isInteger) (ha : a ≠ .unset) (hb : b.integer? = some n) (hn : n ≠ 0) :
    ∃ q r p c, binary .div a b = .ok q ∧ binary .mod a b = .ok r ∧ binary .mult q b = .ok p ∧
      binary .add p r = .ok c ∧ a.castTo P = .ok c ∧
      ∀ k, P = .int k → ∃ m x y q' r', a.integer? = some m ∧ k.Represents m x ∧ k.Represents n y ∧
        q = .int k q' ∧ r = .int k r' ∧ k.Division x y (k.read q') (k.read r') := by
  have hleft := Kind.rank_le_promote_left a.kind b.kind
  have hright := Kind.rank_le_promote_right a.kind b.kind
  rw [hP] at hleft hright
  cases P with
  | bool =>
    obtain ⟨s, rfl⟩ := exists_bool hleft ha
    obtain ⟨t, rfl⟩ := exists_bool hright (ne_unset_of_integer hb)
    cases t with
    | false => exact absurd (Option.some.inj hb).symm hn
    | true =>
      obtain ⟨hdiv, hmod, hmult, hadd⟩ := division_bool s
      exact ⟨_, _, _, _, hdiv, hmod, hmult, hadd, rfl, nofun⟩
  | int k =>
    obtain ⟨m, hm⟩ := exists_integer hleft ha
    obtain ⟨q, r, hdiv, hmod, hmult, hadd, hdivision⟩ :=
      division_int hP hm hb (mt (ofInt_integer_eq_zero_iff hright hb).1 hn)
    refine ⟨_, _, _, _, hdiv, hmod, hmult, hadd, ?_, ?_⟩
    · rw [castTo, toInt_of_integer k hm]
      rfl
    · rintro _ ⟨⟩
      exact ⟨m, _, _, q, r, hm, k.represents_read_ofInt m, k.represents_read_ofInt n, rfl, rfl,
        hdivision⟩
  | _ => rcases hkind with h | h <;> cases h

/-- The least `int8` divided by minus one: the quotient wraps around to the dividend. -/
theorem division_with_remainder_overflow :
    let a : Value := .ofInt .int8 (-128)
    let b : Value := .ofInt .int8 (-1)
    Kind.promote a.kind b.kind = .int .int8 ∧ a ≠ .unset ∧ b.integer? = some (-1) ∧
      binary .div a b = .ok a ∧ binary .mod a b = .ok (.ofInt .int8 0) := by
  intro a b
  have ha : a.integer? = some (-128) := by decide
  have hb : b.integer? = some (-1) := by decide
  obtain ⟨q, r, p, c, hdiv, hmod, -, -, -, hint⟩ :=
    division_with_remainder (a := a) (P := .int .int8) rfl (.inr rfl) nofun hb (by decide)
  obtain ⟨m, x, y, q', r', hm, hx, hy, rfl, rfl, hdivision⟩ := hint .int8 rfl
  obtain rfl := Option.some.inj (hm.symm.trans ha)
  have hx' : x = -128 := hx.unique ⟨by decide, by decide, rfl⟩
  have hy' : y = -1 := hy.unique ⟨by decide, by decide, rfl⟩
  obtain ⟨hq, hr⟩ := hdivision.wrapped ⟨rfl, hx', hy'⟩
  have hq' : q' = BitVec.ofInt 8 (-128) := IntKind.read_injective (hq.trans (by decide))
  have hr' : r' = BitVec.ofInt 8 0 := IntKind.read_injective (hr.trans (by decide))
  exact ⟨rfl, nofun, hb, by rw [hdiv, hq']; rfl, by rw [hmod, hr']; rfl⟩

/-- A dividend that was never set has neither a quotient nor a remainder, although the promoted kind is
that of the divisor. -/
theorem division_fails_unset :
    let a : Value := .unset
    let b : Value := .ofInt .int32 1
    (Kind.promote a.kind b.kind = .int .int32 ∧ b.integer? = some 1) ∧
      binary .div a b = .error .notSet ∧ binary .mod a b = .error .notSet := by
  intro a b
  exact ⟨⟨rfl, by decide⟩, rfl, rfl⟩

end Value

end KernelFront
