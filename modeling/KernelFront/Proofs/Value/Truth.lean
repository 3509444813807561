import KernelFront.Proofs.Binary.Decimals
import KernelFront.Proofs.Value.Operators

/-!
# Truth values

`logical_operators`: the logical operators look at the truth values of their operands alone. Negation
tests an operand as it is, while the connectives test both after the cast to the promoted kind. So no
cast to a kind that comes later in the order may take a number to zero or away from it. For integers
this is `ofInt_integer_eq_zero_iff`. A cast to a float rounds, but one is the multiple of a step, and so
is every number of a format whose steps are no finer; hence what is not zero has at least one step
(`truth_round`). De Morgan's laws follow.
-/

namespace KernelFront

/-! ## Rounded numbers -/

namespace Binary

variable {f g : Format}

theorem truth_ofRank (hf : 0 < f.infinity) (s : Bool) (k : Nat) :
    (ofRank f s k).truth = (k != 0) := by
  have hmin : min k f.infinity = 0 ↔ k = 0 := by omega
  rw [Bool.eq_iff_iff]
  simp [truth, isZero, ofRank, hmin]

/-- What has at least one step is not rounded to zero. -/
theorem truth_round (hf : 0 < f.infinity) (s : Bool) {num den : Nat} (hden : 0 < den)
    (h : num = 0 ∨ den ≤ num) : (round f s num den).truth = (num != 0) := by
  rw [round, truth_ofRank hf]
  rcases h with rfl | h
  · rw [Format.nearestRank_zero hden]
  · have hrank : 1 ≤ f.nearestRank num den :=
      Format.le_nearestRank hden (by rwa [f.steps_one, Nat.one_mul])
    rw [bne_iff_ne.2 (Nat.ne_of_gt hrank), bne_iff_ne.2 (Nat.ne_of_gt (Nat.lt_of_lt_of_le hden h))]

theorem truth_ofInt (hf : 0 < f.infinity) (z : Int) : (ofInt f z).truth = (z != 0) := by
  have hone : 0 < f.one := Nat.two_pow_pos _
  have hnum : z.natAbs * f.one = 0 ∨ 1 ≤ z.natAbs * f.one := Nat.eq_zero_or_pos _
  rw [ofInt, truth_round hf _ Nat.one_pos hnum, Bool.eq_iff_iff]
  simp [Nat.ne_of_gt hone]

/-- A format whose steps are no coarser has a number for every number that is not zero. -/
theorem truth_convert (hf : 0 < f.infinity) (hg : 0 < g.infinity) (hdepth : f.depth ≤ g.depth)
    (x : Binary f) : (x.convert g).truth = x.truth := by
  cases x with
  | nan => rfl
  | number s k =>
    have hone : 0 < f.one := Nat.two_pow_pos _
    have hones : f.one ≤ g.one := Nat.pow_le_pow_right (by decide) hdepth
    rw [← ofRank_val, truth_ofRank hf, ofRank_val, convert]
    split
    · rename_i hk
      rw [infinity, truth_ofRank hg, hk, bne_iff_ne.2 (Nat.ne_of_gt hf),
        bne_iff_ne.2 (Nat.ne_of_gt hg)]
    · have hsteps : f.steps k = 0 ↔ (k : Nat) = 0 := by
        have hinj := f.steps_strictMono.injective.eq_iff (a := k) (b := 0)
        rwa [f.steps_zero] at hinj
      have hnum : f.steps k * g.one = 0 ∨ f.one ≤ f.steps k * g.one := by
        rcases Nat.eq_zero_or_pos (f.steps k) with h | h
        · exact .inl (by rw [h, Nat.zero_mul])
        · exact .inr (Nat.le_trans hones (Nat.le_mul_of_pos_left _ h))
      rw [truth_round hg _ hone hnum, Bool.eq_iff_iff]
      simp [hsteps, Nat.ne_of_gt (Nat.lt_of_lt_of_le hone hones)]

end Binary

/-! ## Cast operands -/

namespace Precision

theorem infinity_pos (p : Precision) : 0 < p.format.infinity := by cases p <;> decide

/-- The double format comes later and has the finer steps. -/
theorem depth_le_of_rank_le {p q : Precision} (h : (Kind.float p).rank ≤ (Kind.float q).rank) :
    p.format.depth ≤ q.format.depth := by
  revert h
  cases p <;> cases q <;> decide

end Precision

namespace Value

variable {a b v : Value}

/-- The cast to a float kind that comes later in the order keeps the truth value. -/
theorem toBool_of_toFloat {p : Precision} {x : Binary p.format}
    (h : v.kind.rank ≤ (Kind.float p).rank) (hx : v.toFloat p = .ok x) :
    v.toBool = .ok x.truth := by
  cases v with
  | unset => cases hx
  | bool b =>
    obtain rfl := Except.ok.inj hx
    rw [Binary.truth_ofInt p.infinity_pos]
    cases b <;> rfl
  | int k y =>
    obtain rfl := Except.ok.inj hx
    rw [Binary.truth_ofInt p.infinity_pos]
    rfl
  | float q y =>
    obtain rfl := Except.ok.inj hx
    rw [Binary.truth_convert q.infinity_pos p.infinity_pos (Precision.depth_le_of_rank_le h)]
    rfl
  | pointer a =>
    have hlt : (Kind.float p).rank < Kind.pointer.rank := by cases p <;> decide
    exact absurd h (Nat.not_le.2 hlt)

/-- The cast to an integer kind that comes later in the order keeps the truth value. -/
theorem read_ofInt_integer_ne_zero {k : IntKind} {x : Int} (h : v.kind.rank ≤ (Kind.int k).rank)
    (hx : v.integer? = some x) : (k.read (BitVec.ofInt k.bits x) != 0) = (x != 0) :=
  IntKind.read_ofInt_ne_zero (ofInt_integer_eq_zero_iff h hx)

/-! ## Logical operators -/

/-- The connectives look at the truth values of the operands as they were before the cast. -/
theorem exists_truth (ha : a.IsScalar) (hb : b.IsScalar) :
    ∃ s t, a.toBool = .ok s ∧ b.toBool = .ok t ∧ binary .and a b = .ok (.bool (s && t)) ∧
      binary .or a b = .ok (.bool (s || t)) := by
  have hleft := Kind.rank_le_promote_left a.kind b.kind
  have hright := Kind.rank_le_promote_right a.kind b.kind
  cases operands a b with
  | none hnone => exact absurd hnone (not_or.2 (ha.promote hb))
  | missing _ _ hmissing => exact absurd hmissing (not_or.2 ⟨ha.ne_unset, hb.ne_unset⟩)
  | integers hk hx hy =>
    have hrank := Kind.rank_le_of_computesIn hk
    refine ⟨_, _, toBool_of_integer hx, toBool_of_integer hy, ?_, ?_⟩
    all_goals
      rw [binary_of_integers _ hk hx hy, BinaryOp.onInt,
        read_ofInt_integer_ne_zero (Nat.le_trans hleft hrank) hx,
        read_ofInt_integer_ne_zero (Nat.le_trans hright hrank) hy, Except.map, giveBack_bool]
  | floats hp hx hy =>
    rw [hp] at hleft hright
    refine ⟨_, _, toBool_of_toFloat hleft hx, toBool_of_toFloat hright hy, ?_, ?_⟩
    all_goals
      rw [binary_of_floats _ hp hx hy]
      rfl

theorem unary_not {s : Bool} (ha : a.IsScalar) (h : a.toBool = .ok s) :
    unary .not a = .ok (.bool !s) := by
  cases a with
  | unset => exact absurd rfl ha.1
  | pointer => exact absurd rfl ha.2
  | _ => exact congrArg (Except.map fun b => bool !b) h

theorem connectives_bool (s t : Bool) :
    binary .and (bool s) (bool t) = .ok (.bool (s && t)) ∧
      binary .or (bool s) (bool t) = .ok (.bool (s || t)) := by
  cases s <;> cases t <;> exact ⟨rfl, rfl⟩

/-- **Logical operators look at truth values alone**, those of the operands as they are, and De
Morgan's laws hold of them. -/
theorem logical_operators (ha : a.IsScalar) (hb : b.IsScalar) :
    (∃ s t, a.toBool = .ok s ∧ b.toBool = .ok t ∧ binary .and a b = .ok (.bool (s && t)) ∧
      binary .or a b = .ok (.bool (s || t)) ∧ unary .not a = .ok (.bool !s)) ∧
    (binary .and a b >>= unary .not) =
      (do binary .or (← unary .not a) (← unary .not b)) ∧
    (binary .or a b >>= unary .not) =
      (do binary .and (← unary .not a) (← unary .not b)) := by
  obtain ⟨s, t, hs, ht, hand, hor⟩ := exists_truth ha hb
  refine ⟨⟨s, t, hs, ht, hand, hor, unary_not ha hs⟩, ?_, ?_⟩
  · rw [hand, unary_not ha hs, unary_not hb ht]
    show _ = binary .or (bool !s) (bool !t)
    rw [(connectives_bool _ _).2, ← Bool.not_and]
    rfl
  · rw [hor, unary_not ha hs, unary_not hb ht]
    show _ = binary .and (bool !s) (bool !t)
    rw [(connectives_bool _ _).1, ← Bool.not_or]
    rfl

/-- What is no number is true, also as the operand of a connective. -/
theorem logical_operators_nan :
    let a : Value := .float .single .nan
    let b : Value := .bool false
    a.IsScalar ∧ b.IsScalar ∧ binary .and a b = .ok (.bool false) ∧
      binary .or a b = .ok (.bool true) ∧ unary .not a = .ok (.bool false) := by
  intro a b
  have ha : a.IsScalar := ⟨nofun, nofun⟩
  have hb : b.IsScalar := ⟨nofun, nofun⟩
  obtain ⟨⟨s, t, hs, ht, hand, hor, hnot⟩, -⟩ := logical_operators ha hb
  obtain rfl : true = s := Except.ok.inj hs
  obtain rfl : false = t := Except.ok.inj ht
  exact ⟨ha, hb, hand, hor, hnot⟩

end Value

end KernelFront
