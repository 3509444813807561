import KernelFront.Proofs.Value.Casts
import KernelFront.Value.Arithmetic

/-!
# The outcomes of binary operators

`binary_outcome` says when a binary operator fails, with which error, and of which kind its result
is. The order of the faults shows: a missing operand counts before a float that the operator does not
have, and that before a division by zero. The operator tests the divisor after the cast to the
promoted kind, but that kind is never narrower than the divisor's own (`Kind.bits_le_of_rank_le`), so
it is the divisor itself that counts (`ofInt_integer_eq_zero_iff`). What holds of an operator on all
values is proved along the four things that it can find (`Operands`).
-/

namespace KernelFront

/-! ## Kinds -/

namespace Kind

theorem promote_eq_or (a b : Kind) : promote a b = a ∨ promote a b = b := by
  unfold promote
  split
  · exact .inl rfl
  · exact .inr rfl

theorem promote_self (a : Kind) : promote a a = a := rank_injective (by rw [rank_promote, Nat.max_self])

theorem rank_le_promote_left (a b : Kind) : a.rank ≤ (promote a b).rank := by
  rw [rank_promote]
  exact Nat.le_max_left ..

theorem rank_le_promote_right (a b : Kind) : b.rank ≤ (promote a b).rank := by
  rw [rank_promote]
  exact Nat.le_max_right ..

/-- The promotion order never goes from an integer kind to a narrower one. -/
theorem bits_le_of_rank_le {j k : IntKind} (h : (int j).rank ≤ (int k).rank) : j.bits ≤ k.bits := by
  revert h
  rcases j with ⟨_ | _, _ | _ | _ | _⟩ <;> rcases k with ⟨_ | _, _ | _ | _ | _⟩ <;> decide

/-- Floats and addresses come after all integer kinds. -/
theorem rank_int_lt (k : IntKind) : (int k).rank < (float .single).rank := by
  rcases k with ⟨_ | _, _ | _ | _ | _⟩ <;> decide

theorem rank_bool_lt_int (k : IntKind) : bool.rank < (int k).rank :=
  Nat.lt_of_lt_of_le (by decide) (Nat.le_add_right 2 k.rank)

/-- The integer kind that a kind computes in. -/
def computesIn? : Kind → Option IntKind
  | bool => some .int32
  | int k => some k
  | _ => none

theorem rank_le_of_computesIn {kind : Kind} {k : IntKind} (h : kind.computesIn? = some k) :
    kind.rank ≤ (int k).rank := by
  cases kind with
  | bool => exact Nat.le_of_lt (rank_bool_lt_int k)
  | int j =>
    obtain rfl := Option.some.inj h
    exact Nat.le_refl _
  | _ => cases h

theorem isFloat_of_computesIn {kind : Kind} {k : IntKind} (h : kind.computesIn? = some k) :
    kind.isFloat = false := by
  cases kind <;> first | rfl | cases h

/-- Truth values and integers compute with integers. -/
theorem exists_computesIn {kind : Kind} (h : kind = .bool ∨ kind.isInteger) :
    ∃ k, kind.computesIn? = some k := by
  cases kind with
  | bool => exact ⟨_, rfl⟩
  | int k => exact ⟨k, rfl⟩
  | _ => rcases h with h | h <;> cases h

theorem signed_of_computesIn {kind : Kind} {k : IntKind} (hk : kind.computesIn? = some k)
    (h : kind.isSigned) : k.signed := by
  cases kind with
  | int j =>
    obtain rfl := Option.some.inj hk
    exact h
  | _ => cases h

/-- A kind that has operators computes in an integer kind or is a float kind. -/
theorem computesIn_or_float {kind : Kind} (hset : kind ≠ .unset) (hptr : kind ≠ .pointer) :
    (∃ k, kind.computesIn? = some k) ∨ ∃ p, kind = .float p := by
  cases kind with
  | unset => exact absurd rfl hset
  | pointer => exact absurd rfl hptr
  | bool => exact .inl ⟨_, rfl⟩
  | int k => exact .inl ⟨k, rfl⟩
  | float p => exact .inr ⟨p, rfl⟩

end Kind

namespace Value

/-! ## Operands -/

/-- The integer that a value stands for; the truth values are 0 and 1. -/
def integer? : Value → Option Int
  | unset | float .. => none
  | bool b => some b.toNat
  | int k x => some (k.read x)
  | pointer a => some a.toNat

/-- A truth value or a number. -/
def IsScalar (v : Value) : Prop := v.kind ≠ .unset ∧ v.kind ≠ .pointer

theorem IsScalar.ne_unset {v : Value} (h : v.IsScalar) : v ≠ .unset := fun e => h.1 (congrArg kind e)

theorem IsScalar.promote {a b : Value} (ha : a.IsScalar) (hb : b.IsScalar) :
    Kind.promote a.kind b.kind ≠ .unset ∧ Kind.promote a.kind b.kind ≠ .pointer := by
  rcases Kind.promote_eq_or a.kind b.kind with h | h <;> rw [h]
  · exact ha
  · exact hb

theorem exists_toFloat (p : Precision) {v : Value} (h : v ≠ .unset) :
    ∃ x, v.toFloat p = .ok x := by
  cases v with
  | unset => exact absurd rfl h
  | _ => exact ⟨_, rfl⟩

theorem ne_unset_of_toFloat {p : Precision} {v : Value} {x : Binary p.format}
    (h : v.toFloat p = .ok x) : v ≠ .unset := by
  rintro rfl
  cases h

section

variable {k : IntKind} {v : Value} {x : Int}

theorem ne_unset_of_integer (h : v.integer? = some x) : v ≠ .unset := by
  rintro rfl
  cases h

theorem toInt_of_integer (k : IntKind) (h : v.integer? = some x) :
    v.toInt k = .ok (BitVec.ofInt k.bits x) := by
  cases v with
  | unset | float => cases h
  | bool | int | pointer =>
    obtain rfl := Option.some.inj h
    rfl

theorem toBool_of_integer (hx : v.integer? = some x) : v.toBool = .ok (x != 0) := by
  cases v with
  | unset | float => cases hx
  | bool b =>
    obtain rfl := Option.some.inj hx
    cases b <;> rfl
  | int j y =>
    obtain rfl := Option.some.inj hx
    rfl
  | pointer a =>
    obtain rfl := Option.some.inj hx
    rw [toBool, Except.ok.injEq, Bool.eq_iff_iff]
    simp

/-- What comes no later than an integer kind is a truth value or an integer. -/
theorem bool_or_int (h : v.kind.rank ≤ (Kind.int k).rank) (hv : v ≠ .unset) :
    (∃ b, v = .bool b) ∨ ∃ j y, v = .int j y := by
  have hfloat := Kind.rank_int_lt k
  cases v with
  | unset => exact absurd rfl hv
  | bool b => exact .inl ⟨b, rfl⟩
  | int j y => exact .inr ⟨j, y, rfl⟩
  | float p _ =>
    have hp : (Kind.float .single).rank ≤ (Kind.float p).rank := by cases p <;> decide
    exact absurd h (Nat.not_le.2 (Nat.lt_of_lt_of_le hfloat hp))
  | pointer =>
    have hptr : (Kind.float .single).rank < Kind.pointer.rank := by decide
    exact absurd h (Nat.not_le.2 (Nat.lt_trans hfloat hptr))

theorem exists_integer (h : v.kind.rank ≤ (Kind.int k).rank) (hv : v ≠ .unset) :
    ∃ x, v.integer? = some x := by
  rcases bool_or_int h hv with ⟨b, rfl⟩ | ⟨j, y, rfl⟩
  · exact ⟨_, rfl⟩
  · exact ⟨_, rfl⟩

/-- The cast to a kind that comes later in the order takes nothing to zero but zero. -/
theorem ofInt_integer_eq_zero_iff (h : v.kind.rank ≤ (Kind.int k).rank)
    (hx : v.integer? = some x) : BitVec.ofInt k.bits x = 0 ↔ x = 0 := by
  rcases bool_or_int h (ne_unset_of_integer hx) with ⟨b, rfl⟩ | ⟨j, y, rfl⟩
  · obtain rfl := Option.some.inj hx
    rcases k with ⟨_ | _, _ | _ | _ | _⟩ <;> cases b <;> decide
  · obtain rfl := Option.some.inj hx
    exact IntKind.ofInt_read_eq_zero_iff (Kind.bits_le_of_rank_le h)

end

end Value

/-! ## Operators at one kind -/

namespace BinaryOp

variable {op : BinaryOp}

/-- The operators that do not admit a zero on the right. -/
def isDivision : BinaryOp → Bool
  | div | mod => true
  | _ => false

/-- The kind of the results of an operator at a kind. -/
def resultKind (op : BinaryOp) (kind : Kind) : Kind := if op.isRelational then .bool else kind

theorem onInt_zero (h : op.isDivision) {k : IntKind} (x : BitVec k.bits) :
    op.onInt k x 0 = .error (.divisionByZero op.symbol) := by
  cases op <;> first | rfl | cases h

variable (op) in
theorem exists_onInt {k : IntKind} (x : BitVec k.bits) {y : BitVec k.bits}
    (h : op.isDivision → y ≠ 0) :
    ∃ v, op.onInt k x y = .ok v ∧ v.kind = op.resultKind (.int k) := by
  cases op with
  | div => exact ⟨_, if_neg (h rfl), rfl⟩
  | mod => exact ⟨_, if_neg (h rfl), rfl⟩
  | _ => exact ⟨_, rfl, rfl⟩

theorem onFloat_integral (h : op.isIntegral) {p : Precision} (x y : Binary p.format) :
    op.onFloat p x y = .error (.floatOperand op.symbol (.float p)) := by
  cases op <;> first | rfl | cases h

variable (op) in
theorem exists_onFloat (h : op.isIntegral = false) {p : Precision} (x y : Binary p.format) :
    ∃ v, op.onFloat p x y = .ok v ∧ v.kind = op.resultKind (.float p) := by
  cases op <;> first | exact ⟨_, rfl, rfl⟩ | cases h

/-- The error of an operator at a kind, if there is one: `a` and `b` are the operands as they were
before the cast. -/
def fault? (op : BinaryOp) (kind : Kind) (a b : Value) : Option ValueError :=
  if a = .unset ∨ b = .unset then some .notSet
  else if kind.isFloat then
    if op.isIntegral then some (.floatOperand op.symbol kind) else none
  else if op.isDivision ∧ b.integer? = some 0 then some (.divisionByZero op.symbol)
  else none

end BinaryOp

namespace Value

/-! ## Operators at the promoted kind -/

/-- A result in the integer kind that a kind computes in, as a value of that kind. -/
def giveBack (kind : Kind) (v : Value) : Value := if kind = .bool then v.collapse else v

/-- A truth value is a value of every kind that it is given back to. -/
theorem giveBack_bool (kind : Kind) (b : Bool) : (bool b).giveBack kind = .bool b := by
  unfold giveBack
  split <;> rfl

theorem kind_giveBack {op : BinaryOp} {kind : Kind} {k : IntKind} {v : Value}
    (hk : kind.computesIn? = some k) (hv : v.kind = op.resultKind (.int k)) :
    (v.giveBack kind).kind = op.resultKind kind := by
  unfold BinaryOp.resultKind at hv ⊢
  cases kind with
  | bool =>
    rw [giveBack, if_pos rfl, ite_self]
    cases v with
    | bool | int => rfl
    | _ => split at hv <;> cases hv
  | int j =>
    obtain rfl := Option.some.inj hk
    exact hv
  | _ => cases hk

section

variable {op : BinaryOp} {a b : Value}

theorem binary_of_missing (hset : Kind.promote a.kind b.kind ≠ .unset)
    (hptr : Kind.promote a.kind b.kind ≠ .pointer) (h : a = .unset ∨ b = .unset) :
    binary op a b = .error .notSet := by
  unfold binary
  split
  · exact absurd ‹_› hset
  · exact absurd ‹_› hptr
  -- At each kind the operands are cast one after the other.
  all_goals rcases h with rfl | rfl
  all_goals first | rfl | (cases a <;> rfl)

theorem binary_of_no_operators
    (h : Kind.promote a.kind b.kind = .unset ∨ Kind.promote a.kind b.kind = .pointer) :
    binary op a b = .ok .unset := by
  unfold binary
  rcases h with h | h <;> rw [h]

variable (op) in
/-- On operands that stand for integers, the operator of the kind that the promoted kind computes in. -/
theorem binary_of_integers {k : IntKind} {x y : Int}
    (hk : (Kind.promote a.kind b.kind).computesIn? = some k) (ha : a.integer? = some x)
    (hb : b.integer? = some y) :
    binary op a b = (op.onInt k (BitVec.ofInt k.bits x) (BitVec.ofInt k.bits y)).map
      (giveBack (Kind.promote a.kind b.kind)) := by
  have hx := toInt_of_integer k ha
  have hy := toInt_of_integer k hb
  unfold binary
  cases hp : Kind.promote a.kind b.kind with
  | bool =>
    rw [hp] at hk
    obtain rfl := Option.some.inj hk
    simp only [hx, hy]
    rfl
  | int j =>
    rw [hp] at hk
    obtain rfl := Option.some.inj hk
    simp only [hx, hy]
    show op.onInt j _ _ = _
    cases op.onInt j _ _ <;> rfl
  | _ =>
    rw [hp] at hk
    cases hk

variable (op) in
/-- On operands cast to floats of the promoted kind, the operator of that kind. -/
theorem binary_of_floats {p : Precision} {x y : Binary p.format}
    (hp : Kind.promote a.kind b.kind = .float p) (hx : a.toFloat p = .ok x)
    (hy : b.toFloat p = .ok y) : binary op a b = op.onFloat p x y := by
  simp only [binary, hp, hx, hy]
  rfl

/-- What an operator finds: kinds that have no operators, a missing operand, two integers, or two
floats of the promoted kind. -/
inductive Operands (a b : Value) : Prop where
  | none (h : Kind.promote a.kind b.kind = .unset ∨ Kind.promote a.kind b.kind = .pointer)
  | missing (hset : Kind.promote a.kind b.kind ≠ .unset)
      (hptr : Kind.promote a.kind b.kind ≠ .pointer) (h : a = .unset ∨ b = .unset)
  | integers {k : IntKind} {x y : Int} (hk : (Kind.promote a.kind b.kind).computesIn? = some k)
      (ha : a.integer? = some x) (hb : b.integer? = some y)
  | floats {p : Precision} {x y : Binary p.format} (hp : Kind.promote a.kind b.kind = .float p)
      (hx : a.toFloat p = .ok x) (hy : b.toFloat p = .ok y)

theorem operands_of_computesIn {k : IntKind} (hk : (Kind.promote a.kind b.kind).computesIn? = some k)
    (ha : a ≠ .unset) (hb : b ≠ .unset) :
    ∃ x y, a.integer? = some x ∧ b.integer? = some y := by
  have hrank := Kind.rank_le_of_computesIn hk
  obtain ⟨x, hx⟩ := exists_integer (Nat.le_trans (Kind.rank_le_promote_left ..) hrank) ha
  obtain ⟨y, hy⟩ := exists_integer (Nat.le_trans (Kind.rank_le_promote_right ..) hrank) hb
  exact ⟨x, y, hx, hy⟩

theorem operands (a b : Value) : Operands a b := by
  by_cases hnone : Kind.promote a.kind b.kind = .unset ∨ Kind.promote a.kind b.kind = .pointer
  · exact .none hnone
  obtain ⟨hset, hptr⟩ := not_or.1 hnone
  by_cases hmissing : a = .unset ∨ b = .unset
  · exact .missing hset hptr hmissing
  obtain ⟨ha, hb⟩ := not_or.1 hmissing
  rcases Kind.computesIn_or_float hset hptr with ⟨k, hk⟩ | ⟨p, hp⟩
  · obtain ⟨x, y, hx, hy⟩ := operands_of_computesIn hk ha hb
    exact .integers hk hx hy
  · obtain ⟨x, hx⟩ := exists_toFloat p ha
    obtain ⟨y, hy⟩ := exists_toFloat p hb
    exact .floats hp hx hy

/-! ## Every outcome -/

theorem binary_of_fault {e : ValueError} (hset : Kind.promote a.kind b.kind ≠ .unset)
    (hptr : Kind.promote a.kind b.kind ≠ .pointer)
    (h : op.fault? (Kind.promote a.kind b.kind) a b = some e) : binary op a b = .error e := by
  unfold BinaryOp.fault? at h
  cases operands a b with
  | none hnone => exact absurd hnone (not_or.2 ⟨hset, hptr⟩)
  | missing _ _ hmissing =>
    obtain rfl : ValueError.notSet = e := by simpa [hmissing] using h
    exact binary_of_missing hset hptr hmissing
  | integers hk ha hb =>
    have hpresent := not_or.2 ⟨ne_unset_of_integer ha, ne_unset_of_integer hb⟩
    have hrank := Nat.le_trans (Kind.rank_le_promote_right ..) (Kind.rank_le_of_computesIn hk)
    simp only [hpresent, Kind.isFloat_of_computesIn hk, hb, Bool.false_eq_true, if_false,
      Option.ite_none_right_eq_some, Option.some.injEq] at h
    obtain ⟨⟨hop, hzero⟩, rfl⟩ := h
    rw [binary_of_integers op hk ha hb, (ofInt_integer_eq_zero_iff hrank hb).2 hzero,
      BinaryOp.onInt_zero hop]
    rfl
  | floats hp hx hy =>
    have hpresent := not_or.2 ⟨ne_unset_of_toFloat hx, ne_unset_of_toFloat hy⟩
    simp only [hpresent, hp, Kind.isFloat, if_true, if_false, Option.ite_none_right_eq_some,
      Option.some.injEq] at h
    obtain ⟨hop, rfl⟩ := h
    rw [binary_of_floats op hp hx hy, BinaryOp.onFloat_integral hop]

theorem exists_binary (hset : Kind.promote a.kind b.kind ≠ .unset)
    (hptr : Kind.promote a.kind b.kind ≠ .pointer)
    (h : op.fault? (Kind.promote a.kind b.kind) a b = none) :
    ∃ v, binary op a b = .ok v ∧ v.kind = op.resultKind (Kind.promote a.kind b.kind) := by
  unfold BinaryOp.fault? at h
  cases operands a b with
  | none hnone => exact absurd hnone (not_or.2 ⟨hset, hptr⟩)
  | missing _ _ hmissing => simp [hmissing] at h
  | integers hk ha hb =>
    have hpresent := not_or.2 ⟨ne_unset_of_integer ha, ne_unset_of_integer hb⟩
    have hrank := Nat.le_trans (Kind.rank_le_promote_right ..) (Kind.rank_le_of_computesIn hk)
    simp only [hpresent, Kind.isFloat_of_computesIn hk, hb, Bool.false_eq_true, if_false,
      ite_eq_right_iff, reduceCtorEq, imp_false, not_and, Option.some.injEq] at h
    obtain ⟨v, hv, hkind⟩ :=
      op.exists_onInt _ fun hop => mt (ofInt_integer_eq_zero_iff hrank hb).1 (h hop)
    exact ⟨_, by rw [binary_of_integers op hk ha hb, hv]; rfl, kind_giveBack hk hkind⟩
  | floats hp hx hy =>
    have hpresent := not_or.2 ⟨ne_unset_of_toFloat hx, ne_unset_of_toFloat hy⟩
    simp only [hpresent, hp, Kind.isFloat, if_true, if_false, ite_eq_right_iff, reduceCtorEq,
      imp_false] at h
    obtain ⟨v, hv, hkind⟩ := op.exists_onFloat (Bool.eq_false_iff.2 h) _ _
    exact ⟨v, by rw [binary_of_floats op hp hx hy, hv], by rw [hkind, hp]⟩

variable (op) in
theorem resultKind_ne {kind : Kind} (hset : kind ≠ .unset) (hptr : kind ≠ .pointer) :
    op.resultKind kind ≠ .unset ∧ op.resultKind kind ≠ .pointer := by
  unfold BinaryOp.resultKind
  split
  · exact ⟨nofun, nofun⟩
  · exact ⟨hset, hptr⟩

/-- What a binary operator answers, it answers for one of two reasons. -/
theorem binary_eq_ok {w : Value} (h : binary op a b = .ok w) :
    (w = .unset ∧ (Kind.promote a.kind b.kind = .unset ∨ Kind.promote a.kind b.kind = .pointer)) ∨
      (w.kind ≠ .unset ∧ w.kind ≠ .pointer ∧ w.kind = op.resultKind (Kind.promote a.kind b.kind)) := by
  by_cases hnone : Kind.promote a.kind b.kind = .unset ∨ Kind.promote a.kind b.kind = .pointer
  · rw [binary_of_no_operators hnone] at h
    exact .inl ⟨(Except.ok.inj h).symm, hnone⟩
  · obtain ⟨hset, hptr⟩ := not_or.1 hnone
    cases hf : op.fault? (Kind.promote a.kind b.kind) a b with
    | some e => rw [binary_of_fault hset hptr hf] at h; cases h
    | none =>
      obtain ⟨v, hv, hk⟩ := exists_binary hset hptr hf
      obtain rfl := Except.ok.inj (hv.symm.trans h)
      have hne := resultKind_ne op hset hptr
      rw [← hk] at hne
      exact .inr ⟨hne.1, hne.2, hk⟩

/-- **The outcome of every binary operator on every pair of operands.** Kinds without operators give
nothing; else there is the fault that comes first, or a value of the promoted kind, or a truth value
where the operator compares or connects. -/
theorem binary_outcome (op : BinaryOp) (a b : Value) :
    if Kind.promote a.kind b.kind = .unset ∨ Kind.promote a.kind b.kind = .pointer then
      binary op a b = .ok .unset
    else
      match op.fault? (Kind.promote a.kind b.kind) a b with
      | some e => binary op a b = .error e
      | none => ∃ v, binary op a b = .ok v ∧ v.kind ≠ .unset ∧ v.kind ≠ .pointer ∧
          v.kind = if op.isRelational then .bool else Kind.promote a.kind b.kind := by
  split
  · exact binary_of_no_operators ‹_›
  · rename_i hkind
    obtain ⟨hset, hptr⟩ := not_or.1 hkind
    split
    · exact binary_of_fault hset hptr ‹_›
    · obtain ⟨v, hv, hk⟩ := exists_binary hset hptr ‹_›
      have hne := resultKind_ne op hset hptr
      rw [← hk] at hne
      exact ⟨v, hv, hne.1, hne.2, hk⟩

end

end Value

end KernelFront
