import KernelFront.Proofs.Value.Integers
import KernelFront.Proofs.Value.Symmetry

/-!
# Comparisons

`comparisons_coherent`: the six comparisons are those of one order. Less is greater the other way
round, unequal is the negation of equal, and on integers exactly one of less, equal and greater holds.

A comparison looks at the operands after the cast to the promoted kind (`binary_relation`). A cast to a
signed kind keeps every operand, because all kinds that come before a signed kind in the promotion
order, the unsigned ones included, lie in its range; a cast to an unsigned kind keeps what is not
negative (`integer_mem_range`). There the comparison is that of the operands themselves.
-/

namespace KernelFront

/-! ## Ranges -/

namespace Kind

/-- The greatest integer grows with the promotion order. -/
theorem max_le_of_rank_le {j k : IntKind} (h : (int j).rank ≤ (int k).rank) : j.max ≤ k.max := by
  revert h
  rcases j with ⟨_ | _, _ | _ | _ | _⟩ <;> rcases k with ⟨_ | _, _ | _ | _ | _⟩ <;> decide

/-- A signed kind has the least integer of all kinds up to it. -/
theorem min_le_of_rank_le {j k : IntKind} (h : (int j).rank ≤ (int k).rank) (hk : k.signed) :
    k.min ≤ j.min := by
  revert h hk
  rcases j with ⟨_ | _, _ | _ | _ | _⟩ <;> rcases k with ⟨_ | _, _ | _ | _ | _⟩ <;> decide

end Kind

namespace IntKind

theorem min_nonpos (k : IntKind) : k.min ≤ 0 := by
  rcases k with ⟨_ | _, _ | _ | _ | _⟩ <;> decide

theorem one_le_max (k : IntKind) : 1 ≤ k.max := by
  rcases k with ⟨_ | _, _ | _ | _ | _⟩ <;> decide

end IntKind

/-- An operand lies in the range of a signed kind that comes later in the order, and in that of an
unsigned one if it is not negative. -/
theorem Value.integer_mem_range {k : IntKind} {v : Value} {x : Int}
    (h : v.kind.rank ≤ (Kind.int k).rank) (hx : v.integer? = some x) (hs : k.signed ∨ 0 ≤ x) :
    k.min ≤ x ∧ x ≤ k.max := by
  rcases bool_or_int h (ne_unset_of_integer hx) with ⟨b, rfl⟩ | ⟨j, y, rfl⟩
  · obtain rfl := Option.some.inj hx
    have hzero : (0 : Int) ≤ 1 := by decide
    cases b with
    | false => exact ⟨k.min_nonpos, Int.le_trans hzero k.one_le_max⟩
    | true => exact ⟨Int.le_trans k.min_nonpos hzero, k.one_le_max⟩
  · obtain rfl := Option.some.inj hx
    obtain ⟨hmin, hmax⟩ := IntKind.read_mem_range y
    refine ⟨?_, Int.le_trans hmax (Kind.max_le_of_rank_le h)⟩
    rcases hs with hs | hs
    · exact Int.le_trans (Kind.min_le_of_rank_le h hs) hmin
    · exact Int.le_trans k.min_nonpos hs

/-! ## Relations -/

namespace BinaryOp

/-- The relation of integers that a comparison decides. -/
def relation? : BinaryOp → Option (Int → Int → Bool)
  | lt => some fun x y => x < y
  | le => some fun x y => x ≤ y
  | eq => some fun x y => x == y
  | ne => some fun x y => x != y
  | ge => some fun x y => x ≥ y
  | gt => some fun x y => x > y
  | _ => none

theorem onInt_relation {op : BinaryOp} {rel : Int → Int → Bool} (h : op.relation? = some rel)
    {k : IntKind} (x y : BitVec k.bits) :
    op.onInt k x y = .ok (.bool (rel (k.read x) (k.read y))) := by
  cases op <;> cases h <;> rfl

end BinaryOp

namespace Value

variable {a b : Value} {k : IntKind} {x y : Int}

/-- A comparison of integers is that of the cast operands; a truth value needs no turning back. -/
theorem binary_relation {op : BinaryOp} {rel : Int → Int → Bool} (h : op.relation? = some rel)
    (hk : (Kind.promote a.kind b.kind).computesIn? = some k) (ha : a.integer? = some x)
    (hb : b.integer? = some y) :
    binary op a b = .ok (.bool
      (rel (k.read (BitVec.ofInt k.bits x)) (k.read (BitVec.ofInt k.bits y)))) := by
  rw [binary_of_integers op hk ha hb, BinaryOp.onInt_relation h, Except.map, giveBack_bool]

/-- Where the cast keeps both operands, a comparison is that of the operands themselves. -/
theorem binary_relation_of_kept {op : BinaryOp} {rel : Int → Int → Bool}
    (h : op.relation? = some rel) (hk : (Kind.promote a.kind b.kind).computesIn? = some k)
    (ha : a.integer? = some x) (hb : b.integer? = some y) (hs : k.signed ∨ 0 ≤ x ∧ 0 ≤ y) :
    binary op a b = .ok (.bool (rel x y)) := by
  have hrank := Kind.rank_le_of_computesIn hk
  obtain ⟨hxmin, hxmax⟩ := integer_mem_range (Nat.le_trans (Kind.rank_le_promote_left ..) hrank) ha
    (hs.imp_right And.left)
  obtain ⟨hymin, hymax⟩ := integer_mem_range (Nat.le_trans (Kind.rank_le_promote_right ..) hrank) hb
    (hs.imp_right And.right)
  rw [binary_relation h hk ha hb, IntKind.read_ofInt_of_mem_range hxmin hxmax,
    IntKind.read_ofInt_of_mem_range hymin hymax]

variable (a b) in
/-- Unequal is the negation of equal, on integers and on floats. -/
theorem binary_eq_iff_ne (t : Bool) :
    binary .eq a b = .ok (.bool t) ↔ binary .ne a b = .ok (.bool !t) := by
  cases operands a b with
  | none hnone => simp [binary_of_no_operators hnone]
  | missing hset hptr hmissing => simp [binary_of_missing hset hptr hmissing]
  | integers hk ha hb =>
    rw [binary_relation rfl hk ha hb, binary_relation rfl hk ha hb]
    simp [bne]
  | floats hp hx hy =>
    rw [binary_of_floats _ hp hx hy, binary_of_floats _ hp hx hy]
    simp [BinaryOp.onFloat]

/-- On integers exactly one of less, equal and greater holds, and the other comparisons follow. -/
theorem binary_trichotomy (hk : (Kind.promote a.kind b.kind).computesIn? = some k)
    (ha : a.integer? = some x) (hb : b.integer? = some y) :
    ∃ l e g, binary .lt a b = .ok (.bool l) ∧ binary .eq a b = .ok (.bool e) ∧
      binary .gt a b = .ok (.bool g) ∧ [l, e, g].count true = 1 ∧
      binary .le a b = .ok (.bool (l || e)) ∧ binary .ge a b = .ok (.bool !l) := by
  refine ⟨_, _, _, binary_relation rfl hk ha hb, binary_relation rfl hk ha hb,
    binary_relation rfl hk ha hb, ?_⟩
  rw [binary_relation rfl hk ha hb, binary_relation rfl hk ha hb]
  generalize k.read (BitVec.ofInt k.bits x) = m, k.read (BitVec.ofInt k.bits y) = n
  have hle : decide (m ≤ n) = (decide (m < n) || m == n) := by
    rw [Bool.eq_iff_iff]
    simp [Int.le_iff_lt_or_eq]
  have hge : decide (m ≥ n) = !decide (m < n) := by
    rw [Bool.eq_iff_iff]
    simp
  refine ⟨?_, by rw [hle], by rw [hge]⟩
  rcases Int.lt_trichotomy m n with h | rfl | h
  · simp [h, Int.ne_of_lt h, Int.lt_asymm h]
  · simp
  · simp [h, Int.ne_of_gt h, Int.lt_asymm h]

/-- **Comparisons are coherent.** Whatever the operands, less and less-or-equal are greater and
greater-or-equal with the operands exchanged, and unequal is the negation of equal. Where both operands
stand for integers and none is missing, exactly one of less, equal and greater holds, and at a signed
kind or between operands that are not negative all six comparisons are those of the operands. -/
theorem comparisons_coherent (a b : Value) :
    binary .lt a b = binary .gt b a ∧ binary .le a b = binary .ge b a ∧
    (∀ t, binary .eq a b = .ok (.bool t) ↔ binary .ne a b = .ok (.bool !t)) ∧
    (Kind.promote a.kind b.kind = .bool ∨ (Kind.promote a.kind b.kind).isInteger →
      a ≠ .unset → b ≠ .unset →
      (∃ l e g, binary .lt a b = .ok (.bool l) ∧ binary .eq a b = .ok (.bool e) ∧
        binary .gt a b = .ok (.bool g) ∧ [l, e, g].count true = 1 ∧
        binary .le a b = .ok (.bool (l || e)) ∧ binary .ge a b = .ok (.bool !l)) ∧
      ∃ x y, a.integer? = some x ∧ b.integer? = some y ∧
        ((Kind.promote a.kind b.kind).isSigned ∨ 0 ≤ x ∧ 0 ≤ y →
          ∀ op rel, BinaryOp.relation? op = some rel → binary op a b = .ok (.bool (rel x y)))) := by
  refine ⟨binary_mirror rfl a b, binary_mirror rfl a b, binary_eq_iff_ne a b, fun hP ha hb => ?_⟩
  obtain ⟨k, hk⟩ := Kind.exists_computesIn hP
  obtain ⟨x, y, hx, hy⟩ := operands_of_computesIn hk ha hb
  refine ⟨binary_trichotomy hk hx hy, x, y, hx, hy, fun hs op rel hrel => ?_⟩
  exact binary_relation_of_kept hrel hk hx hy (hs.imp_left (Kind.signed_of_computesIn hk))

/-- The greatest `uint32` is more than minus one: the signed kind that comes after it holds both. -/
theorem comparisons_coherent_mixed :
    let a : Value := .ofInt .uint32 4294967295
    let b : Value := .ofInt .int64 (-1)
    (Kind.promote a.kind b.kind).isInteger ∧ (Kind.promote a.kind b.kind).isSigned ∧
      a ≠ .unset ∧ b ≠ .unset ∧ binary .gt a b = .ok (.bool true) ∧
      binary .lt b a = .ok (.bool true) ∧ binary .ne a b = .ok (.bool true) := by
  intro a b
  obtain ⟨-, -, -, h⟩ := comparisons_coherent a b
  obtain ⟨x, y, hx, hy, hrel⟩ := (h (.inr rfl) nofun nofun).2
  obtain rfl : (4294967295 : Int) = x := Option.some.inj hx
  obtain rfl : (-1 : Int) = y := Option.some.inj hy
  have hsigned := hrel (.inl rfl)
  refine ⟨rfl, rfl, nofun, nofun, hsigned .gt _ rfl, ?_, hsigned .ne _ rfl⟩
  rw [(comparisons_coherent b a).1]
  exact hsigned .gt _ rfl

end Value

end KernelFront
