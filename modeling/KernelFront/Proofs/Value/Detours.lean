import KernelFront.Proofs.Value.Integers

/-!
# Casts by way of other types

A value that is no float is stored in the pattern of some integer kind (`Value.stored?`). Every cast
extends that pattern to a word, by the sign if the kind has one, and cuts the word to the width of its
target (`IntKind.setWidth_extend`): the two steps together reduce the number that the pattern stands
for. `integer_casts_compose` draws the consequences: a detour does not show if its width is no less
than that of the target, and it can be undone if its width is no less than that of the value.
-/

namespace KernelFront

open scoped Numeral

namespace IntKind

variable {j k : IntKind}

/-- Widths are whole bytes. -/
theorem eight_mul_bits_div (k : IntKind) : 8 * (k.bits / 8) = k.bits := by
  rcases k with ⟨_ | _, _ | _ | _ | _⟩ <;> rfl

theorem extend_eq_ofInt (x : BitVec k.bits) : k.extend x = BitVec.ofInt 64 (k.read x) := by
  unfold extend read
  split
  · rfl
  · rw [BitVec.ofInt_natCast, BitVec.ofNat_toNat]

/-- Extending and cutting is one reduction. -/
theorem setWidth_extend (x : BitVec j.bits) :
    (j.extend x).setWidth k.bits = BitVec.ofInt k.bits (j.read x) := by
  rw [extend_eq_ofInt, setWidth_ofInt k.bits_le]

theorem extend_eq_zero_iff {x : BitVec k.bits} : k.extend x = 0 ↔ k.read x = 0 := by
  rw [extend_eq_ofInt]
  exact ofInt_read_eq_zero_iff (k := .uint64) k.bits_le

end IntKind

namespace Value

section

variable {v : Value} {k : IntKind} {y : BitVec k.bits}

theorem integer?_eq (v : Value) : v.integer? = v.stored?.map fun p => p.1.read p.2 := by
  cases v with
  | bool b => cases b <;> rfl
  | _ => rfl

theorem integer_of_stored (h : v.stored? = some ⟨k, y⟩) : v.integer? = some (k.read y) := by
  rw [integer?_eq, h]
  rfl

/-- A value is as wide as the pattern that it is stored in. -/
theorem size_of_stored (h : v.stored? = some ⟨k, y⟩) : v.size = .ok (k.bits / 8) := by
  cases v with
  | unset | float => cases h
  | bool | int | pointer =>
    cases h
    rfl

/-- Every cast starts from the pattern as a word. -/
theorem casts_of_stored (h : v.stored? = some ⟨k, y⟩) :
    v.toBool = .ok (k.extend y != 0) ∧
      ∀ j : IntKind, v.toInt j = .ok ((k.extend y).setWidth j.bits) := by
  have hint := integer_of_stored h
  refine ⟨?_, fun j => ?_⟩
  · rw [toBool_of_integer hint, Except.ok.injEq, Bool.eq_iff_iff, bne_iff_ne, bne_iff_ne]
    exact not_congr IntKind.extend_eq_zero_iff.symm
  · rw [toInt_of_integer j hint, IntKind.setWidth_extend]

/-- The cast of `w` to the native type of another value gives the payload of that. An address has the
type of a word without a sign. -/
def CastsBackTo (w : Value) : Value → Prop
  | unset | float .. => False
  | bool b => w.toBool = .ok b
  | int k x => w.toInt k = .ok x
  | pointer a => w.toInt .uint64 = .ok a

/-- A kind that is no narrower keeps the truth value, and with it or the pattern the payload. -/
theorem castsBackTo_of_stored {j : IntKind} (h : v.stored? = some ⟨k, y⟩) (hj : k.bits ≤ j.bits) :
    (ofInt j (k.read y)).CastsBackTo v ∧ (ofInt j (k.read y)).toBool = v.toBool := by
  have htruth : (ofInt j (k.read y)).toBool = v.toBool := by
    rw [toBool_of_integer (integer_of_stored h),
      ← IntKind.read_ofInt_ne_zero (IntKind.ofInt_read_eq_zero_iff hj)]
    rfl
  have hback : (ofInt j (k.read y)).toInt k = .ok y := by
    rw [toInt_ofInt hj, IntKind.ofInt_read]
  refine ⟨?_, htruth⟩
  -- A truth value comes back through the test against zero, everything else through the cast.
  cases v with
  | unset | float => cases h
  | bool b => exact htruth
  | int | pointer =>
    cases h
    exact hback

end

/-! ## Main result -/

/-- **Casts between integers reduce, and detours cancel.** A cast extends the pattern of the value to a
word and cuts it to the width of the target, which gives the one number in the range of the target that
is congruent to the number of the value. A detour over a kind that is no narrower than the target does
not show. From a kind that is no narrower than the value the payload comes back, and on the way there
the truth value is that of the value. -/
theorem integer_casts_compose {v : Value} {x : Int} (hx : v.integer? = some x) :
    (∃ j y, v.stored? = some ⟨j, y⟩ ∧ v.toBool = .ok (j.extend y != 0) ∧
      ∀ k : IntKind, v.toInt k = .ok ((j.extend y).setWidth k.bits)) ∧
    (∀ k : IntKind, ∃ r, v.toInt k = .ok r ∧ ∀ n, k.Represents x n ↔ n = k.read r) ∧
    (∀ j k : IntKind, k.bits ≤ j.bits →
      (v.toInt j >>= fun r => (int j r).toInt k) = v.toInt k) ∧
    ∃ size, v.size = .ok size ∧ ∀ j : IntKind, 8 * size ≤ j.bits →
      ∃ r, v.toInt j = .ok r ∧ (int j r).CastsBackTo v ∧ (int j r).toBool = v.toBool := by
  obtain ⟨⟨i, y⟩, hstored, rfl⟩ := Option.map_eq_some_iff.1 ((integer?_eq v).symm.trans hx)
  refine ⟨⟨i, y, hstored, casts_of_stored hstored⟩, fun k => ?_, fun j k hk => ?_,
    i.bits / 8, size_of_stored hstored, fun j hj => ?_⟩
  · exact ⟨_, toInt_of_integer k hx, fun n => IntKind.represents_iff⟩
  · rw [toInt_of_integer j hx, toInt_of_integer k hx]
    exact toInt_ofInt hk _
  · have hi : i.bits ≤ j.bits := by
      rwa [i.eight_mul_bits_div] at hj
    exact ⟨_, toInt_of_integer j hx, castsBackTo_of_stored hstored hi⟩

/-- Minus one becomes the greatest word; from there a narrower kind gets what it gets directly, and the
value comes back. -/
theorem integer_casts_compose_minus_one :
    let v : Value := ofInt .int8 (-1)
    v.integer? = some (-1) ∧
      (∃ r, v.toInt .uint64 = .ok r ∧ ∀ n, IntKind.uint64.Represents (-1) n ↔ n = 2 ^ 64 - 1) ∧
      (v.toInt .uint64 >>= fun r => (int .uint64 r).toInt .int16) = v.toInt .int16 ∧
      ∃ r, v.toInt .uint64 = .ok r ∧ (int .uint64 r).CastsBackTo v ∧
        (int .uint64 r).toBool = .ok true := by
  intro v
  have hx : v.integer? = some (-1) := by decide
  obtain ⟨-, hreduce, hdetour, size, hsize, hback⟩ := integer_casts_compose hx
  obtain rfl : size = 1 := (Except.ok.inj hsize).symm
  refine ⟨hx, ?_, hdetour .uint64 .int16 (by decide), hback .uint64 (by decide)⟩
  obtain ⟨r, hr, hrange⟩ := hreduce .uint64
  obtain rfl := Except.ok.inj hr
  exact ⟨_, rfl, hrange⟩

end Value

end KernelFront
