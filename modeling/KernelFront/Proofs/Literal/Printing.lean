import KernelFront.Proofs.Literal.Radices
import KernelFront.Proofs.Value.Casts
import KernelFront.Value.Text

/-!
# Printed values read back

`printed_reads_back`: the text of a truth value, an integer or an address is one literal, and the
cast of what it denotes to the type of the printed value is that value. The reader does not choose
the printed kind again: it goes by the `L` and, in an address, by the count of digits. This is enough
because a cast looks at a number modulo the width of its target (`IntKind.ofInt_read_ofInt`), and the
kind that is read is never too narrow (`IntKind.bits_le_of_literal`, `toNat_lt_radixKind_hex`).
-/

namespace KernelFront

open scoped Numeral

/-- An integer without an `L` is read with 32 bits, and no kind that is printed so has more. -/
theorem IntKind.bits_le_of_literal (k : IntKind) :
    k.bits ≤ (if k.width = .w64 then int64 else int32).bits := by
  rcases k with ⟨_ | _, _ | _ | _ | _⟩ <;> decide

/-! ## Digits -/

namespace Numeral

theorem isDigit_of_mem_toDigits {radix : Nat} (h1 : 1 < radix) (hr : radix ≤ 16) {n : Nat} {c : Char}
    (hc : c ∈ Nat.toDigits radix n) : isDigit radix c = true := by
  have hdigit {d : Nat} (hd : d < radix) : isDigit radix d.digitChar = true := by
    rw [isDigit, digit?_digitChar hr hd]
    rfl
  induction n using Nat.strongRecOn with
  | ind n ih =>
    by_cases hn : n < radix
    · rw [Nat.toDigits_of_lt_base hn, List.mem_singleton] at hc
      exact hc ▸ hdigit hn
    · rw [Nat.toDigits_of_base_le h1 (by omega), List.mem_append, List.mem_singleton] at hc
      rcases hc with hc | rfl
      · exact ih _ (Nat.div_lt_self (by omega) h1) hc
      · exact hdigit (Nat.mod_lt _ (by omega))

theorem value_decimal (n : Nat) : value 10 (decimal n) = n := value_toDigits (by decide) (by decide) n

theorem value_hex (n : Nat) : value 16 (hex n) = n := value_toDigits (by decide) (by decide) n

end Numeral

namespace Literal

theorem decimalDigit_of_mem_decimal {n : Nat} {c : Char} (hc : c ∈ Numeral.decimal n) :
    DecimalDigit c :=
  (isDigit_ten_iff c).1 (Numeral.isDigit_of_mem_toDigits (by decide) (by decide) hc)

theorem radixDigit_of_mem_hex {n : Nat} {c : Char} (hc : c ∈ Numeral.hex n) :
    RadixDigit .hexadecimal c :=
  (isDigit_iff_radixDigit .hexadecimal c).1
    (Numeral.isDigit_of_mem_toDigits (by decide) (by decide) hc)

/-! ## Integers -/

/-- The sign that a negative number is written with. -/
def minus (negative : Bool) : Sign := if negative then .given true [] else .absent

theorem isNegative_minus (negative : Bool) : (minus negative).isNegative = negative := by
  cases negative <;> rfl

theorem chars_minus (negative : Bool) : (minus negative).chars = floatSign negative := by
  cases negative <;> rfl

theorem allowed_minus (negative : Bool) : (minus negative).Allowed true := by
  cases negative with
  | true => exact ⟨rfl, nofun⟩
  | false => trivial

theorem integer_eq (z : Int) :
    Numeral.integer z = (minus (z < 0)).chars ++ Numeral.decimal z.natAbs := by
  unfold Numeral.integer minus
  simp only [decide_eq_true_eq]
  split <;> rfl

/-- An integer as a literal, with or without an `L`. -/
def ofInt (z : Int) (long : Bool) : Literal :=
  .plain ⟨minus (z < 0), Numeral.decimal z.natAbs, if long then ['L'] else []⟩

theorem integerText_decimal (n : Nat) (long : Bool) :
    IntegerText (Numeral.decimal n) (if long then ['L'] else []) [] where
  ne_nil := Nat.toDigits_ne_nil
  digit _ hc := decimalDigit_of_mem_decimal hc
  letter := List.all_iff_forall_prop.1 (by cases long <;> decide)
  ends := nofun
  lone_zero _ _ := nofun

theorem reads_ofInt (z : Int) (long : Bool) :
    Reads true (Numeral.integer z ++ if long then ['L'] else []) (ofInt z long) [] := by
  have h := (integerText_decimal z.natAbs long).reads (allowed_minus (z < 0))
  rwa [List.append_nil, ← List.append_assoc, ← integer_eq] at h

theorem value_ofInt (z : Int) (long : Bool) :
    (ofInt z long).value = .ofInt (if long then .int64 else .int32) z := by
  have h := integerText_decimal z.natAbs long
  have hz : (if z < 0 then -(z.natAbs : Int) else z.natAbs) = z := by
    split <;> omega
  have hkind : suffixKind (if long then ['L'] else []) = if long then .int64 else .int32 := by
    cases long <;> rfl
  rw [ofInt, value_plain h.digit h.letter]
  simp only [hkind, isNegative_minus, decide_eq_true_eq, Numeral.value_decimal, hz]

/-! ## Addresses -/

/-- A hexadecimal number as a literal. -/
def ofHex (n : Nat) : Literal := .radix .absent .hexadecimal false (Numeral.hex n)

theorem reads_ofHex (n : Nat) : Reads true (['0', 'x'] ++ Numeral.hex n) (ofHex n) [] := by
  have hsign : Signed true .absent (['0', 'x'] ++ Numeral.hex n) (['0', 'x'] ++ Numeral.hex n) := by
    refine .absent fun c hc => ?_
    cases hc
    decide
  have hrun : Run (RadixDigit .hexadecimal) (Numeral.hex n) [] :=
    ⟨fun c => radixDigit_of_mem_hex, nofun⟩
  refine .radix hsign ?_ Nat.toDigits_ne_nil hrun
  rw [List.append_nil]
  rfl

theorem value_ofHex (n : Nat) :
    (ofHex n).value = .ofInt (radixKind false ((Numeral.hex n).length * 4)) n := by
  show Value.ofInt (radixKind false ((Numeral.hex n).length * 4))
    ((Numeral.value 16 (Numeral.hex n) : Nat) : Int) = _
  rw [Numeral.value_hex]

/-- The width of a hexadecimal number goes by its digits: from eight of them on it is 64. -/
theorem radixKind_hex (digits : Nat) :
    radixKind false (digits * 4) = ⟨false, if digits < 2 then .w8 else if digits < 4 then .w16
      else if digits < 8 then .w32 else .w64⟩ := by
  have h8 : digits * 4 < 8 ↔ digits < 2 := by omega
  have h16 : digits * 4 < 16 ↔ digits < 4 := by omega
  have h32 : digits * 4 < 32 ↔ digits < 8 := by omega
  simp only [radixKind, h8, h16, h32]

/-- The kind of a hexadecimal number is wide enough for it, if 64 bits are. -/
theorem toNat_lt_radixKind_hex (a : BitVec 64) :
    a.toNat < 2 ^ (radixKind false ((Numeral.hex a.toNat).length * 4)).bits := by
  have hlt : a.toNat < 2 ^ ((Numeral.hex a.toNat).length * 4) := by
    rw [Nat.mul_comm, Nat.pow_mul]
    exact (Nat.length_toDigits_le_iff (by decide) Nat.length_toDigits_pos).1 (Nat.le_refl _)
  refine Nat.lt_of_lt_of_le ?_ (Nat.pow_le_pow_right (by decide) (le_bits_radixKind false _))
  rcases Nat.le_total ((Numeral.hex a.toNat).length * 4) 64 with h | h
  · rwa [Nat.min_eq_left h]
  · rw [Nat.min_eq_right h]
    exact a.isLt

end Literal

/-! ## Main result -/

namespace Value

theorem toList_text (v : Value) : v.text.toList = v.chars := String.toList_ofList

theorem read?_text_bool (b : Bool) : read? true (bool b).text.toList = some (bool b, []) := by
  have h : read? true (Literal.keywordChars b ++ []) = _ := read?_of_reads (.keyword b [])
  rw [toList_text]
  cases b <;> exact h

theorem read?_text_int (k : IntKind) (x : BitVec k.bits) :
    read? true (int k x).text.toList =
      some (.ofInt (if k.width = .w64 then .int64 else .int32) (k.read x), []) := by
  have h := read?_of_reads (Literal.reads_ofInt (k.read x) (k.width = .w64))
  simp only [Literal.value_ofInt, decide_eq_true_eq] at h
  rw [toList_text]
  exact h

theorem read?_text_pointer (a : BitVec 64) :
    read? true (pointer a).text.toList =
      some (.ofInt (Literal.radixKind false ((Numeral.hex a.toNat).length * 4)) a.toNat, []) := by
  have h := read?_of_reads (Literal.reads_ofHex a.toNat)
  rw [Literal.value_ofHex] at h
  rw [toList_text]
  exact h

/-- **Printed values read back.** The kind that is read is `bool` again, `int32` or `int64` for an
integer, and for an address the unsigned kind that its `n` digits call for; the cast to the printed
kind gives the printed value. -/
theorem printed_reads_back :
    (∀ b, ∃ w, read? true (bool b).text.toList = some (w, []) ∧ w.kind = .bool ∧ w.toBool = .ok b) ∧
      (∀ k x, ∃ w, read? true (int k x).text.toList = some (w, []) ∧
        w.kind = .int (if k.width = .w64 then .int64 else .int32) ∧ w.toInt k = .ok x) ∧
      ∀ a, ∃ w n, read? true (pointer a).text.toList = some (w, []) ∧
        (pointer a).text.length = 2 + n ∧
        w.kind = .int ⟨false, if n < 2 then .w8 else if n < 4 then .w16
          else if n < 8 then .w32 else .w64⟩ ∧
        w.toInt .uint64 = .ok a := by
  refine ⟨fun b => ⟨_, read?_text_bool b, rfl, rfl⟩, fun k x => ⟨_, read?_text_int k x, rfl, ?_⟩,
    fun a => ⟨_, (Numeral.hex a.toNat).length, read?_text_pointer a, ?_, ?_, ?_⟩⟩
  · rw [toInt_ofInt k.bits_le_of_literal, IntKind.ofInt_read]
  · rw [← String.length_toList, toList_text]
    exact Nat.add_comm _ 2
  · rw [← Literal.radixKind_hex]
    rfl
  · have hread := IntKind.read_ofInt_of_lt rfl (Literal.toNat_lt_radixKind_hex a)
    show Except.ok (BitVec.ofInt 64 (IntKind.read _ (BitVec.ofInt _ a.toNat))) = _
    rw [hread, BitVec.ofInt_natCast, BitVec.ofNat_toNat, BitVec.setWidth_eq]
    rfl

end Value

end KernelFront
