/-!
# Numerals

Digits of the radices up to sixteen, in either case. `value` reads a run of digits, most
significant first, and `word` and `shifted` read one into 64 bits; writing uses `Nat.toDigits`, whose
digits are lower case.
-/

namespace KernelFront.Numeral

-- Where this namespace is open a power of a number is the one of the core library, also if there is one
-- for monoids.

scoped instance (priority := high) natPow : Pow Nat Nat := @instPowNat Nat instNatPowNat

scoped instance (priority := high) intPow : Pow Int Nat := @instPowNat Int Int.instNatPow

/-- The number a digit of some radix up to sixteen stands for. -/
def digit? (radix : Nat) (c : Char) : Option Nat :=
  let d :=
    if '0' ≤ c ∧ c ≤ '9' then some (c.toNat - '0'.toNat)
    else if 'a' ≤ c ∧ c ≤ 'f' then some (c.toNat - 'a'.toNat + 10)
    else if 'A' ≤ c ∧ c ≤ 'F' then some (c.toNat - 'A'.toNat + 10)
    else none
  d.filter (· < radix)

def isDigit (radix : Nat) (c : Char) : Bool := (digit? radix c).isSome

/-- The number a run of digits denotes; what is no digit counts as zero. -/
def value (radix : Nat) (cs : List Char) : Nat :=
  cs.foldl (fun n c => radix * n + (digit? radix c).getD 0) 0

/-- Decimal digits read into one word, without what does not fit. -/
def word (cs : List Char) : BitVec 64 :=
  cs.foldl (fun w c => w * 10 + BitVec.ofNat 64 ((digit? 10 c).getD 0)) 0

/-- Digits of `k` bits shifted into one word, without what does not fit. -/
def shifted (k : Nat) (cs : List Char) : BitVec 64 :=
  cs.foldl (fun w c => w <<< k ||| BitVec.ofNat 64 ((digit? (2 ^ k) c).getD 0)) 0

@[simp]
theorem value_nil (radix : Nat) : value radix [] = 0 := rfl

theorem value_append_singleton (radix : Nat) (cs : List Char) (c : Char) :
    value radix (cs ++ [c]) = radix * value radix cs + (digit? radix c).getD 0 := by
  simp [value]

/-- Reading on from `n` moves it up by the digits read. -/
theorem foldl_digits (radix : Nat) (cs : List Char) (n : Nat) :
    cs.foldl (fun n c => radix * n + (digit? radix c).getD 0) n =
      radix ^ cs.length * n + value radix cs := by
  induction cs generalizing n with
  | nil => simp
  | cons c cs ih =>
    rw [value, List.foldl_cons, List.foldl_cons, ih, ih (radix * 0 + _), List.length_cons,
      Nat.pow_succ, Nat.mul_zero, Nat.zero_add, Nat.mul_add, Nat.add_assoc, Nat.mul_assoc]

/-- A run of digits after another one: the first is moved up by the length of the second. -/
theorem value_append (radix : Nat) (cs ds : List Char) :
    value radix (cs ++ ds) = radix ^ ds.length * value radix cs + value radix ds := by
  rw [value, List.foldl_append, foldl_digits]
  rfl

theorem digit?_digitChar {radix d : Nat} (hr : radix ≤ 16) (hd : d < radix) :
    digit? radix d.digitChar = some d := by
  have h : ∀ d < 16, digit? 16 d.digitChar = some d := by decide
  have h16 := h d (by omega)
  simp only [digit?, Option.filter_eq_some_iff] at h16 ⊢
  exact ⟨h16.1, by simpa using hd⟩

/-- Writing a number in a radix and reading it gives it back. -/
theorem value_toDigits {radix : Nat} (h1 : 1 < radix) (hr : radix ≤ 16) (n : Nat) :
    value radix (Nat.toDigits radix n) = n := by
  induction n using Nat.strongRecOn with
  | ind n ih =>
    by_cases hn : n < radix
    · rw [Nat.toDigits_of_lt_base hn]
      simp [value, digit?_digitChar hr hn]
    · rw [Nat.toDigits_of_base_le h1 (by omega), value_append_singleton,
        ih _ (Nat.div_lt_self (by omega) h1),
        digit?_digitChar hr (Nat.mod_lt _ (by omega))]
      exact Nat.div_add_mod n radix

/-- The decimal digits of a number. -/
def decimal (n : Nat) : List Char := Nat.toDigits 10 n

/-- The lower-case hexadecimal digits of a number. -/
def hex (n : Nat) : List Char := Nat.toDigits 16 n

/-- A decimal integer, with a sign only if it is negative. -/
def integer (z : Int) : List Char :=
  if z < 0 then '-' :: decimal z.natAbs else decimal z.natAbs

/-- Pads with zeros on the left up to a width. -/
def padLeft (width : Nat) (cs : List Char) : List Char :=
  List.replicate (width - cs.length) '0' ++ cs

end KernelFront.Numeral
