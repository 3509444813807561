import KernelFront.Binary.Decimal

/-!
# The shortest decimal that reads back

Every finite binary number has an exact decimal expansion. `shortest` cuts it to as few leading
digits as possible: of the two neighbours on each decimal grid it takes one that reads back as the
number, the nearer one first and the upper one of two equally near. The search ends at the exact
expansion at the latest.
-/

namespace KernelFront

open scoped Numeral

namespace Binary

/-- The digits of the exact expansion of `u` steps, whose exponent is `-depth`. -/
def exactDigits (f : Format) (u : Nat) : Nat := u * 5 ^ f.depth

/-- The two neighbours of `n` among the multiples of `10 ^ cut`, the nearer one first. -/
def neighbours (n cut : Nat) : Nat × Nat :=
  let grid := 10 ^ cut
  let below := n / grid
  if 2 * (n % grid) < grid then (below, below + 1) else (below + 1, below)

/-- The number cut by at most `cut` digits, as long as it reads back as rank `k`. -/
def cutDigits (f : Format) (k n : Nat) : Nat → Decimal
  | 0 => ⟨false, n, -f.depth⟩
  | cut + 1 =>
    let (near, far) := neighbours n (cut + 1)
    let exponent : Int := cut + 1 - f.depth
    if (Decimal.mk false near exponent).toBinary f = ofRank f false k then ⟨false, near, exponent⟩
    else if (Decimal.mk false far exponent).toBinary f = ofRank f false k then
      ⟨false, far, exponent⟩
    else cutDigits f k n cut

/-- The fewest digits that read back as the number at rank `k`, and of those the nearest. -/
def shortest (f : Format) (negative : Bool) (k : Nat) : Decimal :=
  let n := exactDigits f (f.steps k)
  let d := cutDigits f k n ((Numeral.decimal n).length - 1)
  ⟨negative, d.digits, d.exponent⟩

end Binary

end KernelFront
