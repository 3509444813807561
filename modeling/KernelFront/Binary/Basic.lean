import KernelFront.Binary.Format

/-!
# Binary floating-point numbers

A number is a sign and a rank (see `Format`), so the two zeros and the two infinities are numbers
as well; `nan` is the one value that is no number. Comparisons read the signed rank: ranks grow
with the numbers they stand for, and the zeros share the rank 0. `round` is the only place where
precision is lost; every operation states its exact result and rounds it once.
-/

namespace KernelFront

open scoped Numeral

/-- The values of a binary format. -/
inductive Binary (f : Format) where
  | nan
  | number (negative : Bool) (rank : Fin (f.infinity + 1))
  deriving DecidableEq, Repr

namespace Binary

variable {f g : Format}

/-- The number of rank `k`, at most infinity. -/
def ofRank (f : Format) (negative : Bool) (k : Nat) : Binary f :=
  .number negative ⟨min k f.infinity, Nat.lt_succ_of_le (Nat.min_le_right ..)⟩

theorem ofRank_val (f : Format) (negative : Bool) (k : Fin (f.infinity + 1)) :
    ofRank f negative k = .number negative k := by
  have : min (k : Nat) f.infinity = k := Nat.min_eq_left (Nat.le_of_lt_succ k.isLt)
  simp [ofRank, this]

/-- The zero of a sign. -/
def zero (f : Format) (negative : Bool) : Binary f := ofRank f negative 0

/-- The infinity of a sign. -/
def infinity (f : Format) (negative : Bool) : Binary f := ofRank f negative f.infinity

/-- The number nearest to `num / den` steps with the given sign. -/
def round (f : Format) (negative : Bool) (num den : Nat) : Binary f :=
  ofRank f negative (f.nearestRank num den)

/-! ## Bit patterns -/

/-- Reads a bit pattern; every pattern above infinity is `nan`. -/
def ofBits (f : Format) (bits : Nat) : Binary f :=
  let width := f.fractionBits + f.exponentBits
  let rank := bits % 2 ^ width
  if rank ≤ f.infinity then ofRank f (bits / 2 ^ width % 2 == 1) rank else .nan

/-- The bit pattern of a number; `nan` has many, so it has none here. -/
def toBits? : Binary f → Option Nat
  | .nan => none
  | .number s k => some (s.toNat * 2 ^ (f.fractionBits + f.exponentBits) + k)

/-! ## Predicates and comparisons -/

def isFinite : Binary f → Bool
  | .nan => false
  | .number _ k => k < f.infinity

def isZero : Binary f → Bool
  | .nan => false
  | .number _ k => k == (0 : Nat)

/-- The signed rank, the key of all comparisons. -/
def key? : Binary f → Option Int
  | .nan => none
  | .number s k => some (if s then -(k : Int) else k)

/-- Compares two keys; `nan` compares with nothing. -/
def compareWith (rel : Int → Int → Bool) (x y : Binary f) : Bool :=
  match x.key?, y.key? with
  | some i, some j => rel i j
  | _, _ => false

def lt (x y : Binary f) : Bool := compareWith (· < ·) x y

def le (x y : Binary f) : Bool := compareWith (· ≤ ·) x y

/-- Equality of numbers: the zeros are equal and `nan` is equal to nothing. -/
def eq (x y : Binary f) : Bool := compareWith (· == ·) x y

/-- The truth value of a float: everything but the two zeros, `nan` included. -/
def truth (x : Binary f) : Bool := !x.isZero

/-! ## Arithmetic -/

def neg : Binary f → Binary f
  | .nan => .nan
  | .number s k => .number (!s) k

/-- The signed number of steps. -/
def signedSteps (f : Format) (negative : Bool) (k : Nat) : Int :=
  if negative then -(f.steps k : Int) else f.steps k

/-- The exact sum of the finite numbers, rounded; a zero sum is negative only of negative zeros. -/
def addFinite (f : Format) (s : Bool) (j : Nat) (t : Bool) (k : Nat) : Binary f :=
  let sum := signedSteps f s j + signedSteps f t k
  if sum = 0 then zero f (s && t) else round f (sum < 0) sum.natAbs 1

def add : Binary f → Binary f → Binary f
  | .number s j, .number t k =>
    if j = f.infinity then
      if k = f.infinity && s != t then .nan else infinity f s
    else if k = f.infinity then infinity f t
    else addFinite f s j t k
  | _, _ => .nan

def sub (x y : Binary f) : Binary f := x.add y.neg

def mul : Binary f → Binary f → Binary f
  | .number s j, .number t k =>
    if j = f.infinity || k = f.infinity then
      if j = (0 : Nat) || k = (0 : Nat) then .nan else infinity f (s ^^ t)
    else round f (s ^^ t) (f.steps j * f.steps k) f.one
  | _, _ => .nan

def div : Binary f → Binary f → Binary f
  | .number s j, .number t k =>
    if j = f.infinity then
      if k = f.infinity then .nan else infinity f (s ^^ t)
    else if k = f.infinity then zero f (s ^^ t)
    else if k = (0 : Nat) then
      if j = (0 : Nat) then .nan else infinity f (s ^^ t)
    else round f (s ^^ t) (f.steps j * f.one) (f.steps k)
  | _, _ => .nan

/-! ## Conversions -/

/-- The float nearest to an integer. -/
def ofInt (f : Format) (z : Int) : Binary f := round f (z < 0) (z.natAbs * f.one) 1

/-- The integer part; an infinity gives a number beyond every finite one, and `nan` gives zero. -/
def truncate : Binary f → Int
  | .nan => 0
  | .number s k =>
    let whole : Int := (f.steps k / f.one : Nat)
    if s then -whole else whole

/-- The same number in another format, rounded if it has to be. -/
def convert (g : Format) : Binary f → Binary g
  | .nan => .nan
  | .number s k =>
    if k = f.infinity then infinity g s else round g s (f.steps k * g.one) f.one

end Binary

end KernelFront
