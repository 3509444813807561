import KernelFront.Value.Basic
import KernelFront.Value.Operator

/-!
# Operators on values

Both operands of a binary operator are cast to the promoted kind, and the operator works there:
integers wrap at their width, shift amounts count modulo the width, division truncates, and floats
round each result once. Truth values compute as `int32` and turn back. Pointers and values that
were never set have no operators: the result is unset, or the error that an operand is not set.
-/

namespace KernelFront

namespace BinaryOp

/-- The result of an operator on two integers of one kind. -/
def onInt (op : BinaryOp) (k : IntKind) (x y : BitVec k.bits) : Except ValueError Value :=
  let shift := y.toNat % k.bits
  match op with
  | mult => .ok (.int k (x * y))
  | add => .ok (.int k (x + y))
  | sub => .ok (.int k (x - y))
  | div =>
    if y = 0 then .error (.divisionByZero op.symbol)
    else .ok (.int k (if k.signed then x.sdiv y else x.udiv y))
  | mod =>
    if y = 0 then .error (.divisionByZero op.symbol)
    else .ok (.int k (if k.signed then x.srem y else x.umod y))
  | bitAnd => .ok (.int k (x &&& y))
  | bitOr => .ok (.int k (x ||| y))
  | xor => .ok (.int k (x ^^^ y))
  | shiftLeft => .ok (.int k (x <<< shift))
  | shiftRight => .ok (.int k (if k.signed then x.sshiftRight shift else x >>> shift))
  | lt => .ok (.bool (k.read x < k.read y))
  | le => .ok (.bool (k.read x ≤ k.read y))
  | eq => .ok (.bool (k.read x == k.read y))
  | ne => .ok (.bool (k.read x != k.read y))
  | ge => .ok (.bool (k.read x ≥ k.read y))
  | gt => .ok (.bool (k.read x > k.read y))
  | and => .ok (.bool (k.read x != 0 && k.read y != 0))
  | or => .ok (.bool (k.read x != 0 || k.read y != 0))

/-- The result of an operator on two floats of one kind. -/
def onFloat (op : BinaryOp) (p : Precision) (x y : Binary p.format) : Except ValueError Value :=
  match op with
  | mult => .ok (.float p (x.mul y))
  | add => .ok (.float p (x.add y))
  | sub => .ok (.float p (x.sub y))
  | div => .ok (.float p (x.div y))
  | mod | bitAnd | bitOr | xor | shiftLeft | shiftRight =>
    .error (.floatOperand op.symbol (.float p))
  | lt => .ok (.bool (x.lt y))
  | le => .ok (.bool (x.le y))
  | eq => .ok (.bool (x.eq y))
  | ne => .ok (.bool (!x.eq y))
  | ge => .ok (.bool (y.le x))
  | gt => .ok (.bool (y.lt x))
  | and => .ok (.bool (x.truth && y.truth))
  | or => .ok (.bool (x.truth || y.truth))

end BinaryOp

namespace Value

/-- Turns a result of truth values computed as integers back into a truth value. -/
def collapse : Value → Value
  | int k x => .bool (k.read x != 0)
  | v => v

/-- Applies a binary operator at the promoted kind of its operands. -/
def binary (op : BinaryOp) (a b : Value) : Except ValueError Value :=
  match Kind.promote a.kind b.kind with
  | .unset | .pointer => .ok .unset
  | .bool => do
    let x ← a.toInt .int32
    let y ← b.toInt .int32
    (op.onInt .int32 x y).map collapse
  | .int k => do
    let x ← a.toInt k
    let y ← b.toInt k
    op.onInt k x y
  | .float p => do
    let x ← a.toFloat p
    let y ← b.toFloat p
    op.onFloat p x y

/-- Applies a unary operator; a truth value is negated as the integer it stands for. -/
def unary (op : UnaryOp) (a : Value) : Except ValueError Value :=
  match op, a with
  | _, unset | _, pointer _ => .ok .unset
  | .not, a => a.toBool.map fun b => .bool !b
  | .positive, a => .ok a
  | .negative, bool b => .ok (ofInt .int32 (-b.toNat))
  | .negative, int k x => .ok (.int k (-x))
  | .negative, float p x => .ok (.float p x.neg)
  | .tilde, bool b => .ok (.bool !b)
  | .tilde, int k x => .ok (.int k (~~~x))
  | .tilde, float p _ => .error (.floatOperand op.symbol (.float p))

/-- The neighbouring value; an address has none and stays. -/
def step (op : StepOp) : Value → Except ValueError Value
  | bool _ => .error (.boolOperand op.symbol)
  | int k x => .ok (.int k (x + BitVec.ofInt k.bits op.delta))
  | float p x => .ok (.float p (x.add (Binary.ofInt p.format op.delta)))
  | v => .ok v

end Value

/-! ## Operators that change a variable -/

/-- An operation on a variable. -/
inductive Update where
  /-- `variable op= rhs`. -/
  | assign (op : BinaryOp) (rhs : Value)
  /-- `++variable`, whose result is the new value. -/
  | pre (op : StepOp)
  /-- `variable++`, whose result is the value before. -/
  | post (op : StepOp)
  deriving DecidableEq, Repr

/-- The result of an operation on a variable and the variable afterwards. A failing operation leaves
it alone, and so does an assignment without a result. -/
def Update.run (u : Update) (v : Value) : Except ValueError Value × Value :=
  match u with
  | .assign op rhs =>
    match Value.binary op v rhs with
    | .error e => (.error e, v)
    | .ok .unset => (.ok .unset, v)
    | .ok w => (.ok w, w)
  | .pre op =>
    match v.step op with
    | .error e => (.error e, v)
    | .ok w => (.ok w, w)
  | .post op =>
    match v.step op with
    | .error e => (.error e, v)
    | .ok w => (.ok v, w)

namespace Update

/-- An assignment has the result of its operator, also where it changes nothing. -/
theorem result_assign (op : BinaryOp) (rhs v : Value) :
    ((assign op rhs).run v).1 = Value.binary op v rhs := by
  cases h : Value.binary op v rhs with
  | error e => simp only [run, h]
  | ok w => cases w <;> simp only [run, h]

theorem result_pre (op : StepOp) (v : Value) : ((pre op).run v).1 = v.step op := by
  cases h : v.step op <;> simp only [run, h]

theorem result_post (op : StepOp) (v : Value) :
    ((post op).run v).1 = (v.step op).map fun _ => v := by
  cases h : v.step op <;> simp only [run, h, Except.map]

end Update

end KernelFront
