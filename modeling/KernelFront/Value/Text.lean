import KernelFront.Binary.Text
import KernelFront.Value.Basic

/-!
# The text of a value

`chars` is what a value prints as: 64-bit integers end in `L`, floats always have a fraction,
addresses are hexadecimal. `debugName` and `debugPayload` are the two parts of the form that names
the kind, `Int8(-3)`.
-/

namespace KernelFront.Value

/-- The text of a value, as characters. -/
def chars : Value → List Char
  | unset => ['N', 'a', 'N']
  | bool true => ['t', 'r', 'u', 'e']
  | bool false => ['f', 'a', 'l', 's', 'e']
  | int k x => Numeral.integer (k.read x) ++ if k.width = .w64 then ['L'] else []
  | float _ x => Binary.withFraction x.text
  | pointer a => ['0', 'x'] ++ Numeral.hex a.toNat

/-- The text of a value. -/
def text (v : Value) : String := String.ofList v.chars

/-- The name of the kind, as the debug form has it. -/
def debugName : Value → String
  | unset => "None"
  | bool _ => "Bool"
  | int k _ => (if k.signed then "Int" else "UInt") ++ toString k.bits
  | float .single _ => "Float"
  | float .double _ => "Double"
  | pointer _ => "Pointer"

/-- The payload, as the debug form has it: floats as short as possible, addresses in decimal. -/
def debugPayload : Value → String
  | unset => ""
  | bool b => toString b
  | int k x => String.ofList (Numeral.integer (k.read x))
  | float _ x => String.ofList x.text
  | pointer a => String.ofList (Numeral.decimal a.toNat)

/-- The debug form on one line. -/
def debug (v : Value) : String :=
  match v with
  | unset => v.debugName
  | _ => v.debugName ++ "(" ++ v.debugPayload ++ ")"

end KernelFront.Value
