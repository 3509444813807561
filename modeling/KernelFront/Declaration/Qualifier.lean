/-!
# Qualifiers

The words that qualify a declaration or a pointer level.
-/

namespace KernelFront

inductive Qualifier where
  | const
  | volatile
  | restrict
  | external
  | static
  | inlined
  | register
  | mutable
  | typedef
  | signed
  | unsigned
  | kernel
  | device
  | shared
  | exclusive
  deriving DecidableEq, Repr

namespace Qualifier

def all : List Qualifier :=
  [const, volatile, restrict, external, static, inlined, register, mutable, typedef, signed,
    unsigned, kernel, device, shared, exclusive]

theorem mem_all (q : Qualifier) : q ∈ all := by cases q <;> decide

/-- The word that a qualifier is written as. -/
def name : Qualifier → String
  | const => "const"
  | volatile => "volatile"
  | restrict => "restrict"
  | external => "extern"
  | static => "static"
  | inlined => "inline"
  | register => "register"
  | mutable => "mutable"
  | typedef => "typedef"
  | signed => "signed"
  | unsigned => "unsigned"
  | kernel => "kernel"
  | device => "device"
  | shared => "shared"
  | exclusive => "exclusive"

/-- The qualifier that a word names. -/
def ofName? (s : String) : Option Qualifier := all.find? fun q => q.name == s

end Qualifier

end KernelFront
