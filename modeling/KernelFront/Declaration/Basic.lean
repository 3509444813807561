import KernelFront.Declaration.Modifiers
import KernelFront.Printer

/-!
# Declarations and type nodes

A declaration applies modifiers to a type node, and a node can contain declarations again: a type
alias its base, a function its result and its parameters. Every node has an identity. A declaration
shares its node with others or owns it; `Declaration.copy` keeps what is shared and gives everything
that is owned, at any depth, an identity of its own. New identities come from a counter.
-/

namespace KernelFront

/-- What tells two nodes with the same contents apart. -/
abbrev Identity := Nat

/-- An identity that was not used before. -/
def Identity.fresh : StateM Identity Identity := fun next => (next, next + 1)

/-- How a declaration holds its node. -/
inductive Holding where
  | owned
  | shared
  deriving DecidableEq, Repr

/-- The kinds of types that have members. -/
inductive AggregateKind where
  | classType
  | structType
  | unionType
  | enumType
  deriving DecidableEq, Repr

/-- The word that introduces an aggregate. -/
def AggregateKind.keyword : AggregateKind → String
  | classType => "class"
  | structType => "struct"
  | unionType => "union"
  | enumType => "enum"

/-- The declarator of a function: plain, `(*name)` or `(^name)`. -/
structure FunctionForm where
  isPointer : Bool := false
  isBlock : Bool := false
  deriving DecidableEq, Repr

mutual

/-- What a declaration declares a name to be. -/
structure Declaration where
  modifiers : Modifiers
  target : Target

/-- The node of a declaration. -/
inductive Target where
  | missing
  | node (holding : Holding) (identity : Identity) (node : Node)

/-- A type. -/
inductive Node where
  /-- A built-in type, known by its name. -/
  | primitive (name : Token)
  | typedef (name : Option Token) (base : Declaration)
  | function (name : Option Token) (result : Declaration) (parameters : Parameters)
    (form : FunctionForm)
  /-- A type with members, which are not modeled. -/
  | aggregate (name : Option Token) (kind : AggregateKind)

/-- The parameters of a function, each a declaration and perhaps a name. -/
inductive Parameters where
  | nil
  | cons (declaration : Declaration) (name : Option Token) (rest : Parameters)

end

/-- The kinds of type nodes. -/
inductive NodeKind where
  | primitive
  | typedef
  | function
  | aggregate (kind : AggregateKind)
  deriving DecidableEq, Repr

namespace Parameters

/-- The parameters in order. -/
def toList : Parameters → List (Declaration × Option Token)
  | nil => []
  | cons d name rest => (d, name) :: rest.toList

def ofList (ps : List (Declaration × Option Token)) : Parameters :=
  ps.foldr (fun p rest => cons p.1 p.2 rest) nil

@[simp]
theorem toList_ofList (ps : List (Declaration × Option Token)) : (ofList ps).toList = ps := by
  induction ps with
  | nil => rfl
  | cons p ps ih => exact congrArg (p :: ·) ih

end Parameters

namespace Node

def kind : Node → NodeKind
  | primitive _ => .primitive
  | typedef .. => .typedef
  | function .. => .function
  | aggregate _ k => .aggregate k

/-- The token that names a node. -/
def token : Node → Option Token
  | primitive name => some name
  | typedef name _ | function name _ _ _ | aggregate name _ => name

/-- The text of a token that may be missing. -/
def nameOf (name : Option Token) : String := (name.map Token.text).getD ""

/-- The name of a node, empty if it has none. -/
def name (n : Node) : String := nameOf n.token

def isNamed (n : Node) : Bool := n.name != ""

/-- The declarations that a node contains. -/
def parts : Node → List Declaration
  | primitive _ => []
  | typedef _ base => [base]
  | function _ result parameters _ => result :: parameters.toList.map Prod.fst
  | aggregate .. => []

end Node

/-! ## Copies -/

mutual

/-- A copy of a declaration. -/
def Declaration.copy : Declaration → StateM Identity Declaration
  | ⟨m, t⟩ => do
    let t ← t.copy
    pure ⟨m, t⟩

/-- A copy of an owned node, or the shared node itself. -/
def Target.copy : Target → StateM Identity Target
  | .missing => pure .missing
  | .node .shared i n => pure (.node .shared i n)
  | .node .owned _ n => do
    let i ← Identity.fresh
    let n ← n.copy
    pure (.node .owned i n)

/-- A node with copies of its declarations. -/
def Node.copy : Node → StateM Identity Node
  | .primitive name => pure (.primitive name)
  | .typedef name base => do
    let base ← base.copy
    pure (.typedef name base)
  | .function name result parameters form => do
    let result ← result.copy
    let parameters ← parameters.copy
    pure (.function name result parameters form)
  | .aggregate name kind => pure (.aggregate name kind)

def Parameters.copy : Parameters → StateM Identity Parameters
  | .nil => pure .nil
  | .cons d name rest => do
    let d ← d.copy
    let rest ← rest.copy
    pure (.cons d name rest)

end

namespace Target

def node? : Target → Option Node
  | missing => none
  | node _ _ n => some n

def identity? : Target → Option Identity
  | missing => none
  | node _ i _ => some i

def isShared : Target → Bool
  | node .shared _ _ => true
  | _ => false

/-- How a declaration refers to a published node: a named node is shared, one without a name is
copied. -/
def ofPublished (i : Identity) (n : Node) : StateM Identity Target :=
  if n.isNamed then pure (node .shared i n) else (node .owned i n).copy

end Target

namespace Declaration

/-- The declaration without a node. -/
def invalid : Declaration := ⟨{}, .missing⟩

instance : Inhabited Declaration := ⟨invalid⟩

/-- A declaration without modifiers. -/
def ofTarget (t : Target) : Declaration := ⟨{}, t⟩

def node? (d : Declaration) : Option Node := d.target.node?

/-- A declaration is valid if it has a node. -/
def isValid (d : Declaration) : Bool := d.node?.isSome

/-- The text of the token that names the type, empty without a token. -/
def name (d : Declaration) : String := Node.nameOf d.modifiers.name

/-- The node and its qualifiers alone, for declaring another variable of the same type. -/
def base (d : Declaration) : Declaration := ⟨{ qualifiers := d.modifiers.qualifiers }, d.target⟩

/-! ## Changing one modifier -/

def modify (d : Declaration) (f : Modifiers → Modifiers) : Declaration := ⟨f d.modifiers, d.target⟩

def withQualifiers (d : Declaration) (s : Qualifiers) : Declaration :=
  d.modify fun m => { m with qualifiers := s }

/-- Adds a qualifier written at some place, and reports a second occurrence. -/
def addQualifier (d : Declaration) (q : Qualifier) (span : Span) : Outcome Unit × Declaration :=
  let (result, s) := d.modifiers.qualifiers.add q span
  (result, d.withQualifiers s)

def insertQualifier (d : Declaration) (q : Qualifier) : Declaration :=
  d.withQualifiers (d.modifiers.qualifiers.insert q {})

def removeQualifier (d : Declaration) (q : Qualifier) : Declaration :=
  d.withQualifiers (d.modifiers.qualifiers.remove q)

def addQualifiers (d : Declaration) (s : Qualifiers) : Declaration :=
  d.withQualifiers (d.modifiers.qualifiers.extend s)

def extendPointers (d : Declaration) (ps : List Pointer) : Declaration :=
  d.modify fun m => { m with pointers := m.pointers ++ ps }

def pushPointer (d : Declaration) (p : Pointer) : Declaration := d.extendPointers [p]

def extendDimensions (d : Declaration) (ds : List Dimension) : Declaration :=
  d.modify fun m => { m with dimensions := m.dimensions ++ ds }

def pushDimension (d : Declaration) (dim : Dimension) : Declaration := d.extendDimensions [dim]

def setReference (d : Declaration) (t : Token) : Declaration :=
  d.modify fun m => { m with reference := some t }

def setName (d : Declaration) (t : Token) : Declaration :=
  d.modify fun m => { m with name := some t }

end Declaration

end KernelFront
