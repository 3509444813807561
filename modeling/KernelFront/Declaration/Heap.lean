import KernelFront.Declaration.Equality

/-!
# What a program can build

A `Heap` is everything that a program has built so far: nodes, each with its identity, and
declarations. A `Step` makes one more of either from what there is. A `Memory` says which node an
identity belongs to; declarations that have one in common cannot show two different nodes under one
identity.
-/

namespace KernelFront

/-! ## All nodes of a declaration -/

section

variable (p : Identity → Node → Prop)

mutual

/-- The property holds of every node in a declaration, at any depth. -/
def Declaration.Forall : Declaration → Prop
  | ⟨_, t⟩ => t.Forall

def Target.Forall : Target → Prop
  | .missing => True
  | .node _ i n => p i n ∧ n.Forall

def Node.Forall : Node → Prop
  | .primitive _ => True
  | .typedef _ base => base.Forall
  | .function _ result parameters _ => result.Forall ∧ parameters.Forall
  | .aggregate .. => True

def Parameters.Forall : Parameters → Prop
  | .nil => True
  | .cons d _ rest => d.Forall ∧ rest.Forall

end

end

/-! ## Memory -/

/-- The node of every identity. -/
abbrev Memory := Identity → Node

namespace Memory

/-- The identity is one of those before `next`, and the node is its own. -/
structure Has (g : Memory) (next i : Identity) (n : Node) : Prop where
  lt : i < next
  eq : g i = n

/-- The second memory knows the identities before `next` as the first does, and perhaps more. -/
structure Grows (g : Memory) (next : Identity) (g' : Memory) (next' : Identity) : Prop where
  le : next ≤ next'
  eq : ∀ i < next, g' i = g i

end Memory

/-! ## Heaps -/

/-- The nodes and the declarations that were made, and the next identity. -/
structure Heap where
  next : Identity := 0
  nodes : List (Identity × Node) := []
  declarations : List Declaration := []

namespace Heap

/-- The ways to make a declaration from what there is. -/
inductive Makes (h : Heap) : StateM Identity Declaration → Prop where
  | invalid : Makes h (pure .invalid)
  /-- A node as it is, shared or owned. -/
  | hold {i : Identity} {n : Node} (o : Holding) : (i, n) ∈ h.nodes →
      Makes h (pure (.ofTarget (.node o i n)))
  /-- A copy of a node, named or not. -/
  | own {i : Identity} {n : Node} : (i, n) ∈ h.nodes →
      Makes h (.ofTarget <$> (Target.node .owned i n).copy)
  | published {i : Identity} {n : Node} : (i, n) ∈ h.nodes →
      Makes h (.ofTarget <$> Target.ofPublished i n)
  | copy {d : Declaration} : d ∈ h.declarations → Makes h d.copy
  | flatten {d : Declaration} : d ∈ h.declarations → Makes h d.flatten.copy
  | base {d : Declaration} : d ∈ h.declarations → Makes h d.base.copy
  /-- Any change of the modifiers. -/
  | modify {d : Declaration} (f : Modifiers → Modifiers) : d ∈ h.declarations →
      Makes h (pure (d.modify f))
  /-- A declaration that is found in a node. -/
  | part {i : Identity} {n : Node} {d : Declaration} : (i, n) ∈ h.nodes → d ∈ n.parts →
      Makes h (pure d)

/-- One more node or declaration. -/
inductive Step : Heap → Heap → Prop where
  | node {h : Heap} {n : Node} : (∀ d ∈ n.parts, d ∈ h.declarations) →
      Step h { h with next := h.next + 1, nodes := (h.next, n) :: h.nodes }
  /-- The node of a declaration. -/
  | look {h : Heap} {d : Declaration} {o : Holding} {i : Identity} {n : Node} :
      d ∈ h.declarations → d.target = .node o i n → Step h { h with nodes := (i, n) :: h.nodes }
  | declaration {h : Heap} {make : StateM Identity Declaration} : h.Makes make →
      Step h { h with
        next := (make.run h.next).2
        declarations := (make.run h.next).1 :: h.declarations }

/-- What can be built from nothing. -/
inductive Reachable : Heap → Prop where
  | empty : Reachable {}
  | step {h h' : Heap} : Reachable h → Step h h' → Reachable h'

/-- The memory has everything that is in the heap. -/
structure StoredIn (h : Heap) (g : Memory) : Prop where
  nodes : ∀ i n, (i, n) ∈ h.nodes → g.Has h.next i n ∧ n.Forall (g.Has h.next)
  declarations : ∀ d ∈ h.declarations, d.Forall (g.Has h.next)

end Heap

end KernelFront
