import KernelFront.Declaration.Basic

/-!
# Flattening and equality

`flatten` resolves the type aliases of a declaration: the result names the node at the end of the
chain and carries the modifiers of every alias on the way. Two declarations are equal if their
flattened forms agree in their modifiers and have equal nodes. Nodes are equal if they are one
shared node or have equal contents; aggregates have no contents to compare, so only a shared one
equals anything, namely itself. The identity of an owned node does not count: each side stands for
a copy of what it owns (`Declaration.equal_iff_copies`, in `Proofs/Declaration/Copies`). A declaration
without a node equals nothing.
-/

namespace KernelFront

/-- The declaration with all type aliases resolved. -/
def Declaration.flatten : Declaration → Declaration
  | ⟨m, .node _ _ (.typedef _ base)⟩ => ⟨m.after base.flatten.modifiers, base.flatten.target⟩
  | d => d

/-- No alias is left at the end of the chain. -/
theorem Declaration.flatten_target_ne_typedef (d : Declaration) (o : Holding) (i : Identity)
    (name : Option Token) (base : Declaration) :
    d.flatten.target ≠ .node o i (.typedef name base) := by
  fun_induction flatten d with
  | case1 _ _ _ _ _ ih => exact ih
  | case2 d h =>
    intro e
    obtain ⟨m, t⟩ := d
    exact h m o i name base (congrArg (Declaration.mk m) e)

theorem Declaration.sizeOf_flatten_target (d : Declaration) :
    sizeOf d.flatten.target ≤ sizeOf d.target := by
  fun_induction flatten d with
  | case1 m o i name base ih =>
    have : sizeOf base.target < sizeOf base := by
      cases base
      simp only [mk.sizeOf_spec]
      omega
    simp
    omega
  | case2 => exact Nat.le_refl _

theorem Declaration.sizeOf_flatten_target_lt (d : Declaration) :
    sizeOf d.flatten.target < sizeOf d := by
  have := d.sizeOf_flatten_target
  cases d
  simp at *
  omega

/-- Whether two targets share one node. -/
def Target.sharesWith : Target → Target → Bool
  | .node .shared i _, .node .shared j _ => i == j
  | _, _ => false

mutual

/-- Equality of what two declarations declare. -/
def Declaration.equal (a b : Declaration) : Bool :=
  a.flatten.target.equal b.flatten.target && a.flatten.modifiers.agree b.flatten.modifiers
termination_by sizeOf a
decreasing_by exact a.sizeOf_flatten_target_lt

/-- Equality of nodes as two declarations hold them. -/
def Target.equal (s t : Target) : Bool :=
  match s, t with
  | .node o i m, .node p j n => Target.sharesWith (.node o i m) (.node p j n) || m.equal n
  | _, _ => false
termination_by sizeOf s

/-- Equality of the contents of two nodes. -/
def Node.equal (m n : Node) : Bool :=
  match m, n with
  | .primitive s, .primitive t => s.text == t.text
  | .typedef _ a, .typedef _ b => a.equal b
  | .function _ a ps form, .function _ b qs form' => form == form' && a.equal b && ps.equal qs
  | _, _ => false
termination_by sizeOf m

/-- Equality of parameters, one by one; their names do not matter. -/
def Parameters.equal (ps qs : Parameters) : Bool :=
  match ps, qs with
  | .nil, .nil => true
  | .cons a _ ps, .cons b _ qs => a.equal b && ps.equal qs
  | _, _ => false
termination_by sizeOf ps

end

/-- Whether two declarations hold one node; without nodes there is no answer. -/
def Declaration.sameNode? (a b : Declaration) : Option Bool := do
  let i ← a.target.identity?
  let j ← b.target.identity?
  pure (i == j)

/-- Equality of the nodes of two declarations as they are, where missing nodes are equal. -/
def Declaration.equalNodes (a b : Declaration) : Bool :=
  match a.target, b.target with
  | .missing, .missing => true
  | s, t => a.sameNode? b == some true || s.equal t

end KernelFront
