import Mathlib.Data.List.Forall2
import KernelFront.Declaration.Equality

/-!
# What equality compares

Equality of declarations goes from a declaration to the parts of the node that its flattened form
has, and from them on. `Declaration.flatten_induction` is the induction along this way, and
`Declaration.equal_iff`, `Target.equal_iff` and `Node.equal_iff` are its steps: the parts of two
nodes are compared in order.
-/

namespace KernelFront

/-! ## Sizes -/

theorem Parameters.sizeOf_lt_of_mem {ps : Parameters} {d : Declaration}
    (h : d ∈ ps.toList.map Prod.fst) : sizeOf d < sizeOf ps :=
  match ps with
  | .cons e name rest => by
    rw [Parameters.toList, List.map_cons] at h
    show sizeOf d < 1 + sizeOf e + sizeOf name + sizeOf rest
    rcases List.mem_cons.1 h with rfl | h
    · omega
    · have := rest.sizeOf_lt_of_mem h
      omega

theorem Node.sizeOf_lt_of_mem_parts {n : Node} {d : Declaration} (h : d ∈ n.parts) :
    sizeOf d < sizeOf n := by
  cases n with
  | primitive => cases h
  | typedef name base =>
    obtain rfl := List.mem_singleton.1 h
    show sizeOf d < 1 + sizeOf name + sizeOf d
    omega
  | function name result ps form =>
    show sizeOf d < 1 + sizeOf name + sizeOf result + sizeOf ps + sizeOf form
    rcases List.mem_cons.1 h with rfl | h
    · omega
    · have := Parameters.sizeOf_lt_of_mem h
      omega
  | aggregate => cases h

/-- What holds of a declaration if it holds of the parts of its flattened node holds of all. -/
theorem Declaration.flatten_induction {motive : Declaration → Prop}
    (step : ∀ d : Declaration, (∀ o i n, d.flatten.target = .node o i n →
      ∀ e ∈ n.parts, motive e) → motive d) (d : Declaration) : motive d :=
  step d fun o i n ht e he =>
    have : sizeOf e < sizeOf d := by
      have hn := Node.sizeOf_lt_of_mem_parts he
      have hd := d.sizeOf_flatten_target_lt
      rw [ht, Target.node.sizeOf_spec] at hd
      omega
    flatten_induction step e
termination_by sizeOf d

/-! ## Steps -/

theorem Declaration.equal_iff {a b : Declaration} :
    a.equal b = true ↔ a.flatten.target.equal b.flatten.target = true ∧
      a.flatten.modifiers.agree b.flatten.modifiers = true := by
  rw [Declaration.equal, Bool.and_eq_true]

theorem Target.sharesWith_iff {o p : Holding} {i j : Identity} {m n : Node} :
    (node o i m).sharesWith (node p j n) = true ↔ o = .shared ∧ p = .shared ∧ i = j := by
  cases o <;> cases p <;> simp [sharesWith]

theorem Target.equal_node_iff {o p : Holding} {i j : Identity} {m n : Node} :
    (node o i m).equal (node p j n) = true ↔
      (o = .shared ∧ p = .shared ∧ i = j) ∨ m.equal n = true := by
  rw [Target.equal, Bool.or_eq_true, sharesWith_iff]

/-- Only nodes are equal. -/
theorem Target.nodes_of_equal {s t : Target} (h : s.equal t = true) :
    (∃ o i m, s = .node o i m) ∧ ∃ p j n, t = .node p j n := by
  cases s <;> cases t <;> first
    | exact ⟨⟨_, _, _, rfl⟩, _, _, _, rfl⟩
    | simp [Target.equal] at h

/-- Two nodes of which only the parts remain to be compared. -/
def Node.SameForm : Node → Node → Prop
  | .primitive s, .primitive t => s.text = t.text
  | .typedef .., .typedef .. => True
  | .function _ _ _ form, .function _ _ _ form' => form = form'
  | _, _ => False

theorem Parameters.equal_iff {ps qs : Parameters} :
    ps.equal qs = true ↔ List.Forall₂ (fun a b => a.equal b = true)
      (ps.toList.map Prod.fst) (qs.toList.map Prod.fst) :=
  match ps, qs with
  | .nil, .nil => by simp [Parameters.equal, Parameters.toList]
  | .nil, .cons .. => by simp [Parameters.equal, Parameters.toList]
  | .cons .., .nil => by simp [Parameters.equal, Parameters.toList]
  | .cons a _ ps, .cons b _ qs => by
    rw [Parameters.equal, Bool.and_eq_true, Parameters.equal_iff]
    simp [Parameters.toList]

theorem Node.equal_iff {m n : Node} :
    m.equal n = true ↔ m.SameForm n ∧
      List.Forall₂ (fun a b => a.equal b = true) m.parts n.parts := by
  cases m <;> cases n <;>
    simp [Node.equal, Node.SameForm, Node.parts, Parameters.equal_iff, and_assoc]

end KernelFront
