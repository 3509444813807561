import KernelFront.Proofs.Declaration.Agreement
import KernelFront.Proofs.Declaration.Equality
import KernelFront.Proofs.Declaration.Memory

/-!
# Equality is a partial equivalence

Symmetry holds of any two declarations. Transitivity needs that one identity stands for one node, as
the shortcut for shared nodes looks at identities alone: it is stated for declarations in one memory,
and everything that a program builds is in one (`Heap.Reachable.storedIn`). Both are inductions along
`Declaration.flatten_induction`, and say of a node what they suppose of its parts.
-/

namespace KernelFront

/-! ## Symmetry -/

theorem Node.sameForm_symm {m n : Node} (h : m.SameForm n) : n.SameForm m := by
  cases m <;> cases n <;> first
    | exact h.elim
    | exact h.symm
    | trivial

theorem Node.equal_symm_of_parts {m n : Node}
    (ih : ∀ e ∈ m.parts, ∀ b : Declaration, e.equal b = true → b.equal e = true)
    (h : m.equal n = true) : n.equal m = true := by
  obtain ⟨hform, hparts⟩ := Node.equal_iff.1 h
  obtain ⟨hlen, hget⟩ := List.forall₂_iff_get.1 hparts
  refine Node.equal_iff.2 ⟨sameForm_symm hform, List.forall₂_iff_get.2 ⟨hlen.symm, ?_⟩⟩
  intro k hn hm
  exact ih _ (List.get_mem _ _) _ (hget k hm hn)

theorem Declaration.equal_symm {a b : Declaration} (h : a.equal b = true) : b.equal a = true := by
  induction a using flatten_induction generalizing b with
  | step a ih =>
    obtain ⟨ht, hm⟩ := equal_iff.1 h
    obtain ⟨⟨o, i, m, ea⟩, p, j, n, eb⟩ := Target.nodes_of_equal ht
    refine equal_iff.2 ⟨?_, Modifiers.agree_symm hm⟩
    rw [ea, eb] at ht
    rw [ea, eb]
    rcases Target.equal_node_iff.1 ht with ⟨ho, hp, hij⟩ | hmn
    · exact Target.equal_node_iff.2 (.inl ⟨hp, ho, hij.symm⟩)
    · refine Target.equal_node_iff.2 (.inr (Node.equal_symm_of_parts ?_ hmn))
      exact fun e he c => ih o i m ea e he

theorem Node.equal_symm {m n : Node} (h : m.equal n = true) : n.equal m = true :=
  Node.equal_symm_of_parts (fun _ _ _ => Declaration.equal_symm) h

/-! ## Transitivity -/

theorem Node.sameForm_trans {m n l : Node} (h : m.SameForm n) (h' : n.SameForm l) :
    m.SameForm l := by
  cases m <;> cases n <;> first
    | exact h.elim
    | cases l <;> first
      | exact h'.elim
      | exact h.trans h'
      | trivial

section

variable {g : Memory} {next : Identity}

theorem Node.equal_trans_of_parts {m n l : Node} (hm : m.Forall (g.Has next))
    (hn : n.Forall (g.Has next)) (hl : l.Forall (g.Has next))
    (ih : ∀ e ∈ m.parts, ∀ b c : Declaration, e.Forall (g.Has next) → b.Forall (g.Has next) →
      c.Forall (g.Has next) → e.equal b = true → b.equal c = true → e.equal c = true)
    (h : m.equal n = true) (h' : n.equal l = true) : m.equal l = true := by
  obtain ⟨hform, hparts⟩ := Node.equal_iff.1 h
  obtain ⟨hform', hparts'⟩ := Node.equal_iff.1 h'
  obtain ⟨hlen, hget⟩ := List.forall₂_iff_get.1 hparts
  obtain ⟨hlen', hget'⟩ := List.forall₂_iff_get.1 hparts'
  refine Node.equal_iff.2
    ⟨sameForm_trans hform hform', List.forall₂_iff_get.2 ⟨hlen.trans hlen', ?_⟩⟩
  intro k km kl
  have kn : k < n.parts.length := hlen ▸ km
  refine ih _ (List.get_mem _ _) (n.parts.get ⟨k, kn⟩) _ ?_ ?_ ?_ (hget k km kn) (hget' k kn kl)
  · exact m.forall_iff_parts.1 hm _ (List.get_mem _ _)
  · exact n.forall_iff_parts.1 hn _ (List.get_mem _ _)
  · exact l.forall_iff_parts.1 hl _ (List.get_mem _ _)

theorem Target.equal_trans_of_contents {o p q : Holding} {i j k : Identity} {m n l : Node}
    (hm : g.Has next i m) (hn : g.Has next j n) (hl : g.Has next k l)
    (htrans : m.equal n = true → n.equal l = true → m.equal l = true)
    (h : (node o i m).equal (node p j n) = true) (h' : (node p j n).equal (node q k l) = true) :
    (node o i m).equal (node q k l) = true := by
  rcases equal_node_iff.1 h with ⟨rfl, rfl, rfl⟩ | hmn
  · -- One node is compared twice with the third.
    obtain rfl : m = n := hm.eq.symm.trans hn.eq
    exact h'
  · rcases equal_node_iff.1 h' with ⟨rfl, rfl, rfl⟩ | hnl
    · obtain rfl : n = l := hn.eq.symm.trans hl.eq
      exact equal_node_iff.2 (.inr hmn)
    · exact equal_node_iff.2 (.inr (htrans hmn hnl))

theorem Declaration.equal_trans {a b c : Declaration} (ha : a.Forall (g.Has next))
    (hb : b.Forall (g.Has next)) (hc : c.Forall (g.Has next)) (h : a.equal b = true)
    (h' : b.equal c = true) : a.equal c = true := by
  induction a using flatten_induction generalizing b c with
  | step a ih =>
    obtain ⟨ht, hmod⟩ := equal_iff.1 h
    obtain ⟨ht', hmod'⟩ := equal_iff.1 h'
    refine equal_iff.2 ⟨?_, Modifiers.agree_trans hmod hmod'⟩
    obtain ⟨⟨o, i, m, ea⟩, p, j, n, eb⟩ := Target.nodes_of_equal ht
    obtain ⟨-, q, k, l, ec⟩ := Target.nodes_of_equal ht'
    have fa := (forall_iff_target _).1 (forall_flatten ha)
    have fb := (forall_iff_target _).1 (forall_flatten hb)
    have fc := (forall_iff_target _).1 (forall_flatten hc)
    rw [ea] at fa ht ⊢
    rw [eb] at fb ht ht'
    rw [ec] at fc ht' ⊢
    refine Target.equal_trans_of_contents fa.1 fb.1 fc.1 (fun h h' => ?_) ht ht'
    refine Node.equal_trans_of_parts fa.2 fb.2 fc.2 ?_ h h'
    exact fun e he _ _ he' hb hc => ih o i m ea e he he' hb hc

theorem Node.equal_trans {m n l : Node} (hm : m.Forall (g.Has next)) (hn : n.Forall (g.Has next))
    (hl : l.Forall (g.Has next)) (h : m.equal n = true) (h' : n.equal l = true) :
    m.equal l = true :=
  Node.equal_trans_of_parts hm hn hl
    (fun _ _ _ _ he hb hc => Declaration.equal_trans he hb hc) h h'

end

/-! ## Nodes -/

/-- Nodes are equal if they are one node or have equal contents, however they are held. -/
theorem Declaration.equalNodes_iff {a b : Declaration} :
    a.equalNodes b = true ↔ (a.target = .missing ∧ b.target = .missing) ∨
      ∃ o i m p j n, a.target = .node o i m ∧ b.target = .node p j n ∧
        (i = j ∨ m.equal n = true) := by
  obtain ⟨_, s⟩ := a
  obtain ⟨_, t⟩ := b
  cases s with
  | missing => cases t <;> simp [equalNodes, sameNode?, Target.identity?, Target.equal]
  | node o i m =>
    cases t with
    | missing => simp [equalNodes, sameNode?, Target.identity?, Target.equal]
    | node p j n =>
      show ((some (i == j) == some true) || (Target.node o i m).equal (.node p j n)) = true ↔ _
      rw [Bool.or_eq_true, beq_iff_eq, Option.some.injEq, beq_iff_eq, Target.equal_node_iff]
      constructor
      · intro h
        have h' : i = j ∨ m.equal n = true := by
          rcases h with h | ⟨-, -, h⟩ | h
          · exact .inl h
          · exact .inl h
          · exact .inr h
        exact .inr ⟨o, i, m, p, j, n, rfl, rfl, h'⟩
      · rintro (⟨h, -⟩ | ⟨_, _, _, _, _, _, hs, ht, h⟩)
        · cases h
        · cases hs
          cases ht
          exact h.imp_right .inr

theorem Declaration.equalNodes_symm {a b : Declaration} (h : a.equalNodes b = true) :
    b.equalNodes a = true := by
  rcases equalNodes_iff.1 h with ⟨ha, hb⟩ | ⟨o, i, m, p, j, n, ha, hb, h⟩
  · exact equalNodes_iff.2 (.inl ⟨hb, ha⟩)
  · refine equalNodes_iff.2 (.inr ⟨p, j, n, o, i, m, hb, ha, ?_⟩)
    exact h.imp Eq.symm Node.equal_symm

section

variable {g : Memory} {next : Identity}

theorem Node.equal_trans_of_identity {i j k : Identity} {m n l : Node}
    (hm : g.Has next i m ∧ m.Forall (g.Has next)) (hn : g.Has next j n ∧ n.Forall (g.Has next))
    (hl : g.Has next k l ∧ l.Forall (g.Has next)) (h : i = j ∨ m.equal n = true)
    (h' : j = k ∨ n.equal l = true) : i = k ∨ m.equal l = true := by
  rcases h with rfl | hmn
  · obtain rfl : m = n := hm.1.eq.symm.trans hn.1.eq
    exact h'
  · rcases h' with rfl | hnl
    · obtain rfl : n = l := hn.1.eq.symm.trans hl.1.eq
      exact .inr hmn
    · exact .inr (Node.equal_trans hm.2 hn.2 hl.2 hmn hnl)

theorem Declaration.equalNodes_trans {a b c : Declaration} (ha : a.Forall (g.Has next))
    (hb : b.Forall (g.Has next)) (hc : c.Forall (g.Has next)) (h : a.equalNodes b = true)
    (h' : b.equalNodes c = true) : a.equalNodes c = true := by
  rcases equalNodes_iff.1 h with ⟨ea, eb⟩ | ⟨o, i, m, p, j, n, ea, eb, h⟩ <;>
    rcases equalNodes_iff.1 h' with ⟨eb', ec⟩ | ⟨p', j', n', q, k, l, eb', ec, h'⟩ <;>
    rw [eb] at eb'
  · exact equalNodes_iff.2 (.inl ⟨ea, ec⟩)
  · cases eb'
  · cases eb'
  · cases eb'
    have fa := a.forall_iff_target.1 ha
    have fb := b.forall_iff_target.1 hb
    have fc := c.forall_iff_target.1 hc
    rw [ea] at fa
    rw [eb] at fb
    rw [ec] at fc
    refine equalNodes_iff.2 (.inr ⟨o, i, m, q, k, l, ea, ec, ?_⟩)
    exact Node.equal_trans_of_identity fa fb fc h h'

end

/-! ## Main result -/

/-- **Equality is symmetric and transitive**, of declarations and of their nodes: transitive in any
memory, and everything that a program builds is in one. -/
theorem equality_symm_trans :
    (∀ a b : Declaration, a.equal b = true → b.equal a = true) ∧
      (∀ a b : Declaration, a.equalNodes b = true → b.equalNodes a = true) ∧
      (∀ (g : Memory) (next : Identity) (a b c : Declaration), a.Forall (g.Has next) →
        b.Forall (g.Has next) → c.Forall (g.Has next) →
        (a.equal b = true → b.equal c = true → a.equal c = true) ∧
          (a.equalNodes b = true → b.equalNodes c = true → a.equalNodes c = true)) ∧
      ∀ h : Heap, h.Reachable → ∃ g, h.StoredIn g := by
  refine ⟨fun _ _ => Declaration.equal_symm, fun _ _ => Declaration.equalNodes_symm, ?_, ?_⟩
  · intro g next a b c ha hb hc
    exact ⟨Declaration.equal_trans ha hb hc, Declaration.equalNodes_trans ha hb hc⟩
  · exact fun _ => Heap.Reachable.storedIn

/-- A pointer, an alias of an array that shares its node, and an array that owns a copy, as a program
builds them. -/
theorem equality_symm_trans_array :
    let int : Node := .primitive (.synthetic "int")
    let array : Declaration := ⟨{ dimensions := [{}] }, .node .shared 0 int⟩
    let a : Declaration := ⟨{ pointers := [{}] }, .node .shared 0 int⟩
    let b : Declaration := ⟨{}, .node .shared 1 (.typedef (some (.synthetic "ints")) array)⟩
    let c : Declaration := ⟨{ dimensions := [{}] }, .node .owned 2 int⟩
    a.equal b = true ∧ b.equal c = true ∧ a.equal c = true ∧ c.equal a = true ∧
      b.equalNodes a = false := by
  intro int array a b c
  let shared (i : Identity) (n : Node) : Declaration := .ofTarget (.node .shared i n)
  let ints : Node := .typedef (some (.synthetic "ints")) array
  have h1 : Heap.Reachable ⟨1, [(0, int)], []⟩ := .step .empty (.node nofun)
  have h2 : Heap.Reachable ⟨1, [(0, int)], [shared 0 int]⟩ :=
    h1.step (.declaration (.hold .shared (.head _)))
  have h3 : Heap.Reachable ⟨1, [(0, int)], [a, shared 0 int]⟩ :=
    h2.step (.declaration (.modify (d := shared 0 int) (fun _ => a.modifiers) (.head _)))
  have h4 : Heap.Reachable ⟨1, [(0, int)], [array, a, shared 0 int]⟩ :=
    h3.step (.declaration (.modify (d := a) (fun _ => array.modifiers) (.head _)))
  have h5 : Heap.Reachable ⟨2, [(1, ints), (0, int)], [array, a, shared 0 int]⟩ :=
    h4.step (.node (List.forall_mem_singleton.2 (.head _)))
  have h6 : Heap.Reachable ⟨2, [(1, ints), (0, int)], [b, array, a, shared 0 int]⟩ :=
    h5.step (.declaration (.hold .shared (.head _)))
  have h7 : Heap.Reachable
      ⟨3, [(1, ints), (0, int)], [.ofTarget (.node .owned 2 int), b, array, a, shared 0 int]⟩ :=
    h6.step (.declaration (.own (i := 0) (n := int) (.tail _ (.head _))))
  have h8 : Heap.Reachable ⟨3, [(1, ints), (0, int)],
      [c, .ofTarget (.node .owned 2 int), b, array, a, shared 0 int]⟩ :=
    h7.step (.declaration (.modify (d := .ofTarget (.node .owned 2 int)) (fun _ => c.modifiers) (.head _)))
  obtain ⟨g, hg⟩ := equality_symm_trans.2.2.2 _ h8
  have ha := hg.declarations a (by simp)
  have hb := hg.declarations b (by simp)
  have hc := hg.declarations c (by simp)
  have hab : a.equal b = true := by decide +kernel
  have hbc : b.equal c = true := by decide +kernel
  have hac := (equality_symm_trans.2.2.1 g 3 a b c ha hb hc).1 hab hbc
  exact ⟨hab, hbc, hac, equality_symm_trans.1 a c hac, by decide +kernel⟩

end KernelFront
