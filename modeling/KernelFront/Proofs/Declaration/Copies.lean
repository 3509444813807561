import KernelFront.Proofs.Declaration.PartialEquivalence

/-!
# Copies are indistinguishable

A copy differs from its original in the identities of the nodes that it owns, and equality never
looks at those: `Declaration.unlabeled` forgets them, every copy has the unlabeled form of its
original (`Declaration.unlabeled_copy`), and a declaration is equal to whatever its unlabeled form is
equal to (`Declaration.equal_unlabeled`). A flattened declaration has no alias left to resolve
(`Declaration.flatten_flatten`), and equality flattens anyway. So a declaration can be copied and
flattened any number of times (`Declaration.Rebuilt`), also where it is a part of a function. In
particular equality is that of two copies made for the comparison (`Declaration.equal_iff_copies`).
-/

namespace KernelFront

/-! ## Unlabeled forms -/

mutual

/-- The declaration with one identity for all owned nodes, at any depth. -/
def Declaration.unlabeled : Declaration → Declaration
  | ⟨m, t⟩ => ⟨m, t.unlabeled⟩

def Target.unlabeled : Target → Target
  | .missing => .missing
  | .node .shared i n => .node .shared i n.unlabeled
  | .node .owned _ n => .node .owned 0 n.unlabeled

def Node.unlabeled : Node → Node
  | .primitive name => .primitive name
  | .typedef name base => .typedef name base.unlabeled
  | .function name result parameters form =>
    .function name result.unlabeled parameters.unlabeled form
  | .aggregate name kind => .aggregate name kind

def Parameters.unlabeled : Parameters → Parameters
  | .nil => .nil
  | .cons d name rest => .cons d.unlabeled name rest.unlabeled

end

mutual

/-- A copy takes new identities for what it owns and changes nothing else. -/
theorem Declaration.unlabeled_copy (d : Declaration) (next : Identity) :
    (d.copy.run next).1.unlabeled = d.unlabeled :=
  match d with
  | ⟨m, t⟩ => congrArg (Declaration.mk m) (t.unlabeled_copy next)

theorem Target.unlabeled_copy (t : Target) (next : Identity) :
    (t.copy.run next).1.unlabeled = t.unlabeled :=
  match t with
  | .missing => rfl
  | .node .shared _ _ => rfl
  | .node .owned _ n => congrArg (Target.node .owned 0) (n.unlabeled_copy (next + 1))

theorem Node.unlabeled_copy (n : Node) (next : Identity) :
    (n.copy.run next).1.unlabeled = n.unlabeled :=
  match n with
  | .primitive _ => rfl
  | .typedef name base => congrArg (Node.typedef name) (base.unlabeled_copy next)
  | .function name result ps form =>
    congrArg₂ (fun result ps => Node.function name result ps form) (result.unlabeled_copy next)
      (ps.unlabeled_copy _)
  | .aggregate _ _ => rfl

theorem Parameters.unlabeled_copy (ps : Parameters) (next : Identity) :
    (ps.copy.run next).1.unlabeled = ps.unlabeled :=
  match ps with
  | .nil => rfl
  | .cons d name rest =>
    congrArg₂ (fun d rest => Parameters.cons d name rest) (d.unlabeled_copy next)
      (rest.unlabeled_copy _)

end

theorem Parameters.toList_unlabeled (ps : Parameters) :
    ps.unlabeled.toList.map Prod.fst = (ps.toList.map Prod.fst).map Declaration.unlabeled :=
  match ps with
  | .nil => rfl
  | .cons d _ rest => congrArg (d.unlabeled :: ·) rest.toList_unlabeled

theorem Node.parts_unlabeled (n : Node) :
    n.unlabeled.parts = n.parts.map Declaration.unlabeled := by
  cases n with
  | primitive => rfl
  | typedef => rfl
  | function name result ps form => exact congrArg (result.unlabeled :: ·) ps.toList_unlabeled
  | aggregate => rfl

theorem Node.sameForm_unlabeled {m n : Node} : m.unlabeled.SameForm n ↔ m.SameForm n := by
  cases m <;> cases n <;> exact Iff.rfl

theorem Declaration.modifiers_unlabeled (d : Declaration) : d.unlabeled.modifiers = d.modifiers := by
  cases d
  rfl

theorem Declaration.target_unlabeled (d : Declaration) :
    d.unlabeled.target = d.target.unlabeled := by
  cases d
  rfl

theorem Declaration.flatten_unlabeled (d : Declaration) :
    d.unlabeled.flatten = d.flatten.unlabeled := by
  fun_induction Declaration.flatten d with
  | case1 m o i name base ih =>
    cases o <;>
      simp only [unlabeled, Target.unlabeled, Node.unlabeled, flatten, ih, modifiers_unlabeled,
        target_unlabeled]
  | case2 d h =>
    obtain ⟨m, t⟩ := d
    cases t with
    | missing => rfl
    | node o i n =>
      cases n with
      | typedef name base => exact (h m o i name base rfl).elim
      | primitive => cases o <;> rfl
      | function => cases o <;> rfl
      | aggregate => cases o <;> rfl

/-! ## Equality does not see copies -/

/-- Lists of declarations that are equal to the same declarations are so one by one. -/
theorem Declaration.forall₂_equal_congr {ds ds' : List Declaration}
    (h : List.Forall₂ (fun d d' : Declaration => ∀ e, d'.equal e = d.equal e) ds ds')
    (es : List Declaration) : List.Forall₂ (fun a b => a.equal b = true) ds' es ↔
      List.Forall₂ (fun a b => a.equal b = true) ds es := by
  induction h generalizing es with
  | nil => exact Iff.rfl
  | cons hd _ ih =>
    cases es with
    | nil => simp
    | cons e es => rw [List.forall₂_cons, List.forall₂_cons, hd e, ih]

theorem Node.equal_congr {m m' : Node} (hform : ∀ n, m'.SameForm n ↔ m.SameForm n)
    (hparts : List.Forall₂ (fun d d' : Declaration => ∀ e, d'.equal e = d.equal e) m.parts m'.parts)
    (n : Node) : m'.equal n = m.equal n := by
  rw [Bool.eq_iff_iff, Node.equal_iff, Node.equal_iff, hform,
    Declaration.forall₂_equal_congr hparts]

/-- The identity of a node counts only if the node is shared. -/
theorem Target.equal_congr {o : Holding} {i j : Identity} {m m' : Node}
    (hi : o = .shared → j = i) (h : ∀ n, m'.equal n = m.equal n) (t : Target) :
    (node o j m').equal t = (node o i m).equal t := by
  cases t with
  | missing => simp only [Target.equal]
  | node p k n =>
    rw [Bool.eq_iff_iff, equal_node_iff, equal_node_iff, h]
    exact or_congr_left (and_congr_right fun ho => by rw [hi ho])

/-- A node forgets what its parts forget. -/
theorem Node.equal_unlabeled_of_parts {m : Node}
    (h : ∀ d ∈ m.parts, ∀ e, d.unlabeled.equal e = d.equal e) (n : Node) :
    m.unlabeled.equal n = m.equal n := by
  refine Node.equal_congr (fun _ => Node.sameForm_unlabeled) ?_ n
  rw [Node.parts_unlabeled, List.forall₂_map_right_iff, List.forall₂_same]
  exact h

theorem Declaration.equal_unlabeled (d e : Declaration) : d.unlabeled.equal e = d.equal e := by
  induction d using flatten_induction generalizing e with
  | step d ih =>
    rw [Declaration.equal, Declaration.equal, flatten_unlabeled, modifiers_unlabeled,
      target_unlabeled]
    congr 1
    cases ht : d.flatten.target with
    | missing => rfl
    | node o i m =>
      have hm := Node.equal_unlabeled_of_parts (ih o i m ht)
      cases o with
      | owned =>
        show (Target.node .owned 0 m.unlabeled).equal _ = _
        exact Target.equal_congr (by simp) hm _
      | shared => exact Target.equal_congr (fun _ => rfl) hm _

theorem Declaration.equal_copy (d e : Declaration) (next : Identity) :
    (d.copy.run next).1.equal e = d.equal e := by
  rw [← equal_unlabeled, unlabeled_copy, equal_unlabeled]

theorem Node.equal_copy (m n : Node) (next : Identity) :
    (m.copy.run next).1.equal n = m.equal n := by
  have h (m : Node) : m.unlabeled.equal n = m.equal n :=
    equal_unlabeled_of_parts (fun d _ => d.equal_unlabeled) n
  rw [← h, unlabeled_copy, h]

/-! ## Equality does not see aliases -/

theorem Declaration.flatten_flatten (d : Declaration) : d.flatten.flatten = d.flatten := by
  have h := d.flatten_target_ne_typedef
  generalize d.flatten = f at h
  fun_cases Declaration.flatten f with
  | case1 m o i name base => exact absurd rfl (h o i name base)
  | case2 => rfl

theorem Declaration.equal_flatten (d e : Declaration) : d.flatten.equal e = d.equal e := by
  rw [Declaration.equal, Declaration.equal, flatten_flatten]

/-! ## Rebuilt declarations -/

/-- What becomes of a declaration that is copied and flattened, in any order and number. -/
inductive Declaration.Rebuilt (d : Declaration) : Declaration → Prop where
  | refl : Rebuilt d d
  | copy {e : Declaration} (next : Identity) : Rebuilt d e → Rebuilt d (e.copy.run next).1
  | flatten {e : Declaration} : Rebuilt d e → Rebuilt d e.flatten

theorem Declaration.Rebuilt.equal {d d' : Declaration} (h : d.Rebuilt d') (e : Declaration) :
    d'.equal e = d.equal e := by
  induction h with
  | refl => rfl
  | copy next _ ih => rw [equal_copy, ih]
  | flatten _ ih => rw [equal_flatten, ih]

theorem Node.equal_function_congr {name : Option Token} {form : FunctionForm}
    {result result' : Declaration} {ps ps' : Parameters} (hr : result.Rebuilt result')
    (hps : List.Forall₂ (fun p p' => p.1.Rebuilt p'.1) ps.toList ps'.toList) (n : Node) :
    (function name result' ps' form).equal n = (function name result ps form).equal n := by
  refine Node.equal_congr (fun n => by cases n <;> exact Iff.rfl) (.cons hr.equal ?_) n
  rw [List.forall₂_map_left_iff, List.forall₂_map_right_iff]
  exact hps.imp fun _ _ h => h.equal

theorem Declaration.equal_comm (a b : Declaration) : a.equal b = b.equal a :=
  Bool.eq_iff_iff.2 ⟨equal_symm, equal_symm⟩

theorem Node.equal_comm (m n : Node) : m.equal n = n.equal m :=
  Bool.eq_iff_iff.2 ⟨equal_symm, equal_symm⟩

/-! ## What is compared -/

theorem Node.equal_copy_right (m n : Node) (next : Identity) :
    m.equal (n.copy.run next).1 = m.equal n := by
  rw [m.equal_comm, equal_copy, n.equal_comm]

/-- Nodes are compared as two others that are equal where they are, under identities that coincide only for
one shared node. -/
theorem Target.equal_node_iff_relabeled {o p : Holding} {i i' j j' : Identity} {m m' n n' : Node}
    (hi : i' = j' ↔ o = .shared ∧ p = .shared ∧ i = j) (hm : m'.equal n' = m.equal n) :
    (node o i m).equal (node p j n) = true ↔
      ∃ q k a r l b, node o i' m' = node q k a ∧ node p j' n' = node r l b ∧
        (k = l ∨ a.equal b = true) := by
  rw [equal_node_iff, ← hi, ← hm]
  constructor
  · exact fun h => ⟨_, _, _, _, _, _, rfl, rfl, h⟩
  · rintro ⟨_, _, _, _, _, _, ⟨⟩, ⟨⟩, h⟩
    exact h

/-- Two nodes are compared as their copies are, of which only shared ones can have one identity. -/
theorem Target.equal_iff_copies {s t : Target} {next : Identity} (hs : s.Forall fun i _ => i < next)
    (ht : t.Forall fun i _ => i < next) :
    s.equal t = true ↔ ∃ o i m p j n, (s.copy.run next).1 = .node o i m ∧
      (t.copy.run (s.copy.run next).2).1 = .node p j n ∧ (i = j ∨ m.equal n = true) := by
  match s, t with
  | .missing, _ =>
    refine iff_of_false (by simp [equal]) ?_
    rintro ⟨_, _, _, _, _, _, h, -⟩
    cases h
  | .node .., .missing =>
    refine iff_of_false (by simp [equal]) ?_
    rintro ⟨_, _, _, _, _, _, -, h, -⟩
    cases h
  | .node .shared i m, .node .shared j n => exact equal_node_iff_relabeled (by simp) rfl
  | .node .shared i m, .node .owned j n =>
    -- The identity of an owned node is new, and so no other node has it.
    exact equal_node_iff_relabeled (iff_of_false (Nat.ne_of_lt hs.1) (by simp))
      (m.equal_copy_right n _)
  | .node .owned i m, .node .shared j n =>
    exact equal_node_iff_relabeled (iff_of_false (Nat.ne_of_gt ht.1) (by simp)) (m.equal_copy n _)
  | .node .owned i m, .node .owned j n =>
    have hlt : next < (m.copy.run (next + 1)).2 := m.le_copy (next + 1)
    exact equal_node_iff_relabeled (iff_of_false (Nat.ne_of_lt hlt) (by simp))
      ((Node.equal_copy_right _ n _).trans (m.equal_copy n _))

theorem Declaration.isValid_of_target {d : Declaration} {o : Holding} {i : Identity} {n : Node}
    (h : d.target = .node o i n) : d.isValid = true := by
  rw [isValid, node?, h]
  rfl

/-- **Equality is that of two flattened copies**: both have a node, their nodes are equal as they are, and
their modifiers agree. The copies take identities that were not used before, so that of the nodes at the
ends of their chains only a shared one can be on both sides. -/
theorem Declaration.equal_iff_copies {a b : Declaration} {next : Identity}
    (ha : a.Forall fun i _ => i < next) (hb : b.Forall fun i _ => i < next) :
    let first := a.flatten.copy.run next
    let second := b.flatten.copy.run first.2
    a.equal b = true ↔ first.1.isValid = true ∧ second.1.isValid = true ∧
      first.1.equalNodes second.1 = true ∧ first.1.modifiers.agree second.1.modifiers = true := by
  have ha := forall_flatten ha
  have hb := forall_flatten hb
  rw [equal_iff]
  generalize a.flatten = a at ha
  generalize b.flatten = b at hb
  obtain ⟨m, s⟩ := a
  obtain ⟨n, t⟩ := b
  intro first second
  rw [Target.equal_iff_copies ha hb, equalNodes_iff]
  constructor
  · rintro ⟨hnodes, hagree⟩
    obtain ⟨o, i, x, p, j, y, hs, ht, -⟩ := id hnodes
    exact ⟨isValid_of_target hs, isValid_of_target ht, .inr hnodes, hagree⟩
  · rintro ⟨hvalid, -, ⟨hs, -⟩ | hnodes, hagree⟩
    · rw [isValid, node?, hs] at hvalid
      cases hvalid
    · exact ⟨hnodes, hagree⟩

/-! ## Main result -/

/-- **Equality tells a declaration neither from its copies nor from its flattened form**, on both
sides; and it tells a function from no other one that is built of copies and flattened forms of the
same result and parameters, whoever owns them. -/
theorem equality_ignores_copies :
    (∀ (d e : Declaration) (next : Identity),
      ((d.copy.run next).1.equal e = d.equal e ∧ e.equal (d.copy.run next).1 = e.equal d) ∧
      (d.flatten.equal e = d.equal e ∧ e.equal d.flatten = e.equal d) ∧
      ((d.flatten.copy.run next).1.equal e = d.equal e ∧
        e.equal (d.flatten.copy.run next).1 = e.equal d)) ∧
    ∀ (name : Option Token) (form : FunctionForm) (result result' : Declaration)
      (ps ps' : Parameters), result.Rebuilt result' →
      List.Forall₂ (fun p p' => p.1.Rebuilt p'.1) ps.toList ps'.toList →
      let f := Node.function name result ps form
      let f' := Node.function name result' ps' form
      (∀ n, f'.equal n = f.equal n ∧ n.equal f' = n.equal f) ∧
      ∀ (m : Modifiers) (i j : Identity) (e : Declaration),
        let d : Declaration := ⟨m, .node .owned i f⟩
        let d' : Declaration := ⟨m, .node .owned j f'⟩
        d'.equal e = d.equal e ∧ e.equal d' = e.equal d := by
  have hboth {d d' : Declaration} (h : ∀ e, d'.equal e = d.equal e) (e : Declaration) :
      d'.equal e = d.equal e ∧ e.equal d' = e.equal d :=
    ⟨h e, by rw [e.equal_comm, h, d.equal_comm]⟩
  constructor
  · intro d e next
    exact ⟨hboth (d.equal_copy · next) e, hboth d.equal_flatten e,
      hboth (Declaration.Rebuilt.refl.flatten.copy next).equal e⟩
  · intro name form result result' ps ps' hr hps f f'
    have hf : ∀ n, f'.equal n = f.equal n := Node.equal_function_congr hr hps
    refine ⟨fun n => ⟨hf n, ?_⟩, fun m i j e => hboth (fun e => ?_) e⟩
    · rw [n.equal_comm, hf, f.equal_comm]
    · have ht : (Target.node .owned j f').equal e.flatten.target =
          (Target.node .owned i f).equal e.flatten.target := Target.equal_congr (by simp) hf _
      rw [Declaration.equal, Declaration.equal]
      exact congrArg (· && _) ht

/-- A function whose result is copied and whose parameter is flattened, both of them aliases of a
pointer: the two are still equal to one that is written without the alias. -/
theorem equality_ignores_copies_alias :
    let int : Declaration := .ofTarget (.node .shared 0 (.primitive (.synthetic "int")))
    let pointer : Declaration := ⟨{ pointers := [{}] }, int.target⟩
    let link : Declaration := .ofTarget (.node .owned 1 (.typedef none pointer))
    let f : Node := .function none link (.cons link none .nil) {}
    let f' : Node :=
      .function none (link.copy.run 7).1 (.cons link.flatten (some (.synthetic "p")) .nil) {}
    let g : Node := .function none pointer (.cons pointer none .nil) {}
    (link.copy.run 7).1.target ≠ link.target ∧ f.equal g = true ∧ f'.equal g = true ∧
      g.equal f' = true ∧ g.equal f = true := by
  intro int pointer link f f' g
  have hf : f.equal g = true := by decide +kernel
  have hg : g.equal f = true := by decide +kernel
  obtain ⟨hfg, hgf⟩ := (equality_ignores_copies.2 none {} link (link.copy.run 7).1
    (.cons link none .nil) (.cons link.flatten (some (.synthetic "p")) .nil) (.copy 7 .refl)
    (.cons (.flatten .refl) .nil)).1 g
  exact ⟨nofun, hf, hfg.trans hf, hgf.trans hg, hg⟩

end KernelFront
