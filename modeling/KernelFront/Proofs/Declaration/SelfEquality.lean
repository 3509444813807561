import KernelFront.Proofs.Declaration.Agreement
import KernelFront.Proofs.Declaration.Equality

/-!
# What is equal to itself

A declaration is compared with itself through two copies. A shared node is in both, and what is
below it is not looked at; an owned node is in each of them under an identity of its own, and its
parts are compared in turn. So the comparison can only fail at a node that is missing, or at an
aggregate that is owned: that one is equal to itself and still not to its copy.
-/

namespace KernelFront

/-- The targets that come up where a declaration is compared with itself. -/
inductive Declaration.Meets : Declaration → Target → Prop where
  | flattened (d : Declaration) : Meets d d.flatten.target
  | inner {d e : Declaration} {t : Target} {i : Identity} {n : Node} :
      d.flatten.target = .node .owned i n → e ∈ n.parts → Meets e t → Meets d t

/-- An aggregate that is no one else's. -/
def Target.IsOwnedAggregate (t : Target) : Prop :=
  ∃ i name kind, t = .node .owned i (.aggregate name kind)

theorem Node.sameForm_self_iff (n : Node) : n.SameForm n ↔ ∀ name kind, n ≠ .aggregate name kind := by
  cases n <;> simp [Node.SameForm]

theorem Node.equal_self_iff (n : Node) :
    n.equal n = true ↔
      (∀ name kind, n ≠ .aggregate name kind) ∧ ∀ e ∈ n.parts, e.equal e = true := by
  rw [Node.equal_iff, Node.sameForm_self_iff, List.forall₂_same]

theorem Target.equal_self_iff (t : Target) :
    t.equal t = true ↔ t ≠ .missing ∧ ∀ i n, t = .node .owned i n → n.equal n = true := by
  cases t with
  | missing => simp [Target.equal]
  | node o i n =>
    rw [Target.equal_node_iff]
    cases o <;> simp

theorem Declaration.equal_self_iff (d : Declaration) :
    d.equal d = true ↔ d.flatten.target.equal d.flatten.target = true := by
  rw [Declaration.equal_iff, and_iff_left (Modifiers.agree_self _)]

/-- Self-equality, one level at a time. -/
theorem Declaration.equal_self_step (d : Declaration) :
    d.equal d = true ↔
      (d.flatten.target ≠ .missing ∧ ¬ d.flatten.target.IsOwnedAggregate) ∧
        ∀ i n, d.flatten.target = .node .owned i n → ∀ e ∈ n.parts, e.equal e = true := by
  rw [Declaration.equal_self_iff, Target.equal_self_iff, and_assoc]
  refine and_congr_right fun _ => ?_
  simp only [Node.equal_self_iff]
  constructor
  · intro h
    refine ⟨?_, fun i n ht => (h i n ht).2⟩
    rintro ⟨i, name, kind, ht⟩
    exact (h i _ ht).1 name kind rfl
  · rintro ⟨hagg, hparts⟩ i n ht
    refine ⟨?_, hparts i n ht⟩
    rintro name kind rfl
    exact hagg ⟨i, name, kind, ht⟩

theorem Declaration.meets_iff {d : Declaration} {t : Target} :
    d.Meets t ↔ t = d.flatten.target ∨
      ∃ i n e, d.flatten.target = .node .owned i n ∧ e ∈ n.parts ∧ e.Meets t := by
  constructor
  · rintro (_ | ⟨ht, he, h⟩)
    · exact .inl rfl
    · exact .inr ⟨_, _, _, ht, he, h⟩
  · rintro (rfl | ⟨i, n, e, ht, he, h⟩)
    · exact .flattened d
    · exact .inner ht he h

theorem Declaration.equal_self_iff_meets (d : Declaration) :
    d.equal d = true ↔ ∀ t, d.Meets t → t ≠ .missing ∧ ¬ t.IsOwnedAggregate := by
  induction d using flatten_induction with
  | step d ih =>
    rw [Declaration.equal_self_step]
    constructor
    · rintro ⟨hhere, hinner⟩ t ht
      rcases meets_iff.1 ht with rfl | ⟨i, n, e, hn, he, hmeets⟩
      · exact hhere
      · exact (ih _ i n hn e he).1 (hinner i n hn e he) t hmeets
    · intro h
      refine ⟨h _ (.flattened d), fun i n hn e he => ?_⟩
      exact (ih _ i n hn e he).2 fun t ht => h t (.inner hn he ht)

/-- An alias adds modifiers, and those agree with themselves. -/
theorem Declaration.equal_self_typedef (m : Modifiers) (o : Holding) (i : Identity)
    (name : Option Token) (base : Declaration) :
    (mk m (.node o i (.typedef name base))).equal (mk m (.node o i (.typedef name base))) = true ↔
      base.equal base = true := by
  rw [Declaration.equal_self_iff, Declaration.equal_self_iff base, Declaration.flatten]

/-- **A declaration is equal to itself if all that it meets are nodes and none is an owned
aggregate**, and two declarations of one alias with the same modifiers are equal if what it aliases
is equal to itself. -/
theorem equal_self_iff_no_owned_aggregate (d : Declaration) :
    (d.equal d = true ↔
      (∀ t, d.Meets t → t ≠ .missing) ∧ ∀ t, d.Meets t → ¬ t.IsOwnedAggregate) ∧
      ∀ (m : Modifiers) (i : Identity) (name : Option Token),
        (Declaration.mk m (.node .shared i (.typedef name d))).equal
          (Declaration.mk m (.node .shared i (.typedef name d))) = true ↔ d.equal d = true := by
  constructor
  · rw [Declaration.equal_self_iff_meets]
    exact forall₂_and
  · intro m i name
    exact Declaration.equal_self_typedef m .shared i name d

/-- A function that takes a named structure is equal to itself, and so is an alias of it. -/
theorem equal_self_function :
    let point : Declaration :=
      .ofTarget (.node .shared 0 (.aggregate (some (.synthetic "point")) .structType))
    let f : Declaration :=
      .ofTarget (.node .owned 1 (.function none point (.cons point none .nil) {}))
    let x : Declaration := .ofTarget (.node .shared 2 (.typedef (some (.synthetic "F")) f))
    f.equal f = true ∧ (∀ t, f.Meets t → ¬ t.IsOwnedAggregate) ∧ x.equal x = true := by
  intro point f x
  obtain ⟨hself, halias⟩ := equal_self_iff_no_owned_aggregate f
  have hf : f.equal f = true := by decide +kernel
  exact ⟨hf, (hself.1 hf).2, (halias {} 2 (some (.synthetic "F"))).2 hf⟩

/-- A structure without a name is valid and not equal to itself, and neither is an alias of it. -/
theorem equal_self_fails_anonymous :
    let d : Declaration := .ofTarget ((Target.ofPublished 0 (.aggregate none .structType)).run 1).1
    let x : Declaration := .ofTarget (.node .shared 2 (.typedef (some (.synthetic "T")) d))
    (d.flatten.isValid = true ∧ (∀ t, d.Meets t → t ≠ .missing) ∧ d.equal d = false) ∧
      x.flatten.isValid = true ∧ (∀ t, x.Meets t → t ≠ .missing) ∧ x.equal x = false := by
  intro d x
  have hvalid (e : Declaration) (he : e.flatten.target = .node .owned 1 (.aggregate none .structType))
      (t : Target) (ht : e.Meets t) : t ≠ .missing := by
    rcases Declaration.meets_iff.1 ht with rfl | ⟨i, n, c, hn, hc, -⟩
    · rw [he]
      exact nofun
    · rw [he] at hn
      cases hn
      cases hc
  exact ⟨⟨rfl, hvalid d rfl, by decide +kernel⟩, rfl, hvalid x rfl, by decide +kernel⟩

end KernelFront
