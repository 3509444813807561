import KernelFront.Proofs.Declaration.Chains

/-!
# Declarations are composed of equal ones

Whatever is added to a declaration stands behind its modifiers as those of an alias stand behind what it
aliases (`Change.run_eq`), and `Modifiers.after` is associative: so a change of the declaration is the
same change of its flattened form (`Declaration.flatten_modify`), wherever a modifier is held. Agreement
survives it as long as the pointer levels that are added are unqualified (`Modifiers.agree_after`): levels
are compared by position, and what is added may stand at another position on each side.
-/

namespace KernelFront

/-! ## Modifiers behind modifiers -/

namespace Modifiers

theorem after_assoc (x m k : Modifiers) : x.after (m.after k) = (x.after m).after k := by
  simp only [after, Qualifiers.extend_extend, List.append_assoc, Option.or_assoc]

theorem empty_after (m : Modifiers) : ({} : Modifiers).after m = m := by
  simp only [after, List.append_nil, Option.none_or]
  rfl

end Modifiers

theorem Pointer.has_qualifiersAt_append {xs : List Pointer}
    (hxs : ∀ p ∈ xs, p.qualifiers.isEmpty = true) (ps : List Pointer) (k : Nat) (q : Qualifier) :
    (qualifiersAt (ps ++ xs) k).has q = (qualifiersAt ps k).has q := by
  rcases Nat.lt_or_ge k ps.length with hk | hk
  · rw [qualifiersAt, List.getElem?_append_left hk, qualifiersAt]
  · have hnone : qualifiersAt ps k = .empty := by rw [qualifiersAt, List.getElem?_eq_none hk]; rfl
    have hall := (Pointer.all_isEmpty_iff xs).1 (List.all_eq_true.2 hxs) (k - ps.length)
    rw [qualifiersAt, List.getElem?_append_right hk, hnone]
    exact Qualifiers.sameAs_iff.1 hall q

/-- The same modifiers behind others that agree; a qualified level could stand behind a pointer on one
side and behind a dimension on the other. -/
theorem Modifiers.agree_after {m n x : Modifiers} (hx : ∀ p ∈ x.pointers, p.qualifiers.isEmpty = true)
    (h : m.agree n = true) : (x.after m).agree (x.after n) = true := by
  obtain ⟨hreference, hqualifiers, hlevels, hpointers⟩ := (agree_iff m n).1 h
  refine (agree_iff _ _).2 ⟨?_, ?_, ?_, fun k => ?_⟩
  · simp only [isReference, after, Option.isSome_or] at hreference ⊢
    rw [hreference]
  · refine Qualifiers.sameAs_iff.2 fun q => ?_
    simp only [after, Qualifiers.has_extend, Qualifiers.sameAs_iff.1 hqualifiers q]
  · simp only [levels, after, List.length_append] at hlevels ⊢
    omega
  · refine Qualifiers.sameAs_iff.2 fun q => ?_
    simp only [after, Pointer.has_qualifiersAt_append hx]
    exact Qualifiers.sameAs_iff.1 (hpointers k) q

/-! ## Changes -/

namespace Declaration

variable (d : Declaration)

theorem addQualifiers_eq (s : Qualifiers) :
    d.addQualifiers s = d.modify (Modifiers.after { qualifiers := s }) := by
  simp [addQualifiers, withQualifiers, modify, Modifiers.after]

theorem withQualifiers_insert (q : Qualifier) (span : Span) :
    d.withQualifiers (d.modifiers.qualifiers.insert q span) =
      d.modify (Modifiers.after { qualifiers := Qualifiers.empty.insert q span }) := by
  rw [← addQualifiers_eq, addQualifiers, Qualifiers.extend_insert, Qualifiers.extend_empty]

theorem extendPointers_eq (ps : List Pointer) :
    d.extendPointers ps = d.modify (Modifiers.after { pointers := ps }) := by
  simp [extendPointers, modify, Modifiers.after, Qualifiers.extend_empty]

theorem extendDimensions_eq (dims : List Dimension) :
    d.extendDimensions dims = d.modify (Modifiers.after { dimensions := dims }) := by
  simp [extendDimensions, modify, Modifiers.after, Qualifiers.extend_empty]

theorem setReference_eq (t : Token) :
    d.setReference t = d.modify (Modifiers.after { reference := some t }) := by
  simp [setReference, modify, Modifiers.after, Qualifiers.extend_empty]

end Declaration

/-- What can be added to a declaration. -/
inductive Change where
  | addQualifier (q : Qualifier) (span : Span)
  | insertQualifier (q : Qualifier)
  | addQualifiers (s : Qualifiers)
  | pushPointer (p : Pointer)
  | extendPointers (ps : List Pointer)
  | pushDimension (dim : Dimension)
  | extendDimensions (dims : List Dimension)
  | setReference (t : Token)

namespace Change

def run (d : Declaration) : Change → Declaration
  | addQualifier q span => (d.addQualifier q span).2
  | insertQualifier q => d.insertQualifier q
  | addQualifiers s => d.addQualifiers s
  | pushPointer p => d.pushPointer p
  | extendPointers ps => d.extendPointers ps
  | pushDimension dim => d.pushDimension dim
  | extendDimensions dims => d.extendDimensions dims
  | setReference t => d.setReference t

/-- The modifiers that a change comes down to. -/
def added : Change → Modifiers
  | addQualifier q span => { qualifiers := Qualifiers.empty.insert q span }
  | insertQualifier q => { qualifiers := Qualifiers.empty.insert q {} }
  | addQualifiers s => { qualifiers := s }
  | pushPointer p => { pointers := [p] }
  | extendPointers ps => { pointers := ps }
  | pushDimension dim => { dimensions := [dim] }
  | extendDimensions dims => { dimensions := dims }
  | setReference t => { reference := some t }

/-- The pointer levels that a change adds are unqualified. -/
def Plain : Change → Prop
  | pushPointer p => p.qualifiers.isEmpty = true
  | extendPointers ps => ∀ p ∈ ps, p.qualifiers.isEmpty = true
  | _ => True

/-- A change puts its modifiers behind those that are there. -/
theorem run_eq (c : Change) (d : Declaration) : c.run d = d.modify c.added.after := by
  cases c with
  | addQualifier q span =>
    show d.withQualifiers (d.modifiers.qualifiers.add q span).2 = _
    rw [Qualifiers.add_snd]
    exact d.withQualifiers_insert q span
  | insertQualifier q => exact d.withQualifiers_insert q {}
  | addQualifiers s => exact d.addQualifiers_eq s
  | pushPointer p => exact d.extendPointers_eq [p]
  | extendPointers ps => exact d.extendPointers_eq ps
  | pushDimension dim => exact d.extendDimensions_eq [dim]
  | extendDimensions dims => exact d.extendDimensions_eq dims
  | setReference t => exact d.setReference_eq t

theorem Plain.pointers {c : Change} (h : c.Plain) :
    ∀ p ∈ c.added.pointers, p.qualifiers.isEmpty = true := by
  cases c with
  | pushPointer p => exact List.forall_mem_singleton.2 h
  | extendPointers ps => exact h
  | _ => exact nofun

end Change

namespace Declaration

theorem aliased?_modify (d : Declaration) (f : Modifiers → Modifiers) :
    (d.modify f).aliased? = d.aliased? := by
  obtain ⟨_, t⟩ := d
  cases t with
  | missing => rfl
  | node o i n => cases n <;> rfl

/-- What is put behind a declaration stands behind everything that its aliases add. -/
theorem flatten_modify (d : Declaration) (x : Modifiers) :
    (d.modify x.after).flatten = d.flatten.modify x.after := by
  have h' := d.aliased?_modify x.after
  cases h : d.aliased? with
  | none => rw [flatten_of_not_aliased h, flatten_of_not_aliased (h'.trans h)]
  | some e =>
    rw [flatten_of_aliased h, flatten_of_aliased (h'.trans h)]
    exact congrArg (mk · _) (Modifiers.after_assoc ..).symm

theorem equal_run {a b : Declaration} {c : Change} (hc : c.Plain) (h : a.equal b = true) :
    (c.run a).equal (c.run b) = true := by
  obtain ⟨htarget, hmodifiers⟩ := equal_iff.1 h
  rw [c.run_eq, c.run_eq, equal_iff, flatten_modify, flatten_modify]
  exact ⟨htarget, Modifiers.agree_after hc.pointers hmodifiers⟩

theorem equal_foldl_run {a b : Declaration} {cs : List Change} (hcs : ∀ c ∈ cs, c.Plain)
    (h : a.equal b = true) :
    (cs.foldl (fun d c => c.run d) a).equal (cs.foldl (fun d c => c.run d) b) = true := by
  induction cs generalizing a b with
  | nil => exact h
  | cons c cs ih =>
    obtain ⟨hc, hcs⟩ := List.forall_mem_cons.1 hcs
    exact ih hcs (equal_run hc h)

/-! ## Aliases -/

theorem equal_alias (d e : Declaration) (o : Holding) (i : Identity) (name : Option Token) :
    (ofTarget (.node o i (.typedef name d))).equal e = d.equal e := by
  have hflatten : (ofTarget (.node o i (.typedef name d))).flatten = d.flatten := by
    rw [flatten_of_aliased rfl, ofTarget, Modifiers.empty_after]
    cases d.flatten
    rfl
  rw [← equal_flatten, hflatten, equal_flatten]

/-- An alias as it is declared, by its name or as a copy. -/
theorem equal_published (d e : Declaration) (i next : Identity) (name : Option Token) :
    (ofTarget ((Target.ofPublished i (.typedef name d)).run next).1).equal e = d.equal e := by
  unfold Target.ofPublished
  split
  · exact equal_alias d e .shared i name
  · rw [← equal_alias d e .owned i name]
    exact equal_copy (ofTarget (.node .owned i (.typedef name d))) e next

end Declaration

/-- Two declarations that are made from two others in the same way. -/
inductive Composed (a b : Declaration) : Declaration → Declaration → Prop where
  | start : Composed a b a b
  | change {d e : Declaration} {c : Change} : c.Plain → Composed a b d e →
      Composed a b (c.run d) (c.run e)
  | copy {d e : Declaration} (next next' : Identity) : Composed a b d e →
      Composed a b (d.copy.run next).1 (e.copy.run next').1
  /-- The declarations of two new aliases; the names of these and their identities may differ. -/
  | published {d e : Declaration} (name name' : Option Token) (i i' next next' : Identity) :
      Composed a b d e → Composed a b
        (.ofTarget ((Target.ofPublished i (.typedef name d)).run next).1)
        (.ofTarget ((Target.ofPublished i' (.typedef name' e)).run next').1)

theorem Composed.equal {a b d e : Declaration} (h : Composed a b d e) (hab : a.equal b = true) :
    d.equal e = true := by
  induction h with
  | start => exact hab
  | change hc _ ih => exact Declaration.equal_run hc ih
  | copy next next' _ ih =>
    rw [Declaration.equal_copy, Declaration.equal_comm, Declaration.equal_copy, Declaration.equal_comm]
    exact ih
  | published name name' i i' next next' _ ih =>
    rw [Declaration.equal_published, Declaration.equal_comm, Declaration.equal_published,
      Declaration.equal_comm]
    exact ih

/-- **Equal declarations stay equal** if both are changed alike, where a pointer level that is added is
unqualified; so are two new aliases of them, of whatever names, and the declarations of these; and so is
all that is made of both by changes and aliases in turn. -/
theorem composition_preserves_equality (a b : Declaration) (hab : a.equal b = true) :
    (∀ cs : List Change, (∀ c ∈ cs, c.Plain) →
      (cs.foldl (fun d c => c.run d) a).equal (cs.foldl (fun d c => c.run d) b) = true) ∧
    (∀ name name' : Option Token, (Node.typedef name a).equal (.typedef name' b) = true ∧
      (∀ (o o' : Holding) (i i' : Identity),
        (Declaration.ofTarget (.node o i (.typedef name a))).equal
          (.ofTarget (.node o' i' (.typedef name' b))) = true) ∧
      ∀ i i' next next' : Identity,
        (Declaration.ofTarget ((Target.ofPublished i (.typedef name a)).run next).1).equal
          (.ofTarget ((Target.ofPublished i' (.typedef name' b)).run next').1) = true) ∧
    ∀ d e : Declaration, Composed a b d e → d.equal e = true := by
  refine ⟨fun cs hcs => Declaration.equal_foldl_run hcs hab, fun name name' => ⟨?_, ?_, ?_⟩,
    fun d e h => h.equal hab⟩
  · rw [Node.equal]
    exact hab
  · intro o o' i i'
    rw [Declaration.equal_alias, Declaration.equal_comm, Declaration.equal_alias, Declaration.equal_comm]
    exact hab
  · intro i i' next next'
    exact (Composed.published name name' i i' next next' .start).equal hab

/-- A pointer that is constant in an alias, and an array that is constant itself: after the same changes,
one of which finds its qualifier there on one side only, both are aliased, the second without a name, and
changed again. -/
theorem composition_preserves_equality_array :
    let constant : Qualifiers := Qualifiers.empty.insert .const {}
    let int : Target := .node .shared 0 (.primitive (.synthetic "int"))
    let pointer : Declaration := ⟨{ qualifiers := constant, pointers := [{}] }, int⟩
    let a : Declaration := .ofTarget (.node .shared 1 (.typedef (some (.synthetic "p")) pointer))
    let b : Declaration := ⟨{ qualifiers := constant, dimensions := [{}] }, int⟩
    let changes : List Change := [.addQualifier .const ⟨0, 5⟩, .pushPointer {},
      .addQualifiers (Qualifiers.empty.insert .volatile {}), .extendDimensions [{}, {}]]
    let d := changes.foldl (fun d c => c.run d) a
    let e := changes.foldl (fun d c => c.run d) b
    let x : Declaration :=
      .ofTarget ((Target.ofPublished 2 (.typedef (some (.synthetic "x")) d)).run 4).1
    let y : Declaration := .ofTarget ((Target.ofPublished 3 (.typedef none e)).run 4).1
    let t : Token := .synthetic "&"
    a.equal b = true ∧ d.equal e = true ∧ x.target.isShared ≠ y.target.isShared ∧
      (x.setReference t).equal (y.setReference t) = true := by
  intro constant int pointer a b changes d e x y t
  have hab : a.equal b = true := by decide +kernel
  have hplain : ∀ c ∈ changes, c.Plain := by
    intro c hc
    simp only [changes, List.mem_cons, List.not_mem_nil, or_false] at hc
    rcases hc with rfl | rfl | rfl | rfl
    · trivial
    · rfl
    · trivial
    · trivial
  obtain ⟨hchanges, -, -⟩ := composition_preserves_equality a b hab
  have hde : d.equal e = true := hchanges changes hplain
  have hxy := (composition_preserves_equality d e hde).2.2 _ _
    (.change (c := .setReference t) trivial (.published (some (.synthetic "x")) none 2 3 4 4 .start))
  exact ⟨hab, hde, by decide +kernel, hxy⟩

/-- A qualified level would not do: it stands first behind an array and second behind a pointer. -/
example :
    let int : Target := .node .shared 0 (.primitive (.synthetic "int"))
    let a : Declaration := ⟨{ pointers := [{}] }, int⟩
    let b : Declaration := ⟨{ dimensions := [{}] }, int⟩
    let p : Pointer := ⟨Qualifiers.empty.insert .const {}⟩
    a.equal b = true ∧ (a.pushPointer p).equal (b.pushPointer p) = false := by
  decide +kernel

end KernelFront
