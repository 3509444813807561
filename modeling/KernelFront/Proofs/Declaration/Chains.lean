import KernelFront.Proofs.Declaration.Copies
import KernelFront.Proofs.Declaration.Unions

/-!
# Chains of aliases

The chain of a declaration goes from an alias to what it stands for, up to the first declaration that is
no alias (`AliasChain`). Flattening merges the modifiers along it by three rules, which
`Modifiers.merge` states for the whole chain at once: lists are appended from the inside out, qualifiers
likewise with each where it comes first, and of the tokens the outermost one is kept. One more alias in
front is one more `Modifiers.after` (`Modifiers.merge_cons`), and so the induction is over the chain.
-/

namespace KernelFront

/-- What the declaration is an alias of. -/
def Declaration.aliased? : Declaration → Option Declaration
  | ⟨_, .node _ _ (.typedef _ base)⟩ => some base
  | _ => none

/-- The declarations from one to the first that is no alias. -/
inductive AliasChain : List Declaration → Prop where
  | last {d : Declaration} : d.aliased? = none → AliasChain [d]
  | link {d e : Declaration} {ds : List Declaration} : d.aliased? = some e → AliasChain (e :: ds) →
      AliasChain (d :: e :: ds)

/-- What a copy has in place of a node: a shared node itself, and for an owned one a node under the next
identity that differs from it in identities alone. -/
inductive Target.Copied (next : Identity) : Target → Target → Prop where
  | missing : Copied next .missing .missing
  | shared (i : Identity) (n : Node) : Copied next (.node .shared i n) (.node .shared i n)
  | owned {i : Identity} {n n' : Node} : n'.unlabeled = n.unlabeled →
      Copied next (.node .owned i n) (.node .owned next n')

theorem Target.copied_copy (t : Target) (next : Identity) : t.Copied next (t.copy.run next).1 := by
  cases t with
  | missing => exact .missing
  | node o i n =>
    cases o with
    | owned => exact .owned (n.unlabeled_copy (next + 1))
    | shared => exact .shared i n

namespace Modifiers

/-- The modifiers along a chain, the outermost first. -/
def merge (ms : List Modifiers) : Modifiers where
  qualifiers := Qualifiers.empty.insertAll (ms.reverse.flatMap fun m => m.qualifiers.entries)
  pointers := ms.reverse.flatMap Modifiers.pointers
  dimensions := ms.reverse.flatMap Modifiers.dimensions
  reference := ms.findSome? Modifiers.reference
  name := ms.findSome? Modifiers.name

theorem merge_singleton (m : Modifiers) : merge [m] = m := by
  simp [merge, Qualifiers.insertAll_entries]

theorem findSome?_cons_eq_or {α : Type} (f : Modifiers → Option α) (m : Modifiers)
    (ms : List Modifiers) : (m :: ms).findSome? f = (f m).or (ms.findSome? f) := by
  rw [List.findSome?_cons]
  cases f m <;> rfl

theorem merge_cons (m : Modifiers) (ms : List Modifiers) : merge (m :: ms) = m.after (merge ms) := by
  simp [merge, after, findSome?_cons_eq_or, Qualifiers.insertAll_append, Qualifiers.extend_eq]

end Modifiers

namespace Declaration

theorem aliased?_eq_some_iff {d e : Declaration} :
    d.aliased? = some e ↔ ∃ m o i name, d = ⟨m, .node o i (.typedef name e)⟩ := by
  constructor
  · intro h
    unfold aliased? at h
    split at h
    · cases h
      exact ⟨_, _, _, _, rfl⟩
    · cases h
  · rintro ⟨m, o, i, name, rfl⟩
    rfl

theorem aliased?_eq_none_iff {d : Declaration} :
    d.aliased? = none ↔ ∀ m o i name e, d ≠ ⟨m, .node o i (.typedef name e)⟩ := by
  simp only [Option.eq_none_iff_forall_ne_some, ne_eq, aliased?_eq_some_iff, not_exists]
  exact ⟨fun h m o i name e => h e m o i name, fun h e m o i name => h m o i name e⟩

theorem flatten_of_aliased {d e : Declaration} (h : d.aliased? = some e) :
    d.flatten = ⟨d.modifiers.after e.flatten.modifiers, e.flatten.target⟩ := by
  obtain ⟨m, o, i, name, rfl⟩ := aliased?_eq_some_iff.1 h
  rfl

theorem flatten_of_not_aliased {d : Declaration} (h : d.aliased? = none) : d.flatten = d := by
  fun_cases flatten d with
  | case1 => cases h
  | case2 => rfl

/-- No alias is left. -/
theorem aliased?_flatten (d : Declaration) : d.flatten.aliased? = none :=
  aliased?_eq_none_iff.2 fun _ o i name e h =>
    d.flatten_target_ne_typedef o i name e (congrArg Declaration.target h)

end Declaration

/-- Every declaration starts a chain. -/
theorem AliasChain.exists_cons (d : Declaration) : ∃ ds, AliasChain (d :: ds) := by
  fun_induction Declaration.flatten d with
  | case1 m o i name base ih =>
    obtain ⟨ds, h⟩ := ih
    exact ⟨base :: ds, .link rfl h⟩
  | case2 d h => exact ⟨[], .last (Declaration.aliased?_eq_none_iff.2 h)⟩

/-- A chain is flattened to the node at its end, with the modifiers along it. -/
theorem AliasChain.flatten_eq {first last : Declaration} {ds : List Declaration} (h : AliasChain ds)
    (hfirst : ds.head? = some first) (hlast : ds.getLast? = some last) :
    first.flatten = ⟨.merge (ds.map Declaration.modifiers), last.target⟩ := by
  induction h generalizing first with
  | @last d hd =>
    obtain rfl : d = first := Option.some.inj hfirst
    obtain rfl : d = last := Option.some.inj hlast
    rw [Declaration.flatten_of_not_aliased hd, List.map_singleton, Modifiers.merge_singleton]
    cases d
    rfl
  | @link d e ds hd _ ih =>
    obtain rfl : d = first := Option.some.inj hfirst
    rw [List.getLast?_cons_cons] at hlast
    -- The alias puts its modifiers behind those of the rest of the chain.
    rw [Declaration.flatten_of_aliased hd, ih rfl hlast]
    exact congrArg (Declaration.mk · last.target) (Modifiers.merge_cons _ _).symm

/-! ## Copies of flattened declarations -/

theorem Declaration.copy_fst (d : Declaration) (next : Identity) :
    (d.copy.run next).1 = ⟨d.modifiers, (d.target.copy.run next).1⟩ := by
  cases d
  rfl

theorem Declaration.aliased?_copy {d : Declaration} (h : d.aliased? = none) (next : Identity) :
    (d.copy.run next).1.aliased? = none := by
  obtain ⟨m, t⟩ := d
  cases t with
  | missing => rfl
  | node o i n =>
    cases o with
    | shared => exact h
    | owned =>
      cases n with
      | primitive => rfl
      | typedef => cases h
      | function => rfl
      | aggregate => rfl

/-- **Flattening resolves the whole chain of aliases.** Every declaration starts one, and the flattened
form has the node at its end, shared or copied, which is no alias. Pointers, dimensions and qualifiers
are those along the chain from the inside out, each qualifier once and where it comes first; the marker
of a reference and the name are the outermost ones. Flattening once more only makes another copy. -/
theorem flatten_resolves_chain :
    (∀ d : Declaration, ∃ ds, AliasChain (d :: ds)) ∧
    ∀ (ds : List Declaration) (first last : Declaration) (next : Identity), AliasChain ds →
      ds.head? = some first → ds.getLast? = some last →
      let ms := ds.map Declaration.modifiers
      let flat := (first.flatten.copy.run next).1
      (flat.aliased? = none ∧ flat.target = (last.target.copy.run next).1 ∧
        last.target.Copied next flat.target) ∧
      flat.modifiers.pointers = ms.reverse.flatMap Modifiers.pointers ∧
      flat.modifiers.dimensions = ms.reverse.flatMap Modifiers.dimensions ∧
      flat.modifiers.qualifiers.entries =
        Qualifiers.firsts (ms.reverse.flatMap fun m => m.qualifiers.entries) ∧
      flat.modifiers.reference = ms.findSome? Modifiers.reference ∧
      flat.modifiers.name = ms.findSome? Modifiers.name ∧
      ∀ next', let again := (flat.flatten.copy.run next').1
        again.modifiers = flat.modifiers ∧ flat.target.Copied next' again.target := by
  refine ⟨AliasChain.exists_cons, ?_⟩
  intro ds first last next h hfirst hlast ms flat
  have hflat : flat = ⟨.merge ms, (last.target.copy.run next).1⟩ := by
    show (first.flatten.copy.run next).1 = _
    rw [Declaration.copy_fst, h.flatten_eq hfirst hlast]
  have hend : flat.aliased? = none := Declaration.aliased?_copy first.aliased?_flatten next
  have htarget : flat.target = (last.target.copy.run next).1 := by rw [hflat]
  refine ⟨⟨hend, htarget, htarget ▸ last.target.copied_copy next⟩, ?_⟩
  refine ⟨by rw [hflat, Modifiers.merge], by rw [hflat, Modifiers.merge], ?_,
    by rw [hflat, Modifiers.merge], by rw [hflat, Modifiers.merge], fun next' => ?_⟩
  · rw [hflat]
    exact Qualifiers.entries_insertAll_empty _
  · intro again
    have hagain : again = ⟨flat.modifiers, (flat.target.copy.run next').1⟩ := by
      show (flat.flatten.copy.run next').1 = _
      rw [Declaration.flatten_of_not_aliased hend, Declaration.copy_fst]
    rw [hagain]
    exact ⟨rfl, flat.target.copied_copy next'⟩

/-- A reference to an array of constant pointers, through an alias of pointers to a constant: both ends
of the chain are constant, and every declaration of it adds something. -/
theorem flatten_resolves_chain_array :
    let constant (start : Nat) : Qualifiers := Qualifiers.empty.insert .const ⟨start, 5⟩
    let int : Declaration := ⟨{ qualifiers := constant 0, name := some (.synthetic "int") },
      .node .owned 0 (.primitive (.synthetic "int"))⟩
    let inner : Declaration :=
      ⟨{ qualifiers := Qualifiers.empty.insert .volatile ⟨6, 8⟩, pointers := [{}] },
        .node .shared 1 (.typedef (some (.synthetic "b")) int)⟩
    let outer : Declaration :=
      ⟨{ qualifiers := constant 20, pointers := [⟨constant 30⟩], dimensions := [{}],
         reference := some (.synthetic "&") }, .node .owned 2 (.typedef none inner)⟩
    let flat := (outer.flatten.copy.run 3).1
    AliasChain [outer, inner, int] ∧ flat.target = .node .owned 3 (.primitive (.synthetic "int")) ∧
      flat.modifiers.pointers = [({} : Pointer), ⟨constant 30⟩] ∧
      flat.modifiers.qualifiers.entries = [(.const, ⟨0, 5⟩), (.volatile, ⟨6, 8⟩)] ∧
      flat.modifiers.reference = some (.synthetic "&") ∧
      flat.modifiers.name = some (.synthetic "int") := by
  intro constant int inner outer flat
  have hchain : AliasChain [outer, inner, int] := .link rfl (.link rfl (.last rfl))
  obtain ⟨⟨-, htarget, -⟩, hpointers, -, hqualifiers, hreference, hname, -⟩ :=
    flatten_resolves_chain.2 [outer, inner, int] outer int 3 hchain rfl rfl
  exact ⟨hchain, htarget, hpointers, hqualifiers.trans (by decide +kernel), hreference, hname⟩

end KernelFront
