import KernelFront.Declaration.Heap

/-!
# One memory for everything built

`Reachable.storedIn`: whatever a program builds, there is a memory that has all of it. A copy takes
its identities from those not used yet, so the memory only has to grow (`Declaration.memory_copy`),
and everything else leaves nodes as they are.
-/

namespace KernelFront

/-! ## All nodes of a declaration -/

section

variable {p q : Identity → Node → Prop}

mutual

theorem Declaration.Forall.imp (hpq : ∀ i n, p i n → q i n) {d : Declaration}
    (h : d.Forall p) : d.Forall q :=
  match d with
  | ⟨_, _⟩ => Target.Forall.imp hpq h

theorem Target.Forall.imp (hpq : ∀ i n, p i n → q i n) {t : Target} (h : t.Forall p) :
    t.Forall q :=
  match t with
  | .missing => trivial
  | .node _ i n => ⟨hpq i n h.1, Node.Forall.imp hpq h.2⟩

theorem Node.Forall.imp (hpq : ∀ i n, p i n → q i n) {n : Node} (h : n.Forall p) : n.Forall q :=
  match n with
  | .primitive _ => trivial
  | .typedef _ _ => Declaration.Forall.imp hpq h
  | .function _ _ _ _ => ⟨Declaration.Forall.imp hpq h.1, Parameters.Forall.imp hpq h.2⟩
  | .aggregate _ _ => trivial

theorem Parameters.Forall.imp (hpq : ∀ i n, p i n → q i n) {ps : Parameters} (h : ps.Forall p) :
    ps.Forall q :=
  match ps with
  | .nil => trivial
  | .cons _ _ _ => ⟨Declaration.Forall.imp hpq h.1, Parameters.Forall.imp hpq h.2⟩

end

theorem Declaration.forall_iff_target (d : Declaration) : d.Forall p ↔ d.target.Forall p := by
  cases d
  exact Iff.rfl

theorem Parameters.forall_iff (ps : Parameters) :
    ps.Forall p ↔ ∀ d ∈ ps.toList.map Prod.fst, d.Forall p :=
  match ps with
  | .nil => iff_of_true trivial nofun
  | .cons d name rest => by
    rw [Parameters.toList, List.map_cons, List.forall_mem_cons, ← rest.forall_iff]
    exact Iff.rfl

theorem Node.forall_iff_parts (n : Node) : n.Forall p ↔ ∀ d ∈ n.parts, d.Forall p := by
  cases n with
  | primitive => exact iff_of_true trivial nofun
  | typedef name base =>
    rw [Node.parts, List.forall_mem_singleton]
    exact Iff.rfl
  | function name result ps form =>
    rw [Node.parts, List.forall_mem_cons, ← ps.forall_iff]
    exact Iff.rfl
  | aggregate => exact iff_of_true trivial nofun

theorem Declaration.forall_flatten {d : Declaration} (h : d.Forall p) : d.flatten.Forall p := by
  fun_induction Declaration.flatten d with
  | case1 m o i name base ih => exact base.flatten.forall_iff_target.1 (ih h.2)
  | case2 => exact h

end

/-! ## Copies -/

mutual

/-- A copy takes identities and gives none back. -/
theorem Declaration.le_copy (d : Declaration) (next : Identity) : next ≤ (d.copy.run next).2 :=
  match d with
  | ⟨_, t⟩ => t.le_copy next

theorem Target.le_copy (t : Target) (next : Identity) : next ≤ (t.copy.run next).2 :=
  match t with
  | .missing => Nat.le_refl next
  | .node .shared _ _ => Nat.le_refl next
  | .node .owned _ n => Nat.le_of_succ_le (n.le_copy (next + 1))

theorem Node.le_copy (n : Node) (next : Identity) : next ≤ (n.copy.run next).2 :=
  match n with
  | .primitive _ => Nat.le_refl next
  | .typedef _ base => base.le_copy next
  | .function _ result ps _ => Nat.le_trans (result.le_copy next) (ps.le_copy _)
  | .aggregate _ _ => Nat.le_refl next

theorem Parameters.le_copy (ps : Parameters) (next : Identity) : next ≤ (ps.copy.run next).2 :=
  match ps with
  | .nil => Nat.le_refl next
  | .cons d _ rest => Nat.le_trans (d.le_copy next) (rest.le_copy _)

end

section

variable {g g' g'' : Memory} {next next' next'' : Identity}

theorem Memory.Grows.refl (g : Memory) (next : Identity) : g.Grows next g next :=
  ⟨Nat.le_refl _, fun _ _ => rfl⟩

theorem Memory.Grows.trans (h : g.Grows next g' next') (h' : g'.Grows next' g'' next'') :
    g.Grows next g'' next'' :=
  ⟨Nat.le_trans h.le h'.le, fun i hi => (h'.eq i (Nat.lt_of_lt_of_le hi h.le)).trans (h.eq i hi)⟩

theorem Memory.Grows.has (h : g.Grows next g' next') (i : Identity) (n : Node)
    (hi : g.Has next i n) : g'.Has next' i n :=
  ⟨Nat.lt_of_lt_of_le hi.lt h.le, (h.eq i hi.lt).trans hi.eq⟩

/-- A memory can take any node under the next identity. -/
theorem Memory.grows_update (g : Memory) (next : Identity) (n : Node) :
    ∃ g' : Memory, g.Grows next g' (next + 1) ∧ g'.Has (next + 1) next n := by
  refine ⟨fun i => if i = next then n else g i, ⟨Nat.le_succ next, fun i hi => ?_⟩,
    ⟨Nat.lt_succ_self next, if_pos rfl⟩⟩
  exact if_neg (Nat.ne_of_lt hi)

mutual

theorem Declaration.memory_copy (d : Declaration) (g : Memory) (next : Identity)
    (h : d.Forall (g.Has next)) :
    ∃ g', g.Grows next g' (d.copy.run next).2 ∧
      (d.copy.run next).1.Forall (g'.Has (d.copy.run next).2) :=
  match d with
  | ⟨_, t⟩ => t.memory_copy g next h

theorem Target.memory_copy (t : Target) (g : Memory) (next : Identity)
    (h : t.Forall (g.Has next)) :
    ∃ g', g.Grows next g' (t.copy.run next).2 ∧
      (t.copy.run next).1.Forall (g'.Has (t.copy.run next).2) := by
  match t with
  | .missing => exact ⟨g, .refl g next, trivial⟩
  | .node .shared i n => exact ⟨g, .refl g next, h⟩
  | .node .owned i n =>
    -- The identity is taken before the node is copied, but the copy is known: it comes from `n`.
    obtain ⟨g₁, hg₁, hnew⟩ := g.grows_update next (n.copy.run (next + 1)).1
    have hn : n.Forall (g₁.Has (next + 1)) := h.2.imp hg₁.has
    obtain ⟨g₂, hg₂, hcopy⟩ := n.memory_copy g₁ _ hn
    exact ⟨g₂, hg₁.trans hg₂, hg₂.has _ _ hnew, hcopy⟩

theorem Node.memory_copy (n : Node) (g : Memory) (next : Identity)
    (h : n.Forall (g.Has next)) :
    ∃ g', g.Grows next g' (n.copy.run next).2 ∧
      (n.copy.run next).1.Forall (g'.Has (n.copy.run next).2) := by
  match n with
  | .primitive _ => exact ⟨g, .refl g next, trivial⟩
  | .typedef _ base => exact base.memory_copy g next h
  | .function _ result ps _ =>
    obtain ⟨g₁, hg₁, hresult⟩ := result.memory_copy g next h.1
    obtain ⟨g₂, hg₂, hps⟩ := ps.memory_copy g₁ _ (h.2.imp hg₁.has)
    exact ⟨g₂, hg₁.trans hg₂, hresult.imp hg₂.has, hps⟩
  | .aggregate _ _ => exact ⟨g, .refl g next, trivial⟩

theorem Parameters.memory_copy (ps : Parameters) (g : Memory) (next : Identity)
    (h : ps.Forall (g.Has next)) :
    ∃ g', g.Grows next g' (ps.copy.run next).2 ∧
      (ps.copy.run next).1.Forall (g'.Has (ps.copy.run next).2) := by
  match ps with
  | .nil => exact ⟨g, .refl g next, trivial⟩
  | .cons d _ rest =>
    obtain ⟨g₁, hg₁, hd⟩ := d.memory_copy g next h.1
    obtain ⟨g₂, hg₂, hrest⟩ := rest.memory_copy g₁ _ (h.2.imp hg₁.has)
    exact ⟨g₂, hg₁.trans hg₂, hd.imp hg₂.has, hrest⟩

end

end

/-! ## Runs -/

namespace Heap

variable {h h' : Heap} {g : Memory}

/-- Whatever is made, the memory can grow to have it. -/
theorem Makes.memory {make : StateM Identity Declaration} (hm : h.Makes make)
    (hg : h.StoredIn g) :
    ∃ g' : Memory, g.Grows h.next g' (make.run h.next).2 ∧
      (make.run h.next).1.Forall (g'.Has (make.run h.next).2) := by
  cases hm with
  | invalid => exact ⟨g, .refl g _, trivial⟩
  | @hold i n o hn => exact ⟨g, .refl g _, hg.nodes i n hn⟩
  | @own i n hn => exact (Target.node .owned i n).memory_copy g _ (hg.nodes i n hn)
  | @published i n hn =>
    unfold Target.ofPublished
    split
    · exact ⟨g, .refl g _, hg.nodes i n hn⟩
    · exact (Target.node .owned i n).memory_copy g _ (hg.nodes i n hn)
  | @copy d hd => exact d.memory_copy g _ (hg.declarations d hd)
  | @flatten d hd =>
    exact d.flatten.memory_copy g _ (Declaration.forall_flatten (hg.declarations d hd))
  | @base d hd => exact d.base.memory_copy g _ (d.forall_iff_target.1 (hg.declarations d hd))
  | @modify d f hd => exact ⟨g, .refl g _, d.forall_iff_target.1 (hg.declarations d hd)⟩
  | @part i n d hn hd =>
    exact ⟨g, .refl g _, (n.forall_iff_parts.1 (hg.nodes i n hn).2) d hd⟩

/-- A step keeps everything in one memory. -/
theorem Step.storedIn (hs : Step h h') (hg : h.StoredIn g) : ∃ g', h'.StoredIn g' := by
  cases hs with
  | @node n hparts =>
    obtain ⟨g', hgrow, hnew⟩ := g.grows_update h.next n
    have hn : n.Forall (g'.Has (h.next + 1)) :=
      n.forall_iff_parts.2 fun d hd => (hg.declarations d (hparts d hd)).imp hgrow.has
    refine ⟨g', fun i m hm => ?_, fun d hd => (hg.declarations d hd).imp hgrow.has⟩
    rcases List.mem_cons.1 hm with e | hm
    · cases e
      exact ⟨hnew, hn⟩
    · obtain ⟨hi, hm⟩ := hg.nodes i m hm
      exact ⟨hgrow.has i m hi, hm.imp hgrow.has⟩
  | @look d o i n hd ht =>
    refine ⟨g, fun j m hm => ?_, hg.declarations⟩
    rcases List.mem_cons.1 hm with e | hm
    · cases e
      have hall := d.forall_iff_target.1 (hg.declarations d hd)
      rw [ht] at hall
      exact hall
    · exact hg.nodes j m hm
  | @declaration make hm =>
    obtain ⟨g', hgrow, hnew⟩ := hm.memory hg
    refine ⟨g', fun i n hn => ?_, fun d hd => ?_⟩
    · obtain ⟨hi, hn⟩ := hg.nodes i n hn
      exact ⟨hgrow.has i n hi, hn.imp hgrow.has⟩
    · rcases List.mem_cons.1 hd with rfl | hd
      · exact hnew
      · exact (hg.declarations d hd).imp hgrow.has

theorem Reachable.storedIn (hr : h.Reachable) : ∃ g, h.StoredIn g := by
  induction hr with
  | empty => exact ⟨fun _ => .aggregate none .enumType, nofun, nofun⟩
  | step _ hs ih =>
    obtain ⟨g, hg⟩ := ih
    exact hs.storedIn hg

end Heap

end KernelFront
