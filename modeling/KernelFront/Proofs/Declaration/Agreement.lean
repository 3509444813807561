import Mathlib.Data.List.Perm.Subperm
import KernelFront.Declaration.Modifiers

/-!
# Agreement of modifiers

Sets of qualifiers are the same if they have the same qualifiers (`Qualifiers.sameAs_iff`), and two
runs of pointer levels agree if they do at every depth, where a level that is not there counts as an
unqualified one (`Pointer.agree_iff`). Neither depends on a side, and so agreement of modifiers is an
equivalence.
-/

namespace KernelFront

namespace Qualifiers

/-- Two sets are the same if they have the same qualifiers: as no set has one twice, it is enough to
count them and to look in one direction. -/
theorem sameAs_iff {s t : Qualifiers} : s.sameAs t = true ↔ ∀ q, s.has q = t.has q := by
  have size_eq (s : Qualifiers) : s.size = s.toList.length := (List.length_map _).symm
  have has_eq_iff (q : Qualifier) : s.has q = t.has q ↔ (q ∈ s.toList ↔ q ∈ t.toList) := by
    rw [Bool.eq_iff_iff, has_iff_mem, has_iff_mem]
  simp only [sameAs, Bool.and_eq_true, beq_iff_eq, List.all_eq_true, size_eq, has_iff_mem,
    has_eq_iff]
  constructor
  · rintro ⟨hlen, hsub⟩ q
    refine ⟨hsub q, fun hq => ?_⟩
    have hp : s.toList.Perm t.toList :=
      (List.subperm_of_subset s.nodup_toList fun q => hsub q).perm_of_length_le (Nat.le_of_eq hlen.symm)
    exact hp.mem_iff.2 hq
  · intro h
    have hp : s.toList.Perm t.toList :=
      (List.perm_ext_iff_of_nodup s.nodup_toList t.nodup_toList).2 h
    exact ⟨hp.length_eq, fun q => (h q).1⟩

theorem sameAs_self (s : Qualifiers) : s.sameAs s = true := sameAs_iff.2 fun _ => rfl

theorem sameAs_symm {s t : Qualifiers} (h : s.sameAs t = true) : t.sameAs s = true :=
  sameAs_iff.2 fun q => (sameAs_iff.1 h q).symm

theorem sameAs_trans {s t u : Qualifiers} (h : s.sameAs t = true) (h' : t.sameAs u = true) :
    s.sameAs u = true :=
  sameAs_iff.2 fun q => (sameAs_iff.1 h q).trans (sameAs_iff.1 h' q)

theorem isEmpty_iff_sameAs (s : Qualifiers) : s.isEmpty = true ↔ s.sameAs empty = true := by
  simp only [isEmpty, List.isEmpty_iff, sameAs_iff]
  constructor
  · intro h q
    simp [has, toList, h, empty]
  · intro h
    refine List.eq_nil_iff_forall_not_mem.2 fun e he => ?_
    have hq : s.has e.1 = true := has_iff_mem.2 (List.mem_map_of_mem he)
    rw [h e.1] at hq
    cases hq

end Qualifiers

namespace Pointer

/-- The qualifiers of a level; a level that is not there has none. -/
def qualifiersAt (ps : List Pointer) (k : Nat) : Qualifiers :=
  (ps[k]?.map Pointer.qualifiers).getD .empty

theorem all_isEmpty_iff (ps : List Pointer) :
    (ps.all fun p => p.qualifiers.isEmpty) = true ↔
      ∀ k, (qualifiersAt ps k).sameAs .empty = true := by
  induction ps with
  | nil => exact iff_of_true rfl fun k => Qualifiers.sameAs_self _
  | cons p ps ih =>
    rw [List.all_cons, Bool.and_eq_true, ih, Qualifiers.isEmpty_iff_sameAs]
    constructor
    · rintro ⟨h, h'⟩ (_ | k)
      · exact h
      · exact h' k
    · intro h
      exact ⟨h 0, fun k => h (k + 1)⟩

/-- Two runs of levels agree if they do at every depth. -/
theorem agree_iff (ps qs : List Pointer) :
    agree ps qs = true ↔ ∀ k, (qualifiersAt ps k).sameAs (qualifiersAt qs k) = true := by
  fun_induction agree ps qs with
  | case1 qs =>
    rw [all_isEmpty_iff]
    exact forall_congr' fun k => ⟨Qualifiers.sameAs_symm, Qualifiers.sameAs_symm⟩
  | case2 ps =>
    rw [all_isEmpty_iff]
    exact Iff.rfl
  | case3 p ps q qs ih =>
    rw [Bool.and_eq_true, ih]
    constructor
    · rintro ⟨h, h'⟩ (_ | k)
      · exact h
      · exact h' k
    · intro h
      exact ⟨h 0, fun k => h (k + 1)⟩

end Pointer

namespace Modifiers

theorem agree_iff (m n : Modifiers) :
    m.agree n = true ↔ m.isReference = n.isReference ∧ m.qualifiers.sameAs n.qualifiers = true ∧
      m.levels = n.levels ∧
      ∀ k, (Pointer.qualifiersAt m.pointers k).sameAs (Pointer.qualifiersAt n.pointers k) = true := by
  simp only [agree, Bool.and_eq_true, beq_iff_eq, Pointer.agree_iff, and_assoc]

theorem agree_self (m : Modifiers) : m.agree m = true :=
  (agree_iff m m).2
    ⟨rfl, Qualifiers.sameAs_self _, rfl, fun _ => Qualifiers.sameAs_self _⟩

theorem agree_symm {m n : Modifiers} (h : m.agree n = true) : n.agree m = true := by
  obtain ⟨hr, hq, hl, hp⟩ := (agree_iff m n).1 h
  exact (agree_iff n m).2
    ⟨hr.symm, Qualifiers.sameAs_symm hq, hl.symm, fun k => Qualifiers.sameAs_symm (hp k)⟩

theorem agree_trans {m n o : Modifiers} (h : m.agree n = true) (h' : n.agree o = true) :
    m.agree o = true := by
  obtain ⟨hr, hq, hl, hp⟩ := (agree_iff m n).1 h
  obtain ⟨hr', hq', hl', hp'⟩ := (agree_iff n o).1 h'
  exact (agree_iff m o).2 ⟨hr.trans hr', Qualifiers.sameAs_trans hq hq', hl.trans hl',
    fun k => Qualifiers.sameAs_trans (hp k) (hp' k)⟩

end Modifiers

end KernelFront
