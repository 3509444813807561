import KernelFront.Declaration.Qualifiers

/-!
# Unions of sets of qualifiers

Inserting entries one by one (`insertAll`) appends the first entry of every qualifier that is not there
yet (`entries_insertAll`), and looks a qualifier up in the set first and in the entries then
(`spanOf?_insertAll`). The union is that with the entries of the other set, and the set of all of them
is reached from the empty one, so that unions can be grouped in any way. `extend_ordered_monoid` puts
this together: what a union lists, and its laws.
-/

namespace KernelFront.Qualifiers

/-- The first entry of every qualifier, in order. -/
def firsts (es : List (Qualifier × Span)) : List (Qualifier × Span) :=
  es.eraseDupsBy fun e f => e.1 == f.1

/-- The set with all entries inserted, one after the other. -/
def insertAll (s : Qualifiers) (es : List (Qualifier × Span)) : Qualifiers :=
  es.foldl (fun s e => s.insert e.1 e.2) s

theorem eq_of_entries {s t : Qualifiers} (h : s.entries = t.entries) : s = t := by
  cases s
  cases t
  cases h
  rfl

theorem firsts_cons (e : Qualifier × Span) (es : List (Qualifier × Span)) :
    firsts (e :: es) = e :: firsts (es.filter fun f => f.1 != e.1) := by
  rw [firsts, List.eraseDupsBy_cons, firsts]
  congr 3
  funext f
  rw [bne]
  cases f.1 == e.1 <;> rfl

theorem firsts_of_nodup {es : List (Qualifier × Span)} (h : (es.map Prod.fst).Nodup) :
    firsts es = es := by
  induction es with
  | nil => rfl
  | cons e es ih =>
    obtain ⟨he, hes⟩ := List.nodup_cons.1 h
    have hfilter : (es.filter fun f => f.1 != e.1) = es := by
      refine List.filter_eq_self.2 fun f hf => bne_iff_ne.2 fun heq => he ?_
      exact heq ▸ List.mem_map_of_mem hf
    rw [firsts_cons, hfilter, ih hes]

section

variable (s t u : Qualifiers) (es fs : List (Qualifier × Span)) (q : Qualifier)

theorem insertAll_cons (e : Qualifier × Span) :
    s.insertAll (e :: es) = (s.insert e.1 e.2).insertAll es := rfl

theorem insertAll_append : s.insertAll (es ++ fs) = (s.insertAll es).insertAll fs :=
  List.foldl_append

theorem extend_eq : s.extend t = s.insertAll t.entries := rfl

theorem extend_empty : s.extend empty = s := rfl

theorem ofList_eq (qs : List Qualifier) : ofList qs = empty.insertAll (qs.map fun q => (q, {})) := by
  rw [ofList, insertAll, List.foldl_map]

/-- What is inserted stands behind what is there, each qualifier where it comes first. -/
theorem entries_insertAll :
    (s.insertAll es).entries = s.entries ++ firsts (es.filter fun e => !s.has e.1) := by
  induction es generalizing s with
  | nil => simp [insertAll, firsts, List.eraseDupsBy, List.eraseDupsBy.loop]
  | cons e es ih =>
    rw [insertAll_cons, ih]
    cases h : s.has e.1 with
    | true => simp [insert_of_has h, h]
    | false =>
      have hfilter : (es.filter fun f => !(s.insert e.1 e.2).has f.1) =
          (es.filter fun f => !s.has f.1).filter fun f => f.1 != e.1 := by
        rw [List.filter_filter]
        refine List.filter_congr fun f _ => ?_
        rw [has_insert, Bool.not_or, Bool.and_comm, bne]
      rw [entries_insert_of_not_has h, hfilter, List.filter_cons_of_pos (by simp [h]), firsts_cons,
        List.append_assoc, List.singleton_append]

theorem entries_insertAll_empty : (empty.insertAll es).entries = firsts es := by
  have hfilter : (es.filter fun e => !empty.has e.1) = es :=
    List.filter_eq_self.2 fun _ _ => rfl
  rw [entries_insertAll, hfilter]
  rfl

/-- Every set is what its own entries make. -/
theorem insertAll_entries : empty.insertAll s.entries = s :=
  eq_of_entries ((entries_insertAll_empty _).trans (firsts_of_nodup s.distinct))

/-! ## Looking up -/

theorem has_eq_isSome : s.has q = (s.spanOf? q).isSome := by
  unfold has toList spanOf?
  induction s.entries with
  | nil => rfl
  | cons e es ih =>
    rw [List.map_cons, List.contains_cons, List.lookup_cons, ih]
    cases h : q == e.1 <;> simp

theorem add_snd (span : Span) : (s.add q span).2 = s.insert q span := by
  unfold add
  cases h : s.spanOf? q with
  | none => rfl
  | some first => exact (insert_of_has (by rw [has_eq_isSome, h]; rfl) span).symm

theorem spanOf?_insert (r : Qualifier) (span : Span) :
    (s.insert r span).spanOf? q = (s.spanOf? q).or (if q == r then some span else none) := by
  cases h : s.has r with
  | true =>
    rw [insert_of_has h]
    cases hq : q == r with
    | true =>
      rw [← eq_of_beq hq, has_eq_isSome, Option.isSome_iff_exists] at h
      obtain ⟨first, hfirst⟩ := h
      rw [hfirst]
      rfl
    | false => simp
  | false =>
    rw [spanOf?, entries_insert_of_not_has h, List.lookup_append, spanOf?, List.lookup_cons]
    cases q == r <;> rfl

theorem spanOf?_insertAll : (s.insertAll es).spanOf? q = (s.spanOf? q).or (es.lookup q) := by
  induction es generalizing s with
  | nil => simp [insertAll]
  | cons e es ih =>
    rw [insertAll_cons, ih, spanOf?_insert, Option.or_assoc, List.lookup_cons]
    cases q == e.1 <;> rfl

theorem spanOf?_extend : (s.extend t).spanOf? q = (s.spanOf? q).or (t.spanOf? q) :=
  s.spanOf?_insertAll t.entries q

@[simp]
theorem has_extend : (s.extend t).has q = (s.has q || t.has q) := by
  rw [has_eq_isSome, spanOf?_extend, Option.isSome_or, ← has_eq_isSome, ← has_eq_isSome]

/-! ## Grouping -/

theorem extend_insert (span : Span) : s.extend (t.insert q span) = (s.extend t).insert q span := by
  cases h : t.has q with
  | true => rw [insert_of_has h, insert_of_has (by simp [h])]
  | false => rw [extend_eq, entries_insert_of_not_has h, insertAll_append]; rfl

theorem extend_insertAll : s.extend (t.insertAll es) = (s.extend t).insertAll es := by
  induction es generalizing t with
  | nil => rfl
  | cons e es ih => rw [insertAll_cons, ih, extend_insert, insertAll_cons]

theorem extend_extend : s.extend (t.extend u) = (s.extend t).extend u := s.extend_insertAll t u.entries

/-! ## Entries of a union -/

/-- The second set has no duplicates of its own to drop. -/
theorem entries_extend :
    (s.extend t).entries = s.entries ++ t.entries.filter fun e => !s.has e.1 := by
  have hnodup : ((t.entries.filter fun e => !s.has e.1).map Prod.fst).Nodup :=
    t.distinct.sublist (List.filter_sublist.map _)
  rw [extend_eq, entries_insertAll, firsts_of_nodup hnodup]

end

theorem extend_of_subset {s t : Qualifiers} (h : ∀ q, t.has q = true → s.has q = true) :
    s.extend t = s := by
  have hnone : (t.entries.filter fun e => !s.has e.1) = [] := by
    refine List.filter_eq_nil_iff.2 fun e he => ?_
    have hmem : e.1 ∈ t.toList := List.mem_map_of_mem he
    simp [h e.1 (has_iff_mem.2 hmem)]
  exact eq_of_entries (by rw [entries_extend, hnone, List.append_nil])

/-! ## Main result -/

/-- **Unions are an ordered monoid, in which the first place wins.** A union lists the first set and
behind it those entries of the second whose qualifiers the first does not have, in their order. So it
has what either set has, at the place of the first if that has it. Unions may be grouped in any way, the
empty set adds nothing on either side, and the same set adds nothing a second time. -/
theorem extend_ordered_monoid (s t u : Qualifiers) :
    ((s.extend t).entries = s.entries ++ t.entries.filter fun e => !s.has e.1) ∧
    (∀ q, (s.extend t).has q = (s.has q || t.has q)) ∧
    (∀ q, (s.extend t).spanOf? q = (s.spanOf? q).or (t.spanOf? q)) ∧
    (s.extend t).extend u = s.extend (t.extend u) ∧
    s.extend empty = s ∧ empty.extend s = s ∧
    (s.extend t).extend t = s.extend t := by
  refine ⟨s.entries_extend t, s.has_extend t, s.spanOf?_extend t, (s.extend_extend t u).symm,
    s.extend_empty, s.insertAll_entries, extend_of_subset fun q hq => ?_⟩
  rw [has_extend, hq, Bool.or_true]

end KernelFront.Qualifiers
