import KernelFront.Proofs.Declaration.Agreement
import KernelFront.Proofs.Declaration.Unions

/-!
# How a set of qualifiers came about

A program builds sets in seven ways (`Built`), and the log of a set says what happened to it, one
qualifier at a time. `Survives` tells from the log alone which insertions are still to be seen: those
that found their qualifier absent and that nothing has undone since. The entries of the set are these
insertions in the order of the log (`Lists`), which every event keeps (`Lists.apply`) and so every
history (`Built.lists`). Additions to an empty set are the case in which nothing is undone: what is left
are the first occurrences, and every other one is reported with the first.
-/

namespace KernelFront.Qualifiers

/-- What happens to a set; an insertion may find its qualifier there. -/
inductive Event where
  | insertion (q : Qualifier) (span : Span)
  | removal (q : Qualifier)
  | clearing
  deriving DecidableEq, Repr

namespace Event

def ofEntry (e : Qualifier × Span) : Event := insertion e.1 e.2

def apply (s : Qualifiers) : Event → Qualifiers
  | insertion q span => s.insert q span
  | removal q => s.remove q
  | clearing => .empty

/-- The qualifier is not there after the event. -/
def Removes (q : Qualifier) : Event → Prop
  | insertion .. => False
  | removal r => r = q
  | clearing => True

end Event

/-- A set that a program builds, and its log. -/
inductive Built : List Event → Qualifiers → Prop where
  | empty : Built [] empty
  | add {log : List Event} {s : Qualifiers} (q : Qualifier) (span : Span) : Built log s →
      Built (log ++ [.insertion q span]) (s.add q span).2
  | insert {log : List Event} {s : Qualifiers} (q : Qualifier) (span : Span) : Built log s →
      Built (log ++ [.insertion q span]) (s.insert q span)
  | remove {log : List Event} {s : Qualifiers} (q : Qualifier) : Built log s →
      Built (log ++ [.removal q]) (s.remove q)
  /-- The entries of the other set come with their places. -/
  | extend {log log' : List Event} {s t : Qualifiers} : Built log s → Built log' t →
      Built (log ++ t.entries.map .ofEntry) (s.extend t)
  /-- A new set, whose qualifiers come from no place in particular. -/
  | collect (qs : List Qualifier) : Built (qs.map fun q => .insertion q {}) (ofList qs)
  | clear {log : List Event} {s : Qualifiers} : Built log s → Built (log ++ [.clearing]) .empty

/-- The event at `i` is the insertion that the set has the entry from. -/
structure Survives (log : List Event) (i : Nat) (e : Qualifier × Span) : Prop where
  inserted : log[i]? = some (.insertion e.1 e.2)
  /-- The qualifier was not removed afterwards. -/
  kept : ∀ j event, i < j → log[j]? = some event → ¬ event.Removes e.1
  /-- Whatever inserted the qualifier before was undone in between. -/
  absent : ∀ j span, j < i → log[j]? = some (.insertion e.1 span) →
    ∃ k event, j < k ∧ k < i ∧ log[k]? = some event ∧ event.Removes e.1

/-- The entries are those of the surviving insertions, in the order of the log. -/
def Lists (log : List Event) (es : List (Qualifier × Span)) : Prop :=
  ∃ l : List (Nat × (Qualifier × Span)), l.map Prod.snd = es ∧ (l.map Prod.fst).Pairwise (· < ·) ∧
    ∀ i e, (i, e) ∈ l ↔ Survives log i e

/-! ## Surviving one more event -/

section

variable {log : List Event} {x : Event} {i : Nat} {e : Qualifier × Span}

theorem getElem?_append_singleton {j : Nat} {event : Event} :
    (log ++ [x])[j]? = some event ↔ log[j]? = some event ∨ (j = log.length ∧ x = event) := by
  rcases Nat.lt_trichotomy j log.length with hj | rfl | hj
  · rw [List.getElem?_append_left hj]
    simp [Nat.ne_of_lt hj]
  · simp
  · rw [List.getElem?_eq_none (by simp; omega), List.getElem?_eq_none (Nat.le_of_lt hj)]
    simp [Nat.ne_of_gt hj]

theorem Survives.lt_length (h : Survives log i e) : i < log.length :=
  (List.getElem?_eq_some_iff.1 h.inserted).1

/-- Where a qualifier was inserted and not removed since, one of its insertions survives: the first
one after the last removal. -/
theorem exists_survives {q : Qualifier} {j : Nat} {span : Span}
    (h : log[j]? = some (.insertion q span))
    (hkept : ∀ k event, j < k → log[k]? = some event → ¬ event.Removes q) :
    ∃ i first, Survives log i (q, first) := by
  induction j using Nat.strongRecOn generalizing span with
  | ind j ih =>
    by_cases habsent : ∀ j' span', j' < j → log[j']? = some (.insertion q span') →
        ∃ k event, j' < k ∧ k < j ∧ log[k]? = some event ∧ event.Removes q
    · exact ⟨j, span, h, hkept, habsent⟩
    · simp only [not_forall, not_exists, not_and] at habsent
      obtain ⟨j', span', hj', h', hbetween⟩ := habsent
      refine ih j' hj' h' fun k event hk hevent => ?_
      rcases Nat.lt_trichotomy k j with hkj | rfl | hkj
      · exact hbetween k event hk hkj hevent
      · rw [h] at hevent
        cases hevent
        exact id
      · exact hkept k event hkj hevent

/-- An insertion survives one more event unless that removes its qualifier, and the event itself is one
that survives if it inserts a qualifier that no other surviving insertion has. -/
theorem survives_append_singleton :
    Survives (log ++ [x]) i e ↔ (Survives log i e ∧ ¬ x.Removes e.1) ∨
      (i = log.length ∧ x = .insertion e.1 e.2 ∧ ∀ j span, ¬ Survives log j (e.1, span)) := by
  constructor
  · rintro ⟨hins, hkept, habsent⟩
    rcases getElem?_append_singleton.1 hins with h | ⟨rfl, hx⟩
    · have hi : i < log.length := (List.getElem?_eq_some_iff.1 h).1
      refine .inl ⟨⟨h, fun j event hj hevent => ?_, fun j span hj hspan => ?_⟩, ?_⟩
      · exact hkept j event hj (getElem?_append_singleton.2 (.inl hevent))
      · obtain ⟨k, event, hjk, hki, hevent, hrem⟩ :=
          habsent j span hj (getElem?_append_singleton.2 (.inl hspan))
        rw [List.getElem?_append_left (Nat.lt_trans hki hi)] at hevent
        exact ⟨k, event, hjk, hki, hevent, hrem⟩
      · exact hkept log.length x hi (getElem?_append_singleton.2 (.inr ⟨rfl, rfl⟩))
    · refine .inr ⟨rfl, hx, fun j span hj => ?_⟩
      obtain ⟨k, event, hjk, hki, hevent, hrem⟩ :=
        habsent j span hj.lt_length (getElem?_append_singleton.2 (.inl hj.inserted))
      rw [List.getElem?_append_left hki] at hevent
      exact hj.kept k event hjk hevent hrem
  · rintro (⟨h, hx⟩ | ⟨rfl, rfl, hnone⟩)
    · refine ⟨getElem?_append_singleton.2 (.inl h.inserted), fun j event hj hevent => ?_,
        fun j span hj hspan => ?_⟩
      · rcases getElem?_append_singleton.1 hevent with hevent | ⟨-, rfl⟩
        · exact h.kept j event hj hevent
        · exact hx
      · rw [List.getElem?_append_left (Nat.lt_trans hj h.lt_length)] at hspan
        obtain ⟨k, event, hjk, hki, hevent, hrem⟩ := h.absent j span hj hspan
        exact ⟨k, event, hjk, hki, getElem?_append_singleton.2 (.inl hevent), hrem⟩
    · refine ⟨getElem?_append_singleton.2 (.inr ⟨rfl, rfl⟩), fun j event hj hevent => ?_,
        fun j span hj hspan => ?_⟩
      · rcases getElem?_append_singleton.1 hevent with hevent | ⟨rfl, -⟩
        · have := (List.getElem?_eq_some_iff.1 hevent).1
          omega
        · omega
      · -- If nothing had removed the qualifier, one of its insertions would have survived.
        rw [List.getElem?_append_left hj] at hspan
        by_contra hremoved
        simp only [not_exists, not_and] at hremoved
        obtain ⟨i, first, hi⟩ := exists_survives hspan fun k event hk hevent =>
          hremoved k event hk (List.getElem?_eq_some_iff.1 hevent).1
            (getElem?_append_singleton.2 (.inl hevent))
        exact hnone i first hi

end

/-! ## Histories -/

section

variable {log : List Event} {s : Qualifiers}

theorem Lists.has_iff (h : Lists log s.entries) (q : Qualifier) :
    s.has q = true ↔ ∃ i span, Survives log i (q, span) := by
  obtain ⟨l, hl, -, hmem⟩ := h
  rw [has_iff_mem, toList, ← hl]
  simp only [← hmem]
  constructor
  · intro hq
    obtain ⟨e, he, rfl⟩ := List.mem_map.1 hq
    obtain ⟨⟨i, e⟩, hi, rfl⟩ := List.mem_map.1 he
    exact ⟨i, e.2, hi⟩
  · rintro ⟨i, span, hi⟩
    exact List.mem_map_of_mem (f := Prod.fst) (List.mem_map_of_mem (f := Prod.snd) hi)

/-- An event does to the entries what it does to the insertions that survive. -/
theorem Lists.apply (h : Lists log s.entries) (x : Event) :
    Lists (log ++ [x]) (x.apply s).entries := by
  have hhas := h.has_iff
  obtain ⟨l, hl, horder, hmem⟩ := h
  cases x with
  | insertion q span =>
    cases hq : s.has q with
    | true =>
      obtain ⟨j, first, hj⟩ := (hhas q).1 hq
      refine ⟨l, by rw [hl, Event.apply, insert_of_has hq], horder, fun i e => ?_⟩
      rw [hmem, survives_append_singleton]
      refine ⟨fun h => .inl ⟨h, id⟩, ?_⟩
      rintro (⟨h, -⟩ | ⟨-, hx, hnone⟩)
      · exact h
      · cases hx
        exact absurd hj (hnone j first)
    | false =>
      have hnone (j : Nat) (first : Span) : ¬ Survives log j (q, first) := fun hj => by
        rw [(hhas q).2 ⟨j, first, hj⟩] at hq
        cases hq
      refine ⟨l ++ [(log.length, (q, span))], ?_, ?_, fun i e => ?_⟩
      · rw [List.map_append, hl, Event.apply, entries_insert_of_not_has hq]
        rfl
      · rw [List.map_append, List.pairwise_append]
        refine ⟨horder, List.pairwise_singleton .., fun i hi j hj => ?_⟩
        obtain ⟨⟨i, e⟩, he, rfl⟩ := List.mem_map.1 hi
        rw [List.mem_singleton.1 hj]
        exact ((hmem i e).1 he).lt_length
      · rw [List.mem_append, hmem, survives_append_singleton]
        refine or_congr ⟨fun h => ⟨h, id⟩, And.left⟩ ?_
        rw [List.mem_singleton]
        constructor
        · rintro ⟨⟩
          exact ⟨rfl, rfl, hnone⟩
        · rintro ⟨rfl, hx, -⟩
          cases hx
          rfl
  | removal q =>
    refine ⟨l.filter fun p => p.2.1 != q, ?_, horder.sublist (List.filter_sublist.map _),
      fun i e => ?_⟩
    · show _ = s.entries.filter fun e => e.1 != q
      rw [← hl, List.filter_map]
      rfl
    · rw [List.mem_filter, hmem, survives_append_singleton, bne_iff_ne]
      constructor
      · rintro ⟨h, hne⟩
        exact .inl ⟨h, fun hq => hne (Eq.symm hq)⟩
      · rintro (⟨h, hne⟩ | ⟨-, hx, -⟩)
        · exact ⟨h, fun hq => hne (Eq.symm hq)⟩
        · cases hx
  | clearing =>
    refine ⟨[], rfl, .nil, fun i e => ?_⟩
    rw [survives_append_singleton]
    refine iff_of_false List.not_mem_nil ?_
    rintro (⟨-, hx⟩ | ⟨-, hx, -⟩)
    · exact hx trivial
    · cases hx

theorem Lists.foldl (h : Lists log s.entries) (xs : List Event) :
    Lists (log ++ xs) (xs.foldl Event.apply s).entries := by
  induction xs generalizing log s with
  | nil => rwa [List.append_nil]
  | cons x xs ih =>
    have h := ih (h.apply x)
    rwa [List.append_assoc] at h

theorem lists_empty : Lists [] empty.entries := by
  refine ⟨[], rfl, .nil, fun i e => iff_of_false List.not_mem_nil fun h => ?_⟩
  exact absurd h.lt_length (Nat.not_lt_zero i)

theorem foldl_ofEntry (s : Qualifiers) (es : List (Qualifier × Span)) :
    (es.map Event.ofEntry).foldl Event.apply s = s.insertAll es := List.foldl_map

/-- The entries of a set are the surviving insertions of its log. -/
theorem Built.lists (h : Built log s) : Lists log s.entries := by
  induction h with
  | empty => exact lists_empty
  | @add _ s q span _ ih =>
    rw [add_snd]
    exact ih.apply (.insertion q span)
  | insert q span _ ih => exact ih.apply (.insertion q span)
  | remove q _ ih => exact ih.apply (.removal q)
  | @extend _ _ s t _ _ ih _ =>
    rw [extend_eq, ← foldl_ofEntry]
    exact ih.foldl _
  | collect qs =>
    rw [ofList_eq, ← foldl_ofEntry, List.map_map]
    exact lists_empty.foldl (qs.map fun q => .insertion q {})
  | clear _ ih => exact ih.apply .clearing

end

/-! ## Additions -/

/-- Adds entries one after the other: the outcome of every addition, and the set in the end. -/
def addAll (s : Qualifiers) : List (Qualifier × Span) → List (Outcome Unit) × Qualifiers
  | [] => ([], s)
  | e :: es =>
    let (o, s) := s.add e.1 e.2
    let (os, s) := s.addAll es
    (o :: os, s)

section

variable (s : Qualifiers) (es : List (Qualifier × Span))

theorem addAll_snd : (s.addAll es).2 = s.insertAll es := by
  induction es generalizing s with
  | nil => rfl
  | cons e es ih => rw [insertAll_cons, ← add_snd, ← ih]; rfl

theorem length_addAll : (s.addAll es).1.length = es.length := by
  induction es generalizing s with
  | nil => rfl
  | cons e es ih => exact congrArg (· + 1) (ih (s.add e.1 e.2).2)

/-- An addition meets what the additions before it have made. -/
theorem getElem?_addAll (i : Nat) : (s.addAll es).1[i]? =
    es[i]?.map fun e => ((s.insertAll (es.take i)).add e.1 e.2).1 := by
  induction es generalizing s i with
  | nil => rfl
  | cons e es ih =>
    cases i with
    | zero => rfl
    | succ i =>
      rw [List.getElem?_cons_succ, List.take_succ_cons, insertAll_cons, ← add_snd, ← ih]
      rfl

end

theorem add_fst (s : Qualifiers) (q : Qualifier) (span : Span) :
    (s.add q span).1 = match s.spanOf? q with
      | some first => .recovered () (.duplicateQualifier q span first [])
      | none => .ok () := by
  unfold add
  cases s.spanOf? q <;> rfl

/-- Behind other additions a qualifier is reported with the first of them that has it. -/
theorem add_fst_insertAll (es : List (Qualifier × Span)) (q : Qualifier) (span : Span) :
    ((empty.insertAll es).add q span).1 = match es.lookup q with
      | some first => .recovered () (.duplicateQualifier q span first [])
      | none => .ok () := by
  rw [add_fst, spanOf?_insertAll]
  rfl

theorem lookup_eq_none_iff_not_mem {es : List (Qualifier × Span)} {q : Qualifier} :
    es.lookup q = none ↔ q ∉ es.map Prod.fst := by
  rw [List.lookup_eq_none_iff, List.mem_map]
  simp only [bne_iff_ne, not_exists, not_and]
  exact forall₂_congr fun _ _ => ne_comm

/-- The outcome of an addition: ok for a first occurrence, and otherwise a report that points to the
first one. -/
theorem add_fst_insertAll_cases (es : List (Qualifier × Span)) (e : Qualifier × Span) :
    (e.1 ∉ es.map Prod.fst ∧ ((empty.insertAll es).add e.1 e.2).1 = .ok ()) ∨
      ∃ before first between, es = before ++ (e.1, first) :: between ∧ e.1 ∉ before.map Prod.fst ∧
        ((empty.insertAll es).add e.1 e.2).1 = .recovered ()
          ⟨.duplicateQualifier e.1, e.2, [⟨first, some "first seen here"⟩]⟩ := by
  rw [add_fst_insertAll]
  cases h : es.lookup e.1 with
  | none => exact .inl ⟨lookup_eq_none_iff_not_mem.1 h, rfl⟩
  | some first =>
    obtain ⟨before, between, hes, hbefore⟩ := List.lookup_eq_some_iff.1 h
    exact .inr ⟨before, first, between, hes,
      lookup_eq_none_iff_not_mem.1 (List.lookup_eq_none_iff.2 hbefore), rfl⟩

/-! ## Main result -/

/-- **Sets of qualifiers are sets.** Whatever a set was built from, no qualifier is in it twice, and its
entries are the insertions that survive, in the order in which they were made. Two sets are equal if
they have the same qualifiers, which makes equality an equivalence. Adding qualifiers to an empty set
leaves the first occurrences; an addition is ok if its qualifier did not occur before, and is reported
otherwise, with the first place where it did. -/
theorem qualifiers_are_sets :
    (∀ log s, Built log s → s.toList.Nodup ∧ Lists log s.entries) ∧
    (∀ s t : Qualifiers, s.sameAs t = true ↔ ∀ q, s.has q = t.has q) ∧
    Equivalence (fun s t : Qualifiers => s.sameAs t = true) ∧
    ∀ es : List (Qualifier × Span),
      (empty.addAll es).2.entries = firsts es ∧ (empty.addAll es).1.length = es.length ∧
      ∀ i e, es[i]? = some e → ∃ o, (empty.addAll es).1[i]? = some o ∧
        (o.isOk = true ↔ e.1 ∉ (es.take i).map Prod.fst) ∧
        (o.isOk = false → ∃ before first between,
          es.take i = before ++ (e.1, first) :: between ∧ e.1 ∉ before.map Prod.fst ∧
          o = .recovered () ⟨.duplicateQualifier e.1, e.2, [⟨first, some "first seen here"⟩]⟩) := by
  refine ⟨fun log s h => ⟨s.nodup_toList, h.lists⟩, fun s t => sameAs_iff,
    ⟨sameAs_self, sameAs_symm, sameAs_trans⟩,
    fun es => ⟨?_, length_addAll empty es, fun i e he => ?_⟩⟩
  · rw [addAll_snd, entries_insertAll_empty]
  · have hmeets : (empty.addAll es).1[i]? =
        some ((empty.insertAll (es.take i)).add e.1 e.2).1 := by
      rw [getElem?_addAll, he, Option.map_some]
    refine ⟨_, hmeets, ?_⟩
    rcases add_fst_insertAll_cases (es.take i) e with
      ⟨hnot, ho⟩ | ⟨before, first, between, hsplit, hbefore, ho⟩
    · rw [ho]
      exact ⟨iff_of_true rfl hnot, nofun⟩
    · have hmem : e.1 ∈ (es.take i).map Prod.fst := by simp [hsplit]
      rw [ho]
      exact ⟨iff_of_false nofun (not_not_intro hmem),
        fun _ => ⟨before, first, between, hsplit, hbefore, rfl⟩⟩

/-- `const` is removed and comes back behind `volatile`, with the place that it has in the other set. -/
theorem qualifiers_are_sets_readded :
    let log : List Event := [.insertion .const ⟨0, 5⟩, .insertion .volatile ⟨6, 8⟩, .removal .const,
      .insertion .const ⟨20, 5⟩, .insertion .volatile ⟨26, 8⟩, .insertion .kernel {}]
    let t := ((empty.add .const ⟨20, 5⟩).2.insert .volatile ⟨26, 8⟩).insert .kernel {}
    let s := (((empty.add .const ⟨0, 5⟩).2.add .volatile ⟨6, 8⟩).2.remove .const).extend t
    Built log s ∧ Lists log [(.volatile, ⟨6, 8⟩), (.const, ⟨20, 5⟩), (.kernel, {})] := by
  intro log t s
  have ht : Built _ t :=
    ((Built.empty.add .const ⟨20, 5⟩).insert .volatile ⟨26, 8⟩).insert .kernel {}
  have hs : Built log s :=
    (((Built.empty.add .const ⟨0, 5⟩).add .volatile ⟨6, 8⟩).remove .const).extend ht
  exact ⟨hs, (qualifiers_are_sets.1 log s hs).2⟩

end KernelFront.Qualifiers
