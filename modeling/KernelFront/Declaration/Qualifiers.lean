import KernelFront.Outcome

/-!
# Sets of qualifiers

A set lists its qualifiers in the order in which they were written, each with its place, and none
twice. Adding one that is there already changes nothing: `add` reports it, `insert` does not.
Equality of sets looks at neither order nor places.
-/

namespace KernelFront

/-- Qualifiers in the order of writing, each once and with its place. -/
structure Qualifiers where
  entries : List (Qualifier × Span)
  distinct : (entries.map Prod.fst).Nodup
  deriving DecidableEq, Repr

namespace Qualifiers

def empty : Qualifiers := ⟨[], List.nodup_nil⟩

instance : Inhabited Qualifiers := ⟨empty⟩

/-- The qualifiers without their places. -/
def toList (s : Qualifiers) : List Qualifier := s.entries.map Prod.fst

def has (s : Qualifiers) (q : Qualifier) : Bool := s.toList.contains q

/-- The place where a qualifier was written. -/
def spanOf? (s : Qualifiers) (q : Qualifier) : Option Span := s.entries.lookup q

def size (s : Qualifiers) : Nat := s.entries.length

def isEmpty (s : Qualifiers) : Bool := s.entries.isEmpty

/-- Appends a qualifier that is not there yet. -/
def append (s : Qualifiers) (q : Qualifier) (span : Span) (h : s.has q = false) : Qualifiers where
  entries := s.entries ++ [(q, span)]
  distinct := by
    have hq : q ∉ s.entries.map Prod.fst := by simpa [has, toList] using h
    rw [List.map_append, List.nodup_append]
    refine ⟨s.distinct, by simp, ?_⟩
    intro a ha b hb
    simp only [List.map_cons, List.map_nil, List.mem_singleton] at hb
    rintro rfl
    exact hq (hb ▸ ha)

/-- The set with a qualifier at the end, unless it is there already. -/
def insert (s : Qualifiers) (q : Qualifier) (span : Span) : Qualifiers :=
  if h : s.has q then s else s.append q span (by simpa using h)

theorem has_iff_mem {s : Qualifiers} {q : Qualifier} : s.has q = true ↔ q ∈ s.toList := by
  simp [has]

theorem nodup_toList (s : Qualifiers) : s.toList.Nodup := s.distinct

theorem insert_of_has {s : Qualifiers} {q : Qualifier} (h : s.has q = true) (span : Span) :
    s.insert q span = s := by
  simp [insert, h]

theorem entries_insert_of_not_has {s : Qualifiers} {q : Qualifier} (h : s.has q = false)
    (span : Span) : (s.insert q span).entries = s.entries ++ [(q, span)] := by
  simp [insert, h, append]

@[simp]
theorem has_insert (s : Qualifiers) (q : Qualifier) (span : Span) (r : Qualifier) :
    (s.insert q span).has r = (s.has r || r == q) := by
  cases h : s.has q with
  | true =>
    rw [insert_of_has h]
    by_cases e : r = q
    · rw [e, h, Bool.true_or]
    · simp [e]
  | false =>
    rw [Bool.eq_iff_iff]
    simp [has_iff_mem, toList, entries_insert_of_not_has h]

/-- The set with a qualifier, where a second occurrence is reported with the place of the first. -/
def add (s : Qualifiers) (q : Qualifier) (span : Span) : Outcome Unit × Qualifiers :=
  match s.spanOf? q with
  | some first => (.recovered () (.duplicateQualifier q span first []), s)
  | none => (.ok (), s.insert q span)

def remove (s : Qualifiers) (q : Qualifier) : Qualifiers where
  entries := s.entries.filter fun e => e.1 != q
  distinct := List.Nodup.sublist (List.filter_sublist.map _) s.distinct

/-- The set with the qualifiers of another one after its own. -/
def extend (s t : Qualifiers) : Qualifiers := t.entries.foldl (fun s e => s.insert e.1 e.2) s

/-- The set of some qualifiers that come from no place in particular. -/
def ofList (qs : List Qualifier) : Qualifiers := qs.foldl (fun s q => s.insert q {}) empty

/-- The same qualifiers, in whatever order and places. -/
def sameAs (s t : Qualifiers) : Bool := s.size == t.size && s.toList.all t.has

/-- The qualifiers with a space between any two. -/
def text (s : Qualifiers) : String := String.intercalate " " (s.toList.map Qualifier.name)

end Qualifiers

end KernelFront
