import KernelFront.Proofs.Binary.Narrowing
import KernelFront.Proofs.Literal.Forms

/-!
# Single precision in print

A float reads back from its text as the double nearest to its shortest decimal, of whichever precision
it is. `single_reads_back_iff` says which single-precision numbers the conversion of that double gives
back: all finite ones but `7.038531e-26` and its negative.
-/

namespace KernelFront

namespace Value

/-- Reading the text of a finite float and converting it rounds its shortest decimal twice. -/
theorem toFloat_ofString_text (p q : Precision) (s : Bool) (k : Fin (p.format.infinity + 1))
    (hk : k < p.format.infinity) :
    (ofString (float p (.number s k)).text).toFloat q =
      .ok (((Binary.shortest p.format s k).toBinary .double).convert q.format) := by
  rw [ofString, read?_text_float p s k hk]
  rfl

/-- **Single precision reads back from its text**, but for one magnitude: the text has no `f`, so that
it is read as a double, and the double next to `7.038531e-26` lies halfway between two singles. -/
theorem single_reads_back_iff (x : Binary Precision.single.format) (hx : x.isFinite = true) :
    (ofString (float .single x).text).toFloat .single = .ok x ↔
      x ≠ .ofBits _ 0x15ae43fd ∧ x ≠ .ofBits _ 0x95ae43fd := by
  cases x with
  | nan => cases hx
  | number s k =>
    have hk : k < Precision.single.format.infinity := of_decide_eq_true hx
    have hpos : Binary.ofBits Precision.single.format 0x15ae43fd =
        .ofRank _ false 0x15ae43fd := by decide
    have hneg : Binary.ofBits Precision.single.format 0x95ae43fd =
        .ofRank _ true 0x15ae43fd := by decide
    have hexception : 0x15ae43fd < Precision.single.format.infinity := by decide
    rw [toFloat_ofString_text .single .single s k hk, Except.ok.injEq, ← Binary.ofRank_val, hpos, hneg]
    refine (Binary.convert_shortest_iff s hk).trans ?_
    cases s with
    | false =>
      rw [Ne, ← Binary.ofRank_inj (s := false) hexception]
      exact (and_iff_left nofun).symm
    | true =>
      rw [Ne, ← Binary.ofRank_inj (s := true) hexception]
      exact (and_iff_right nofun).symm

/-- The next number above the exception reads back. -/
theorem single_reads_back_next :
    (ofString (float .single (.ofBits _ 0x15ae43fe)).text).toFloat .single =
      .ok (.ofBits _ 0x15ae43fe) :=
  (single_reads_back_iff _ (by decide)).2 (by decide)

/-- The exception reads back as the next number. -/
theorem single_reads_back_fails :
    (Binary.ofBits Precision.single.format 0x15ae43fd).isFinite = true ∧
      (float .single (.ofBits _ 0x15ae43fd)).text = "7.038531e-26" ∧
      (ofString (float .single (.ofBits _ 0x15ae43fd)).text).toFloat .single =
        .ok (.ofBits _ 0x15ae43fe) ∧
      Binary.ofBits Precision.single.format 0x15ae43fe ≠ .ofBits _ 0x15ae43fd :=
  ⟨by decide, by decide +kernel, by decide +kernel, by decide⟩

end Value

end KernelFront
