import KernelFront.Text.Blank
import KernelFront.Literal.Value

/-!
# Reading a literal

`Literal.read?` takes the longest literal at the start of a text. A sign belongs to the literal only
if the caller asks for signs; the marker of a radix commits to digits of that radix; the exponent of
a number is read by the same reader, with signs. `Value.read?` is the reader and the value in one.
-/

namespace KernelFront

/-- Splits a text after a given start. -/
def Text.after? (start cs : Text) : Option Text :=
  if start.isPrefixOf cs then some (cs.drop start.length) else none

theorem Text.eq_append_of_after? {start cs r : Text} (h : Text.after? start cs = some r) :
    cs = start ++ r := by
  unfold Text.after? at h
  split at h
  · rename_i hp
    cases h
    exact (List.prefix_iff_eq_append.1 (List.isPrefixOf_iff_prefix.1 hp)).symm
  · cases h

namespace Sign

/-- Reads a sign and the blanks after it; a sign that is not asked for is refused. -/
def read? (signs : Bool) : Text → Option (Sign × Text)
  | c :: r =>
    if c = '+' ∨ c = '-' then
      if signs then
        some (.given (c == '-') (r.takeWhile isAsciiBlank), r.dropWhile isAsciiBlank)
      else none
    else some (.absent, c :: r)
  | [] => some (.absent, [])

theorem eq_append_of_read? {signs : Bool} {cs r : Text} {sign : Sign}
    (h : read? signs cs = some (sign, r)) : cs = sign.chars ++ r := by
  unfold read? at h
  split at h
  · split at h
    · rename_i hc
      split at h
      · cases h
        rcases hc with rfl | rfl <;> simp [chars]
      · cases h
    · cases h; rfl
  · cases h; rfl

theorem length_of_read? {signs : Bool} {cs r : Text} {sign : Sign}
    (h : read? signs cs = some (sign, r)) : r.length ≤ cs.length := by
  rw [eq_append_of_read? h, List.length_append]
  exact Nat.le_add_left ..

end Sign

namespace Radix

/-- The radix announced by a zero and a marker, and what follows. -/
def read? : Text → Option ((Radix × Bool) × Text)
  | '0' :: c :: r => (ofMarker? c).map fun m => (m, r)
  | _ => none

theorem marker_of_ofMarker? {c : Char} {r : Radix} {upper : Bool}
    (h : ofMarker? c = some (r, upper)) : r.marker upper = c := by
  unfold ofMarker? at h
  repeat' split at h
  all_goals cases h
  all_goals simp_all [marker]

theorem eq_append_of_read? {cs rest : Text} {r : Radix} {upper : Bool}
    (h : read? cs = some ((r, upper), rest)) : cs = '0' :: r.marker upper :: rest := by
  unfold read? at h
  split at h
  · rename_i c t
    obtain ⟨m, hm, e⟩ := Option.map_eq_some_iff.1 h
    cases e
    rw [marker_of_ofMarker? hm]
  · cases h

end Radix

/-- Whether a character may stand in the mantissa of a decimal number. -/
def isMantissaChar (c : Char) : Bool := Numeral.isDigit 10 c || c == '.'

namespace Mantissa

/-- Reads digits, points and suffix letters; there has to be a digit. -/
def read? (sign : Sign) (cs : Text) : Option (Mantissa × Text) :=
  let digits := cs.takeWhile isMantissaChar
  if digits.any (Numeral.isDigit 10) then
    let r := cs.dropWhile isMantissaChar
    some (⟨sign, digits, r.takeWhile isSuffixLetter⟩, r.dropWhile isSuffixLetter)
  else none

theorem eq_append_of_read? {sign : Sign} {cs r : Text} {m : Mantissa}
    (h : read? sign cs = some (m, r)) : sign.chars ++ cs = m.chars ++ r := by
  simp only [read?] at h
  split at h
  · cases h
    simp [chars]
  · cases h

theorem length_of_read? {sign : Sign} {cs r : Text} {m : Mantissa}
    (h : read? sign cs = some (m, r)) : r.length < cs.length := by
  simp only [read?] at h
  split at h
  · rename_i hd
    cases h
    have h1 := (List.dropWhile_sublist (l := cs.dropWhile isMantissaChar) isSuffixLetter).length_le
    have h2 := congrArg List.length (cs.takeWhile_append_dropWhile (p := isMantissaChar))
    have h3 : 0 < (cs.takeWhile isMantissaChar).length :=
      List.length_pos_iff.2 fun e => by rw [e] at hd; cases hd
    simp only [List.length_append] at h2
    omega
  · cases h

end Mantissa

namespace Literal

/-- Reads `true` or `false`. -/
def readKeyword? (cs : Text) : Option (Bool × Text) :=
  match Text.after? (keywordChars true) cs with
  | some r => some (true, r)
  | none => (Text.after? (keywordChars false) cs).map fun r => (false, r)

/-- Reads a run of digits that has to have one at least. -/
def readDigits? (r : Radix) (cs : Text) : Option (Text × Text) :=
  let digits := cs.takeWhile r.isDigit
  if digits = [] then none else some (digits, cs.dropWhile r.isDigit)

/-- Reads an exponent marker. -/
def readMarker? : Text → Option (Bool × Text)
  | 'e' :: r => some (false, r)
  | 'E' :: r => some (true, r)
  | _ => none

theorem eq_append_of_readKeyword? {cs r : Text} {b : Bool} (h : readKeyword? cs = some (b, r)) :
    cs = keywordChars b ++ r := by
  unfold readKeyword? at h
  split at h
  · rename_i ht
    cases h
    exact Text.eq_append_of_after? ht
  · obtain ⟨t, ht, e⟩ := Option.map_eq_some_iff.1 h
    cases e
    exact Text.eq_append_of_after? ht

theorem eq_append_of_readDigits? {r : Radix} {cs digits rest : Text}
    (h : readDigits? r cs = some (digits, rest)) : cs = digits ++ rest := by
  simp only [readDigits?] at h
  split at h
  · cases h
  · cases h
    exact cs.takeWhile_append_dropWhile.symm

theorem eq_cons_of_readMarker? {cs r : Text} {upper : Bool}
    (h : readMarker? cs = some (upper, r)) : cs = exponentMarker upper :: r := by
  unfold readMarker? at h
  split at h <;> cases h <;> rfl

theorem length_of_readMarker? {cs r : Text} {upper : Bool}
    (h : readMarker? cs = some (upper, r)) : r.length < cs.length := by
  rw [eq_cons_of_readMarker? h]
  exact Nat.lt_succ_self _

/-- Reads the longest literal at the start of a text. -/
def read? (signs : Bool) (cs : Text) : Option (Literal × Text) :=
  match readKeyword? cs with
  | some (b, r) => some (keyword b, r)
  | none =>
    match hs : Sign.read? signs cs with
    | none => none
    | some (sign, cs') =>
      match Radix.read? cs' with
      | some ((r, upper), cs'') =>
        (readDigits? r cs'').map fun (digits, rest) => (radix sign r upper digits, rest)
      | none =>
        match hm : Mantissa.read? sign cs' with
        | none => none
        | some (m, rest) =>
          match he : readMarker? rest with
          | none => some (plain m, rest)
          | some (upper, rest') =>
            have : rest'.length < cs.length :=
              Nat.lt_of_lt_of_le (Nat.lt_trans (length_of_readMarker? he)
                (Mantissa.length_of_read? hm)) (Sign.length_of_read? hs)
            match read? true rest' with
            | none => some (dangling m upper, rest')
            | some (exponent, rest'') => some (scaled m upper exponent, rest'')
termination_by cs.length

/-- A literal keeps the characters it was read from, so nothing is lost. -/
theorem eq_append_of_read? {signs : Bool} {cs rest : Text} {l : Literal}
    (h : read? signs cs = some (l, rest)) : cs = l.chars ++ rest := by
  fun_induction read? signs cs generalizing l rest with
  | case1 _ _ b r hk =>
    cases h
    exact eq_append_of_readKeyword? hk
  | case2 => cases h
  | case3 _ _ _ sign cs' hs r upper cs'' hr =>
    obtain ⟨⟨digits, t⟩, hd, e⟩ := Option.map_eq_some_iff.1 h
    cases e
    rw [Sign.eq_append_of_read? hs, Radix.eq_append_of_read? hr, eq_append_of_readDigits? hd]
    simp [chars]
  | case4 => cases h
  | case5 _ _ _ sign cs' hs _ m r hm =>
    cases h
    rw [Sign.eq_append_of_read? hs, Mantissa.eq_append_of_read? hm, chars]
  | case6 _ _ _ sign cs' hs _ m r hm upper r' he =>
    cases h
    rw [Sign.eq_append_of_read? hs, Mantissa.eq_append_of_read? hm, eq_cons_of_readMarker? he]
    simp [chars]
  | case7 _ _ _ sign cs' hs _ m r hm upper r' he _ exponent t hr ih =>
    cases h
    rw [Sign.eq_append_of_read? hs, Mantissa.eq_append_of_read? hm, eq_cons_of_readMarker? he,
      ih hr]
    simp [chars]

end Literal

namespace Value

/-- The value of the literal at the start of a text, and what follows it. -/
def read? (signs : Bool) (cs : Text) : Option (Value × Text) :=
  (Literal.read? signs cs).map fun (l, rest) => (l.value, rest)

/-- The value of radix digits whose marker has been read. -/
def readRadix? (r : Radix) (negative : Bool) (cs : Text) : Option (Value × Text) :=
  (Literal.readDigits? r cs).map fun (digits, rest) => (Literal.radixValue r negative digits, rest)

/-- The value of the literal that a string starts with; without one it is unset. -/
def ofString (s : String) : Value := ((read? true s.toList).map Prod.fst).getD .unset

end Value

end KernelFront
