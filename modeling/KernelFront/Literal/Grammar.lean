import KernelFront.Literal.Value

/-!
# The grammar of literals

`Reads signs cs l rest` says that the text `cs` starts with the literal `l` and goes on with `rest`.
It is the grammar of the reader without its order of work: every run of characters is as long as it
can be (`Run`), a sign is there only if it is asked for (`Signed`), and the marker of a radix forbids
the decimal reading (`ReadsMantissa`). A marker of an exponent may stand without one only where no
literal can start at all, which is `Opens`; it looks at the first characters and not at the rest of the
grammar.
-/

namespace KernelFront

/-- `run` is all of `run ++ rest` up to the first character that is not in `p`. -/
structure Run (p : Char → Prop) (run rest : Text) : Prop where
  all : ∀ c ∈ run, p c
  maximal : ∀ c ∈ rest.head?, ¬ p c

namespace Literal

/-! ## Characters -/

/-- What may stand between a sign and its number. -/
def BlankChar (c : Char) : Prop := c ∈ [' ', '\t', '\n', '\x0c', '\r']

def SignChar (c : Char) : Prop := c = '+' ∨ c = '-'

def DecimalDigit (c : Char) : Prop := '0' ≤ c ∧ c ≤ '9'

def MantissaChar (c : Char) : Prop := DecimalDigit c ∨ c = '.'

def SuffixLetter (c : Char) : Prop := c ∈ ['L', 'l', 'U', 'u', 'F', 'f']

def RadixDigit (r : Radix) (c : Char) : Prop :=
  match r with
  | .binary => c = '0' ∨ c = '1'
  | .hexadecimal => DecimalDigit c ∨ ('a' ≤ c ∧ c ≤ 'f') ∨ ('A' ≤ c ∧ c ≤ 'F')

instance (c : Char) : Decidable (BlankChar c) := inferInstanceAs (Decidable (c ∈ _))

instance (c : Char) : Decidable (SignChar c) := inferInstanceAs (Decidable (_ ∨ _))

instance (c : Char) : Decidable (DecimalDigit c) := inferInstanceAs (Decidable (_ ∧ _))

instance (c : Char) : Decidable (MantissaChar c) := inferInstanceAs (Decidable (_ ∨ _))

instance (c : Char) : Decidable (SuffixLetter c) := inferInstanceAs (Decidable (c ∈ _))

/-! ## Parts -/

/-- The text starts with the sign, all blanks after it included, and goes on with `body`. -/
inductive Signed (signs : Bool) : Sign → Text → Text → Prop where
  | absent {body : Text} : (∀ c ∈ body.head?, ¬ SignChar c) → Signed signs .absent body body
  | given {negative : Bool} {blanks body : Text} : signs = true → Run BlankChar blanks body →
      Signed signs (.given negative blanks)
        ((if negative then '-' else '+') :: (blanks ++ body)) body

/-- A zero and the marker of a radix; `digits` is what follows them. -/
def Announces (body : Text) (r : Radix) (upper : Bool) (digits : Text) : Prop :=
  body = '0' :: r.marker upper :: digits

def Unannounced (body : Text) : Prop := ∀ r upper digits, ¬ Announces body r upper digits

/-- The text starts with a sign, digits with at least one that is no point, and suffix letters; no
radix is announced. -/
inductive ReadsMantissa (signs : Bool) : Mantissa → Text → Text → Prop where
  | intro {m : Mantissa} {cs rest : Text} :
      Signed signs m.sign cs (m.digits ++ (m.suffix ++ rest)) →
      Unannounced (m.digits ++ (m.suffix ++ rest)) →
      Run MantissaChar m.digits (m.suffix ++ rest) → (∃ c ∈ m.digits, DecimalDigit c) →
      Run SuffixLetter m.suffix rest → ReadsMantissa signs m cs rest

/-- A number starts here: an announced radix has a digit, or else the run of digits and points has
one. -/
def OpensNumber (body : Text) : Prop :=
  (∃ r upper digits, Announces body r upper digits ∧ ∃ c ∈ digits.head?, RadixDigit r c) ∨
    (Unannounced body ∧
      ∃ run rest, body = run ++ rest ∧ Run MantissaChar run rest ∧ ∃ c ∈ run, DecimalDigit c)

/-- A literal starts here. -/
def Opens (signs : Bool) (cs : Text) : Prop :=
  (∃ b rest, cs = keywordChars b ++ rest) ∨
    ∃ sign body, Signed signs sign cs body ∧ OpensNumber body

/-! ## Literals -/

/-- The text starts with the literal and goes on with `rest`. -/
inductive Reads : Bool → Text → Literal → Text → Prop where
  | keyword {signs : Bool} (b : Bool) (rest : Text) :
      Reads signs (keywordChars b ++ rest) (.keyword b) rest
  | radix {signs : Bool} {sign : Sign} {cs body : Text} {r : Radix} {upper : Bool}
      {digits rest : Text} : Signed signs sign cs body → Announces body r upper (digits ++ rest) →
      digits ≠ [] → Run (RadixDigit r) digits rest → Reads signs cs (.radix sign r upper digits) rest
  | plain {signs : Bool} {m : Mantissa} {cs rest : Text} : ReadsMantissa signs m cs rest →
      (∀ upper, rest.head? ≠ some (exponentMarker upper)) → Reads signs cs (.plain m) rest
  | dangling {signs : Bool} {m : Mantissa} {cs : Text} {upper : Bool} {rest : Text} :
      ReadsMantissa signs m cs (exponentMarker upper :: rest) → ¬ Opens true rest →
      Reads signs cs (.dangling m upper) rest
  | scaled {signs : Bool} {m : Mantissa} {cs : Text} {upper : Bool} {after : Text}
      {exponent : Literal} {rest : Text} :
      ReadsMantissa signs m cs (exponentMarker upper :: after) →
      Reads true after exponent rest → Reads signs cs (.scaled m upper exponent) rest

/-! ## Kinds -/

/-- The digits and the suffix of a decimal number. -/
def mantissa? : Literal → Option Mantissa
  | keyword _ | radix .. => none
  | plain m | dangling m _ | scaled m _ _ => some m

/-- Whether a decimal number is marked as a float: by a letter, or, where an exponent marker stands,
by the kind of the exponent alone. -/
def Marked : Literal → Prop
  | keyword _ | radix .. | dangling .. => False
  | plain m => 'F' ∈ m.suffix ∨ 'f' ∈ m.suffix
  | scaled _ _ exponent =>
    exponent.value.kind = .float .single ∨ exponent.value.kind = .float .double

end Literal

end KernelFront
