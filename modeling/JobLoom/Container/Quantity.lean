import JobLoom.Text.Blank

/-!
# Resource quantities

A quantity is a decimal numeral and perhaps a suffix:

* **numeral** — an optional sign, then digits with an optional point and optional digits behind it,
  or a point with digits behind it;
* **suffix** — a binary one (`Ki`, `Mi`, `Gi`, `Ti`, `Pi`, `Ei`), a decimal one (`n`, `u`, `m`, `k`,
  `M`, `G`, `T`, `P`, `E`) or a decimal exponent.

Blanks around it do not count. A quantity keeps the spelling that it was written in.
-/

namespace JobLoom

namespace Quantity

/-- An ASCII digit. -/
def isDigit (c : Char) : Bool := '0' ≤ c && c ≤ '9'

/-- The text without a sign in front. -/
def dropSign : List Char → List Char
  | '+' :: rest => rest
  | '-' :: rest => rest
  | s => s

/-- What stands behind the numeral at the front of a text, if there is one. The numeral is taken as
long as possible. -/
def afterNumeral (s : List Char) : Option (List Char) :=
  let s := dropSign s
  let whole := s.takeWhile isDigit
  match s.dropWhile isDigit with
  | '.' :: rest =>
    if whole.isEmpty && (rest.takeWhile isDigit).isEmpty then none
    else some (rest.dropWhile isDigit)
  | rest => if whole.isEmpty then none else some rest

/-- The suffixes that are names. -/
def names : List String :=
  ["Ki", "Mi", "Gi", "Ti", "Pi", "Ei", "n", "u", "m", "k", "M", "G", "T", "P", "E"]

/-- A decimal exponent: a mark, an optional sign and at least one digit. -/
def isExponent : List Char → Bool
  | c :: rest =>
    let ds := dropSign rest
    (c = 'e' || c = 'E') && !ds.isEmpty && ds.all isDigit
  | [] => false

/-- The text is a suffix, or nothing at all. -/
def isSuffix (s : List Char) : Bool :=
  s.isEmpty || names.any (fun n => n.toList = s) || isExponent s

/-- The text is a quantity without blanks around it. -/
def isValid (s : List Char) : Bool :=
  match afterNumeral s with
  | some rest => isSuffix rest
  | none => false

end Quantity

/-- A resource quantity, in the spelling that it was written in. -/
structure Quantity where
  /-- the spelling -/
  text : String
  /-- it has no blanks around it and is a quantity -/
  valid : Text.trimmed text = text ∧ Quantity.isValid text.toList = true
  deriving DecidableEq

namespace Quantity

/-- The quantity that a text writes. -/
def parse? (s : String) : Option Quantity :=
  let t := Text.trimmed s
  if h : Text.trimmed t = t ∧ isValid t.toList = true then some ⟨t, h⟩ else none

end Quantity

end JobLoom
