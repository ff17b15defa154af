import JobLoom.Decimal.Shortest

/-!
# Decimal notation

How the numbers of the 64-bit format are read from text and written as text.

* **read** — an optional sign, digits with at most one point and at least one digit, and an
  optional exponent;
* **compact** — positional from `0.00001` up to 16 digits before the point, always with a point,
  and with an exponent otherwise;
* **positional** — all digits written out, always with a point.
-/

namespace JobLoom.Decimal

/-- The value of a digit, for digits in bases up to 36. -/
def digitValue (c : Char) : Option Nat :=
  if '0' ≤ c && c ≤ '9' then some (c.toNat - '0'.toNat)
  else if 'a' ≤ c && c ≤ 'z' then some (c.toNat - 'a'.toNat + 10)
  else if 'A' ≤ c && c ≤ 'Z' then some (c.toNat - 'A'.toNat + 10)
  else none

/-- The number that a digit string writes in a base, or nothing if some character is no digit of
that base or there is none. -/
def readBase (base : Nat) (s : List Char) : Option Nat :=
  if s.isEmpty then none
  else s.foldl (fun acc c =>
    match acc, digitValue c with
    | some n, some d => if d < base then some (n * base + d) else none
    | _, _ => none) (some 0)

/-- A decimal digit. -/
def isDigit (c : Char) : Bool := '0' ≤ c && c ≤ '9'

/-- The number that decimal digits write; the empty string writes zero. -/
def digitsToNat (s : List Char) : Nat :=
  s.foldl (fun n c => n * 10 + (c.toNat - '0'.toNat)) 0

/-- The number that a count writes: digits, perhaps after a plus sign, below `2 ^ 64`. -/
def readCount (s : List Char) : Option Nat :=
  let digits := match s with
    | '+' :: rest => rest
    | s => s
  (readBase 10 digits).filter (· < Nat.pow 2 64)

/-- The decimal digits of a number. -/
def digitsOf (n : Nat) : List Char := Nat.toDigits 10 n

/-- A sign in front of a number, and the rest. -/
def splitSign : List Char → Bool × List Char
  | '-' :: rest => (true, rest)
  | '+' :: rest => (false, rest)
  | s => (false, s)

/-- The exponent part after the digits: empty, or a mark, an optional sign and digits. -/
def readExponent : List Char → Option Int
  | [] => some 0
  | c :: rest =>
    if c = 'e' || c = 'E' then
      let (negative, ds) := splitSign rest
      if ds.isEmpty || !ds.all isDigit then none
      else some (if negative then -(digitsToNat ds : Int) else digitsToNat ds)
    else none

/-- Read a decimal numeral as the nearest number of the 64-bit format. -/
def Binary64.read? (s : List Char) : Option Binary64 :=
  let (negative, s) := splitSign s
  let whole := s.takeWhile isDigit
  let s := s.drop whole.length
  let (fraction, s) := match s with
    | '.' :: t => (t.takeWhile isDigit, t.dropWhile isDigit)
    | _ => ([], s)
  if whole.isEmpty && fraction.isEmpty then none
  else
    (readExponent s).map fun e =>
      Binary64.ofDecimal negative (digitsToNat (whole ++ fraction)) (e - fraction.length)

/-- A run of zeros. -/
def zeros (n : Nat) : List Char := List.replicate n '0'

/-- Digits with the point after the first `place` of them, zeros filling the gap. -/
def pointed (digits : List Char) (place : Int) : List Char :=
  if place ≤ 0 then '0' :: '.' :: zeros (-place).toNat ++ digits
  else
    let p := place.toNat
    if digits.length ≤ p then digits ++ zeros (p - digits.length) ++ ['.', '0']
    else digits.take p ++ '.' :: digits.drop p

/-- Digits with the point after the first one, and an exponent. -/
def scientific (digits : List Char) (exponent : Int) : List Char :=
  let mantissa := match digits with
    | d :: e :: rest => d :: '.' :: e :: rest
    | ds => ds
  let tail := if exponent < 0 then '-' :: digitsOf exponent.natAbs else digitsOf exponent.natAbs
  mantissa ++ 'e' :: tail

/-- The unsigned text of a finite number: positional when the point falls between four zeros in
front of the digits and sixteen places behind the first. -/
def compactUnsigned (m : Nat) (q : Int) : List Char :=
  if m = 0 then ['0', '.', '0']
  else
    let d := shortest m q
    let digits := digitsOf d.digits
    let place : Int := (digits.length : Int) + d.exponent
    if -5 < place && place ≤ 16 then pointed digits place else scientific digits (place - 1)

/-- The unsigned text of a finite number with all places written out. -/
def positionalUnsigned (m : Nat) (q : Int) : List Char :=
  if m = 0 then ['0', '.', '0']
  else
    let d := shortest m q
    let digits := digitsOf d.digits
    pointed digits ((digits.length : Int) + d.exponent)

/-- A minus sign, if wanted, in front of a text. -/
def signed (negative : Bool) (s : List Char) : String :=
  String.ofList (if negative then '-' :: s else s)

/-- The text of a number as a document value. -/
def Binary64.compact : Binary64 → String
  | .finite negative m q => signed negative (compactUnsigned m q)
  | .infinite negative => signed negative ['.', 'i', 'n', 'f']
  | .nan => ".nan"

/-- The text of a number inside a message. -/
def Binary64.positional : Binary64 → String
  | .finite negative m q => signed negative (positionalUnsigned m q)
  | .infinite negative => signed negative ['i', 'n', 'f']
  | .nan => "NaN"

end JobLoom.Decimal
