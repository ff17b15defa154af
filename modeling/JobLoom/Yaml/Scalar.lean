import JobLoom.Decimal.Notation

/-!
# What a plain scalar stands for

A plain scalar is not always text. In this order it is

* **nothing**: the empty text, `null` in lower, upper or title case, or `~`;
* **a truth value**: `true` or `false` in lower, upper or title case;
* **an integer** in decimal, or in hexadecimal, octal or binary behind `0x`, `0o` or `0b`, with a
  sign in front if need be; decimal digits behind a leading zero are no number;
* **a number** with point or exponent, an infinity or the undefined number; a numeral too large for
  a finite number is none;
* **text** otherwise.

Integers fit in 64 bits, the positive ones without a sign bit. Larger ones of up to 128 bits are
recognised as such, but nothing accepts them; beyond that they are numbers like any other.
-/

namespace JobLoom.Yaml

open Decimal (Binary64)

/-- What a plain scalar stands for. -/
inductive Meaning where
  /-- no value -/
  | null
  /-- a truth value -/
  | boolean (b : Bool)
  /-- an integer of 64 bits -/
  | integer (n : Int)
  /-- an integer of more than 64 bits, and whether it is written in the signed format -/
  | wide (n : Int) (isSigned : Bool)
  /-- a number -/
  | float (x : Binary64)
  /-- a text -/
  | text
  deriving DecidableEq, Repr

/-- The spellings of no value, the empty one aside. -/
def isNullWord (s : String) : Bool :=
  s = "null" || s = "Null" || s = "NULL" || s = "~"

/-- The truth value that is spelled so. -/
def booleanWord (s : String) : Option Bool :=
  if s = "true" || s = "True" || s = "TRUE" then some true
  else if s = "false" || s = "False" || s = "FALSE" then some false
  else none

/-- A decimal numeral with a needless zero in front; such a text is no number. -/
def hasLeadingZero (s : List Char) : Bool :=
  let s := match s with
    | '-' :: rest => rest
    | '+' :: rest => rest
    | s => s
  match s with
  | '0' :: rest => !rest.isEmpty && rest.all Decimal.isDigit
  | _ => false

/-- A sign in front of digits. -/
def startsSign : List Char → Bool
  | '+' :: _ => true
  | '-' :: _ => true
  | _ => false

/-- Digits behind a base mark, as a number. -/
def baseNumber (s : List Char) : Option (Nat × List Char) :=
  match s with
  | '0' :: 'x' :: rest => some (16, rest)
  | '0' :: 'o' :: rest => some (8, rest)
  | '0' :: 'b' :: rest => some (2, rest)
  | _ => none

/-- The numeral without a minus sign in front; a plus sign may stand there. -/
def unsignedNumber (s : List Char) : Option Nat :=
  let digits := match s with
    | '+' :: rest => rest
    | s => s
  let marked := (baseNumber digits).bind fun (base, rest) => Decimal.readBase base rest
  match marked with
  | some n => some n
  | none => if hasLeadingZero s then none else Decimal.readBase 10 digits

/-- The numeral with a minus sign in front. -/
def negativeNumber (s : List Char) : Option Int :=
  match s with
  | '-' :: digits =>
    let marked := (baseNumber digits).bind fun (base, rest) => Decimal.readBase base rest
    let n := match marked with
      | some n => some n
      | none => if hasLeadingZero s then none else Decimal.readBase 10 digits
    n.map fun n => -(n : Int)
  | _ => none

/-- The integer that a text writes, as far as it fits in 128 bits. -/
def integerMeaning (s : List Char) : Option Meaning :=
  match unsignedNumber s, negativeNumber s with
  | some n, _ =>
    if n < Nat.pow 2 64 then some (.integer n)
    else if n < Nat.pow 2 128 then some (.wide n false) else none
  | none, some i =>
    if -(Nat.pow 2 63 : Nat) ≤ i then some (.integer i)
    else if -(Nat.pow 2 127 : Nat) ≤ i then some (.wide i true) else none
  | none, none => none

/-- The number with point or exponent that a text writes. -/
def floatMeaning (s : List Char) : Option Binary64 :=
  let unsigned := match s with
    | '+' :: rest => rest
    | s => s
  let word := String.ofList s
  let bare := String.ofList unsigned
  if s.head? = some '+' && startsSign unsigned then none
  else if bare = ".inf" || bare = ".Inf" || bare = ".INF" then some (.infinite false)
  else if word = "-.inf" || word = "-.Inf" || word = "-.INF" then some (.infinite true)
  else if word = ".nan" || word = ".NaN" || word = ".NAN" then some .nan
  else (Binary64.read? unsigned).filter Binary64.isFinite

/-- What a plain scalar with this text stands for. -/
def meaning (s : String) : Meaning :=
  if s.isEmpty || isNullWord s then .null
  else match booleanWord s with
    | some b => .boolean b
    | none =>
      match integerMeaning s.toList with
      | some m => m
      | none =>
        if hasLeadingZero s.toList then .text
        else match floatMeaning s.toList with
          | some x => .float x
          | none => .text

end JobLoom.Yaml
