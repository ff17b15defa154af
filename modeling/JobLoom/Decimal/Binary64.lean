/-!
# Binary floating-point numbers

The numbers of the 64-bit binary format, as sign, mantissa and exponent over exact integers, so
that rounding is a division and never a machine operation.

* **canonical** — the mantissa of a finite number is below `2 ^ 53`, and it is at least `2 ^ 52`
  unless the exponent is the least one;
* **rounding** — a fraction goes to the nearest number of the format, a half to the even mantissa;
* **overflow** — a fraction that rounds above the largest finite number becomes infinite.
-/

namespace JobLoom.Decimal

/-- A number of the 64-bit binary format. -/
inductive Binary64 where
  /-- the number `± mantissa * 2 ^ exponent` -/
  | finite (negative : Bool) (mantissa : Nat) (exponent : Int)
  /-- an infinity -/
  | infinite (negative : Bool)
  /-- not a number -/
  | nan
  deriving DecidableEq, Repr

namespace Binary64

/-- The least exponent of a finite number. -/
def leastExponent : Int := -1074

/-- The greatest exponent of a finite number. -/
def greatestExponent : Int := 971

/-- `n / d`, rounded to the nearest integer, a half to the even one. -/
def roundDiv (n d : Nat) : Nat :=
  let f := n / d
  let r := n % d
  if 2 * r < d then f
  else if 2 * r > d then f + 1
  else if f % 2 = 0 then f else f + 1

/-- `n / d * 2 ^ (-q)` as a numerator and a denominator. -/
def scaled (n d : Nat) (q : Int) : Nat × Nat :=
  if q ≥ 0 then (n, d * Nat.pow 2 q.toNat) else (n * Nat.pow 2 (-q).toNat, d)

/-- The exponent that the positive fraction `n / d` has in the format, before rounding. -/
def exponentOf (n d : Nat) : Int :=
  let q : Int := (n.log2 : Int) - (d.log2 : Int) - 53
  let s := scaled n d q
  max leastExponent (if s.1 / s.2 ≥ Nat.pow 2 53 then q + 1 else q)

/-- The nearest number to the fraction `± n / d`, for `d > 0`. -/
def ofFraction (negative : Bool) (n d : Nat) : Binary64 :=
  if n = 0 then .finite negative 0 leastExponent
  else
    let q := exponentOf n d
    let s := scaled n d q
    let m := roundDiv s.1 s.2
    let (m, q) := if m ≥ Nat.pow 2 53 then (Nat.pow 2 52, q + 1) else (m, q)
    if q > greatestExponent then .infinite negative else .finite negative m q

/-- The nearest number to `± digits * 10 ^ exponent`. Numbers far outside the range of the format
are settled by their size alone. -/
def ofDecimal (negative : Bool) (digits : Nat) (exponent : Int) : Binary64 :=
  let size : Int := ((Nat.toDigits 10 digits).length : Int) + exponent
  if digits = 0 || size < -400 then .finite negative 0 leastExponent
  else if size > 400 then .infinite negative
  else if exponent ≥ 0 then ofFraction negative (digits * Nat.pow 10 exponent.toNat) 1
  else ofFraction negative digits (Nat.pow 10 (-exponent).toNat)

/-- The number is neither infinite nor undefined. -/
def isFinite : Binary64 → Bool
  | .finite .. => true
  | _ => false

/-- Numerical equality: the two zeros are equal, and an undefined number equals only itself. -/
def sameNumber : Binary64 → Binary64 → Bool
  | .finite _ 0 _, .finite _ 0 _ => true
  | a, b => decide (a = b)

end Binary64

end JobLoom.Decimal
