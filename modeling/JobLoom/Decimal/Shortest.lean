import JobLoom.Decimal.Binary64

/-!
# Shortest decimals

The decimal text of a binary number has the fewest digits that read back as that number, and of
those digits the ones nearest to it; a tie goes to the even last digit. A decimal **reads back**
when it lies between the midpoints to the two neighbours of the number, a midpoint included when
the mantissa is even.

The search goes through the grids of 1, 2, … 17 digits. If any point of a grid reads back, then so
does one of the two points around the number, so only those two are tested.
-/

namespace JobLoom.Decimal

/-- A positive decimal `digits * 10 ^ exponent`. -/
structure Numeral where
  /-- the digits, as a number -/
  digits : Nat
  /-- the power of ten that the digits are counted in -/
  exponent : Int
  deriving DecidableEq, Repr

/-- The quarter steps of `m * 2 ^ q` up to which a decimal still reads back. -/
structure Basin where
  /-- the lower end, in units of `2 ^ exponent` -/
  low : Nat
  /-- the number itself -/
  mid : Nat
  /-- the upper end -/
  high : Nat
  /-- the power of two that the ends are counted in -/
  exponent : Int
  /-- the ends themselves read back -/
  closed : Bool

/-- The basin of the positive number `m * 2 ^ q`. The lower neighbour of a power of two is only
half as far away as the upper one. -/
def Basin.of (m : Nat) (q : Int) : Basin where
  low := if m = Nat.pow 2 52 ∧ q > Binary64.leastExponent then 4 * m - 1 else 4 * m - 2
  mid := 4 * m
  high := 4 * m + 2
  exponent := q - 2
  closed := m % 2 = 0

/-- `n * 10 ^ k` and `u * 2 ^ q`, both multiplied by the same positive number to make them whole. -/
def commonScale (n : Nat) (k : Int) (u : Nat) (q : Int) : Nat × Nat :=
  let tens := Nat.pow 10 k.natAbs
  let twos := Nat.pow 2 q.natAbs
  let (a, b) := if k ≥ 0 then (n * tens, u) else (n, u * tens)
  if q ≥ 0 then (a, b * twos) else (a * twos, b)

/-- The decimal reads back as the number of the basin. -/
def Basin.holds (s : Basin) (n : Nat) (k : Int) : Bool :=
  let lo := commonScale n k s.low s.exponent
  let hi := commonScale n k s.high s.exponent
  if s.closed then lo.2 ≤ lo.1 && hi.1 ≤ hi.2 else lo.2 < lo.1 && hi.1 < hi.2

/-- The number is at least `10 ^ p`. -/
def Basin.reaches (s : Basin) (p : Int) : Bool :=
  let c := commonScale 1 p s.mid s.exponent
  c.1 ≤ c.2

/-- The greatest `p` with `10 ^ p` not above the number, looked for around an estimate. -/
def Basin.magnitude (s : Basin) : Int :=
  let estimate := ((s.mid.log2 : Int) + s.exponent) * 30103 / 100000
  if s.reaches (estimate + 1) then estimate + 1
  else if s.reaches estimate then estimate
  else estimate - 1

/-- The nearer of the two grid points around the number that read back, if any does. -/
def Basin.onGrid (s : Basin) (k : Int) : Option Nat :=
  let (unit, value) := commonScale 1 k s.mid s.exponent
  let n := value / unit
  let rest := value % unit
  match n ≠ 0 && s.holds n k, s.holds (n + 1) k with
  | true, true =>
    if 2 * rest < unit then some n
    else if 2 * rest > unit then some (n + 1)
    else if n % 2 = 0 then some n else some (n + 1)
  | true, false => some n
  | false, true => some (n + 1)
  | false, false => none

/-- Move factors of ten from the digits to the exponent. -/
def stripZeros (fuel n : Nat) (k : Int) : Numeral :=
  match fuel with
  | 0 => ⟨n, k⟩
  | fuel + 1 => if n % 10 = 0 then stripZeros fuel (n / 10) (k + 1) else ⟨n, k⟩

/-- Try the grid with unit `10 ^ k`, then ever finer ones. -/
def Basin.search (s : Basin) (fuel : Nat) (k : Int) : Numeral :=
  match s.onGrid k with
  | some n => stripZeros 17 n k
  | none =>
    match fuel with
    | 0 => ⟨s.mid, 0⟩
    | fuel + 1 => s.search fuel (k - 1)

/-- The shortest decimal of the positive number `m * 2 ^ q`. -/
def shortest (m : Nat) (q : Int) : Numeral :=
  let s := Basin.of m q
  let p := s.magnitude
  s.search 17 p

end JobLoom.Decimal
