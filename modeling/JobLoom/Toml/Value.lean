import JobLoom.Decimal.Notation
import JobLoom.Toml.Text

/-!
# Values of a settings file

Texts, integers, numbers, truth values, dates and times, arrays and inline tables. Of dates, times
and numbers with a point only the kind matters for the settings, but they have to be written
properly.

* **Integers** have 64 bits and a sign; behind `0x`, `0o` and `0b` they have none. Single
  underscores may stand between digits, and a decimal numeral has no needless zero in front.
* **Dates and times** have to exist; a minute may have 61 seconds.
* **Collections** nest at most 79 levels.
-/

namespace JobLoom.Toml

open Decimal (Binary64)

/-- A value. -/
inductive Value where
  /-- a text -/
  | text (s : String)
  /-- an integer -/
  | integer (n : Int)
  /-- a number -/
  | float (x : Binary64)
  /-- a truth value -/
  | boolean (b : Bool)
  /-- a date, a time or both -/
  | moment
  /-- an array -/
  | array (items : List Value)
  /-- a table -/
  | table (entries : List (String × Value))

/-! ## Dates and times -/

/-- Read a number of exactly `count` digits. -/
def fixedNumber (count : Nat) (s : List Char) : Option (Nat × List Char) :=
  let ds := s.take count
  if ds.length = count && ds.all Decimal.isDigit then some (Decimal.digitsToNat ds, s.drop count)
  else none

/-- Read one character. -/
def expect (c : Char) : List Char → Option (List Char)
  | d :: rest => if c = d then some rest else none
  | [] => none

/-- How many days a month has. -/
def daysIn (year month : Nat) : Nat :=
  let leap := year % 4 = 0 && (year % 100 ≠ 0 || year % 400 = 0)
  if month = 2 then (if leap then 29 else 28)
  else if [4, 6, 9, 11].contains month then 30 else 31

/-- The text behind a date. -/
def date? (s : List Char) : Option (List Char) := do
  let (year, s) ← fixedNumber 4 s
  let (month, s) ← fixedNumber 2 (← expect '-' s)
  let (day, s) ← fixedNumber 2 (← expect '-' s)
  if 1 ≤ month && month ≤ 12 && 1 ≤ day && day ≤ daysIn year month then some s else none

/-- The text behind a time. -/
def time? (s : List Char) : Option (List Char) := do
  let (hour, s) ← fixedNumber 2 s
  let (minute, s) ← fixedNumber 2 (← expect ':' s)
  let (second, s) ← fixedNumber 2 (← expect ':' s)
  if hour ≤ 23 && minute ≤ 59 && second ≤ 60 then
    match s with
    | '.' :: rest =>
      if (rest.takeWhile Decimal.isDigit).isEmpty then some s
      else some (rest.dropWhile Decimal.isDigit)
    | s => some s
  else none

/-- The text behind a time zone, if one stands here; a zone that is begun has to be proper. -/
def zone? (s : List Char) : Option (List Char) :=
  match s with
  | 'Z' :: rest => some rest
  | 'z' :: rest => some rest
  | c :: rest =>
    if c = '+' || c = '-' then do
      let (hour, s) ← fixedNumber 2 rest
      let (minute, s) ← fixedNumber 2 (← expect ':' s)
      if hour ≤ 23 && minute ≤ 59 then some s else none
    else some s
  | [] => some []

/-- The text behind a date, a time or both. A blank behind a date belongs to it only if a time
follows. -/
def moment? (s : List Char) : Option (List Char) :=
  match date? s with
  | none => time? s
  | some s =>
    match s with
    | c :: rest =>
      if c = 'T' || c = 't' || c = ' ' then
        match time? rest with
        | some s => zone? s
        | none => some (c :: rest)
      else some (c :: rest)
    | [] => some []

/-! ## Numbers -/

/-- Read digits with single underscores between them; the digits are kept in reverse. -/
def digits (isDigit : Char → Bool) : List Char → List Char → Option (List Char × List Char)
  | c :: rest, read =>
    if isDigit c then digits isDigit rest (c :: read)
    else if c = '_' && !read.isEmpty then
      match rest with
      | d :: rest => if isDigit d then digits isDigit rest (d :: read) else none
      | [] => none
    else if read.isEmpty then none else some (read.reverse, c :: rest)
  | [], read => if read.isEmpty then none else some (read.reverse, [])

/-- Read a decimal numeral without a needless zero in front. -/
def wholeNumber : List Char → Option (List Char × List Char)
  | '0' :: rest => some (['0'], rest)
  | s => digits Decimal.isDigit s []

/-- Read the part of a number from its exponent mark on, if there is one. -/
def exponent? (s : List Char) : Option (Option (List Char) × List Char) :=
  match s with
  | c :: rest =>
    if c = 'e' || c = 'E' then
      let (sign, rest) := match rest with
        | '+' :: rest => (['+'], rest)
        | '-' :: rest => (['-'], rest)
        | rest => ([], rest)
      (digits Decimal.isDigit rest []).map fun (ds, rest) => (some ('e' :: sign ++ ds), rest)
    else some (none, s)
  | [] => some (none, [])

/-- Read a number or an integer, after its sign. -/
def unsignedNumber (negative : Bool) (s : List Char) : Except Fault (Value × List Char) := do
  let (whole, s) ← (wholeNumber s).elim (.error .badValue) .ok
  let (fraction, s) ← match s with
    | '.' :: rest =>
      match digits Decimal.isDigit rest [] with
      | some (ds, rest) => pure (some ('.' :: ds), rest)
      | none => throw .badValue
    | s => pure (none, s)
  let (exponent, s) ← (exponent? s).elim (.error .badValue) .ok
  match fraction, exponent with
  | none, none =>
    let n : Int := Decimal.digitsToNat whole
    let n := if negative then -n else n
    if -(Nat.pow 2 63 : Nat) ≤ n && n < (Nat.pow 2 63 : Nat) then return (.integer n, s)
    else throw .badValue
  | _, _ =>
    let sign := if negative then ['-'] else []
    match Binary64.read? (sign ++ whole ++ fraction.getD [] ++ exponent.getD []) with
    | some (.infinite false) => throw .badValue
    | some x => return (.float x, s)
    | none => throw .badValue

/-- Read an integer in another base, behind its mark. -/
def basedInteger (base : Nat) (s : List Char) : Except Fault (Value × List Char) :=
  let isDigit (c : Char) : Bool := match Decimal.digitValue c with
    | some d => d < base
    | none => false
  match digits isDigit s [] with
  | none => .error .badValue
  | some (ds, rest) =>
    match Decimal.readBase base ds with
    | some n => if n < Nat.pow 2 63 then .ok (.integer n, rest) else .error .badValue
    | none => .error .badValue

/-- Read a number, from its sign. -/
def signedNumber (negative : Bool) (s : List Char) : Except Fault (Value × List Char) :=
  match s with
  | 'i' :: 'n' :: 'f' :: rest => .ok (.float (.infinite negative), rest)
  | 'n' :: 'a' :: 'n' :: rest => .ok (.float .nan, rest)
  | s => unsignedNumber negative s

/-- Read a date, a time or a number. -/
def numberOrMoment (s : List Char) : Except Fault (Value × List Char) :=
  match moment? s with
  | some rest => .ok (.moment, rest)
  | none =>
    match s with
    | '0' :: 'x' :: rest => basedInteger 16 rest
    | '0' :: 'o' :: rest => basedInteger 8 rest
    | '0' :: 'b' :: rest => basedInteger 2 rest
    | '+' :: rest => signedNumber false rest
    | '-' :: rest => signedNumber true rest
    | s => unsignedNumber false s

/-! ## Inline tables -/

/-- A table that is written in one line, or a table in it that its dotted keys imply. -/
inductive Inline where
  /-- a value, which nothing can be added to -/
  | value (v : Value)
  /-- a table that dotted keys have made -/
  | dotted (entries : List (String × Inline))

/-- Put an entry under a key; on the way tables are made, and only those are gone into. -/
def addInline : List String → Value → List (String × Inline) →
    Except Fault (List (String × Inline))
  | [], _, entries => .ok entries
  | [k], v, entries =>
    if entries.any (·.1 = k) then .error (.repeated k) else .ok (entries ++ [(k, .value v)])
  | k :: path, v, entries =>
    match entries.lookup k with
    | none => do
      let inner ← addInline path v []
      return entries ++ [(k, .dotted inner)]
    | some (.dotted inner) => do
      let inner ← addInline path v inner
      return entries.map fun e => if e.1 = k then (k, .dotted inner) else e
    | some (.value (.table _)) => .error (.repeated k)
    | some (.value _) => .error (.notTable k)

mutual

/-- The value of an entry. -/
def Inline.toValue : Inline → Value
  | .value v => v
  | .dotted entries => .table (inlineEntries entries)

/-- The values of some entries. -/
def inlineEntries : List (String × Inline) → List (String × Value)
  | [] => []
  | e :: rest => inlineEntry e :: inlineEntries rest

/-- The value of one entry, with its key. -/
def inlineEntry : String × Inline → String × Value
  | (k, i) => (k, i.toValue)

end

/-! ## Collections -/

/-- A reader of values. -/
abbrev ValueReader := List Char → Except Fault (Value × List Char)

/-- Read the items of an array up to its bracket; those read are kept in reverse. -/
def arrayItems (read : ValueReader) (fuel : Nat) (s : List Char) (done : List Value) :
    Except Fault (Value × List Char) := do
  match fuel with
  | 0 => throw .badValue
  | fuel + 1 =>
    match skipLines (s.length + 1) s with
    | ']' :: rest => return (.array done.reverse, rest)
    | s =>
      let (v, s) ← read s
      match skipLines (s.length + 1) s with
      | ',' :: rest => arrayItems read fuel rest (v :: done)
      | ']' :: rest => return (.array (v :: done).reverse, rest)
      | _ => throw .badValue

/-- Read the entries of an inline table up to its brace. -/
def inlineItems (read : ValueReader) (fuel : Nat) (s : List Char) (done : List (String × Inline)) :
    Except Fault (Value × List Char) := do
  match fuel with
  | 0 => throw .badValue
  | fuel + 1 =>
    let (path, s) ← key s
    match s with
    | '=' :: rest =>
      let (v, s) ← read (skipSpacing rest)
      let done ← addInline path v done
      match skipSpacing s with
      | ',' :: rest => inlineItems read fuel rest done
      | '\x7d' :: rest => return (.table (inlineEntries done), rest)
      | _ => throw .badValue
    | _ => throw .badKey

/-- Read a value; `inner` reads the values in it, unless the level is too deep. -/
def valueWith (inner : Option ValueReader) : ValueReader := fun s =>
  match s with
  | '"' :: rest => (quotedText '"' rest).map fun (t, rest) => (.text t, rest)
  | '\'' :: rest => (quotedText '\'' rest).map fun (t, rest) => (.text t, rest)
  | '[' :: rest =>
    match inner with
    | none => .error .nesting
    | some read => arrayItems read (rest.length + 1) rest []
  | '\x7b' :: rest =>
    match inner with
    | none => .error .nesting
    | some read =>
      match skipSpacing rest with
      | '\x7d' :: rest => .ok (.table [], rest)
      | rest => inlineItems read (rest.length + 1) rest []
  | 't' :: 'r' :: 'u' :: 'e' :: rest => .ok (.boolean true, rest)
  | 'f' :: 'a' :: 'l' :: 's' :: 'e' :: rest => .ok (.boolean false, rest)
  | 'i' :: _ => signedNumber false s
  | 'n' :: _ => signedNumber false s
  | s => numberOrMoment s

/-- Read a value with at most so many levels of collections. -/
def value : Nat → ValueReader
  | 0 => valueWith none
  | d + 1 => valueWith (some (value d))

/-- How many levels of collections there may be. -/
def valueDepth : Nat := 79

end JobLoom.Toml
