/-!
# Blank characters

A character is **blank** when Unicode gives it the `White_Space` property. Names, labels, script
lines and quantities are compared after their blank margins are gone:

* **trim** — the longest blank prefix and the longest blank suffix are dropped;
* **blank text** — a text is blank when nothing is left after trimming.
-/

namespace JobLoom.Text

/-- The characters of the `White_Space` property. -/
def isBlank (c : Char) : Bool :=
  let n := c.toNat
  (9 ≤ n && n ≤ 13) || n == 0x20 || n == 0x85 || n == 0xA0 || n == 0x1680 ||
    (0x2000 ≤ n && n ≤ 0x200A) || n == 0x2028 || n == 0x2029 || n == 0x202F ||
    n == 0x205F || n == 0x3000

/-- The bytes that count as blank in a document that has not been decoded yet. -/
def isBlankByte (b : UInt8) : Bool :=
  b == 0x20 || b == 0x09 || b == 0x0A || b == 0x0C || b == 0x0D

/-- Drop the blank characters after the last visible one. -/
def trimRight (s : List Char) : List Char :=
  (s.reverse.dropWhile isBlank).reverse

/-- Drop the blank characters on both sides. -/
def trim (s : List Char) : List Char :=
  trimRight (s.dropWhile isBlank)

/-- `trim` on a string. -/
def trimmed (s : String) : String :=
  String.ofList (trim s.toList)

/-- Nothing of the text is visible. -/
def isBlankText (s : String) : Bool :=
  s.toList.all isBlank

end JobLoom.Text
