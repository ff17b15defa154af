import JobLoom.Tree.Basic
import JobLoom.Text.Quoted

/-!
# Trees as JSON

The indented form: two spaces for each level, one item or field a line, and nothing between the
brackets of an empty list or record. In texts only quotes, backslashes and control characters are
escaped.
-/

namespace JobLoom.Tree

/-- One character of a JSON text. -/
def jsonChar (c : Char) : List Char :=
  if c = '"' then ['\\', '"']
  else if c = '\\' then ['\\', '\\']
  else if c = '\n' then ['\\', 'n']
  else if c = '\r' then ['\\', 'r']
  else if c = '\t' then ['\\', 't']
  else if c = '\x08' then ['\\', 'b']
  else if c = '\x0C' then ['\\', 'f']
  else if c.toNat < 0x20 then '\\' :: 'u' :: Text.hexLower 4 c.toNat
  else [c]

/-- A JSON text. -/
def jsonText (s : String) : List Char := '"' :: s.toList.flatMap jsonChar ++ ['"']

/-- A line break and the indentation of the next line. -/
def newline (level : Nat) : List Char := '\n' :: List.replicate (2 * level) ' '

mutual

/-- A tree at some level of indentation. -/
def jsonAt (level : Nat) : Tree → List Char
  | .text s => jsonText s
  | .number n => Nat.toDigits 10 n
  | .flag b => (if b then "true" else "false").toList
  | .list [] => ['[', ']']
  | .list (t :: rest) =>
    '[' :: newline (level + 1) ++ jsonAt (level + 1) t ++ jsonItems (level + 1) rest ++
      newline level ++ [']']
  | .record [] => ['\x7b', '\x7d']
  | .record (f :: rest) =>
    '\x7b' :: newline (level + 1) ++ jsonField (level + 1) f ++ jsonFields (level + 1) rest ++
      newline level ++ ['\x7d']

/-- The items after the first one. -/
def jsonItems (level : Nat) : List Tree → List Char
  | [] => []
  | t :: rest => ',' :: newline level ++ jsonAt level t ++ jsonItems level rest

/-- The fields after the first one. -/
def jsonFields (level : Nat) : List (String × Tree) → List Char
  | [] => []
  | f :: rest => ',' :: newline level ++ jsonField level f ++ jsonFields level rest

/-- A field of a record. -/
def jsonField (level : Nat) : String × Tree → List Char
  | (name, t) => jsonText name ++ [':', ' '] ++ jsonAt level t

end

/-- The tree as JSON. -/
def toJson (t : Tree) : String := String.ofList (jsonAt 0 t)

end JobLoom.Tree
