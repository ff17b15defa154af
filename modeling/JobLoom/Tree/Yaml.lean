import JobLoom.Tree.Basic
import JobLoom.Text.Quoted
import JobLoom.Yaml.Cursor
import JobLoom.Yaml.Scalar

/-!
# Trees as YAML

The block form: two columns for each level, lists in a record at the column of the record, and the
first line of a list item on the line of its dash. Lines are never wrapped.

* **Texts with line feeds** are block scalars, if no blank and no unprintable character forbids it.
* **Texts that would be read as something else** are put in single quotes, and so are those that
  start or end in a way that needs it.
* **Texts with unprintable characters** are put in double quotes, with escapes.
* **Long keys and keys over several lines** are written after a question mark.
-/

namespace JobLoom.Tree

open Yaml (isBreak isSpacing startsBlank)

/-! ## The style of a text -/

/-- A character that may be written as it is: no control character but the line feed, no byte order
mark and no character without meaning. -/
def isWritable (c : Char) : Bool :=
  let n := c.toNat
  n == 0x0A || (0x20 ≤ n && n ≤ 0x7E) || (0xA0 ≤ n && n != 0xFEFF && n != 0xFFFE && n != 0xFFFF)

/-- A character that means something else at the start of a plain text. -/
def opensOther (c : Char) : Bool :=
  ['#', ',', '[', ']', '\x7b', '\x7d', '&', '*', '!', '|', '>', '\'', '"', '%', '@',
    '\x60'].contains c

/-- The text starts like a document mark. -/
def opensMark : List Char → Bool
  | '-' :: '-' :: '-' :: _ => true
  | '.' :: '.' :: '.' :: _ => true
  | _ => false

/-- The text starts in a way that is not plain. -/
def opensIndicator : List Char → Bool
  | [] => false
  | c :: rest => opensOther c || ((c = '?' || c = ':' || c = '-') && startsBlank rest)

/-- Behind the first character, a colon in front of a blank or a number sign behind one. -/
def holdsIndicator (before : Char) : List Char → Bool
  | [] => false
  | c :: rest =>
    (c = ':' && startsBlank rest) || (c = '#' && (isSpacing before || isBreak before)) ||
      holdsIndicator c rest

/-- Two neighbouring characters of a text satisfy the two tests. -/
def hasPair (p q : Char → Bool) (s : List Char) : Bool :=
  (s.zip s.tail).any fun e => p e.1 && q e.2

/-- A space. -/
def isSpace (c : Char) : Bool := c = ' '

/-- A space or a line break. -/
def isMargin (c : Char) : Bool := isSpace c || isBreak c

/-- What the characters of a text allow. -/
structure Shape where
  /-- the text may stand without quotes -/
  plain : Bool
  /-- the text may stand in single quotes -/
  single : Bool
  /-- the text may be a block scalar -/
  block : Bool
  /-- the text has line breaks -/
  multiline : Bool

/-- What a text allows. -/
def Shape.of (s : List Char) : Shape :=
  match s with
  | [] => ⟨true, true, false, false⟩
  | c :: rest =>
    let unwritable := s.any fun c => !isWritable c
    let multiline := s.any isBreak
    let spaceBreak := hasPair isSpace isBreak s
    let breakSpace := hasPair isBreak isSpace s
    let margins := isMargin c || (s.getLast?.map isMargin).getD false
    let indicators := opensMark s || opensIndicator s || holdsIndicator c rest
    let clean := !spaceBreak && !unwritable
    ⟨clean && !margins && !multiline && !indicators, clean && !breakSpace,
      clean && !(s.getLast?.map isSpace).getD false, multiline⟩

/-- A text that would not be read as text if it were plain. -/
def readsOtherwise (s : String) : Bool :=
  decide (Yaml.meaning s ≠ .text) || Yaml.hasLeadingZero s.toList

/-- How a text is written. -/
inductive Style where
  /-- as it is -/
  | plain
  /-- in single quotes -/
  | single
  /-- in double quotes -/
  | double
  /-- as a block scalar -/
  | block
  deriving DecidableEq

/-- The style of a text. -/
def styleOf (s : String) : Style :=
  let shape := Shape.of s.toList
  if s.toList.contains '\n' then (if shape.block then .block else .double)
  else if shape.plain && !readsOtherwise s then .plain
  else if shape.single then .single
  else .double

/-! ## The text in its style -/

/-- The indentation of a line. -/
def pad (column : Nat) : List Char := List.replicate column ' '

/-- The characters between single quotes. A line break other than the line feed stays, and the next
line is indented; `broken` says that a break came before. -/
def singleBody (column : Nat) (broken : Bool) : List Char → List Char
  | [] => if broken then pad column else []
  | c :: rest =>
    if isBreak c then c :: singleBody column true rest
    else
      let shown := if c = '\'' then ['\'', '\''] else [c]
      (if broken then pad column else []) ++ shown ++ singleBody column false rest

/-- The escape of a character between double quotes. -/
def escaped (c : Char) : List Char :=
  let n := c.toNat
  match c with
  | '\x00' => ['0']
  | '\x07' => ['a']
  | '\x08' => ['b']
  | '\t' => ['t']
  | '\n' => ['n']
  | '\x0B' => ['v']
  | '\x0C' => ['f']
  | '\r' => ['r']
  | '\x1B' => ['e']
  | '"' => ['"']
  | '\\' => ['\\']
  | '\u0085' => ['N']
  | '\u00A0' => ['_']
  | '\u2028' => ['L']
  | '\u2029' => ['P']
  | _ =>
    if n ≤ 0xFF then 'x' :: Text.hexUpper 2 n
    else if n ≤ 0xFFFF then 'u' :: Text.hexUpper 4 n
    else 'U' :: Text.hexUpper 8 n

/-- One character between double quotes. -/
def doubleChar (c : Char) : List Char :=
  if !isWritable c || isBreak c || c = '"' || c = '\\' then '\\' :: escaped c else [c]

/-- The lines of a block scalar; `broken` says that a new line starts. -/
def blockBody (column : Nat) (broken : Bool) : List Char → List Char
  | [] => []
  | c :: rest =>
    if isBreak c then c :: blockBody column true rest
    else (if broken then pad column else []) ++ c :: blockBody column false rest

/-- The mark for the breaks at the end of a block scalar. -/
def chompMark (s : List Char) : List Char :=
  match s.reverse with
  | [] => ['-']
  | c :: rest =>
    if !isBreak c then ['-']
    else match rest with
      | [] => ['+']
      | d :: _ => if isBreak d then ['+'] else []

/-- The marks after the bar of a block scalar. -/
def blockMarks (s : List Char) : List Char :=
  (if (s.head?.map isMargin).getD false then ['2'] else []) ++ chompMark s

/-- A text, to be read at the given column, up to and with the end of its last line. -/
def scalarText (column : Nat) (s : String) : List Char :=
  let cs := s.toList
  match styleOf s with
  | .plain => cs ++ ['\n']
  | .single => '\'' :: singleBody column false cs ++ ['\'', '\n']
  | .double => '"' :: cs.flatMap doubleChar ++ ['"', '\n']
  | .block =>
    let ended := (cs.getLast?.map isBreak).getD false
    '|' :: blockMarks cs ++ '\n' :: blockBody column true cs ++ (if ended then [] else ['\n'])

/-- A key may stand in front of a colon on its line. -/
def isSimpleKey (s : String) : Bool := !(s.toList.any isBreak) && s.utf8ByteSize ≤ 128

/-- Lines without the indentation of the first one. -/
def compact (column : Nat) (lines : List Char) : List Char := lines.drop column

/-! ## The tree -/

mutual

/-- A value behind a colon, for a record at the given column. -/
def yamlField (column : Nat) : Tree → List Char
  | .text s => ' ' :: scalarText (column + 2) s
  | .number n => ' ' :: Nat.toDigits 10 n ++ ['\n']
  | .flag b => ' ' :: (if b then "true" else "false").toList ++ ['\n']
  | .list [] => [' ', '[', ']', '\n']
  | .list (t :: rest) => '\n' :: pad column ++ '-' :: yamlInline column t ++ yamlItems column rest
  | .record [] => [' ', '\x7b', '\x7d', '\n']
  | .record (f :: rest) => '\n' :: yamlEntry (column + 2) f ++ yamlEntries (column + 2) rest

/-- A value on the line of a mark at the given column. -/
def yamlInline (column : Nat) : Tree → List Char
  | .text s => ' ' :: scalarText (column + 2) s
  | .number n => ' ' :: Nat.toDigits 10 n ++ ['\n']
  | .flag b => ' ' :: (if b then "true" else "false").toList ++ ['\n']
  | .list [] => [' ', '[', ']', '\n']
  | .list (t :: rest) =>
    ' ' :: '-' :: yamlInline (column + 2) t ++ yamlItems (column + 2) rest
  | .record [] => [' ', '\x7b', '\x7d', '\n']
  | .record (f :: rest) =>
    ' ' :: compact (column + 2) (yamlEntry (column + 2) f) ++ yamlEntries (column + 2) rest

/-- The items of a list at the given column. -/
def yamlItems (column : Nat) : List Tree → List Char
  | [] => []
  | t :: rest => pad column ++ '-' :: yamlInline column t ++ yamlItems column rest

/-- The fields of a record at the given column. -/
def yamlEntries (column : Nat) : List (String × Tree) → List Char
  | [] => []
  | f :: rest => yamlEntry column f ++ yamlEntries column rest

/-- A field of a record at the given column. -/
def yamlEntry (column : Nat) : String × Tree → List Char
  | (name, t) =>
    if isSimpleKey name then
      pad column ++ (scalarText (column + 2) name).dropLast ++ ':' :: yamlField column t
    else
      pad column ++ '?' :: ' ' :: scalarText (column + 2) name ++ pad column ++
        ':' :: yamlInline column t

end

/-- The tree as YAML. -/
def toYaml : Tree → String
  | .record (f :: rest) => String.ofList (yamlEntries 0 (f :: rest))
  | .list (t :: rest) => String.ofList (yamlItems 0 (t :: rest))
  | .record [] => "\x7b\x7d\n"
  | .list [] => "[]\n"
  | .text s => String.ofList (scalarText 2 s)
  | .number n => String.ofList (Nat.toDigits 10 n ++ ['\n'])
  | .flag b => (if b then "true\n" else "false\n")

end JobLoom.Tree
