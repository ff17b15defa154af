import JobLoom.Yaml.Source
import JobLoom.Yaml.Fault

/-!
# A position in the text of a stream

The cursor holds the text that is still to be read, and knows how many characters, lines and
columns lie behind it. A line ends at a line feed, at a carriage return with or without a line
feed, and at the separators U+0085, U+2028 and U+2029; the last two keep their spelling in scalars,
the others become a line feed.
-/

namespace JobLoom.Yaml

/-- A position in a text. -/
structure Cursor where
  /-- the text from here on -/
  rest : List Char
  /-- characters behind -/
  index : Nat
  /-- lines behind -/
  line : Nat
  /-- characters behind on this line -/
  column : Nat

/-- A space or a tab. -/
def isSpacing (c : Char) : Bool := c = ' ' || c = '\t'

/-- A character that ends a line. -/
def isBreak (c : Char) : Bool :=
  c = '\n' || c = '\r' || c = '\u0085' || c = '\u2028' || c = '\u2029'

/-- A character of names: a letter, a digit, an underscore or a dash. -/
def isNameChar (c : Char) : Bool :=
  ('0' ≤ c && c ≤ '9') || ('A' ≤ c && c ≤ 'Z') || ('a' ≤ c && c ≤ 'z') || c = '_' || c = '-'

/-- The text ends, breaks or has a space or tab here. -/
def startsBlank : List Char → Bool
  | [] => true
  | c :: _ => isSpacing c || isBreak c

/-- The text ends or breaks here. -/
def startsBreak : List Char → Bool
  | [] => true
  | c :: _ => isBreak c

/-- The text starts with a document mark made of three times this character. -/
def startsMark (mark : Char) : List Char → Bool
  | a :: b :: c :: rest => a = mark && b = mark && c = mark && startsBlank rest
  | _ => false

namespace Cursor

/-- The cursor in front of a text. -/
def start (text : List Char) : Cursor := ⟨text, 0, 0, 0⟩

/-- Move over one character of the line. -/
def skip (s : Cursor) : Cursor :=
  { s with rest := s.rest.tail, index := s.index + 1, column := s.column + 1 }

/-- Move over `n` characters of the line. -/
def skipMany (s : Cursor) (n : Nat) : Cursor :=
  { s with rest := s.rest.drop n, index := s.index + n, column := s.column + n }

/-- Move over a line end, if one stands here. -/
def skipBreak (s : Cursor) : Cursor :=
  match s.rest with
  | '\r' :: '\n' :: rest => ⟨rest, s.index + 2, s.line + 1, 0⟩
  | c :: rest => if isBreak c then ⟨rest, s.index + 1, s.line + 1, 0⟩ else s
  | [] => s

/-- What the line end that stands here is read as. -/
def breakText (s : Cursor) : List Char :=
  match s.rest with
  | c :: _ =>
    if c = '\u2028' || c = '\u2029' then [c]
    else if isBreak c then ['\n'] else []
  | [] => []

/-- Move over the longest run of characters of one kind on this line. -/
def skipWhile (s : Cursor) (p : Char → Bool) : Cursor :=
  s.skipMany (s.rest.takeWhile p).length

/-- The longest run of characters of one kind that stands here. -/
def run (s : Cursor) (p : Char → Bool) : List Char := s.rest.takeWhile p

/-- A document mark stands here, at the start of a line. -/
def atMark (s : Cursor) : Bool :=
  s.column = 0 && (startsMark '-' s.rest || startsMark '.' s.rest)

/-- Move over spaces, tabs and a comment, up to the end of the line; anything else is a fault. -/
def toLineEnd (s : Cursor) : Except Fault Cursor :=
  let s := s.skipWhile isSpacing
  let s := match s.rest with
    | '#' :: _ => s.skipWhile (fun c => !isBreak c)
    | _ => s
  if startsBreak s.rest then .ok s else .error .lineEnd

end Cursor

end JobLoom.Yaml
