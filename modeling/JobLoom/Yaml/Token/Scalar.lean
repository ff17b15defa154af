import JobLoom.Yaml.Cursor

/-!
# Scalars

The text of a scalar as it is written, and the text that it stands for.

* **Folding.** A single line break between two lines of a plain or quoted scalar stands for a
  space; further breaks stand for themselves; blanks around breaks stand for nothing.
* **Quotes.** Between single quotes only the quote itself is special, and is written twice. Between
  double quotes a backslash starts an escape.
* **Block scalars** take their lines as they are, without the indentation; the folded kind folds
  breaks between lines that do not start with a blank. The breaks at the end are kept up to the
  first, all or not at all.

Texts under construction are kept in reverse.
-/

namespace JobLoom.Yaml

/-! ## Gaps between words -/

/-- The blanks and breaks between two words of a scalar. -/
structure Gap where
  /-- the blanks, as long as there is no break; in reverse -/
  blanks : List Char
  /-- there is a break -/
  broken : Bool
  /-- what the first break is read as -/
  first : List Char
  /-- what the further breaks are read as; in reverse -/
  more : List Char

namespace Gap

/-- Nothing between two words. -/
def empty : Gap := ⟨[], false, [], []⟩

/-- What a gap stands for, in reverse. -/
def joined (g : Gap) : List Char :=
  if g.broken then
    if g.first = ['\n'] then (if g.more.isEmpty then [' '] else g.more)
    else g.more ++ g.first.reverse
  else g.blanks

/-- Read a gap. A tab before column `tabLimit` of a new line is a fault. -/
def read (tabLimit : Nat) (fuel : Nat) (s : Cursor) (g : Gap) : Except Fault (Cursor × Gap) :=
  match fuel, s.rest with
  | 0, _ => .ok (s, g)
  | _, [] => .ok (s, g)
  | fuel + 1, c :: _ =>
    if isSpacing c then
      if g.broken then
        if s.column < tabLimit && c = '\t' then .error .tabIndentation
        else read tabLimit fuel s.skip g
      else read tabLimit fuel s.skip { g with blanks := c :: g.blanks }
    else if isBreak c then
      if g.broken then
        read tabLimit fuel s.skipBreak { g with more := s.breakText ++ g.more }
      else read tabLimit fuel s.skipBreak ⟨[], true, s.breakText, g.more⟩
    else .ok (s, g)

end Gap

/-- A blank or a break stands at the front of the text. -/
def startsGap : List Char → Bool
  | [] => false
  | c :: _ => isSpacing c || isBreak c

/-! ## Plain scalars -/

/-- A character that separates the entries of flow collections. -/
def isFlowMark (c : Char) : Bool :=
  c = ',' || c = '[' || c = ']' || c = '\x7b' || c = '\x7d'

/-- A flow separator, or a question mark, stands at the front of the text. -/
def startsFlowMark : List Char → Bool
  | [] => false
  | c :: _ => isFlowMark c || c = '?'

/-- The characters of a plain scalar up to a blank, a break or a separator, in reverse. -/
def plainWord (inFlow : Bool) : List Char → List Char → Except Fault (List Char)
  | [], read => .ok read
  | c :: rest, read =>
    if isSpacing c || isBreak c then .ok read
    else if inFlow && c = ':' && startsFlowMark rest then .error .flowColon
    else if (c = ':' && startsBlank rest) || (inFlow && isFlowMark c) then .ok read
    else plainWord inFlow rest (c :: read)

/-- A scalar that has been read. -/
structure ScalarText where
  /-- what the scalar stands for -/
  text : String
  /-- the scalar ends with a break that is not part of it -/
  broken : Bool
  /-- the text after it -/
  after : Cursor

/-- Read the words of a plain scalar and the gaps between them. -/
def plainWords (inFlow : Bool) (margin : Nat) (fuel : Nat) (s : Cursor) (read : List Char)
    (g : Gap) : Except Fault ScalarText := do
  let done (s : Cursor) (read : List Char) (g : Gap) : ScalarText :=
    ⟨String.ofList read.reverse, g.broken, s⟩
  match fuel with
  | 0 => return done s read g
  | fuel + 1 =>
    if s.atMark || s.rest.head? = some '#' then return done s read g
    let word ← plainWord inFlow s.rest []
    let s := s.skipMany word.length
    let (read, g) := if word.isEmpty then (read, g) else (word ++ (g.joined ++ read), Gap.empty)
    if !startsGap s.rest then return done s read g
    let (s, g) ← Gap.read margin (s.rest.length + 1) s g
    if !inFlow && s.column < margin then return done s read g
    plainWords inFlow margin fuel s read g

/-- Read a plain scalar whose further lines start at column `margin` or later. -/
def plainScalar (inFlow : Bool) (margin : Nat) (s : Cursor) : Except Fault ScalarText :=
  plainWords inFlow margin (s.rest.length + 1) s [] .empty

/-! ## Quoted scalars -/

/-- The value of a hexadecimal digit. -/
def hexValue (c : Char) : Option Nat :=
  if '0' ≤ c && c ≤ '9' then some (c.toNat - '0'.toNat)
  else if 'a' ≤ c && c ≤ 'f' then some (c.toNat - 'a'.toNat + 10)
  else if 'A' ≤ c && c ≤ 'F' then some (c.toNat - 'A'.toNat + 10)
  else none

/-- The number that exactly `count` hexadecimal digits at the front write. -/
def hexNumber (count : Nat) (s : List Char) : Option Nat :=
  let ds := s.take count
  if ds.length < count then none
  else ds.foldl (fun acc c =>
    match acc, hexValue c with
    | some n, some d => some (n * 16 + d)
    | _, _ => none) (some 0)

/-- The character with a number, if there is one. -/
def charOf? (n : Nat) : Option Char :=
  if h : n.isValidChar then some (Char.ofNatAux n h) else none

/-- What a backslash and a character stand for: a character, or one whose number follows in so many
digits. -/
inductive Escape where
  /-- this character -/
  | char (c : Char)
  /-- the character whose number follows -/
  | number (digits : Nat)

/-- The escapes between double quotes. -/
def escapeOf : Char → Option Escape
  | '0' => some (.char '\x00')
  | 'a' => some (.char '\x07')
  | 'b' => some (.char '\x08')
  | 't' => some (.char '\t')
  | '\t' => some (.char '\t')
  | 'n' => some (.char '\n')
  | 'v' => some (.char '\x0B')
  | 'f' => some (.char '\x0C')
  | 'r' => some (.char '\r')
  | 'e' => some (.char '\x1B')
  | ' ' => some (.char ' ')
  | '"' => some (.char '"')
  | '/' => some (.char '/')
  | '\\' => some (.char '\\')
  | 'N' => some (.char '\u0085')
  | '_' => some (.char '\u00A0')
  | 'L' => some (.char '\u2028')
  | 'P' => some (.char '\u2029')
  | 'x' => some (.number 2)
  | 'u' => some (.number 4)
  | 'U' => some (.number 8)
  | _ => none

/-- Read quoted characters up to a blank, a break, the closing quote or an escaped break; the last
component tells whether it was an escaped break. -/
def quotedWord (quote : Char) (fuel : Nat) (s : Cursor) (read : List Char) :
    Except Fault (Cursor × List Char × Bool) :=
  match fuel, s.rest with
  | 0, _ => .ok (s, read, false)
  | _, [] => .ok (s, read, false)
  | fuel + 1, c :: rest =>
    if isSpacing c || isBreak c then .ok (s, read, false)
    else if c = quote then
      if quote = '\'' && rest.head? = some '\'' then
        quotedWord quote fuel (s.skipMany 2) ('\'' :: read)
      else .ok (s, read, false)
    else if quote = '"' && c = '\\' then
      match rest with
      | [] => .error .unknownEscape
      | e :: digits =>
        if isBreak e then .ok (s.skip.skipBreak, read, true)
        else match escapeOf e with
          | none => .error .unknownEscape
          | some (.char c) => quotedWord quote fuel (s.skipMany 2) (c :: read)
          | some (.number count) =>
            match (hexNumber count digits).bind charOf? with
            | some c => quotedWord quote fuel (s.skipMany (2 + count)) (c :: read)
            | none => .error .escapeNumber
    else quotedWord quote fuel s.skip (c :: read)

/-- Read the words of a quoted scalar and the gaps between them, up to the closing quote. -/
def quotedWords (quote : Char) (fuel : Nat) (s : Cursor) (read : List Char) :
    Except Fault ScalarText := do
  match fuel with
  | 0 => throw .unclosedQuotes
  | fuel + 1 =>
    if s.atMark then throw .markInQuotes
    if s.rest.isEmpty then throw .unclosedQuotes
    let (s, read, escaped) ← quotedWord quote (s.rest.length + 1) s read
    if s.rest.head? = some quote then
      return ⟨String.ofList read.reverse, false, s.skip⟩
    let (s, g) ← Gap.read 0 (s.rest.length + 1) s { Gap.empty with broken := escaped }
    quotedWords quote fuel s (g.joined ++ read)

/-- Read a quoted scalar, from its opening quote. -/
def quotedScalar (quote : Char) (s : Cursor) : Except Fault ScalarText :=
  quotedWords quote (s.rest.length + 1) s.skip []

/-! ## Block scalars -/

/-- What happens to the breaks at the end of a block scalar. -/
inductive Chomping where
  /-- only the first one stays -/
  | clip
  /-- none stays -/
  | strip
  /-- all stay -/
  | keep
  deriving DecidableEq

/-- The chomping mark at the front of the text. -/
def chompingMark : List Char → Option Chomping
  | '+' :: _ => some .keep
  | '-' :: _ => some .strip
  | _ => none

/-- The indentation digit at the front of the text. -/
def indentDigit (s : Cursor) : Except Fault (Nat × Cursor) :=
  match s.rest with
  | c :: _ =>
    if c = '0' then .error .zeroIndentation
    else if '1' ≤ c && c ≤ '9' then .ok (c.toNat - '0'.toNat, s.skip)
    else .ok (0, s)
  | [] => .ok (0, s)

/-- The marks after the bar or the angle, in either order; an indentation of zero means that none
is given. -/
def blockMarks (s : Cursor) : Except Fault (Chomping × Nat × Cursor) := do
  match chompingMark s.rest with
  | some mark =>
    let (n, s) ← indentDigit s.skip
    return (mark, n, s)
  | none =>
    let (n, s) ← indentDigit s
    if n = 0 then return (.clip, 0, s)
    match chompingMark s.rest with
    | some mark => return (mark, n, s.skip)
    | none => return (.clip, n, s)

/-- Read empty lines and the indentation of the next line. An indentation of zero is not known
yet; the greatest column reached then counts. -/
def blockBreaks (indent : Nat) (fuel : Nat) (s : Cursor) (widest : Nat) (read : List Char) :
    Except Fault (Cursor × Nat × List Char) :=
  match fuel with
  | 0 => .ok (s, widest, read)
  | fuel + 1 =>
    let spaces := (s.run (· = ' ')).length
    let s := s.skipMany (if indent = 0 then spaces else min spaces (indent - s.column))
    let widest := max widest s.column
    if (indent = 0 || s.column < indent) && s.rest.head? = some '\t' then .error .tabIndentation
    else match s.rest with
      | c :: _ =>
        if isBreak c then blockBreaks indent fuel s.skipBreak widest (s.breakText ++ read)
        else .ok (s, widest, read)
      | [] => .ok (s, widest, read)

/-- Read the lines of a block scalar. `lead` is the break after the last line, `breaks` are those
of the empty lines after it. -/
def blockLines (folded : Bool) (indent : Nat) (fuel : Nat) (s : Cursor)
    (read lead breaks : List Char) (wasBlank : Bool) :
    Except Fault (Cursor × List Char × List Char × List Char) := do
  match fuel with
  | 0 => return (s, read, lead, breaks)
  | fuel + 1 =>
    match s.rest with
    | [] => return (s, read, lead, breaks)
    | c :: _ =>
      if s.column ≠ indent then return (s, read, lead, breaks)
      let isBlank := isSpacing c
      let read :=
        if folded && lead = ['\n'] && !wasBlank && !isBlank then
          if breaks.isEmpty then ' ' :: read else breaks ++ read
        else breaks ++ (lead ++ read)
      let line := s.run (fun c => !isBreak c)
      let s := s.skipMany line.length
      let lead := s.breakText
      let (s, _, breaks) ← blockBreaks indent (s.rest.length + 1) s.skipBreak 0 []
      blockLines folded indent fuel s (line.reverse ++ read) lead breaks isBlank

/-- Read a block scalar, from its bar or angle. `parent` is the indentation around it, if it is
inside a collection. -/
def blockScalar (folded : Bool) (parent : Option Nat) (s : Cursor) : Except Fault ScalarText := do
  let (chomping, given, s) ← blockMarks s.skip
  let s ← s.toLineEnd
  let least := match parent with
    | some n => n + 1
    | none => 0
  let indent := if given = 0 then 0 else match parent with
    | some n => n + given
    | none => given
  let (s, widest, breaks) ← blockBreaks indent (s.rest.length + 1) s.skipBreak 0 []
  let indent := if indent = 0 then max widest (max least 1) else indent
  let (s, read, lead, breaks) ← blockLines folded indent (s.rest.length + 1) s [] [] breaks false
  let read := match chomping with
    | .strip => read
    | .clip => lead ++ read
    | .keep => breaks ++ (lead ++ read)
  return ⟨String.ofList read.reverse, false, s⟩

end JobLoom.Yaml
