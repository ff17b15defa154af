import JobLoom.Toml.Fault

/-!
# Blanks, comments, keys and texts

The pieces of a settings file below its values. Each reader takes the text ahead and gives what it
has read and the text behind it.

* **Texts** stand in double quotes with escapes or in single quotes without. Three quotes open a
  text over several lines, whose first line break does not count and whose line ends are line feeds.
* **Keys** are bare words or texts of one line, joined by points.
-/

namespace JobLoom.Toml

/-- A space or a tab. -/
def isSpacing (c : Char) : Bool := c = ' ' || c = '\t'

/-- The text behind spaces and tabs. -/
def skipSpacing (s : List Char) : List Char := s.dropWhile isSpacing

/-- The text behind a line end, if one stands here. -/
def lineEnd? : List Char → Option (List Char)
  | '\n' :: rest => some rest
  | '\r' :: '\n' :: rest => some rest
  | _ => none

/-- A character that may stand in a comment or a text: the tab and all but the control
characters. -/
def isVisible (c : Char) : Bool := c = '\t' || (0x20 ≤ c.toNat && c.toNat ≠ 0x7F)

/-- The text behind a comment, up to the end of its line. -/
def skipComment : List Char → List Char
  | '#' :: rest => rest.dropWhile isVisible
  | s => s

/-- The text behind the rest of a line: blanks, a comment and the line end. -/
def restOfLine (s : List Char) : Except Fault (List Char) :=
  match skipComment (skipSpacing s) with
  | [] => .ok []
  | s =>
    match lineEnd? s with
    | some rest => .ok rest
    | none => .error .lineEnd

/-- The text behind blanks, comments and line ends. -/
def skipLines (fuel : Nat) (s : List Char) : List Char :=
  match fuel with
  | 0 => s
  | fuel + 1 =>
    let t := skipSpacing s
    match lineEnd? (skipComment t) with
    | some rest => skipLines fuel rest
    | none => t

/-! ## Texts -/

/-- The value of a hexadecimal digit. -/
def hexValue (c : Char) : Option Nat :=
  if '0' ≤ c && c ≤ '9' then some (c.toNat - '0'.toNat)
  else if 'a' ≤ c && c ≤ 'f' then some (c.toNat - 'a'.toNat + 10)
  else if 'A' ≤ c && c ≤ 'F' then some (c.toNat - 'A'.toNat + 10)
  else none

/-- The character whose number the first `count` characters write. -/
def numberedChar (count : Nat) (s : List Char) : Option Char :=
  let ds := s.take count
  if ds.length < count then none
  else
    let n := ds.foldl (fun acc c =>
      match acc, hexValue c with
      | some n, some d => some (n * 16 + d)
      | _, _ => none) (some 0)
    n.bind fun n => if h : n.isValidChar then some (Char.ofNatAux n h) else none

/-- The character that an escape stands for, and the text behind it. The backslash is read
already. -/
def escape? : List Char → Option (Char × List Char)
  | 'b' :: rest => some ('\x08', rest)
  | 't' :: rest => some ('\t', rest)
  | 'n' :: rest => some ('\n', rest)
  | 'f' :: rest => some ('\x0C', rest)
  | 'r' :: rest => some ('\r', rest)
  | '"' :: rest => some ('"', rest)
  | '\\' :: rest => some ('\\', rest)
  | 'u' :: rest => (numberedChar 4 rest).map fun c => (c, rest.drop 4)
  | 'U' :: rest => (numberedChar 8 rest).map fun c => (c, rest.drop 8)
  | _ => none

/-- Read a text of one line up to its closing quote; the characters read are kept in reverse. -/
def lineText (quote : Char) (fuel : Nat) (s read : List Char) :
    Except Fault (String × List Char) :=
  match fuel, s with
  | fuel + 1, c :: rest =>
    if c = quote then .ok (String.ofList read.reverse, rest)
    else if quote = '"' && c = '\\' then
      match escape? rest with
      | some (c, rest) => lineText quote fuel rest (c :: read)
      | none => .error .badText
    else if isVisible c then lineText quote fuel rest (c :: read)
    else .error .badText
  | _, _ => .error .badText

/-- The text behind an escaped line end, with all blanks and line ends that follow. -/
def continued? (s : List Char) : Option (List Char) :=
  match lineEnd? (skipSpacing s) with
  | some rest =>
    let blank (c : Char) : Bool := isSpacing c || c = '\n'
    let rec go : Nat → List Char → List Char
      | 0, s => s
      | fuel + 1, s =>
        match s.dropWhile blank with
        | '\r' :: '\n' :: rest => go fuel rest
        | s => s
    some (go (rest.length + 1) rest)
  | none => none

/-- Read a text of several lines up to its closing quotes; up to two quotes in front of those
belong to it. -/
def linesText (quote : Char) (fuel : Nat) (s read : List Char) :
    Except Fault (String × List Char) :=
  match fuel, s with
  | fuel + 1, c :: rest =>
    if c = quote then
      let quotes := (c :: rest).takeWhile (· = quote)
      let n := quotes.length
      if n < 3 then linesText quote fuel ((c :: rest).drop n) (quotes ++ read)
      else
        let extra := min (n - 3) 2
        let all := List.replicate extra quote ++ read
        .ok (String.ofList all.reverse, (c :: rest).drop (extra + 3))
    else match lineEnd? (c :: rest) with
      | some rest => linesText quote fuel rest ('\n' :: read)
      | none =>
        if quote = '"' && c = '\\' then
          match escape? rest, continued? rest with
          | some (c, rest), _ => linesText quote fuel rest (c :: read)
          | none, some rest => linesText quote fuel rest read
          | none, none => .error .badText
        else if isVisible c then linesText quote fuel rest (c :: read)
        else .error .badText
  | _, _ => .error .badText

/-- Read a text, from behind its first quote. -/
def quotedText (quote : Char) (s : List Char) : Except Fault (String × List Char) :=
  match s with
  | a :: b :: rest =>
    if a = quote && b = quote then
      linesText quote (rest.length + 1) ((lineEnd? rest).getD rest) []
    else lineText quote (s.length + 1) s []
  | s => lineText quote (s.length + 1) s []

/-! ## Keys -/

/-- A character of a bare key. -/
def isKeyChar (c : Char) : Bool :=
  ('0' ≤ c && c ≤ '9') || ('A' ≤ c && c ≤ 'Z') || ('a' ≤ c && c ≤ 'z') || c = '_' || c = '-'

/-- Read one part of a key. -/
def keyPart (s : List Char) : Except Fault (String × List Char) :=
  match s with
  | '"' :: rest => lineText '"' (rest.length + 1) rest []
  | '\'' :: rest => lineText '\'' (rest.length + 1) rest []
  | s =>
    let word := s.takeWhile isKeyChar
    if word.isEmpty then .error .badKey else .ok (String.ofList word, s.drop word.length)

/-- How many parts a key may have. -/
def keyLimit : Nat := 80

/-- Read the parts of a key with the blanks around them; those read are kept in reverse. -/
def keyParts (fuel : Nat) (s : List Char) (read : List String) :
    Except Fault (List String × List Char) := do
  match fuel with
  | 0 => throw .nesting
  | fuel + 1 =>
    let (part, s) ← keyPart (skipSpacing s)
    match skipSpacing s with
    | '.' :: rest => keyParts fuel rest (part :: read)
    | s =>
      if read.length + 1 ≥ keyLimit then throw .nesting
      return ((part :: read).reverse, s)

/-- Read a key. -/
def key (s : List Char) : Except Fault (List String × List Char) := keyParts (s.length + 1) s []

end JobLoom.Toml
