import JobLoom.Yaml.Token.Property

/-!
# From text to tokens

A key of a block mapping is only recognised by the colon after it, so a token can be passed on only
when nothing that follows can still put a key mark in front of it.

* **Candidates.** Each open flow collection, and the block level around them, has at most one
  token that may turn out to start a key. A candidate dies at the end of its line and after 1024
  characters.
* **Required keys.** A candidate at the indentation of its block mapping has to become a key.
* **Delivery.** Tokens wait in line; the foremost one is delivered as soon as it is no candidate.
  Faults come up when the text is read, and stop the delivery: a token that waits behind a fault
  is lost.
-/

namespace JobLoom.Yaml

/-- A token that may turn out to start a mapping key. -/
structure Candidate where
  /-- it has to -/
  required : Bool
  /-- the number of the token in the stream -/
  number : Nat
  /-- where the token starts -/
  index : Nat
  /-- the line that the token starts on -/
  line : Nat
  /-- the column that the token starts at -/
  column : Nat

/-- What is known while tokens are read. -/
structure Scan where
  /-- the text ahead -/
  cursor : Cursor
  /-- the text ends in damage -/
  damaged : Bool
  /-- tokens that wait to be delivered -/
  waiting : List Token
  /-- tokens delivered so far -/
  delivered : Nat
  /-- the columns of the open block collections, innermost first -/
  indents : List Nat
  /-- a mapping key may start here -/
  keyAllowed : Bool
  /-- the candidate of the innermost level -/
  candidate : Option Candidate
  /-- the candidates of the levels around it, one for each open flow collection -/
  outer : List (Option Candidate)

namespace Scan

/-- At the start of a text. -/
def start (source : Source) : Scan :=
  ⟨.start source.chars, source.damaged, [], 0, [], true, none, []⟩

/-- Inside a flow collection. -/
def inFlow (s : Scan) : Bool := !s.outer.isEmpty

/-- The number that the next token will have. -/
def nextNumber (s : Scan) : Nat := s.delivered + s.waiting.length

/-- The column of the innermost block collection is this one. -/
def isIndent (s : Scan) (column : Nat) : Bool := s.indents.head? = some column

/-- The column of the innermost block collection is left of this one, or there is none. -/
def isDeeper (s : Scan) (column : Nat) : Bool :=
  match s.indents with
  | [] => true
  | n :: _ => n < column

/-- Put a token at the end of the line. -/
def push (s : Scan) (t : Token) : Scan := { s with waiting := s.waiting ++ [t] }

/-- Put tokens in front of the one with this number. -/
def insertAt (s : Scan) (number : Nat) (ts : List Token) : Scan :=
  let n := number - s.delivered
  { s with waiting := s.waiting.take n ++ ts ++ s.waiting.drop n }

/-! ## Candidates -/

/-- The candidate cannot become a key any more. -/
def isStale (s : Scan) (k : Candidate) : Bool :=
  k.line < s.cursor.line || k.index + 1024 < s.cursor.index

/-- Keep a candidate unless it is stale; a stale one that was required is a fault. -/
def refresh (s : Scan) : Option Candidate → Except Fault (Option Candidate)
  | none => .ok none
  | some k =>
    if s.isStale k then (if k.required then .error .missingColon else .ok none)
    else .ok (some k)

/-- Drop the stale candidates of all levels. -/
def dropStale (s : Scan) : Except Fault Scan := do
  let outer ← s.outer.mapM s.refresh
  let candidate ← s.refresh s.candidate
  return { s with candidate := candidate, outer := outer }

/-- Give up the candidate of this level. -/
def dropCandidate (s : Scan) : Except Fault Scan :=
  match s.candidate with
  | some k => if k.required then .error .missingColon else .ok { s with candidate := none }
  | none => .ok s

/-- Make the next token the candidate of this level, if a key may start here. -/
def saveCandidate (s : Scan) : Except Fault Scan :=
  if s.keyAllowed then do
    let s ← s.dropCandidate
    let c := s.cursor
    let required := !s.inFlow && s.isIndent c.column
    let k : Candidate := ⟨required, s.nextNumber, c.index, c.line, c.column⟩
    return { s with candidate := some k }
  else .ok s

/-! ## Indentation -/

/-- Open a block collection at a column that lies deeper than the innermost one; its first token is
put in front of the token with the given number. -/
def indent (s : Scan) (column number : Nat) (t : Token) : Scan :=
  if !s.inFlow && s.isDeeper column then
    { s.insertAt number [t] with indents := column :: s.indents }
  else s

/-- Close the block collections that lie deeper than a column, or all of them. -/
def unindent (s : Scan) (column : Option Nat) : Scan :=
  if s.inFlow then s
  else
    let closes (n : Nat) : Bool := match column with
      | some c => c < n
      | none => true
    let closed := s.indents.takeWhile closes
    { s with
      waiting := s.waiting ++ closed.map (fun _ => Token.blockEnd),
      indents := s.indents.dropWhile closes }

/-! ## One token -/

/-- Move over spaces, comments and line breaks. Tabs count as space only where no key can start. -/
def toToken (fuel : Nat) (s : Scan) : Scan :=
  match fuel with
  | 0 => s
  | fuel + 1 =>
    let c := s.cursor
    let c := if c.column = 0 && c.rest.head? = some '\uFEFF' then c.skip else c
    let tabs := s.inFlow || !s.keyAllowed
    let c := c.skipWhile (fun x => x = ' ' || (tabs && x = '\t'))
    let c := if c.rest.head? = some '#' then c.skipWhile (fun x => !isBreak x) else c
    match c.rest with
    | x :: _ =>
      if isBreak x then
        toToken fuel { s with cursor := c.skipBreak, keyAllowed := s.keyAllowed || !s.inFlow }
      else { s with cursor := c }
    | [] => { s with cursor := c }

/-- A token of one character that stands for itself. -/
def symbol (s : Scan) (t : Token) : Scan :=
  { s.push t with cursor := s.cursor.skip }

/-- An opening bracket or brace. -/
def openFlow (s : Scan) (t : Token) : Except Fault Scan := do
  let s ← s.saveCandidate
  return { s with outer := s.candidate :: s.outer, candidate := none, keyAllowed := true }.symbol t

/-- A closing bracket or brace. -/
def closeFlow (s : Scan) (t : Token) : Except Fault Scan := do
  let s ← s.dropCandidate
  let s := match s.outer with
    | k :: outer => { s with candidate := k, outer := outer }
    | [] => s
  return { s with keyAllowed := false }.symbol t

/-- A comma. -/
def flowEntry (s : Scan) : Except Fault Scan := do
  let s ← s.dropCandidate
  return { s with keyAllowed := true }.symbol .comma

/-- A dash that starts an entry. -/
def blockEntry (s : Scan) : Except Fault Scan := do
  if !s.inFlow && !s.keyAllowed then throw .misplacedEntry
  let s := s.indent s.cursor.column s.nextNumber .blockSequence
  let s ← s.dropCandidate
  return { s with keyAllowed := true }.symbol .dash

/-- A question mark that starts a key. -/
def explicitKey (s : Scan) : Except Fault Scan := do
  if !s.inFlow && !s.keyAllowed then throw .misplacedKey
  let s := s.indent s.cursor.column s.nextNumber .blockMapping
  let s ← s.dropCandidate
  return { s with keyAllowed := !s.inFlow }.symbol .key

/-- A colon that starts a value. It makes the candidate of its level a key. -/
def mappingValue (s : Scan) : Except Fault Scan := do
  match s.candidate with
  | some k =>
    let s := s.insertAt k.number [.key]
    let s := s.indent k.column k.number .blockMapping
    return { s with candidate := none, keyAllowed := false }.symbol .value
  | none =>
    if !s.inFlow && !s.keyAllowed then throw .misplacedValue
    let s := s.indent s.cursor.column s.nextNumber .blockMapping
    return { s with keyAllowed := !s.inFlow }.symbol .value

/-- A directive. -/
def fetchDirective (s : Scan) : Except Fault Scan := do
  let s ← (s.unindent none).dropCandidate
  let (t, c) ← directive s.cursor
  return { s.push t with cursor := c, keyAllowed := false }

/-- A document mark. -/
def documentMark (s : Scan) (t : Token) : Except Fault Scan := do
  let s ← (s.unindent none).dropCandidate
  return { s.push t with cursor := s.cursor.skipMany 3, keyAllowed := false }

/-- An anchor or an alias. -/
def fetchName (s : Scan) (make : String → Token) : Except Fault Scan := do
  let s ← s.saveCandidate
  let (name, c) ← anchorName s.cursor
  return { s.push (make name) with cursor := c, keyAllowed := false }

/-- A tag. -/
def fetchTag (s : Scan) : Except Fault Scan := do
  let s ← s.saveCandidate
  let (t, c) ← tagToken s.inFlow s.cursor
  return { s.push t with cursor := c, keyAllowed := false }

/-- A block scalar. -/
def fetchBlockScalar (s : Scan) (folded : Bool) : Except Fault Scan := do
  let s ← s.dropCandidate
  let x ← blockScalar folded s.indents.head? s.cursor
  return { s.push (.scalar x.text false) with cursor := x.after, keyAllowed := true }

/-- A quoted scalar. -/
def fetchQuoted (s : Scan) (quote : Char) : Except Fault Scan := do
  let s ← s.saveCandidate
  let x ← quotedScalar quote s.cursor
  return { s.push (.scalar x.text false) with cursor := x.after, keyAllowed := false }

/-- A plain scalar; after one that ends with a line break a key may start. -/
def fetchPlain (s : Scan) : Except Fault Scan := do
  let s ← s.saveCandidate
  let margin := match s.indents with
    | n :: _ => n + 1
    | [] => 0
  let x ← plainScalar s.inFlow margin s.cursor
  return { s.push (.scalar x.text true) with cursor := x.after, keyAllowed := x.broken }

/-- The end of the text, which also ends its last line. -/
def fetchEnd (s : Scan) : Except Fault Scan := do
  let c := s.cursor
  let c := if c.column = 0 then c else { c with line := c.line + 1, column := 0 }
  let s ← ({ s with cursor := c }.unindent none).dropCandidate
  return { s.push .streamEnd with keyAllowed := false }

/-- A character that can start a plain scalar whatever comes after it. -/
def startsPlain (c : Char) : Bool :=
  !(isSpacing c || isBreak c ||
    ['-', '?', ':', ',', '[', ']', '\x7b', '\x7d', '#', '&', '*', '!', '|', '>', '\'', '"', '%',
      '@', '\x60'].contains c)

/-- Read the token at the cursor. -/
def fetchHere (s : Scan) : Except Fault Scan :=
  match s.cursor.rest with
  | [] => s.fetchEnd
  | c :: rest =>
    let lineStart := s.cursor.column = 0
    if lineStart && c = '%' then s.fetchDirective
    else if lineStart && startsMark '-' (c :: rest) then s.documentMark .documentStart
    else if lineStart && startsMark '.' (c :: rest) then s.documentMark .documentEnd
    else if c = '[' then s.openFlow .openBracket
    else if c = '\x7b' then s.openFlow .openBrace
    else if c = ']' then s.closeFlow .closeBracket
    else if c = '\x7d' then s.closeFlow .closeBrace
    else if c = ',' then s.flowEntry
    else if c = '-' && startsBlank rest then s.blockEntry
    else if c = '?' && (s.inFlow || startsBlank rest) then s.explicitKey
    else if c = ':' && (s.inFlow || startsBlank rest) then s.mappingValue
    else if c = '*' then s.fetchName .aliasOf
    else if c = '&' then s.fetchName .anchor
    else if c = '!' then s.fetchTag
    else if c = '|' && !s.inFlow then s.fetchBlockScalar false
    else if c = '>' && !s.inFlow then s.fetchBlockScalar true
    else if c = '\'' then s.fetchQuoted '\''
    else if c = '"' then s.fetchQuoted '"'
    else if startsPlain c || c = '-' || (!s.inFlow && (c = '?' || c = ':')) then s.fetchPlain
    else .error (.strayCharacter c)

/-- Read one more token, with the block ends that its column implies. A token is out of reach when
the damage lies within its first four characters or inside it. -/
def fetch (s : Scan) : Except Fault Scan := do
  let s ← (s.toToken (s.cursor.rest.length + 1)).dropStale
  let s := s.unindent (some s.cursor.column)
  if s.damaged && s.cursor.rest.length < 4 then throw .damagedText
  let s ← s.fetchHere
  if s.damaged && s.cursor.rest.isEmpty then throw .damagedText
  return s

/-! ## The whole stream -/

/-- The foremost waiting token may still get a key mark in front of it. -/
def headIsCandidate (s : Scan) : Bool :=
  (s.candidate :: s.outer).any fun
    | some k => k.number == s.delivered
    | none => false

/-- Deliver the tokens one after the other, those delivered already being given in reverse; stop at
the end of the stream or at a fault. -/
def deliver (fuel : Nat) (s : Scan) (done : List Token) : List Token × Option Fault :=
  match fuel with
  | 0 => (done.reverse, none)
  | fuel + 1 =>
    match s.waiting with
    | [] =>
      match s.fetch with
      | .ok s => deliver fuel s done
      | .error e => (done.reverse, some e)
    | t :: waiting =>
      match s.dropStale with
      | .error e => (done.reverse, some e)
      | .ok s =>
        if s.headIsCandidate then
          match s.fetch with
          | .ok s => deliver fuel s done
          | .error e => (done.reverse, some e)
        else if t = .streamEnd then ((t :: done).reverse, none)
        else deliver fuel { s with waiting := waiting, delivered := s.delivered + 1 } (t :: done)

end Scan

/-- The tokens of a text up to the first fault, and the fault. Every character starts at most one
token and every token is accompanied by at most one key mark and two borders. -/
def tokens (source : Source) : List Token × Option Fault :=
  Scan.deliver (8 * source.chars.length + 16) (.start source) []

end JobLoom.Yaml
