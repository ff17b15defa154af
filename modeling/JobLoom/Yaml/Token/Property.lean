import JobLoom.Yaml.Token
import JobLoom.Yaml.Token.Scalar

/-!
# Anchors, tags and directives

The tokens that are not content themselves: names that values carry or refer to, tags, and the
directives in front of a document. In a tag, an octet may be written as `%` and two hexadecimal
digits; octets that make up no character are read as U+FFFD.
-/

namespace JobLoom.Yaml

/-! ## Anchors and aliases -/

/-- A character that may follow the name of an anchor. -/
def endsName : List Char → Bool
  | [] => true
  | c :: _ =>
    isSpacing c || isBreak c || ['?', ':', ',', ']', '\x7d', '%', '@', '\x60'].contains c

/-- Read the name after an anchor or alias mark. -/
def anchorName (s : Cursor) : Except Fault (String × Cursor) :=
  let s := s.skip
  let name := s.run isNameChar
  let s := s.skipMany name.length
  if name.isEmpty || !endsName s.rest then .error .anchorName
  else .ok (String.ofList name, s)

/-! ## Tags -/

/-- The bytes of a character. -/
def utf8Of (c : Char) : List UInt8 := Text.Utf8.encode (String.ofList [c])

/-- Decode bytes; those that make up no character become U+FFFD. -/
def decodeLossy (fuel : Nat) (bytes : List UInt8) (read : List Char) : List Char :=
  match fuel, Text.Utf8.front bytes with
  | fuel + 1, .char c rest => decodeLossy fuel rest (c :: read)
  | fuel + 1, .malformed => decodeLossy fuel bytes.tail ('\uFFFD' :: read)
  | fuel + 1, .cut => decodeLossy fuel bytes.tail ('\uFFFD' :: read)
  | _, _ => read.reverse

/-- The octet that an escape at the front of the text writes. -/
def escapedOctet : List Char → Option Nat
  | '%' :: a :: b :: _ => hexNumber 2 [a, b]
  | _ => none

/-- How many octets a character has that starts with this one. -/
def octetCount (n : Nat) : Option Nat :=
  if n < 0x80 then some 1
  else if 0xC0 ≤ n && n < 0xE0 then some 2
  else if 0xE0 ≤ n && n < 0xF0 then some 3
  else if 0xF0 ≤ n && n < 0xF8 then some 4
  else none

/-- Read `count` escaped octets that continue a character. -/
def tailOctets (count : Nat) (s : Cursor) (read : List UInt8) :
    Except Fault (Cursor × List UInt8) :=
  match count with
  | 0 => .ok (s, read)
  | count + 1 =>
    match escapedOctet s.rest with
    | some n =>
      if n / 0x40 = 2 then tailOctets count (s.skipMany 3) (UInt8.ofNat n :: read)
      else .error .tagEscape
    | none => .error .tagEscape

/-- Read one character that is written in escaped octets. -/
def escapedChar (s : Cursor) (read : List UInt8) : Except Fault (Cursor × List UInt8) :=
  match escapedOctet s.rest with
  | none => .error .tagEscape
  | some n =>
    match octetCount n with
    | none => .error .tagEscape
    | some count => tailOctets (count - 1) (s.skipMany 3) (UInt8.ofNat n :: read)

/-- A character that may stand in a tag; commas and brackets only where nothing else can end it. -/
def isTagChar (wide : Bool) (c : Char) : Bool :=
  isNameChar c ||
    [';', '/', '?', ':', '@', '&', '=', '+', '$', '.', '%', '!', '~', '*', '\'', '(',
      ')'].contains c ||
    (wide && [',', '[', ']'].contains c)

/-- Read the characters of a tag; the bytes read are kept in reverse. -/
def tagBytes (wide : Bool) (fuel : Nat) (s : Cursor) (read : List UInt8) :
    Except Fault (Cursor × List UInt8) := do
  match fuel, s.rest with
  | fuel + 1, c :: _ =>
    if !isTagChar wide c then return (s, read)
    if c = '%' then
      let (s, read) ← escapedChar s read
      tagBytes wide fuel s read
    else tagBytes wide fuel s.skip ((utf8Of c).reverse ++ read)
  | _, _ => return (s, read)

/-- Read the text of a tag that starts with `lead`; `mayBeEmpty` is set where a lone exclamation
mark came before. The text ends at a zero octet. -/
def tagText (wide : Bool) (lead : List Char) (mayBeEmpty : Bool) (s : Cursor) :
    Except Fault (String × Cursor) := do
  let (t, read) ← tagBytes wide (s.rest.length + 1) s []
  if t.index = s.index && lead.isEmpty && !mayBeEmpty then throw .tagText
  let bytes := read.reverse.takeWhile (· != 0)
  return (String.ofList (lead ++ decodeLossy bytes.length bytes []), t)

/-- Read a tag shorthand: an exclamation mark, a name and perhaps another exclamation mark. -/
def tagHandle (s : Cursor) : Except Fault (List Char × Cursor) :=
  match s.rest with
  | '!' :: _ =>
    let s := s.skip
    let name := s.run isNameChar
    let s := s.skipMany name.length
    match s.rest with
    | '!' :: _ => .ok ('!' :: name ++ ['!'], s.skip)
    | _ => .ok ('!' :: name, s)
  | _ => .error .tagHandle

/-- Read a tag in angle brackets. -/
def verbatimTag (s : Cursor) : Except Fault (Token × Cursor) := do
  let (text, s) ← tagText true [] false (s.skipMany 2)
  match s.rest with
  | '>' :: _ => return (.tag "" text, s.skip)
  | _ => throw .tagEnd

/-- Read a tag that is not in angle brackets. Without a second exclamation mark the name belongs
to the text; a lone exclamation mark is a text of its own. -/
def shortTag (s : Cursor) : Except Fault (Token × Cursor) := do
  let (handle, s) ← tagHandle s
  if handle.length > 1 && handle.getLast? = some '!' then
    let (text, s) ← tagText false [] false s
    return (.tag (String.ofList handle) text, s)
  else
    let (text, s) ← tagText false handle.tail true s
    if text.isEmpty then return (.tag "" "!", s)
    return (.tag "!" text, s)

/-- Read a tag, from its exclamation mark. -/
def tagToken (inFlow : Bool) (s : Cursor) : Except Fault (Token × Cursor) := do
  let (token, s) ← match s.rest with
    | _ :: '<' :: _ => verbatimTag s
    | _ => shortTag s
  if startsBlank s.rest || (inFlow && s.rest.head? = some ',') then return (token, s)
  throw .tagEnd

/-! ## Directives -/

/-- Read a number of at most nine digits. -/
def versionPart (s : Cursor) : Except Fault (Nat × Cursor) :=
  let ds := s.run (fun c => '0' ≤ c && c ≤ '9')
  if ds.isEmpty || ds.length > 9 then .error .versionNumber
  else .ok (ds.foldl (fun n c => n * 10 + (c.toNat - '0'.toNat)) 0, s.skipMany ds.length)

/-- Read the value of a version directive. -/
def versionDirective (s : Cursor) : Except Fault (Token × Cursor) := do
  let (major, s) ← versionPart (s.skipWhile isSpacing)
  if s.rest.head? ≠ some '.' then throw .versionNumber
  let (minor, s) ← versionPart s.skip
  return (.version major minor, s)

/-- Read the value of a directive that gives a tag shorthand its meaning. -/
def shorthandDirective (s : Cursor) : Except Fault (Token × Cursor) := do
  let (handle, s) ← tagHandle (s.skipWhile isSpacing)
  if handle.length > 1 && handle.getLast? ≠ some '!' then throw .tagHandle
  match s.rest with
  | c :: _ => if !isSpacing c then throw .lineEnd
  | [] => throw .lineEnd
  let (start, s) ← tagText true [] false (s.skipWhile isSpacing)
  if !startsBlank s.rest then throw .lineEnd
  return (.shorthand (String.ofList handle) start, s)

/-- Read a directive, from its percent sign to the start of the next line. -/
def directive (s : Cursor) : Except Fault (Token × Cursor) := do
  let s := s.skip
  let name := String.ofList (s.run isNameChar)
  let s := s.skipWhile isNameChar
  if name.isEmpty || !startsBlank s.rest then throw .directiveName
  let (token, s) ← match name with
    | "YAML" => versionDirective s
    | "TAG" => shorthandDirective s
    | _ => throw (.unknownDirective name)
  let s ← s.toLineEnd
  return (token, s.skipBreak)

end JobLoom.Yaml
