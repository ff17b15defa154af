/-!
# UTF-8

The byte sequences of RFC 3629: the shortest form only, no surrogates and nothing above
U+10FFFF. Decoding goes one character at a time, so that a reader can tell a sequence that is
**malformed** from one that merely **breaks off** where the bytes end.
-/

namespace JobLoom.Text.Utf8

/-- What stands at the front of some bytes. -/
inductive Front where
  /-- a whole character and the bytes after it -/
  | char (c : Char) (rest : List UInt8)
  /-- the start of a character, cut off by the end of the bytes -/
  | cut
  /-- bytes that start no character -/
  | malformed
  /-- no bytes at all -/
  | done

/-- A byte that continues a sequence. -/
def isTail (b : UInt8) : Bool := 0x80 ≤ b && b ≤ 0xBF

/-- The six bits that a continuation byte carries. -/
def tailBits (b : UInt8) : Nat := b.toNat % 0x40

/-- How many bytes a sequence with this first byte has. -/
def width (b : UInt8) : Option Nat :=
  if b < 0x80 then some 1
  else if 0xC0 ≤ b && b < 0xE0 then some 2
  else if 0xE0 ≤ b && b < 0xF0 then some 3
  else if 0xF0 ≤ b && b < 0xF8 then some 4
  else none

/-- The scalar value `n`, if it needs the width that it was written in. -/
def scalar? (n least : Nat) : Option Char :=
  if least ≤ n then
    if h : n.isValidChar then some (Char.ofNatAux n h) else none
  else none

/-- The character that `n` stands for, in front of `rest`. -/
def Front.of (n least : Nat) (rest : List UInt8) : Front :=
  match scalar? n least with
  | some c => .char c rest
  | none => .malformed

/-- Read one character. A sequence that breaks off counts as cut before its present bytes are
looked at. -/
def front : List UInt8 → Front
  | [] => .done
  | b :: rest =>
    match width b with
    | none => .malformed
    | some 1 => .of b.toNat 0 rest
    | some 2 =>
      match rest with
      | b1 :: rest =>
        if isTail b1 then .of (b.toNat % 0x20 * 0x40 + tailBits b1) 0x80 rest else .malformed
      | _ => .cut
    | some 3 =>
      match rest with
      | b1 :: b2 :: rest =>
        if isTail b1 && isTail b2 then
          .of ((b.toNat % 0x10 * 0x40 + tailBits b1) * 0x40 + tailBits b2) 0x800 rest
        else .malformed
      | _ => .cut
    | some _ =>
      match rest with
      | b1 :: b2 :: b3 :: rest =>
        if isTail b1 && isTail b2 && isTail b3 then
          .of (((b.toNat % 0x8 * 0x40 + tailBits b1) * 0x40 + tailBits b2) * 0x40 + tailBits b3)
            0x10000 rest
        else .malformed
      | _ => .cut

/-- Decode all the bytes, at most `fuel` characters of them, after those already read. -/
def decodeFrom (fuel : Nat) (bytes : List UInt8) (read : List Char) : Option (List Char) :=
  match fuel, front bytes with
  | _, .done => some read.reverse
  | fuel + 1, .char c rest => decodeFrom fuel rest (c :: read)
  | _, _ => none

/-- The text that the bytes encode, if they are well-formed. -/
def decode? (bytes : List UInt8) : Option (List Char) :=
  decodeFrom bytes.length bytes []

/-- The bytes of a text. -/
def encode (s : String) : List UInt8 :=
  s.toUTF8.toList

end JobLoom.Text.Utf8
