import JobLoom.Text.Utf8

/-!
# The text of a document stream

A stream arrives as bytes and is read as UTF-8, in **blocks** of 16 KiB.

* **Blocks hold whole characters.** A character that crosses the end of a block belongs to the next
  one.
* **A bad block is lost whole.** Bytes that are no UTF-8, and characters that may not stand in a
  stream, cost the block that they stand in; the text then ends with the block before, and is
  marked as damaged.
* **A cut character at the very end** damages the text as well, but costs nothing before it.
-/

namespace JobLoom.Yaml

/-- The readable text of a stream. -/
structure Source where
  /-- the characters up to the end or the damage -/
  chars : List Char
  /-- the stream goes on after them, unreadably -/
  damaged : Bool

/-- The characters that may stand in a stream as they are. -/
def isAllowed (c : Char) : Bool :=
  let n := c.toNat
  n == 0x09 || n == 0x0A || n == 0x0D || (0x20 ≤ n && n ≤ 0x7E) || n == 0x85 ||
    (0xA0 ≤ n && n ≤ 0xFFFD) || 0x10000 ≤ n

/-- The size of a block in bytes. -/
def blockSize : Nat := 16384

/-- How reading a block ends. -/
inductive BlockEnd where
  /-- the block is used up; these bytes come after it -/
  | full (read : List Char) (rest : List UInt8)
  /-- the stream ends inside a character -/
  | cut (read : List Char)
  /-- the block holds something unreadable -/
  | bad

/-- Read a block with `room` bytes left, after the characters already read, which are kept in
reverse. -/
def readBlock (fuel room : Nat) (bytes : List UInt8) (read : List Char) : BlockEnd :=
  match fuel, bytes with
  | 0, bytes => .full read bytes
  | _, [] => .full read []
  | fuel + 1, b :: bytes =>
    match Text.Utf8.width b with
    | none => .bad
    | some w =>
      if room < w then .full read (b :: bytes)
      else match Text.Utf8.front (b :: bytes) with
        | .char c rest => if isAllowed c then readBlock fuel (room - w) rest (c :: read) else .bad
        | .cut => .cut read
        | .malformed => .bad
        | .done => .full read []

/-- Read block after block. -/
def readBlocks (fuel : Nat) (bytes : List UInt8) (read : List Char) : Source :=
  match fuel, bytes with
  | _, [] => ⟨read.reverse, false⟩
  | 0, _ => ⟨read.reverse, true⟩
  | fuel + 1, bytes =>
    match readBlock blockSize blockSize bytes read with
    | .full read rest => readBlocks fuel rest read
    | .cut read => ⟨read.reverse, true⟩
    | .bad => ⟨read.reverse, true⟩

/-- The readable text of the bytes. -/
def Source.ofBytes (bytes : List UInt8) : Source :=
  readBlocks (bytes.length + 1) bytes []

end JobLoom.Yaml
