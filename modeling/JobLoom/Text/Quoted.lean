import JobLoom.Text.Printable

/-!
# Quoted texts in messages

A message shows a text from a document between double quotes. Quotes and backslashes get a
backslash in front, tab, line feed, carriage return and the null character have a letter of their
own, and every other character that would not be seen is written as its number in hexadecimal.
-/

namespace JobLoom.Text

/-- The number in lower-case hexadecimal digits, without leading zeros. -/
def hexDigits (n : Nat) : List Char := Nat.toDigits 16 n

/-- The number in upper-case hexadecimal digits, with zeros in front up to `width`. -/
def hexUpper (width n : Nat) : List Char :=
  let ds := (Nat.toDigits 16 n).map Char.toUpper
  List.replicate (width - ds.length) '0' ++ ds

/-- The number in lower-case hexadecimal digits, with zeros in front up to `width`. -/
def hexLower (width n : Nat) : List Char :=
  let ds := Nat.toDigits 16 n
  List.replicate (width - ds.length) '0' ++ ds

/-- One character between the quotes of a message. -/
def quotedChar (c : Char) : List Char :=
  if c = '\x00' then ['\\', '0']
  else if c = '\t' then ['\\', 't']
  else if c = '\r' then ['\\', 'r']
  else if c = '\n' then ['\\', 'n']
  else if c = '\\' then ['\\', '\\']
  else if c = '"' then ['\\', '"']
  else if isPrintable c then [c]
  else ['\\', 'u', '\x7b'] ++ hexDigits c.toNat ++ ['\x7d']

/-- A text between the quotes of a message. -/
def quoted (s : String) : String :=
  String.ofList ('"' :: s.toList.flatMap quotedChar ++ ['"'])

end JobLoom.Text
