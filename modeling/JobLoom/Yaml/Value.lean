import JobLoom.Yaml.Scalar

/-!
# Document values

What a document says once its aliases are followed and its scalars are understood. Mappings keep
the order of the text. Two values are the **same** when they cannot be told apart as mapping keys:

* mappings are the same whatever the order of their entries;
* the undefined number is the same as itself, and the two zeros are the same;
* tags are the same with or without their exclamation mark.
-/

namespace JobLoom.Yaml

open Decimal (Binary64)

/-- A document value. -/
inductive Value where
  /-- no value -/
  | null
  /-- a truth value -/
  | boolean (b : Bool)
  /-- an integer -/
  | integer (n : Int)
  /-- a number with a point or an exponent -/
  | float (x : Binary64)
  /-- a text -/
  | text (s : String)
  /-- a sequence -/
  | sequence (items : List Value)
  /-- a mapping -/
  | mapping (entries : List (Value × Value))
  /-- a value with a tag of its own -/
  | tagged (tag : String) (v : Value)

/-- A tag without its exclamation mark. -/
def bareTag (tag : String) : List Char :=
  match tag.toList with
  | '!' :: [] => ['!']
  | '!' :: rest => rest
  | s => s

mutual

/-- The two values are the same. -/
def Value.same : Value → Value → Bool
  | .null, .null => true
  | .boolean a, .boolean b => a == b
  | .integer a, .integer b => a == b
  | .float a, .float b => a.sameNumber b
  | .text a, .text b => a == b
  | .sequence as, .sequence bs => sameItems as bs
  | .mapping as, .mapping bs => as.length == bs.length && entriesWithin as bs
  | .tagged s a, .tagged t b => bareTag s == bareTag t && a.same b
  | _, _ => false

/-- The items are the same, one by one. -/
def sameItems : List Value → List Value → Bool
  | [], [] => true
  | a :: as, b :: bs => a.same b && sameItems as bs
  | _, _ => false

/-- Every entry of the first mapping is an entry of the second. -/
def entriesWithin : List (Value × Value) → List (Value × Value) → Bool
  | [], _ => true
  | e :: as, bs => entryWithin e bs && entriesWithin as bs

/-- The entry is an entry of the mapping. -/
def entryWithin : Value × Value → List (Value × Value) → Bool
  | (k, v), bs => bs.any fun e => k.same e.1 && v.same e.2

end

namespace Value

/-- The value without its tags. -/
def untagged : Value → Value
  | .tagged _ v => v.untagged
  | v => v

/-- The text, whatever its tags. -/
def asText? (v : Value) : Option String :=
  match v.untagged with
  | .text s => some s
  | _ => none

/-- The truth value, whatever its tags. -/
def asBool? (v : Value) : Option Bool :=
  match v.untagged with
  | .boolean b => some b
  | _ => none

/-- The items of a sequence, whatever its tags. -/
def asSequence? (v : Value) : Option (List Value) :=
  match v.untagged with
  | .sequence items => some items
  | _ => none

/-- The entries of a mapping, whatever its tags. -/
def asMapping? (v : Value) : Option (List (Value × Value)) :=
  match v.untagged with
  | .mapping entries => some entries
  | _ => none

/-- The value of the entry whose key is this text. -/
def lookup (key : String) : List (Value × Value) → Option Value
  | [] => none
  | (.text k, v) :: rest => if k = key then some v else lookup key rest
  | _ :: rest => lookup key rest

/-- The value of the entry whose key is this text, if the value is a mapping, whatever its tags. -/
def get? (v : Value) (key : String) : Option Value :=
  v.asMapping?.bind (lookup key)

/-- The text that a scalar without a tag is shown as. -/
def scalarText? : Value → Option String
  | .boolean b => some (if b then "true" else "false")
  | .integer n => some (toString n)
  | .float x => some x.compact
  | .text s => some s
  | _ => none

end Value

end JobLoom.Yaml
