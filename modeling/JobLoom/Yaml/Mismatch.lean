import JobLoom.Text.Quoted
import JobLoom.Yaml.Value
import JobLoom.Yaml.Fault

/-!
# Well-formed documents of the wrong shape

A mismatch says what stands where something else is needed, and a path says where that is.

* **Paths** join mapping keys by points and put sequence positions in brackets; a key that is no
  scalar is shown as a question mark, and the document itself as a point, which a message leaves
  out.
* **Numbers** in messages have all their places written out; in a repeated key they are written as
  in a document.
-/

namespace JobLoom.Yaml

open Decimal (Binary64)

/-- What stands in the wrong place. -/
inductive Found where
  /-- no value -/
  | null
  /-- a truth value -/
  | boolean (b : Bool)
  /-- an integer -/
  | integer (n : Int)
  /-- an integer of more than 64 bits -/
  | wide (n : Int) (isSigned : Bool)
  /-- a number -/
  | float (x : Binary64)
  /-- a text -/
  | text (s : String)
  /-- a sequence -/
  | sequence
  /-- a mapping -/
  | mapping
  /-- a value with a tag of its own -/
  | tagged

/-- The wording for what stands in the wrong place. -/
def Found.message : Found → String
  | .null => "unit value"
  | .boolean b => "boolean `" ++ (if b then "true" else "false") ++ "`"
  | .integer n => "integer `" ++ toString n ++ "`"
  | .wide n isSigned => "integer `" ++ toString n ++ (if isSigned then "` as i128" else "` as u128")
  | .float x => "floating point `" ++ x.positional ++ "`"
  | .text s => "string " ++ Text.quoted s
  | .sequence => "sequence"
  | .mapping => "map"
  | .tagged => "enum"

/-- The way in which a document has the wrong shape. -/
inductive Mismatch where
  /-- something of the wrong kind -/
  | kind (found : Found) (expected : String)
  /-- a text that its tag does not fit -/
  | content (text : String) (expected : String)
  /-- a field that is there twice -/
  | repeatedField (name : String)
  /-- a mapping key that is there twice -/
  | repeatedKey (key : Value)
  /-- something that has none of the forms of a type -/
  | noForm (type : String)
  /-- a tag on something that has several forms -/
  | tagOnForms

/-- The wording for a key that is there twice. -/
def repeatedKeyText : Value → String
  | .null => "with null key"
  | .boolean b => "with key `" ++ (if b then "true" else "false") ++ "`"
  | .integer n => "with key " ++ toString n
  | .float x => "with key " ++ x.compact
  | .text s => "with key " ++ Text.quoted s
  | _ => "in YAML map"

/-- The wording of a mismatch. -/
def Mismatch.message : Mismatch → String
  | .kind found expected => "invalid type: " ++ found.message ++ ", expected " ++ expected
  | .content text expected =>
    "invalid value: " ++ (Found.text text).message ++ ", expected " ++ expected
  | .repeatedField name => "duplicate field `" ++ name ++ "`"
  | .repeatedKey key => "duplicate entry " ++ repeatedKeyText key
  | .noForm type => "data did not match any variant of untagged enum " ++ type
  | .tagOnForms => "untagged and internally tagged enums do not support enum input"

/-! ## Paths -/

/-- One step from a collection to a value in it. -/
inductive Segment where
  /-- the value for a scalar key -/
  | key (text : String)
  /-- the value for another key -/
  | anyKey
  /-- an item of a sequence -/
  | index (i : Nat)
  deriving DecidableEq, Repr

/-- The steps from the document to a value, the last one first. -/
abbrev Path := List Segment

/-- The text of a path. -/
def Path.text : Path → String
  | [] => "."
  | .index i :: rest => Path.text rest ++ "[" ++ toString i ++ "]"
  | .key k :: [] => k
  | .key k :: rest => Path.text rest ++ "." ++ k
  | .anyKey :: [] => "?"
  | .anyKey :: rest => Path.text rest ++ ".?"

/-- Why a document cannot be used. -/
inductive Flaw where
  /-- it cannot be read -/
  | fault (f : Fault)
  /-- it has the wrong shape, perhaps at a known place -/
  | mismatch (m : Mismatch) (path : Option Path)

/-- The wording of a flaw. -/
def Flaw.message : Flaw → String
  | .fault f => f.message
  | .mismatch m none => m.message
  | .mismatch m (some path) =>
    let place := Path.text path
    if place = "." then m.message else place ++ ": " ++ m.message

end JobLoom.Yaml
