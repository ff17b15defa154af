/-!
# Document trees for output

What is written is a tree of records and lists with texts, numbers and truth values at its leaves.
The fields of a record keep their order. A field without content is left out, for which
there are builders that make a field only where there is something to say.
-/

namespace JobLoom

/-- A document to be written. -/
inductive Tree where
  /-- a text -/
  | text (s : String)
  /-- a number -/
  | number (n : Nat)
  /-- a truth value -/
  | flag (b : Bool)
  /-- a list -/
  | list (items : List Tree)
  /-- a record -/
  | record (fields : List (String × Tree))

namespace Tree

/-- A list of texts. -/
def texts (ss : List String) : Tree := .list (ss.map Tree.text)

/-- A field that is always there. -/
def field (name : String) (t : Tree) : List (String × Tree) := [(name, t)]

/-- A field that is there if it has a value. -/
def optionalField {α : Type} (name : String) (f : α → Tree) (x : Option α) : List (String × Tree) :=
  match x with
  | some a => [(name, f a)]
  | none => []

/-- A field that is there if its condition holds. -/
def fieldIf (name : String) (present : Bool) (t : Tree) : List (String × Tree) :=
  if present then [(name, t)] else []

end Tree

end JobLoom
