import JobLoom.Toml.Value

/-!
# Settings files

A file is a list of statements: headers of tables, headers of the elements of table arrays, and
assignments to keys of the table at hand. Together they build one table.

* **Tables are made once.** A header may complete a table that longer headers have implied, but
  not one with a header of its own or one that dotted keys have made.
* **Dotted keys** make tables within the table at hand, and go only into tables made so.
* **A header behind an array of tables** leads into its last element.
-/

namespace JobLoom.Toml

/-! ## Statements -/

/-- A line of a settings file. -/
inductive Statement where
  /-- the header of a table -/
  | header (path : List String)
  /-- the header of an element of an array of tables -/
  | element (path : List String)
  /-- an assignment -/
  | assign (path : List String) (v : Value)

/-- Read a header, from behind its first bracket. -/
def header (s : List Char) : Except Fault (Statement × List Char) := do
  match s with
  | '[' :: rest =>
    let (path, s) ← key rest
    match s with
    | ']' :: ']' :: rest => return (.element path, ← restOfLine rest)
    | _ => throw .badKey
  | s =>
    let (path, s) ← key s
    match s with
    | ']' :: rest => return (.header path, ← restOfLine rest)
    | _ => throw .badKey

/-- Read an assignment. -/
def assignment (s : List Char) : Except Fault (Statement × List Char) := do
  let (path, s) ← key s
  match s with
  | '=' :: rest =>
    let (v, s) ← value valueDepth (skipSpacing rest)
    return (.assign path v, ← restOfLine s)
  | _ => throw .badKey

/-- Read the statements of a file; those read are kept in reverse. -/
def statementsFrom (fuel : Nat) (s : List Char) (read : List Statement) :
    Except Fault (List Statement) := do
  match fuel with
  | 0 => return read.reverse
  | fuel + 1 =>
    match skipLines (s.length + 1) s with
    | [] => return read.reverse
    | '#' :: rest =>
      if skipComment ('#' :: rest) = [] then return read.reverse else throw .badComment
    | '[' :: rest =>
      let (x, s) ← header rest
      statementsFrom fuel s (x :: read)
    | s =>
      let (x, s) ← assignment s
      statementsFrom fuel s (x :: read)

/-- The statements of a text; a byte order mark in front of it does not count. -/
def statements (s : List Char) : Except Fault (List Statement) :=
  let s := match s with
    | '\uFEFF' :: rest => rest
    | s => s
  statementsFrom (s.length + 1) s []

/-! ## Tables under construction -/

/-- What has made a table. -/
inductive Origin where
  /-- a header of its own, or the file itself -/
  | header
  /-- a longer header -/
  | implied
  /-- a dotted key -/
  | dotted
  deriving DecidableEq, Repr

/-- An entry of a table under construction. -/
inductive Item where
  /-- a value -/
  | value (v : Value)
  /-- a table -/
  | table (origin : Origin) (entries : List (String × Item))
  /-- an array of tables -/
  | tables (elements : List (List (String × Item)))

/-- The entries of a table under construction. -/
abbrev Items := List (String × Item)

/-- Set the item for a key, in the place of the old one or at the end. -/
def setItem (items : Items) (k : String) (x : Item) : Items :=
  if items.any (·.1 = k) then items.map fun e => if e.1 = k then (k, x) else e
  else items ++ [(k, x)]

/-- Change the table that a path leads to. Tables that are not there are made, by dotted keys or by
a header. -/
def updateAt (made : Origin) (change : Origin → Items → Except Fault Items) :
    List String → Origin → Items → Except Fault Items
  | [], origin, items => change origin items
  | k :: path, _, items =>
    match items.lookup k with
    | none => do
      let inner ← updateAt made change path made []
      return setItem items k (.table made inner)
    | some (.value _) => .error (.notTable k)
    | some (.tables elements) => do
      let inner ← updateAt made change path .header (elements.getLast?.getD [])
      return setItem items k (.tables (elements.dropLast ++ [inner]))
    | some (.table origin inner) => do
      if made = .dotted && origin = .header then throw (.repeated k)
      let inner ← updateAt made change path origin inner
      return setItem items k (.table origin inner)

/-- Make a table for a header, or complete an implied one. -/
def openTable (k : String) (_ : Origin) (items : Items) : Except Fault Items :=
  match items.lookup k with
  | none => .ok (setItem items k (.table .header []))
  | some (.table .implied inner) => .ok (setItem items k (.table .header inner))
  | some _ => .error (.repeated k)

/-- Add an element to an array of tables. -/
def openElement (k : String) (_ : Origin) (items : Items) : Except Fault Items :=
  match items.lookup k with
  | none => .ok (setItem items k (.tables [[]]))
  | some (.tables elements) => .ok (setItem items k (.tables (elements ++ [[]])))
  | some _ => .error (.repeated k)

/-- Assign a value to a key. Behind a dotted key the table must be one that dotted keys have
made. -/
def assignItem (isDotted : Bool) (k : String) (v : Value) (origin : Origin) (items : Items) :
    Except Fault Items :=
  if decide (origin = .dotted) ≠ isDotted then .error (.repeated k)
  else match items.lookup k with
    | none => .ok (setItem items k (.value v))
    | some _ => .error (.repeated k)

/-- The path without its last part, and that part. -/
def splitLast (path : List String) : List String × String :=
  (path.dropLast, path.getLast?.getD "")

/-- A file under construction: the path of the table at hand, and all tables. -/
structure Building where
  /-- the table that assignments go to -/
  current : List String
  /-- all tables -/
  items : Items

/-- Carry out a statement. -/
def Building.apply (b : Building) : Statement → Except Fault Building
  | .header path => do
    let (outer, k) := splitLast path
    return ⟨path, ← updateAt .implied (openTable k) outer .header b.items⟩
  | .element path => do
    let (outer, k) := splitLast path
    return ⟨path, ← updateAt .implied (openElement k) outer .header b.items⟩
  | .assign path v => do
    let (outer, k) := splitLast path
    let change := updateAt .dotted (assignItem (!outer.isEmpty) k v) outer
    return { b with items := ← updateAt .implied change b.current .header b.items }

mutual

/-- The value of an item. -/
def Item.toValue : Item → Value
  | .value v => v
  | .table _ entries => .table (itemEntries entries)
  | .tables elements => .array (elementValues elements)

/-- The values of some entries. -/
def itemEntries : List (String × Item) → List (String × Value)
  | [] => []
  | e :: rest => itemEntry e :: itemEntries rest

/-- The value of one entry, with its key. -/
def itemEntry : String × Item → String × Value
  | (k, x) => (k, x.toValue)

/-- The values of some elements. -/
def elementValues : List (List (String × Item)) → List Value
  | [] => []
  | e :: rest => .table (itemEntries e) :: elementValues rest

end

/-- The entries of the table that a file writes. -/
def read (s : String) : Except Fault (List (String × Value)) := do
  let b ← (← statements s.toList).foldlM Building.apply ⟨[], []⟩
  return itemEntries b.items

end JobLoom.Toml
