import JobLoom.Yaml.Event

/-!
# Document trees

The events of the first document of a stream, put together as a tree. Aliases stay in the tree and
refer to a table, since a value may contain an alias to itself.

* **Broken documents** keep what can be read: where the events break off, the tree has a leaf that
  says so.
* **Anchors.** The `n`-th distinct name gets number `n`. A name that is used again gets the number
  that a new name would get, and of two values with one number the later one counts.
-/

namespace JobLoom.Yaml

/-- A document tree. -/
inductive Node where
  /-- the document breaks off here -/
  | lost
  /-- the stream has no document at all -/
  | absent
  /-- an alias for the anchor with this number -/
  | aliasOf (id : Nat)
  /-- a scalar, and whether it is plain -/
  | scalar (tag : Option String) (plain : Bool) (text : String)
  /-- a sequence -/
  | sequence (tag : Option String) (items : List Node)
  /-- a mapping, with its entries in the order of the text -/
  | mapping (tag : Option String) (entries : List (Node × Node))

/-- The first document of a stream. -/
structure Document where
  /-- its tree -/
  root : Node
  /-- the values that have an anchor, by its number; of two with one number the first counts -/
  anchors : List (Nat × Node)
  /-- how many events it is made of -/
  events : Nat
  /-- what breaks it off, or goes wrong between its last value and its end -/
  fault : Option Fault
  /-- something comes after it -/
  followed : Bool

/-! ## Completeness -/

mutual

/-- No part of the tree is lost. -/
def Node.isWhole : Node → Bool
  | .lost => false
  | .absent => true
  | .aliasOf _ => true
  | .scalar .. => true
  | .sequence _ items => areWhole items
  | .mapping _ entries => arePairsWhole entries

/-- No part of the trees is lost. -/
def areWhole : List Node → Bool
  | [] => true
  | n :: rest => n.isWhole && areWhole rest

/-- No part of the entries is lost. -/
def arePairsWhole : List (Node × Node) → Bool
  | [] => true
  | e :: rest => isPairWhole e && arePairsWhole rest

/-- No part of the entry is lost. -/
def isPairWhole : Node × Node → Bool
  | (k, v) => k.isWhole && v.isWhole

end

/-! ## From events to trees -/

/-- A collection that is still open. -/
structure OpenNode where
  /-- its place in the document, if it has an anchor -/
  place : Option Nat
  /-- its tag -/
  tag : Option String
  /-- it is a mapping; its keys and values then alternate -/
  isMapping : Bool
  /-- the values in it so far, in reverse -/
  children : List Node

/-- Take keys and values in turns. -/
def pairUp : List Node → List (Node × Node)
  | k :: v :: rest => (k, v) :: pairUp rest
  | [k] => [(k, .lost)]
  | [] => []

/-- The collection as it stands. -/
def OpenNode.close (o : OpenNode) : Node :=
  if o.isMapping then .mapping o.tag (pairUp o.children.reverse)
  else .sequence o.tag o.children.reverse

/-- A tree under construction. -/
structure Growth where
  /-- the open collections, innermost first -/
  stack : List OpenNode
  /-- the finished tree -/
  root : Option Node
  /-- the number of each anchor name -/
  names : List (String × Nat)
  /-- the place of the value for each anchor number, newest first -/
  places : List (Nat × Nat)
  /-- the finished values that have an anchor, by place -/
  values : List (Nat × Node)
  /-- the events so far -/
  count : Nat

namespace Growth

/-- Nothing yet. -/
def start : Growth := ⟨[], none, [], [], [], 0⟩

/-- Note the anchor of the value that comes now; the result is its place, if it has an anchor. -/
def mark (g : Growth) (anchor : Option String) : Growth × Option Nat :=
  match anchor with
  | none => (g, none)
  | some name =>
    let id := g.names.length
    let names :=
      if g.names.any (·.1 = name) then g.names.map fun e => if e.1 = name then (name, id) else e
      else g.names ++ [(name, id)]
    ({ g with names := names, places := (id, g.count) :: g.places }, some g.count)

/-- Put a finished value where it belongs. -/
def add (g : Growth) (place : Option Nat) (n : Node) : Growth :=
  let g := match place with
    | some p => { g with values := (p, n) :: g.values }
    | none => g
  match g.stack with
  | o :: rest => { g with stack := { o with children := n :: o.children } :: rest }
  | [] => { g with root := some n }

/-- Open a collection. -/
def enter (g : Growth) (props : Properties) (isMapping : Bool) : Growth :=
  let (g, place) := g.mark props.anchor
  { g with stack := ⟨place, props.tag, isMapping, []⟩ :: g.stack, count := g.count + 1 }

/-- Close the innermost collection. -/
def leave (g : Growth) : Growth :=
  match g.stack with
  | o :: rest => { g with stack := rest, count := g.count + 1 }.add o.place o.close
  | [] => g

/-- Close all collections, each with a lost part at its end. -/
def abandon (g : Growth) : List OpenNode → Growth
  | [] => g
  | o :: rest =>
    let o := match g.stack with
      | o :: _ => o
      | [] => o
    abandon ({ g with stack := rest }.add o.place
      { o with children := .lost :: o.children }.close) rest

/-- The document, as far as it goes. -/
def finish (g : Growth) (fault : Option Fault) (followed : Bool) : Document :=
  let g := g.abandon g.stack
  let root := match g.root with
    | some n => n
    | none => if fault.isSome then .lost else .absent
  let anchors := g.places.filterMap fun e => (g.values.lookup e.2).map fun n => (e.1, n)
  ⟨root, anchors, max g.count 1, fault, followed⟩

/-- Grow the tree by the events up to the end of the first document. -/
def run (fault : Option Fault) : Growth → List Event → Document
  | g, [] => g.finish fault false
  | g, .documentStart :: rest => run fault g rest
  | g, .documentEnd :: rest => g.finish none (!rest.isEmpty || fault.isSome)
  | g, .aliasOf name :: rest =>
    match g.names.lookup name with
    | some id => run fault ({ g with count := g.count + 1 }.add none (.aliasOf id)) rest
    | none => g.finish (some .unknownAlias) false
  | g, .scalar props text plain :: rest =>
    let (g, place) := g.mark props.anchor
    run fault ({ g with count := g.count + 1 }.add place (.scalar props.tag plain text)) rest
  | g, .sequence props :: rest => run fault (g.enter props false) rest
  | g, .mapping props :: rest => run fault (g.enter props true) rest
  | g, .close :: rest => run fault g.leave rest

end Growth

/-- The first document that some events tell of. -/
def Document.ofEvents (es : List Event) (fault : Option Fault) : Document :=
  Growth.run fault .start es

end JobLoom.Yaml
