import JobLoom.Files.Fault
import JobLoom.Files.Path

/-!
# Disks

The files and directories that a command sees, as a table from places to what is there. A place is
the list of names on the way from the top.

* **Walking.** A path is gone through piece by piece. Every piece but the last has to lead to a
  directory; an empty piece and a single point stay where they are, two points go up.
* **Writing** replaces a file or makes one in a directory that is there.
-/

namespace JobLoom

/-- What is at a place. -/
inductive Disk.Node where
  /-- a file -/
  | file (content : List UInt8)
  /-- a directory -/
  | directory
  deriving DecidableEq

/-- A place: the names on the way from the top. -/
abbrev Place := List String

/-- Files and directories. -/
structure Disk where
  /-- what is where; the top itself is not listed -/
  nodes : List (Place × Disk.Node)
  /-- where paths begin that do not begin at the top -/
  start : Place

namespace Disk

/-- What is at a place. -/
def node? (d : Disk) (p : Place) : Option Node :=
  if p = [] then some .directory else d.nodes.lookup p

/-- Put something at a place. -/
def put (d : Disk) (p : Place) (n : Node) : Disk :=
  { d with nodes := (p, n) :: d.nodes.filter fun e => e.1 ≠ p }

/-! ## Walking -/

/-- Where a path leads. -/
inductive Target where
  /-- to something -/
  | found (p : Place) (n : Node)
  /-- to a place in a directory where nothing is yet -/
  | vacant (p : Place)
  deriving DecidableEq

/-- How many bytes a name may have. -/
def nameLimit : Nat := 255

/-- How many bytes a path may have. -/
def pathLimit : Nat := 4095

/-- Go on from a place, piece by piece. -/
def walkFrom (d : Disk) : Place → Node → List (List Char) → Except FileFault Target
  | p, n, [] => .ok (.found p n)
  | p, n, piece :: rest =>
    if n ≠ .directory then .error .notDirectory
    else if piece = [] || piece = ['.'] then walkFrom d p n rest
    else if piece = ['.', '.'] then walkFrom d p.dropLast .directory rest
    else
      let name := String.ofList piece
      if name.utf8ByteSize > nameLimit then .error .nameTooLong
      else match d.node? (p ++ [name]) with
        | some n => walkFrom d (p ++ [name]) n rest
        | none => if rest = [] then .ok (.vacant (p ++ [name])) else .error .missing

/-- Go along a path. -/
def walk (d : Disk) (path : String) : Except FileFault Target :=
  if path.isEmpty then .error .missing
  else if path.toList.contains '\x00' then .error .nulInPath
  else if path.utf8ByteSize > pathLimit then .error .nameTooLong
  else
    let origin := if Path.isAbsolute path then [] else d.start
    d.walkFrom origin .directory (Path.pieces path.toList)

/-- Something is there. -/
def holds (d : Disk) (path : String) : Bool :=
  match d.walk path with
  | .ok (.found ..) => true
  | _ => false

/-- A directory is there. -/
def isDirectory (d : Disk) (path : String) : Bool :=
  match d.walk path with
  | .ok (.found _ .directory) => true
  | _ => false

/-! ## Reading and writing -/

/-- The content of a file. -/
def read (d : Disk) (path : String) : Except FileFault (List UInt8) :=
  match d.walk path with
  | .error f => .error f
  | .ok (.vacant _) => .error .missing
  | .ok (.found _ .directory) => .error .isDirectory
  | .ok (.found _ (.file content)) => .ok content

/-- Replace the content of a file, or make it. -/
def write (d : Disk) (path : String) (content : List UInt8) : Except FileFault Disk :=
  match d.walk path with
  | .error f => .error f
  | .ok (.found _ .directory) => .error .isDirectory
  | .ok (.found p (.file _)) => .ok (d.put p (.file content))
  | .ok (.vacant p) => .ok (d.put p (.file content))

/-- Make the directories on a path that are missing, from a place on. -/
def makeFrom (d : Disk) : Place → List (List Char) → Except FileFault Disk
  | _, [] => .ok d
  | p, piece :: rest =>
    if piece = [] || piece = ['.'] then makeFrom d p rest
    else if piece = ['.', '.'] then makeFrom d p.dropLast rest
    else
      let name := String.ofList piece
      let next := p ++ [name]
      if name.utf8ByteSize > nameLimit then .error .nameTooLong
      else match d.node? next with
        | some .directory => makeFrom d next rest
        | some (.file _) => .error .notDirectory
        | none => makeFrom (d.put next .directory) next rest

/-- Make all directories on a path that are missing. -/
def makeDirectories (d : Disk) (path : String) : Except FileFault Disk :=
  if path.toList.contains '\x00' then .error .nulInPath
  else d.makeFrom (if Path.isAbsolute path then [] else d.start) (Path.pieces path.toList)

/-! ## Listing -/

/-- The names on the way from one place to another below it. -/
def below? (p : Place) (q : Place) : Option (List String) :=
  if p.isPrefixOf q then some (q.drop p.length) else none

/-- Of two lists of names, the first is not behind the second. The first names that differ
decide. -/
def isInOrder : List String → List String → Bool
  | [], _ => true
  | _ :: _, [] => false
  | a :: as, b :: bs => if a < b then true else if a = b then isInOrder as bs else false

/-- Lists of names in order. -/
def inOrder (files : List (List String)) : List (List String) := files.mergeSort isInOrder

/-- The files below a directory, as the names on the way to them, in order. -/
def filesBelow (d : Disk) (path : String) : Except FileFault (List (List String)) :=
  match d.walk path with
  | .error f => .error f
  | .ok (.vacant _) => .error .missing
  | .ok (.found p _) =>
    let files := d.nodes.filterMap fun e =>
      match e.2 with
      | .file _ => below? p e.1
      | .directory => none
    .ok (inOrder files)

end Disk

end JobLoom
