import JobLoom.Files.Fault
import JobLoom.Files.Path
import JobLoom.Store.Basic

/-!
# Stores in a directory

The payload under a namespace and a key is the file of that name in the directory of that name.
Namespaces and keys that are no plain names lead nowhere, so no lookup leaves the directory.
-/

namespace JobLoom

/-- A store in a directory. -/
structure DirectoryStore where
  /-- the path of the directory -/
  root : String
  deriving DecidableEq, Repr

namespace DirectoryStore

/-- The path of the file for a namespace and a key, if both are plain. -/
def entryPath? (s : DirectoryStore) (space key : String) : Option String :=
  if Path.isPlain space && Path.isPlain key then some (Path.join (Path.join s.root space) key)
  else none

/-- What reading the file of an entry answers. -/
def answerOf (space key : String) : Except FileFault (List UInt8) → Answer
  | .ok payload => .found payload
  | .error .missing => .missing
  | .error f => .failed (.store space key f.message)

/-- The directory as a store, given how files are read. -/
def toStore (s : DirectoryStore) (read : String → Except FileFault (List UInt8)) : Store :=
  fun space key => .answer <|
    match s.entryPath? space key with
    | none => .missing
    | some path => answerOf space key (read path)

end DirectoryStore

end JobLoom
