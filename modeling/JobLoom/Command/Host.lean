import JobLoom.Files.Disk
import JobLoom.Store.Directory

/-!
# Hosts

What commands need of the machine that they run on: files, variables and two outputs.

* **A host** lists these as operations in some monad, so that commands can be written once.
* **A session** is a host without a machine: a disk, an environment, and what has been written to
  the outputs so far.
-/

namespace JobLoom.Command

/-- The operations of a machine. -/
structure Host (m : Type → Type) where
  /-- the value of an environment variable -/
  valueOf : String → m (Option String)
  /-- the path of the usual settings file -/
  settingsPath : m String
  /-- something is there -/
  holds : String → m Bool
  /-- a directory is there -/
  isDirectory : String → m Bool
  /-- the content of a file -/
  read : String → m (Except FileFault (List UInt8))
  /-- replace the content of a file, or make it -/
  write : String → List UInt8 → m (Except FileFault Unit)
  /-- make the directories on a path -/
  makeDirectories : String → m (Except FileFault Unit)
  /-- the files below a directory, as the names on the way to them, in order -/
  filesBelow : String → m (Except FileFault (List (List String)))
  /-- the store in a directory, for one namespace -/
  store : DirectoryStore → String → m Store
  /-- write to the output -/
  print : String → m Unit
  /-- write to the output for messages -/
  warn : String → m Unit

/-- A machine that is only thought of. -/
structure Session where
  /-- its files -/
  disk : Disk
  /-- its environment -/
  environment : String → Option String
  /-- the path of the usual settings file -/
  settingsPath : String
  /-- what has been written to the output -/
  output : String
  /-- what has been written to the output for messages -/
  messages : String

namespace Session

/-- Change the files of a session. -/
def change (f : Disk → Except FileFault Disk) : StateM Session (Except FileFault Unit) := do
  let s ← get
  match f s.disk with
  | .ok d =>
    set { s with disk := d }
    return .ok ()
  | .error e => return .error e

/-- A session as a host. -/
def host : Host (StateM Session) where
  valueOf name := return (← get).environment name
  settingsPath := return (← get).settingsPath
  holds path := return (← get).disk.holds path
  isDirectory path := return (← get).disk.isDirectory path
  read path := return (← get).disk.read path
  write path content := change fun d => d.write path content
  makeDirectories path := change fun d => d.makeDirectories path
  filesBelow path := return (← get).disk.filesBelow path
  store s space := return (s.toStore (← get).disk.read).within space
  print text := modify fun s => { s with output := s.output ++ text }
  warn text := modify fun s => { s with messages := s.messages ++ text }

end Session

end JobLoom.Command
