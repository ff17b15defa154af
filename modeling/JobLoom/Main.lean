import JobLoom.Command.Run
import JobLoom.Command.Usage

/-!
# The program

The machine that the program runs on, as a host, and the program itself. Everything else is decided
elsewhere.
-/

namespace JobLoom.Machine

/-! ## Files -/

/-- A path, as the machine takes it. -/
def located (path : String) := System.mkFilePath [path]

/-- A fault of the machine. -/
def faultOf (e : IO.Error) : FileFault :=
  match e with
  | .noFileOrDirectory .. => .missing
  | .inappropriateType _ code _ => if code = 20 then .notDirectory else .isDirectory
  | .permissionDenied _ code details => .other (details ++ " (os error " ++ toString code ++ ")")
  | .otherError code details => .other (details ++ " (os error " ++ toString code ++ ")")
  | e => .other (toString e)

/-- Do something that may fail. -/
def attempt {α : Type} (x : IO α) : IO (Except FileFault α) := do
  match ← x.toBaseIO with
  | .ok a => return .ok a
  | .error e => return .error (faultOf e)

/-- The content of a file. -/
def read (path : String) : IO (Except FileFault (List UInt8)) :=
  attempt do
    if ← (located path).isDir then throw (.inappropriateType path 21 "Is a directory")
    return (← IO.FS.readBinFile path).toList

/-- Replace the content of a file, or make it. -/
def write (path : String) (content : List UInt8) : IO (Except FileFault Unit) :=
  attempt (IO.FS.writeBinFile path ⟨content.toArray⟩)

/-- Make the directories on a path. -/
def makeDirectories (path : String) : IO (Except FileFault Unit) :=
  attempt (if path.isEmpty then pure () else IO.FS.createDirAll path)

/-- The names in a directory. -/
def names (path : String) : IO (List String) :=
  return (← (located path).readDir).toList.map fun e => e.fileName

/-- The files below a directory, as the names on the way to them. -/
partial def filesFrom (path : String) (way : List String) : IO (List (List String)) := do
  let found ← (← names path).mapM fun name => do
    let next := Path.join path name
    if ← (located next).isDir then filesFrom next (way ++ [name])
    else return [way ++ [name]]
  return found.flatten

/-- The files below a directory, in order. -/
def filesBelow (path : String) : IO (Except FileFault (List (List String))) :=
  attempt (Disk.inOrder <$> filesFrom path [])

/-- The store in a directory, for one namespace. -/
def store (s : DirectoryStore) (space : String) : IO Store := do
  let directory := Path.join s.root space
  if !Path.isPlain space then return s.toStore fun _ => .error .missing
  match ← attempt (names directory) with
  | .error f => return s.toStore fun _ => .error f
  | .ok names =>
    let files ← names.mapM fun name => do
      let path := Path.join directory name
      return (path, ← read path)
    return s.toStore fun path => (files.lookup path).getD (.error .missing)

/-! ## The host -/

/-- Write a text at once. -/
def put (stream : IO.FS.Stream) (text : String) : IO Unit := do
  stream.putStr text
  stream.flush

/-- The machine as a host. -/
def host : Command.Host IO where
  valueOf name := IO.getEnv name
  settingsPath := return Settings.usualPath (← IO.getEnv "XDG_CONFIG_HOME") (← IO.getEnv "HOME")
  holds path := (located path).pathExists
  isDirectory path := (located path).isDir
  read := read
  write := write
  makeDirectories := makeDirectories
  filesBelow := filesBelow
  store := store
  print text := do put (← IO.getStdout) text
  warn text := do put (← IO.getStderr) text

/-- Do what a command line asks for, and give the exit code. -/
def obey (arguments : List String) : IO UInt32 := do
  match Command.read arguments with
  | .error e =>
    host.warn (Command.misuseText e)
    return 2
  | .ok .help =>
    host.print Command.usageText
    return 0
  | .ok .version =>
    host.print Command.versionText
    return 0
  | .ok (.run i) => host.run Turns.lazy i

end JobLoom.Machine

/-- The program. -/
def main (arguments : List String) : IO UInt32 := JobLoom.Machine.obey arguments
