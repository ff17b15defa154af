import JobLoom.Command.Arguments
import JobLoom.Command.Failure
import JobLoom.Command.Host
import JobLoom.Pool.Basic
import JobLoom.Settings.Reading
import JobLoom.Store.Memory

/-!
# Tasks

What all commands are made of: operations of a host that end the command when they fail. The
settings of a command come from a file, the environment and the command line; only a file that was
asked for has to be there.
-/

namespace JobLoom.Command

variable {m : Type → Type} [Monad m]

/-- What a command does: it may fail. -/
abbrev Task (m : Type → Type) (α : Type) := ExceptT Failure m α

namespace Host

/-! ## Files -/

/-- Go on only if something has worked. -/
def orFail {α : Type} (blame : FileFault → Failure) (x : m (Except FileFault α)) : Task m α := do
  match ← x with
  | .ok a => return a
  | .error f => throw (blame f)

/-- Go on only if there is no error of the conversion. -/
def accept {α : Type} : Except ConvertError α → Task m α
  | .ok a => return a
  | .error e => throw (.conversion e)

/-- The content of a file that has to be there. -/
def readFile (h : Host m) (path : String) : Task m (List UInt8) :=
  orFail (.unreadable path) (h.read path)

/-- Write a text to a file. -/
def writeFile (h : Host m) (path text : String) : Task m Unit :=
  orFail (.unwritable path) (h.write path (Text.Utf8.encode text))

/-! ## Settings -/

/-- The settings in a file; without the file, the usual ones. -/
def settingsAt (h : Host m) (path : String) : Task m Settings := do
  if !(← h.holds path) then return .standard
  let unreadable (reason : String) : Failure :=
    .conversion (.config ("Failed to read config file " ++ path ++ ": " ++ reason))
  match ← h.read path with
  | .error f => throw (unreadable f.message)
  | .ok bytes =>
    match Text.Utf8.decode? bytes with
    | none => throw (unreadable "stream did not contain valid UTF-8")
    | some s => accept (Settings.ofText (String.ofList s))

/-- The values of the variables that count. -/
def environment (h : Host m) : m (String → Option String) := do
  let values ← Overrides.names.mapM fun name => return (name, ← h.valueOf name)
  return fun name => (values.lookup name).join

/-- The settings of a command. -/
def settings (h : Host m) (i : Invocation) : Task m Settings := do
  let file ← match i.config with
    | some path => do
      if !(← h.holds path) then throw (.noSettings path)
      h.settingsAt path
    | none => do h.settingsAt (← h.settingsPath)
  accept (Settings.ofLayers file (← h.environment) i.overrides)

/-- What a command converts with. -/
def service (h : Host m) (s : Settings) (format : OutputFormat) : m Service := do
  let store ← match s.storeDir with
    | some directory => h.store ⟨directory⟩ s.space
    | none => pure MemoryStore.empty.toStore
  return ⟨s.converter format, store, fun _ _ => false⟩

/-- Start a pool. -/
def startPool (size : PoolSize) : Task m Pool :=
  match Pool.start size with
  | .ok p => return p
  | .error (.refused e) => throw (.conversion e)
  | .error (.crashed text) => throw (.crashed text)

end Host

end JobLoom.Command
