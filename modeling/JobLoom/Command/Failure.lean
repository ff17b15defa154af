import JobLoom.Error
import JobLoom.Files.Fault

/-!
# Failures of commands

Why a command ends without having done what was asked for. Only failures of the conversion itself
come with an advice. A crash is told as such, and has an exit code of its own.
-/

namespace JobLoom.Command

/-- Why a command failed. -/
inductive Failure where
  /-- the settings, the workflow or the pool -/
  | conversion (e : ConvertError)
  /-- the settings file that was asked for is not there -/
  | noSettings (path : String)
  /-- a path that should lead to a directory -/
  | notDirectory (path : String)
  /-- a file that cannot be read -/
  | unreadable (path : String) (f : FileFault)
  /-- a file that cannot be written -/
  | unwritable (path : String) (f : FileFault)
  /-- a directory that cannot be made -/
  | unmakable (path : String) (f : FileFault)
  /-- a directory whose files cannot be listed -/
  | unlistable (path : String) (f : FileFault)
  /-- some files of a batch -/
  | someFailed (count : Nat)
  /-- the program has crashed -/
  | crashed (text : String)
  deriving DecidableEq, Repr

namespace Failure

/-- The wording of a failure. -/
def message : Failure → String
  | .conversion e => e.message
  | .noSettings path => "config file " ++ path ++ " does not exist"
  | .notDirectory path => path ++ " is not a directory"
  | .unreadable path f => "failed to read " ++ path ++ ": " ++ f.message
  | .unwritable path f => "failed to write " ++ path ++ ": " ++ f.message
  | .unmakable path f => "failed to create " ++ path ++ ": " ++ f.message
  | .unlistable path f => "failed to walk " ++ path ++ ": " ++ f.message
  | .someFailed count => toString count ++ " workflow(s) failed to convert"
  | .crashed text => text

/-- What can be done about a failure. -/
def fix : Failure → Option String
  | .conversion e => e.fix
  | _ => none

/-- What is told about a failure. Of a crash this is the text only, without the place of it. -/
def report : Failure → String
  | .crashed text => text ++ "\n"
  | f => "Error: " ++ f.message ++ "\n" ++
    match f.fix with
    | some advice => "  Fix: " ++ advice ++ "\n"
    | none => ""

/-- The exit code of a command that fails. -/
def exitCode : Failure → UInt32
  | .crashed _ => 101
  | _ => 1

end Failure

end JobLoom.Command
