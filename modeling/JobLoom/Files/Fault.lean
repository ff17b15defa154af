/-!
# Faults of files

The ways in which a file cannot be read or written, in the words of the operating system.
-/

namespace JobLoom

/-- Why a file cannot be used. -/
inductive FileFault where
  /-- nothing is there -/
  | missing
  /-- a file where a directory is needed -/
  | notDirectory
  /-- a directory where a file is needed -/
  | isDirectory
  /-- a name or a path beyond the limits -/
  | nameTooLong
  /-- a character that no path may have -/
  | nulInPath
  /-- anything else -/
  | other (text : String)
  deriving DecidableEq, Repr

/-- The wording of a fault. -/
def FileFault.message : FileFault → String
  | .missing => "No such file or directory (os error 2)"
  | .notDirectory => "Not a directory (os error 20)"
  | .isDirectory => "Is a directory (os error 21)"
  | .nameTooLong => "File name too long (os error 36)"
  | .nulInPath => "file name contained an unexpected NUL byte"
  | .other text => text

end JobLoom
