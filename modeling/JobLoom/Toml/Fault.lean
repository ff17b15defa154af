/-!
# Faults of a settings file

The ways in which a text fails to be a settings file, or holds something that cannot be a setting.
-/

namespace JobLoom.Toml

/-- Why a settings file cannot be used. -/
inductive Fault where
  /-- a key or a header that is not written properly -/
  | badKey
  /-- a text that is not written or not closed properly -/
  | badText
  /-- a value that is not written properly -/
  | badValue
  /-- something behind a value or a header -/
  | lineEnd
  /-- a character that may not stand in a comment -/
  | badComment
  /-- a key or a table that is there already -/
  | repeated (key : String)
  /-- a value where a table is needed -/
  | notTable (key : String)
  /-- collections or keys nested too deeply -/
  | nesting
  /-- a value of the wrong kind for a setting -/
  | wrongKind (key : String)
  deriving DecidableEq, Repr

/-- The wording of a fault. -/
def Fault.message : Fault → String
  | .badKey => "malformed key"
  | .badText => "malformed or unclosed string"
  | .badValue => "malformed value"
  | .lineEnd => "expected the end of the line"
  | .badComment => "control character in a comment"
  | .repeated key => "duplicate key " ++ key
  | .notTable key => "key " ++ key ++ " is not a table"
  | .nesting => "recursion limit exceeded"
  | .wrongKind key => "wrong kind of value for " ++ key

end JobLoom.Toml
