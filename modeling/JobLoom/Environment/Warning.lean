/-!
# Warnings

A job whose runner label leads to no usable descriptor runs in the default container, and a warning
says why.
-/

namespace JobLoom

/-- Why a job runs in the default container. -/
inductive Warning where
  /-- the job names no runner label -/
  | noLabel (job : String)
  /-- the store has no entry for the label -/
  | missing (job key : String)
  /-- the store cannot look the label up -/
  | lookupFailed (job key reason : String)
  /-- the entry is no descriptor -/
  | malformed (job key reason : String)
  deriving DecidableEq, Repr

namespace Warning

/-- The job. -/
def job : Warning → String
  | .noLabel job => job
  | .missing job _ => job
  | .lookupFailed job _ _ => job
  | .malformed job _ _ => job

/-- The key that was looked up, if one was. -/
def key? : Warning → Option String
  | .noLabel _ => none
  | .missing _ key => some key
  | .lookupFailed _ key _ => some key
  | .malformed _ key _ => some key

/-- The wording of a warning. -/
def message : Warning → String
  | .noLabel job => "job '" ++ job ++ "' has no runs-on label, using default container"
  | .missing job key =>
    "job '" ++ job ++ "': no config entry '" ++ key ++ "', using default container"
  | .lookupFailed job key reason =>
    "job '" ++ job ++ "': lookup of '" ++ key ++ "' failed (" ++ reason ++
      "), using default container"
  | .malformed job key reason =>
    "job '" ++ job ++ "': config entry '" ++ key ++ "' is unusable (" ++ reason ++
      "), using default container"

end Warning

end JobLoom
