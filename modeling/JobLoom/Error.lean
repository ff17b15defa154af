/-!
# Conversion errors

What can keep a workflow from being converted, from the text of the file to the worker pool.

* **Codes.** Each error has a code in the range of its area: parsing from 1, the job graph from 10,
  rendering from 20, the worker pool from 30, settings from 40, the label store from 50, files
  from 90.
* **Status.** What the author of a workflow can mend is bad input; a full queue is worth another
  try; all else is a failure of the service.
-/

namespace JobLoom

/-- Why a conversion did not happen. -/
inductive ConvertError where
  /-- the workflow cannot be read -/
  | parse (details : String)
  /-- the workflow is blank -/
  | emptySource
  /-- two jobs have one id -/
  | duplicateJob (id : String)
  /-- a job needs one that is not there -/
  | unknownDependency (id needed : String)
  /-- jobs need each other; the walk ends where it starts -/
  | cycleDetected (walk : List String)
  /-- a job has the id of the root template -/
  | reservedJobId (id : String)
  /-- the result cannot be written -/
  | render (details : String)
  /-- the queue has no room -/
  | queueFull (capacity : Nat)
  /-- the service itself fails -/
  | internal (reason : String)
  /-- the settings make no sense -/
  | config (reason : String)
  /-- the label store fails -/
  | store (space key reason : String)
  /-- a file cannot be read or written -/
  | io (reason : String)
  deriving DecidableEq, Repr

/-- The areas that callers tell apart. -/
inductive ErrorKind where
  /-- the text of the workflow -/
  | parse
  /-- the job graph -/
  | validation
  /-- the queue -/
  | queueFull
  /-- all else -/
  | internal
  deriving DecidableEq, Repr

/-- What a submitter is told about the outcome. -/
inductive Status where
  /-- converted -/
  | ok
  /-- to be tried again later -/
  | busy
  /-- not convertible -/
  | badInput
  /-- not converted for other reasons -/
  | failed
  deriving DecidableEq, Repr

namespace Status

/-- The status as a number. -/
def code : Status → Nat
  | .ok => 200
  | .badInput => 400
  | .failed => 500
  | .busy => 503

/-- The status in words. -/
def message : Status → String
  | .ok => "ok"
  | .busy => "service busy, retry later"
  | .badInput => "bad input"
  | .failed => "conversion failed"

end Status

namespace ConvertError

/-- The jobs of a walk, with arrows between. -/
def walkText (walk : List String) : String := " → ".intercalate walk

/-- The wording of an error. -/
def message : ConvertError → String
  | .parse details => "[ARGUS-001] Failed to parse workflow: " ++ details
  | .emptySource => "[ARGUS-002] Workflow source is empty"
  | .duplicateJob id => "[ARGUS-010] Duplicate job id '" ++ id ++ "'"
  | .unknownDependency id needed =>
    "[ARGUS-011] Job '" ++ id ++ "' needs unknown job '" ++ needed ++ "'"
  | .cycleDetected walk => "[ARGUS-012] Dependency cycle detected: " ++ walkText walk
  | .reservedJobId id => "[ARGUS-013] Job id '" ++ id ++ "' is reserved for the root template"
  | .render details => "[ARGUS-020] Failed to render workflow: " ++ details
  | .queueFull capacity =>
    "[ARGUS-030] Conversion queue is full (" ++ toString capacity ++ " pending)"
  | .internal reason => "[ARGUS-032] Internal error: " ++ reason
  | .config reason => "[ARGUS-040] Invalid configuration: " ++ reason
  | .store space key reason =>
    "[ARGUS-050] Config store lookup of '" ++ space ++ "/" ++ key ++ "' failed: " ++ reason
  | .io reason => "[ARGUS-090] IO error: " ++ reason

/-- The area of an error. -/
def kind : ConvertError → ErrorKind
  | .parse _ => .parse
  | .emptySource => .parse
  | .duplicateJob _ => .validation
  | .unknownDependency .. => .validation
  | .cycleDetected _ => .validation
  | .reservedJobId _ => .validation
  | .queueFull _ => .queueFull
  | .render _ => .internal
  | .internal _ => .internal
  | .config _ => .internal
  | .store .. => .internal
  | .io _ => .internal

/-- The error lies in the job graph. -/
def isValidation (e : ConvertError) : Bool := e.kind = .validation

/-- What a submitter is told about an error. -/
def status (e : ConvertError) : Status :=
  match e.kind with
  | .parse => .badInput
  | .validation => .badInput
  | .queueFull => .busy
  | .internal => .failed

/-- What can be done about an error. -/
def fix : ConvertError → Option String
  | .parse _ => some "Check YAML syntax: indentation and quoting"
  | .emptySource => some "Provide a non-empty workflow definition"
  | .duplicateJob _ => some "Rename one of the jobs so every job id is unique"
  | .unknownDependency .. => some "Fix the job id in 'needs:' or add the missing job"
  | .cycleDetected _ => some "Remove one of the 'needs:' edges so the jobs form a DAG"
  | .reservedJobId _ => some "Rename the job; 'main' is the DAG entrypoint"
  | .render _ => none
  | .queueFull _ => some "Service busy, retry later"
  | .internal _ => none
  | .config _ => some "Check the config file and ARGUS_* environment variables"
  | .store .. => some "Check the config store directory and namespace"
  | .io _ => some "Check file path and permissions"

end ConvertError

end JobLoom
