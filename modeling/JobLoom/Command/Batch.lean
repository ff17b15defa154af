import JobLoom.Command.Single

/-!
# Batches

All workflow files below a directory are submitted, in order. While the queue is full, the oldest
request is waited for and its result recorded; at the end all others are. So results are recorded in
the order of the inputs, whatever the workers do.

The workers go on while the files of a batch are read and written. Whenever they move, they see the
store as it is then.
-/

namespace JobLoom.Command

variable {m : Type → Type} [Monad m]

/-! ## Inputs and targets -/

/-- How many files of a batch have been converted and how many not. -/
structure Tally where
  /-- converted -/
  converted : Nat
  /-- not converted -/
  failed : Nat
  deriving DecidableEq, Repr

/-- What is told at the end of a batch. -/
def Tally.summary (t : Tally) : String :=
  toString t.converted ++ " converted, " ++ toString t.failed ++ " failed\n"

/-- The directories of a batch. -/
structure Batch where
  /-- where the files are -/
  directory : String
  /-- where the manifests go -/
  outDirectory : String
  deriving DecidableEq, Repr

/-- The files that are taken for workflows. -/
def isWorkflow (names : List String) : Bool :=
  match (names.getLast?).bind Path.extension? with
  | some e => e = "yml" || e = "yaml"
  | none => false

/-- The path of an input. -/
def Batch.sourcePath (b : Batch) (names : List String) : String := Path.joinAll b.directory names

/-- The path of the manifest for an input: the same names below the other directory, with the
extension of the format. -/
def Batch.targetPath (b : Batch) (names : List String) (format : OutputFormat) : String :=
  Path.withExtension (Path.joinAll b.outDirectory names) format.extension

/-- An input of a batch that has been submitted, with its ticket. -/
structure Pending where
  /-- the names on the way to the input -/
  names : List String
  /-- the number of its ticket -/
  ticket : Nat
  deriving DecidableEq, Repr

/-- A batch under way. -/
structure Progress where
  /-- the pool -/
  pool : Pool
  /-- the inputs that wait for their results, oldest first -/
  pending : List Pending
  /-- the results so far -/
  tally : Tally

/-- What comes of trying to submit an input. -/
inductive Attempt where
  /-- it is pending -/
  | accepted (p : Progress)
  /-- the queue was full, and the oldest pending input has its result recorded -/
  | retired (p : Progress)
  /-- the queue was full, and nothing was pending -/
  | yielded (p : Progress)

namespace Host

/-! ## Recording and submitting -/

/-- Record the result for an input. -/
def record (h : Host m) (b : Batch) (names : List String) (x : Result) (t : Tally) :
    Task m Tally := do
  let source := b.sourcePath names
  match x with
  | .ok o =>
    h.tellWarnings source o
    let target := b.targetPath names o.format
    let outer := Path.parent target
    orFail (.unmakable outer) (h.makeDirectories outer)
    h.writeFile target o.payload
    h.print (doneLine source target)
    return { t with converted := t.converted + 1 }
  | .error e =>
    h.warn ("✗ " ++ source ++ ": " ++ e.message ++ "\n")
    return { t with failed := t.failed + 1 }

/-- Wait for the oldest pending input and record its result. -/
def retire (h : Host m) (turns : m Turns) (b : Batch) (pool : Pool) (oldest : Pending)
    (tally : Tally) : Task m (Pool × Tally) := do
  let (pool, x) := (← turns).await pool oldest.ticket
  let tally ← h.record b oldest.names x tally
  return (pool, tally)

/-- Try to submit an input. If the queue is full, wait for the oldest pending input and record its
result; if there is none, let the workers get on. -/
def attempt (h : Host m) (turns : m Turns) (b : Batch) (names : List String) (source : List UInt8)
    (p : Progress) : Task m Attempt := do
  match (← turns).submit p.pool source with
  | (pool, .ok id) => return .accepted ⟨pool, p.pending ++ [⟨names, id⟩], p.tally⟩
  | (pool, .error (.queueFull _)) =>
    match p.pending with
    | [] => return .yielded ⟨pool, [], p.tally⟩
    | oldest :: pending =>
      let (pool, tally) ← h.retire turns b pool oldest p.tally
      return .retired ⟨pool, pending, tally⟩
  | (_, .error e) => throw (.conversion e)

/-- Submit an input, trying at most so many times. -/
def submitWithin (h : Host m) (turns : m Turns) (b : Batch) (names : List String)
    (source : List UInt8) : Nat → Progress → Task m Progress
  | 0, p => throw (.conversion (.queueFull p.pool.size.capacity))
  | n + 1, p => do
    match ← h.attempt turns b names source p with
    | .accepted p => return p
    | .retired p | .yielded p => submitWithin h turns b names source n p

/-- Submit an input. It gets in once nothing else is pending, so there is an end to trying. -/
def submitInput (h : Host m) (turns : m Turns) (b : Batch) (names : List String)
    (source : List UInt8) (pool : Pool) (tally : Tally) (pending : List Pending) :
    Task m Progress :=
  h.submitWithin turns b names source (pending.length + 1) ⟨pool, pending, tally⟩

/-- Read and submit the next input. -/
def takeInput (h : Host m) (turns : m Turns) (b : Batch) (p : Progress) (names : List String) :
    Task m Progress := do
  let source ← h.readFile (b.sourcePath names)
  h.submitInput turns b names source p.pool p.tally p.pending

/-- Record the results of all pending inputs. -/
def finish (h : Host m) (turns : m Turns) (b : Batch) (pool : Pool) (tally : Tally) :
    List Pending → Task m Tally
  | [] => return tally
  | oldest :: pending => do
    let (pool, tally) ← h.retire turns b pool oldest tally
    finish h turns b pool tally pending

/-! ## Whole batches -/

/-- Submit all workflow files below a directory and record their results. -/
def convertAll (h : Host m) (turns : Service → Turns) (i : Invocation) (b : Batch)
    (format : OutputFormat) : Task m Tally := do
  if !(← h.isDirectory b.directory) then throw (.notDirectory b.directory)
  let settings ← h.settings i
  let inputs ← orFail (.unlistable b.directory) (h.filesBelow b.directory)
  let pool ← startPool settings.pool
  let turns : m Turns := return turns (← h.service settings format)
  let p ← (inputs.filter isWorkflow).foldlM (h.takeInput turns b) ⟨pool, [], ⟨0, 0⟩⟩
  h.finish turns b p.pool p.tally p.pending

/-- Convert all workflow files below a directory. -/
def convertDirectory (h : Host m) (turns : Service → Turns) (i : Invocation) (b : Batch)
    (format : OutputFormat) : Task m Unit := do
  let tally ← h.convertAll turns i b format
  h.print tally.summary
  if tally.failed > 0 then throw (.someFailed tally.failed)

end Host

end JobLoom.Command
