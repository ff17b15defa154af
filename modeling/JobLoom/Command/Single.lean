import JobLoom.Command.Task
import JobLoom.Pool.Turns

/-!
# Commands on one file

* **convert** reads the settings and the file, converts the file in a pool of its own, tells the
  warnings and then writes the manifest. Nothing is written when the conversion fails.
* **validate** reads and checks the file and lists its jobs; the settings do not matter.
-/

namespace JobLoom.Command

variable {m : Type → Type} [Monad m]

namespace Host

/-! ## Converting -/

/-- Tell the warnings of a conversion. -/
def tellWarnings (h : Host m) (source : String) (o : Output) : m Unit :=
  o.warnings.forM fun w => h.warn ("warning: " ++ source ++ ": " ++ w.message ++ "\n")

/-- What is told about a file that has been written. -/
def doneLine (source target : String) : String := "✓ " ++ source ++ " → " ++ target ++ "\n"

/-- Convert one file. -/
def convertFile (h : Host m) (turns : Service → Turns) (i : Invocation) (file : String)
    (format : OutputFormat) (output : Option String) : Task m Unit := do
  let settings ← h.settings i
  let source ← h.readFile file
  let turns := turns (← h.service settings format)
  let pool ← startPool settings.pool
  let (pool, id) := turns.submit pool source
  let o ← accept (turns.await pool (← accept id)).2
  h.tellWarnings file o
  match output with
  | some path =>
    h.writeFile path o.payload
    h.print (doneLine file path)
  | none => h.print o.payload

/-! ## Checking -/

/-- What is told about a job. -/
def jobLine (g : JobGraph) (id : String) (j : Job) : String :=
  let label := "    " ++ id ++ " [" ++ j.label?.getD "(none)" ++ "]"
  match g.dependencies id with
  | [] => label ++ "\n"
  | needs => label ++ " ← " ++ ", ".intercalate needs ++ "\n"

/-- What is told about a valid file. -/
def validReport (file : String) (p : Plan) : String :=
  "✓ Workflow '" ++ file ++ "' is valid\n"
    ++ (if p.pipeline.name.isEmpty then "" else "  Name: " ++ p.pipeline.name ++ "\n")
    ++ "  Jobs: " ++ toString p.graph.size ++ "\n"
    ++ String.join (p.pipeline.jobs.map fun e => jobLine p.graph e.1 e.2)

/-- Check one file. -/
def validateFile (h : Host m) (file : String) : Task m Unit := do
  let source ← h.readFile file
  let plan ← accept (Plan.ofBytes source)
  h.print (validReport file plan)

end Host

end JobLoom.Command
