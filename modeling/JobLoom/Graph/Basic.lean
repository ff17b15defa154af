import JobLoom.Graph.Edges

/-!
# Job graphs

The jobs of a pipeline with the edges between them, in both directions. A pipeline has a graph when

* no job has the id of the root template;
* no two jobs have one id;
* every job that is needed is there.

The first job that breaks one of the first two rules is reported before any that breaks the third.
-/

namespace JobLoom

/-- The id of the template that joins all jobs; no job may have it. -/
def rootTemplate : String := "main"

/-- The jobs of a pipeline and the edges between them. -/
structure JobGraph where
  /-- the job ids, in the order of the pipeline -/
  ids : List String
  /-- the edges of each job -/
  edges : List (String × TaskEdges)
  /-- the jobs that need each job, in the order of the pipeline -/
  successors : List (String × List String)

/-- Check the ids from left to right; those already passed are given. -/
def checkIds (passed : List String) : List String → Except ConvertError Unit
  | [] => .ok ()
  | id :: rest =>
    if id = rootTemplate then .error (.reservedJobId id)
    else if passed.contains id then .error (.duplicateJob id)
    else checkIds (id :: passed) rest

/-- Put a value under a key: in the place of the one that is there, or at the end. -/
def putEntry {α : Type} (key : String) (a : α) : List (String × α) → List (String × α)
  | [] => [(key, a)]
  | e :: rest => if e.1 = key then (key, a) :: rest else e :: putEntry key a rest

/-- Put a job behind those that need another one, if that one is listed. -/
def addSuccessor (job : String) (successors : List (String × List String)) (needed : String) :
    List (String × List String) :=
  successors.map fun e => if e.1 = needed then (e.1, e.2 ++ [job]) else e

namespace JobGraph

/-- Enter a job into both tables: its edges, and itself behind the successors of each job that it
needs. -/
def enter (g : JobGraph) (job : String) (x : TaskEdges) : JobGraph :=
  { g with
    edges := putEntry job x g.edges
    successors := x.dependencies.foldl (addSuccessor job) g.successors }

/-- Map a job to its edges and enter it, if it needs only known jobs. -/
def addJob (g : JobGraph) (e : String × Job) : Except ConvertError JobGraph := do
  let x ← e.2.edges e.1 g.ids.contains
  return g.enter e.1 x

/-- The graph of a pipeline: the jobs are entered one after the other. -/
def ofPipeline (p : Pipeline) : Except ConvertError JobGraph := do
  checkIds [] p.ids
  p.jobs.foldlM addJob ⟨p.ids, [], p.ids.map fun id => (id, [])⟩

/-- The edges of a job. -/
def edges? (g : JobGraph) (id : String) : Option TaskEdges := g.edges.lookup id

/-- The jobs that a job needs. -/
def dependencies (g : JobGraph) (id : String) : List String :=
  match g.edges? id with
  | some e => e.dependencies
  | none => []

/-- The jobs that need a job. -/
def successorsOf (g : JobGraph) (id : String) : List String := (g.successors.lookup id).getD []

/-- How many jobs there are. -/
def size (g : JobGraph) : Nat := g.ids.length

/-- There are no jobs. -/
def isEmpty (g : JobGraph) : Bool := g.ids.isEmpty

/-- How many edges there are. -/
def edgeCount (g : JobGraph) : Nat := g.successors.foldr (fun e n => e.2.length + n) 0

end JobGraph

end JobLoom
