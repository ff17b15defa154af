import JobLoom.Graph.Basic

/-!
# The search for cycles

A depth-first search along the edges from a job to those that need it. Every job is marked.

* **unseen** — the search has not met the job;
* **on the path** — the search is busy with the jobs that need it;
* **settled** — all that can be reached from the job has been looked at.

The path is a list of frames, each with a cursor into the successors of its job. An edge to a job on
the path closes a cycle, and the part of the path from that job on is the cycle. Starts are tried in
the order of the pipeline, so the cycle found is the same each time.

A single move of the search is `Search.step`; the search makes at most one move for each job as a
start, for each job as a frame and for each edge, and one to end.
-/

namespace JobLoom

/-- How far the search is with a job. -/
inductive Mark where
  /-- not met -/
  | unseen
  /-- met, and not all that needs it is settled -/
  | onPath
  /-- done -/
  | settled
  deriving DecidableEq, Repr

/-- A job on the path. -/
structure Frame where
  /-- the job -/
  job : String
  /-- how many of its successors have been looked at -/
  cursor : Nat
  deriving DecidableEq, Repr

/-- A search in progress. -/
structure Search where
  /-- the mark of each job -/
  marks : List (String × Mark)
  /-- the path, its last job first -/
  path : List Frame
  /-- the jobs that are still to be tried as starts -/
  starts : List String
  deriving DecidableEq, Repr

/-- What a move leads to. -/
inductive Move where
  /-- the search goes on -/
  | continue (s : Search)
  /-- everything is settled -/
  | finished
  /-- these jobs form a cycle; the first one comes again at the end -/
  | closed (walk : List String)
  deriving DecidableEq, Repr

/-- Change the mark of a job. -/
def setMark (marks : List (String × Mark)) (job : String) (m : Mark) : List (String × Mark) :=
  putEntry job m marks

/-- Where a job stands on a path, counted from the first job of the path. -/
def place? (path : List Frame) (job : String) : Option Nat :=
  path.reverse.findIdx? fun f => f.job = job

/-- The part of a path from a job on, followed by that job. A job that is not on the path would give
the whole path. -/
def closedWalk (path : List Frame) (job : String) : List String :=
  (path.reverse.drop ((place? path job).getD 0)).map Frame.job ++ [job]

namespace Search

/-- Before the first move. -/
def start (g : JobGraph) : Search := ⟨g.ids.map fun id => (id, .unseen), [], g.ids⟩

/-- Put a job on the path. -/
def enter (s : Search) (job : String) : Search :=
  { s with marks := setMark s.marks job .onPath, path := ⟨job, 0⟩ :: s.path }

/-- One move of the search. -/
def step (g : JobGraph) (s : Search) : Move :=
  match s.path with
  | [] =>
    match s.starts with
    | [] => .finished
    | job :: rest =>
      let s := { s with starts := rest }
      if s.marks.lookup job = some .unseen then .continue (s.enter job) else .continue s
  | f :: below =>
    match (g.successorsOf f.job)[f.cursor]? with
    | none => .continue { s with marks := setMark s.marks f.job .settled, path := below }
    | some next =>
      let path := { f with cursor := f.cursor + 1 } :: below
      match s.marks.lookup next with
      | some .onPath => .closed (closedWalk path next)
      | some .settled => .continue { s with path := path }
      | _ => .continue ({ s with path := path }.enter next)

/-- Make at most so many moves: the cycle found, if any, or nothing if the moves run out. -/
def run (g : JobGraph) (fuel : Nat) (s : Search) : Option (Option (List String)) :=
  match fuel with
  | 0 => none
  | fuel + 1 =>
    match s.step g with
    | .continue s => run g fuel s
    | .finished => some none
    | .closed walk => some (some walk)

end Search

namespace JobGraph

/-- Enough moves for the whole search. -/
def searchBound (g : JobGraph) : Nat := 2 * g.size + g.edgeCount + 1

/-- A cycle of the graph, as a walk that ends where it starts. -/
def findCycle (g : JobGraph) : Option (List String) :=
  ((Search.start g).run g g.searchBound).join

/-- Refuse graphs with a cycle. -/
def checkAcyclic (g : JobGraph) : Except ConvertError Unit :=
  match g.findCycle with
  | some walk => .error (.cycleDetected walk)
  | none => .ok ()

/-- The graph of a pipeline, if it has one and no cycle is in it. -/
def validated (p : Pipeline) : Except ConvertError JobGraph := do
  let g ← ofPipeline p
  g.checkAcyclic
  return g

end JobGraph

end JobLoom
