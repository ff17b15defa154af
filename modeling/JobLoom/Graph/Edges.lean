import JobLoom.Pipeline.Basic
import JobLoom.Error

/-!
# The edges of one job

What the job graph takes from a job: the jobs that it needs, each once in the order of their first
mention, its guard, and whether the jobs after it go on when it fails.
-/

namespace JobLoom

/-- Keep the first of equal texts, leaving out those already seen. -/
def firstMentions (seen : List String) : List String → List String
  | [] => []
  | id :: rest =>
    if seen.contains id then firstMentions seen rest
    else id :: firstMentions (id :: seen) rest

/-- The ids without repetition, in the order of their first mention. -/
def normalizeNeeds (ids : List String) : List String := firstMentions [] ids

/-- The edges and the guard of one task. -/
structure TaskEdges where
  /-- the jobs that have to end before it, without repetition -/
  dependencies : List String
  /-- the guard expression; it may be empty -/
  guard : String
  /-- the jobs after it go on when it fails -/
  continueOnFailed : Bool
  deriving DecidableEq, Repr

/-- The edges of a job without needs or guard. -/
def TaskEdges.empty : TaskEdges := ⟨[], "", false⟩

/-- The edges of a job, if it needs only known ones; otherwise the first unknown one is reported. -/
def Job.edges (id : String) (j : Job) (isKnown : String → Bool) : Except ConvertError TaskEdges :=
  let needs := normalizeNeeds j.needsList
  match needs.find? fun n => !isKnown n with
  | some missing => .error (.unknownDependency id missing)
  | none => .ok ⟨needs, j.guard, j.continueOnError⟩

end JobLoom
