import JobLoom.Pool.Run

/-!
# Taking turns

Who submits to a pool and who works in it run side by side. What the workers do in the meantime is
told by two functions, so that everything that is said about all of them holds whatever the workers
are up to.
-/

namespace JobLoom

/-- How far the workers of a pool get while somebody uses it. -/
structure Turns where
  /-- what they do before a submission -/
  beforeSubmission : Pool → Pool
  /-- what they do until a request has its answer -/
  untilAnswer : Nat → Pool → Pool

namespace Turns

/-- The workers move only while somebody waits for an answer. -/
def lazy (s : Service) : Turns := ⟨id, fun _ p => p.settle s⟩

/-- Submit a workflow file. -/
def submit (t : Turns) (p : Pool) (source : List UInt8) : Pool × Except ConvertError Nat :=
  (t.beforeSubmission p).submit source

/-- Wait for the answer of a request. -/
def await (t : Turns) (p : Pool) (id : Nat) : Pool × Result :=
  let p := t.untilAnswer id p
  (p.take? id).getD (p, .error (lostError id))

end Turns

end JobLoom
