import JobLoom.Pool.Move

/-!
# Running a pool

Whole runs, put together from moves.

* **A submission** that nobody interrupts.
* **Settling** lets the workers move until none can: lookups in line get their permits first, then
  the workers with a request move in order, each as far as it can, and then the others.
* **Work left.** Every move of a worker lowers the work that is left, so settling comes to an end.
-/

namespace JobLoom.Pool

/-! ## Submitting -/

/-- Go on with a submission for some steps. -/
def advanceBy : Nat → Pool × Submission → Pool × Submission
  | 0, x => x
  | n + 1, x => advanceBy n (x.1.advance x.2)

/-- Submit a workflow file. An accepted request has a ticket with its number. -/
def submit (p : Pool) (source : List UInt8) : Pool × Except ConvertError Nat :=
  let (p, s) := advanceBy 4 (p.claim source)
  match s.stage with
  | .ended (.error e) => (p, .error e)
  | _ => (p, .ok s.request.id)

/-! ## Work left -/

/-- How many lookups a request leads to. -/
def lookupCount (r : Request) : Nat :=
  match Plan.ofBytes r.source with
  | .ok plan => plan.keys.length
  | .error _ => 0

/-- How many moves a lookup may still take. -/
def lookupWork : Lookup → Nat
  | .unasked _ => 2
  | .waiting _ => 1
  | .answered _ => 0

/-- How many moves a worker may still make before it ends, requests in the queue aside. -/
def phaseWork : Phase → Nat
  | .idle => 2
  | .listening => 1
  | .received r => 9 + 2 * lookupCount r
  | .dequeued r => 8 + 2 * lookupCount r
  | .started r => 7 + 2 * lookupCount r
  | .asking _ _ lookups => 6 + lookups.foldr (fun l n => lookupWork l + n) 0
  | .converted .. => 5
  | .left .. => 4
  | .counted .. => 3
  | .stopped => 0

/-- How many moves all workers together may still make. -/
def workLeft (p : Pool) : Nat :=
  let begun := p.workers.foldr (fun w n => phaseWork w + n) 0
  p.queue.foldr (fun r n => 9 + 2 * lookupCount r + n) begun

/-! ## Settling -/

/-- The next move of a worker: a step, or a lookup that is still to be asked. -/
def moveOf? (s : Service) (p : Pool) (w : Nat) : Option Pool :=
  match p.work? s w with
  | some q => some q
  | none =>
    match p.workers[w]? with
    | some (.asking _ _ lookups) => (List.range lookups.length).findSome? fun i => p.ask? s w i
    | _ => none

/-- The workers in the order in which they move: those with a request come first. -/
def turns (p : Pool) : List Nat :=
  let isBusy (w : Nat) : Bool := (p.workers[w]?.bind Phase.request?).isSome
  let (busy, free) := (List.range p.workers.length).partition isBusy
  busy ++ free

/-- The next move of the pool. -/
def next? (s : Service) (p : Pool) : Option Pool :=
  match p.grant? s with
  | some q => some q
  | none => p.turns.findSome? fun w => p.moveOf? s w

/-- Make up to so many moves. -/
def settleBy (s : Service) : Nat → Pool → Pool
  | 0, p => p
  | n + 1, p =>
    match p.next? s with
    | some q => settleBy s n q
    | none => p

/-- Let the workers move until none can. -/
def settle (s : Service) (p : Pool) : Pool := settleBy s p.workLeft p

end JobLoom.Pool
