import JobLoom.Pool.Basic

/-!
# Moves of a pool

What submitters, workers and the owner of a pool can do, one small step at a time. A step that is
not possible gives nothing.

* **Submitting** takes a number, counts the request as queued and then sends it; a request that
  finds the queue full is taken out of the count again and counted as rejected.
* **Working** goes from phase to phase. One worker at a time listens for a request; it ends when the
  queue is empty and nothing can come in any more.
* **Lookups** that are not gated are answered when asked. A gated one takes a permit if there is one
  that nobody waits for, and gets in line otherwise. A crash of the store ends the conversion, and
  takes its lookups out of the line.
-/

namespace JobLoom

/-! ## Submitting -/

/-- How far a submission has come. -/
inductive Submitting where
  /-- it has a number -/
  | claimed
  /-- it is counted as queued -/
  | announced
  /-- the queue was full -/
  | refused
  /-- the queue was full, and it is no longer counted as queued -/
  | withdrawn
  /-- the pool was gone -/
  | shut
  /-- it is over; the request is in the queue or it is not -/
  | ended (x : Except ConvertError Unit)

/-- A submission. -/
structure Submission where
  /-- the request -/
  request : Request
  /-- how far it has come -/
  stage : Submitting

namespace Pool

/-- Begin a submission: take a number. -/
def claim (p : Pool) (source : List UInt8) : Pool × Submission :=
  ({ p with nextId := p.nextId + 1 }, ⟨⟨p.nextId, source⟩, .claimed⟩)

/-- Put a request into the queue, unless it is full or the pool is gone. -/
def send (p : Pool) (r : Request) : Pool × Submitting :=
  if !p.isAlive then (p, .shut)
  else if p.queue.length < p.size.capacity then
    ({ p with queue := p.queue ++ [r], tickets := p.tickets ++ [(r.id, .pending)] },
      .ended (.ok ()))
  else (p, .refused)

/-- The next step of a submission. -/
def advance (p : Pool) (s : Submission) : Pool × Submission :=
  match s.stage with
  | .claimed =>
    ({ p with stats := { p.stats with queued := p.stats.queued + 1 } },
      { s with stage := .announced })
  | .announced =>
    let (p, stage) := p.send s.request
    (p, { s with stage := stage })
  | .refused =>
    ({ p with stats := { p.stats with queued := p.stats.queued - 1 } },
      { s with stage := .withdrawn })
  | .withdrawn =>
    ({ p with stats := { p.stats with rejected := p.stats.rejected + 1 } },
      { s with stage := .ended (.error (.queueFull p.size.capacity)) })
  | .shut =>
    ({ p with stats := { p.stats with queued := p.stats.queued - 1 } },
      { s with stage := .ended (.error closedError) })
  | .ended _ => (p, s)

/-! ## Working -/

/-- The next step of a worker, lookups aside. -/
def work? (s : Service) (p : Pool) (w : Nat) : Option Pool := do
  match ← p.workers[w]? with
  | .idle => if p.hasListener then none else some (p.setPhase w .listening)
  | .listening =>
    match p.queue with
    | r :: rest => some ({ p with queue := rest }.setPhase w (.received r))
    | [] => if p.isOpen then none else some (p.setPhase w .stopped)
  | .received r =>
    some ({ p with stats := { p.stats with queued := p.stats.queued - 1 } }.setPhase w
      (.dequeued r))
  | .dequeued r =>
    some ({ p with stats := { p.stats with inProgress := p.stats.inProgress + 1 } }.setPhase w
      (.started r))
  | .started r =>
    match Plan.ofBytes r.source with
    | .ok plan => some (p.setPhase w (.asking r plan (plan.keys.map .unasked)))
    | .error e => some (p.setPhase w (.converted r (.error e)))
  | .asking r plan lookups =>
    let answers ← lookups.mapM Lookup.answer?
    let c := s.converter
    some (p.setPhase w (.converted r (.ok ((plan.compose c.defaults answers).render c.format))))
  | .converted r x =>
    some ({ p with stats := { p.stats with inProgress := p.stats.inProgress - 1 } }.setPhase w
      (.left r x))
  | .left r x => some ({ p with stats := p.stats.count x }.setPhase w (.counted r x))
  | .counted r x => some ((p.tell r.id (.ready x)).setPhase w .idle)
  | .stopped => none

/-! ## Lookups -/

/-- Give a lookup of a worker what the store replies. -/
def reply (s : Service) (p : Pool) (w : Nat) (r : Request) (plan : Plan) (lookups : List Lookup)
    (i : Nat) (key : String) : Pool :=
  match s.store s.converter.space key with
  | .answer a => p.setPhase w (.asking r plan (lookups.set i (.answered (some a))))
  | .crash text =>
    { p with line := p.line.filter fun e => e.worker ≠ w }.setPhase w
      (.converted r (.error (crashError text)))

/-- Ask for a lookup of a worker. -/
def ask? (s : Service) (p : Pool) (w i : Nat) : Option Pool :=
  match p.workers[w]? with
  | some (.asking r plan lookups) =>
    match lookups[i]? with
    | some (.unasked none) => some (p.setPhase w (.asking r plan (lookups.set i (.answered none))))
    | some (.unasked (some key)) =>
      if !s.isGated s.converter.space key then some (p.reply s w r plan lookups i key)
      else if p.permits > 0 && p.line.isEmpty then
        some ({ p with permits := p.permits - 1 }.reply s w r plan lookups i key)
      else
        some ({ p with line := p.line ++ [LineEntry.mk w i] }.setPhase w
          (.asking r plan (lookups.set i (.waiting key))))
    | _ => none
  | _ => none

/-- Let the first lookup in line take a permit. -/
def grant? (s : Service) (p : Pool) : Option Pool :=
  if p.permits = 0 then none
  else match p.line with
    | [] => none
    | e :: rest =>
      match p.workers[e.worker]? with
      | some (.asking r plan lookups) =>
        match lookups[e.lookup]? with
        | some (.waiting key) =>
          some ({ p with permits := p.permits - 1, line := rest }.reply s e.worker r plan lookups
            e.lookup key)
        | _ => none
      | _ => none

/-! ## The owner -/

/-- Add permits. -/
def addPermits (p : Pool) (n : Nat) : Pool := { p with permits := p.permits + n }

/-- Use up the answer of a ticket, if there is one. -/
def take? (p : Pool) (id : Nat) : Option (Pool × Result) :=
  let rest := { p with tickets := p.tickets.filter fun e => e.1 ≠ id }
  match p.tickets.lookup id with
  | some (.ready x) => some (rest, x)
  | some .lost => some (rest, .error (lostError id))
  | _ => none

/-- A ticket has been given out and not been used or dropped. -/
def holdsTicket (p : Pool) (id : Nat) : Bool := (p.tickets.lookup id).isSome

/-- Drop a ticket. -/
def dropTicket (p : Pool) (id : Nat) : Pool :=
  { p with tickets := p.tickets.filter fun e => e.1 ≠ id }

/-- Begin to shut down: nothing comes in any more. -/
def close (p : Pool) : Pool := { p with isOpen := false }

/-- Destroy the workers, and with them the queue. What has been answered stays; nothing else will
be. -/
def destroy (p : Pool) : Pool :=
  let lose : TicketState → TicketState
    | .pending => .lost
    | t => t
  { p with
    queue := []
    workers := p.workers.map fun _ => .stopped
    line := []
    tickets := p.tickets.map fun e => (e.1, lose e.2)
    isAlive := false }

end Pool

end JobLoom
