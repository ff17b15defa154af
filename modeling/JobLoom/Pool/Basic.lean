import JobLoom.Conversion
import JobLoom.Pool.Size

/-!
# Worker pools

A fixed number of workers share one queue of requests, first come first served. The queue has a
fixed capacity; a request that finds it full is refused at once. Every accepted request is answered
once, through its ticket.

* **Phases.** A worker takes a request, counts it as in progress, converts it, counts the result and
  answers. Each of these is a step of its own, so that a state between any two of them can be seen.
* **One listener.** The workers share the receiving end of the queue behind a lock: one of them
  listens for a request, and the others wait until it has one.
* **Lookups** of a conversion are asked for in any order. Some keys are gated: their lookups wait in
  line for a permit, over all conversions together.
* **Tickets** outlive the pool. A ticket may be dropped; the conversion goes on without it.
-/

namespace JobLoom

/-! ## What a pool is for -/

/-- What the workers of a pool convert with. -/
structure Service where
  /-- the converter -/
  converter : Converter
  /-- the store that labels are looked up in -/
  store : Store
  /-- the namespaces and keys whose lookups need a permit -/
  isGated : String → String → Bool

/-- A request to convert a workflow file. -/
structure Request where
  /-- its number -/
  id : Nat
  /-- the workflow file -/
  source : List UInt8
  deriving DecidableEq, Repr

/-- What a request is answered with. -/
abbrev Result := Except ConvertError Output

/-- The error of a conversion in which the store crashed. -/
def crashError (text : String) : ConvertError := .internal ("worker panicked: " ++ text)

/-- The error of a request whose pool is gone. -/
def lostError (id : Nat) : ConvertError :=
  .internal ("request " ++ toString id ++ " was dropped without a result")

/-- The error of a submission to a pool that is gone. -/
def closedError : ConvertError := .internal "worker pool is no longer running"

/-! ## Workers -/

/-- A lookup of a conversion. -/
inductive Lookup where
  /-- still to be asked -/
  | unasked (key : Option String)
  /-- in line for a permit -/
  | waiting (key : String)
  /-- answered, or not needed -/
  | answered (a : Option Answer)
  deriving DecidableEq

/-- The answer of a lookup that has one. -/
def Lookup.answer? : Lookup → Option (Option Answer)
  | .answered a => some a
  | _ => none

/-- What a worker is doing. -/
inductive Phase where
  /-- waiting until no other worker listens -/
  | idle
  /-- listening for a request -/
  | listening
  /-- it has taken a request out of the queue -/
  | received (r : Request)
  /-- the request is no longer counted as queued -/
  | dequeued (r : Request)
  /-- the request is counted as in progress -/
  | started (r : Request)
  /-- the request is checked, and its labels are looked up -/
  | asking (r : Request) (plan : Plan) (lookups : List Lookup)
  /-- the request has a result -/
  | converted (r : Request) (x : Result)
  /-- the request is no longer counted as in progress -/
  | left (r : Request) (x : Result)
  /-- the result is counted -/
  | counted (r : Request) (x : Result)
  /-- the worker has ended -/
  | stopped

namespace Phase

/-- The worker listens for a request. -/
def isListening : Phase → Bool
  | .listening => true
  | _ => false

/-- The request that the worker is to answer. -/
def request? : Phase → Option Request
  | .received r | .dequeued r | .started r | .asking r _ _ => some r
  | .converted r _ | .left r _ | .counted r _ => some r
  | .idle | .listening | .stopped => none

end Phase

/-! ## Pools -/

/-- How many requests are where. -/
structure Stats where
  /-- in the queue -/
  queued : Nat
  /-- being converted -/
  inProgress : Nat
  /-- converted -/
  completed : Nat
  /-- not convertible -/
  failed : Nat
  /-- refused, as the queue was full -/
  rejected : Nat
  deriving DecidableEq, Repr

/-- Count a result. -/
def Stats.count (s : Stats) : Result → Stats
  | .ok _ => { s with completed := s.completed + 1 }
  | .error _ => { s with failed := s.failed + 1 }

/-- The four ways in which a request can stand. -/
inductive RequestState where
  /-- in the queue -/
  | queued
  /-- being converted -/
  | inProgress
  /-- converted -/
  | completed
  /-- not convertible -/
  | failed
  deriving DecidableEq, Repr

/-- The name of a state. -/
def RequestState.name : RequestState → String
  | .queued => "queued"
  | .inProgress => "in_progress"
  | .completed => "completed"
  | .failed => "failed"

/-- What a ticket has to tell. -/
inductive TicketState where
  /-- there is no answer yet -/
  | pending
  /-- there is one -/
  | ready (x : Result)
  /-- there will be none -/
  | lost

/-- A place in the line for permits: a worker and one of its lookups. -/
structure LineEntry where
  /-- which worker -/
  worker : Nat
  /-- which lookup -/
  lookup : Nat
  deriving DecidableEq, Repr

/-- Why a pool is not started. -/
inductive StartFault where
  /-- its size is refused -/
  | refused (e : ConvertError)
  /-- its size is more than a pool can have, and starting it is a crash -/
  | crashed (text : String)
  deriving DecidableEq, Repr

/-- A pool. -/
structure Pool where
  /-- its size -/
  size : PoolSize
  /-- the requests that wait, oldest first -/
  queue : List Request
  /-- what each worker is doing -/
  workers : List Phase
  /-- permits that nobody has taken -/
  permits : Nat
  /-- the lookups that wait for a permit, oldest first -/
  line : List LineEntry
  /-- how many requests are where -/
  stats : Stats
  /-- the number of the next request -/
  nextId : Nat
  /-- the tickets that have been given out and not used -/
  tickets : List (Nat × TicketState)
  /-- requests can still come in -/
  isOpen : Bool
  /-- the workers have not been destroyed -/
  isAlive : Bool

namespace Pool

/-- A pool before its first request. -/
def fresh (size : PoolSize) : Pool where
  size := size
  queue := []
  workers := List.replicate size.workers .idle
  permits := 0
  line := []
  stats := ⟨0, 0, 0, 0, 0⟩
  nextId := 1
  tickets := []
  isOpen := true
  isAlive := true

/-- Start a pool. -/
def start (size : PoolSize) : Except StartFault Pool :=
  match size.check with
  | .error e => .error (.refused e)
  | .ok () =>
    match size.crash? with
    | some text => .error (.crashed text)
    | none => .ok (fresh size)

/-- Every worker has ended. -/
def isStopped (p : Pool) : Bool :=
  p.workers.all fun w =>
    match w with
    | .stopped => true
    | _ => false

/-- Some worker listens for a request. -/
def hasListener (p : Pool) : Bool := p.workers.any Phase.isListening

/-- Let a worker do something else. -/
def setPhase (p : Pool) (w : Nat) (phase : Phase) : Pool :=
  { p with workers := p.workers.set w phase }

/-- Put what a ticket has to tell, if it has not been dropped. -/
def tell (p : Pool) (id : Nat) (t : TicketState) : Pool :=
  { p with tickets := p.tickets.map fun e => if e.1 = id then (id, t) else e }

end Pool

end JobLoom
