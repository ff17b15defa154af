import Mathlib.Logic.Relation
import JobLoom.Proofs.Pool.Move

/-!
# A pool and all who use it

A workshop is a pool together with the submissions that are under way and a record of what has
happened so far. The callers, the workers and the owner act in any order, one small step at a time.

* **A submission** goes on in one of three ways: its request is accepted, or the queue is full, or the
  pool is gone. `Pool.Proceeds` lists the steps of all three with what becomes of the pool.
* **The record** tells which requests were accepted, taken and answered, in the order in which that
  happened, and what has become of the tickets.
* **The owner** may shut down when no submission is under way, since a submission keeps the pool
  from being given up. Nothing can be submitted from then on; tickets can still be used.
* **Reachable** is what some order of steps leads to, from a pool that has just been started.
-/

namespace JobLoom

namespace Submission

/-- The submission has come to its end. -/
def isEnded (b : Submission) : Bool :=
  match b.stage with
  | .ended _ => true
  | _ => false

/-- The request, if it was accepted. -/
def accepted? (b : Submission) : Option Request :=
  match b.stage with
  | .ended (.ok _) => some b.request
  | _ => none

/-- A submission that is under way was not accepted yet. -/
theorem accepted?_of_isEnded {b : Submission} (h : b.isEnded = false) : b.accepted? = none := by
  obtain ⟨r, stage⟩ := b
  cases stage <;> first | rfl | cases h

end Submission

/-- A pool and all who use it. -/
structure Workshop where
  /-- the pool -/
  pool : Pool
  /-- the submissions, in the order of their numbers -/
  submissions : List Submission
  /-- the requests that were put into the queue, in this order -/
  accepted : List Request
  /-- the requests that were taken out of the queue, in this order -/
  taken : List Request
  /-- the requests that were answered, with their answers -/
  answered : List (Request × Result)
  /-- what came out of the tickets that were used up -/
  collected : List (Nat × Result)
  /-- the tickets that were dropped -/
  dropped : List Nat

namespace Workshop

/-- A workshop in which nothing has happened. -/
def opened (p : Pool) : Workshop := ⟨p, [], [], [], [], [], []⟩

/-- A caller begins a submission. -/
def begin (v : Workshop) (source : List UInt8) : Workshop :=
  let (p, b) := v.pool.claim source
  { v with pool := p, submissions := v.submissions ++ [b] }

/-- A submission has made a step. -/
def advance (v : Workshop) (i : Nat) (q : Pool) (next : Submission) : Workshop :=
  { v with
    pool := q
    submissions := v.submissions.set i next
    accepted := v.accepted ++ next.accepted?.toList }

/-- A worker has made a move. -/
def follow (v : Workshop) (w : Nat) (q : Pool) : Workshop :=
  { v with
    pool := q
    taken := v.taken ++ (q.workers[w]?.bind Phase.taken?).toList
    answered := v.answered ++ (v.pool.workers[w]?.bind Phase.answer?).toList }

/-- A caller uses up a ticket. -/
def collect (v : Workshop) (id : Nat) (q : Pool) (x : Result) : Workshop :=
  { v with pool := q, collected := v.collected ++ [(id, x)] }

/-- A caller drops a ticket. -/
def drop (v : Workshop) (id : Nat) : Workshop :=
  { v with pool := v.pool.dropTicket id, dropped := v.dropped ++ [id] }

/-- What can happen next. -/
inductive Step (s : Service) (v : Workshop) : Workshop → Prop where
  /-- a submission begins -/
  | begin (source : List UInt8) (isOpen : v.pool.isOpen = true) : Step s v (v.begin source)
  /-- a submission goes on -/
  | advance {i : Nat} {b next : Submission} {q : Pool} (place : v.submissions[i]? = some b)
      (isUnderWay : b.isEnded = false) (step : v.pool.advance b = (q, next)) :
      Step s v (v.advance i q next)
  /-- a worker makes a move -/
  | move {w : Nat} {q : Pool} (move : v.pool.Moves s w q) : Step s v (v.follow w q)
  /-- lookups are allowed to go on -/
  | permit (n : Nat) : Step s v { v with pool := v.pool.addPermits n }
  /-- a ticket is used up -/
  | collect {id : Nat} {q : Pool} {x : Result} (answer : v.pool.take? id = some (q, x)) :
      Step s v (v.collect id q x)
  /-- a ticket is dropped -/
  | drop {id : Nat} (isHeld : v.pool.holdsTicket id = true) : Step s v (v.drop id)
  /-- the owner begins to shut down -/
  | close (noneUnderWay : ∀ b ∈ v.submissions, b.isEnded = true) :
      Step s v { v with pool := v.pool.close }

/-- What some order of steps leads to. -/
inductive Reachable (s : Service) (size : PoolSize) : Workshop → Prop where
  /-- the pool has just been started -/
  | start {p : Pool} (started : Pool.start size = .ok p) : Reachable s size (opened p)
  /-- one step more -/
  | step {v v' : Workshop} (before : Reachable s size v) (step : Step s v v') : Reachable s size v'

theorem Reachable.run {s : Service} {size : PoolSize} {v v' : Workshop} (h : Reachable s size v)
    (hrun : Relation.ReflTransGen (Step s) v v') : Reachable s size v' := by
  induction hrun with
  | refl => exact h
  | tail _ hs ih => exact ih.step hs

/-- No worker can move. -/
def IsQuiet (s : Service) (v : Workshop) : Prop := ∀ w q, ¬ v.pool.Moves s w q

/-- No lookup waits for a permit. -/
def IsUnblocked (v : Workshop) : Prop :=
  ∀ r plan lookups key, .asking r plan lookups ∈ v.pool.workers → .waiting key ∉ lookups

end Workshop

/-! ## What a move adds to the record -/

namespace Workshop

variable {s : Service} {v : Workshop} {w : Nat} {a b : Phase} {q : Pool}

theorem taken_follow (h : v.pool.Moved s w a b q) :
    (v.follow w q).taken = v.taken ++ b.taken?.toList := by
  have hw : w < v.pool.workers.length := (List.getElem?_eq_some_iff.1 h.phase_eq).1
  simp only [follow, h.workers_eq, List.getElem?_set_self hw, Option.bind_some]

theorem answered_follow (h : v.pool.Moved s w a b q) :
    (v.follow w q).answered = v.answered ++ a.answer?.toList := by
  simp only [follow, h.phase_eq, Option.bind_some]

end Workshop

/-! ## Sizes that pools can have -/

namespace PoolSize

variable {size : PoolSize}

/-- There can be a queue of this capacity and a list of these workers. -/
def Fits (size : PoolSize) : Prop := size.capacity ≤ maxCapacity ∧ size.workers ≤ maxWorkers

instance : Decidable size.Fits := inferInstanceAs (Decidable (_ ∧ _))

theorem check_eq_ok_iff : size.check = .ok () ↔ 0 < size.workers ∧ 0 < size.capacity := by
  unfold check
  split
  · next hworkers => exact iff_of_false nofun fun h => absurd hworkers (Nat.ne_of_gt h.1)
  · next hworkers =>
    split
    · next hcapacity => exact iff_of_false nofun fun h => absurd hcapacity (Nat.ne_of_gt h.2)
    · next hcapacity =>
      exact iff_of_true rfl ⟨Nat.pos_of_ne_zero hworkers, Nat.pos_of_ne_zero hcapacity⟩

theorem crash?_eq_none_iff : size.crash? = none ↔ size.Fits := by
  unfold crash? Fits
  split
  · next hcapacity => exact iff_of_false nofun fun h => absurd hcapacity (Nat.not_lt.2 h.1)
  · next hcapacity =>
    split
    · next hworkers => exact iff_of_false nofun fun h => absurd hworkers (Nat.not_lt.2 h.2)
    · next hworkers => exact iff_of_true rfl ⟨Nat.not_lt.1 hcapacity, Nat.not_lt.1 hworkers⟩

example : crash? ⟨2 ^ 60 - 1, 2 ^ 61 - 1⟩ = none ∧ crash? ⟨2 ^ 60, 1⟩ = some "capacity overflow" := by
  decide

end PoolSize

/-! ## What the owner and the callers do to the pool -/

namespace Pool

/-- Only a size that is checked and fits makes a pool, and then one with nothing in it. -/
theorem start_eq_ok_iff {size : PoolSize} {p : Pool} :
    start size = .ok p ↔ size.check = .ok () ∧ size.Fits ∧ fresh size = p := by
  rw [start, ← PoolSize.crash?_eq_none_iff]
  cases size.check with
  | error e => simp
  | ok u => cases size.crash? <;> simp

/-- A size that is checked and does not fit makes a crash. -/
theorem exists_start_eq_crashed {size : PoolSize} (h : size.check = .ok ()) (hfits : ¬ size.Fits) :
    ∃ text, size.crash? = some text ∧ start size = .error (.crashed text) := by
  rw [← PoolSize.crash?_eq_none_iff] at hfits
  obtain ⟨text, htext⟩ := Option.ne_none_iff_exists'.1 hfits
  refine ⟨text, htext, ?_⟩
  rw [start, h, htext]

/-- A pool starts with nothing in it, and with at least one worker. -/
theorem start_eq_ok {size : PoolSize} {p : Pool} (h : start size = .ok p) :
    p = fresh size ∧ 0 < size.workers := by
  obtain ⟨hcheck, -, rfl⟩ := start_eq_ok_iff.1 h
  exact ⟨rfl, (PoolSize.check_eq_ok_iff.1 hcheck).1⟩

/-- A ticket that is used up had something to tell, and is gone. -/
theorem take?_eq_some {p q : Pool} {id : Nat} {x : Result} (h : p.take? id = some (q, x)) :
    q = p.dropTicket id ∧ (p.tickets.lookup id = some (.ready x) ∨
      p.tickets.lookup id = some .lost ∧ x = .error (lostError id)) := by
  simp only [take?] at h
  split at h
  · next y hy =>
    cases h
    exact ⟨rfl, .inl hy⟩
  · next hy =>
    cases h
    exact ⟨rfl, .inr ⟨hy, rfl⟩⟩
  · cases h

theorem mem_tickets_of_lookup {p : Pool} {id : Nat} {t : TicketState}
    (h : p.tickets.lookup id = some t) : (id, t) ∈ p.tickets := by
  obtain ⟨before, rest, hsplit, -⟩ := List.lookup_eq_some_iff.1 h
  rw [hsplit]
  exact List.mem_append_right _ List.mem_cons_self

/-- A ticket that is held has its number in the table. -/
theorem mem_ids_of_holdsTicket {p : Pool} {id : Nat} (h : p.holdsTicket id = true) :
    id ∈ p.tickets.map Prod.fst := by
  obtain ⟨t, ht⟩ := Option.isSome_iff_exists.1 h
  exact List.mem_map.2 ⟨_, mem_tickets_of_lookup ht, rfl⟩

theorem mem_ids_of_take? {p q : Pool} {id : Nat} {x : Result} (h : p.take? id = some (q, x)) :
    id ∈ p.tickets.map Prod.fst := by
  obtain ⟨-, hx | ⟨hx, -⟩⟩ := take?_eq_some h
  · exact List.mem_map.2 ⟨_, mem_tickets_of_lookup hx, rfl⟩
  · exact List.mem_map.2 ⟨_, mem_tickets_of_lookup hx, rfl⟩

/-- The steps of a submission. -/
inductive Proceeds (p : Pool) (b : Submission) : Pool → Submission → Prop where
  /-- it is counted as queued -/
  | announce (stage : b.stage = .claimed) :
      Proceeds p b { p with stats := { p.stats with queued := p.stats.queued + 1 } }
        { b with stage := .announced }
  /-- its request gets into the queue, and there is a ticket for it -/
  | accept (stage : b.stage = .announced) (room : p.queue.length < p.size.capacity) :
      Proceeds p b
        { p with
          queue := p.queue ++ [b.request]
          tickets := p.tickets ++ [(b.request.id, .pending)] }
        { b with stage := .ended (.ok ()) }
  /-- it finds the queue full -/
  | refuse (stage : b.stage = .announced) (full : p.size.capacity ≤ p.queue.length) :
      Proceeds p b p { b with stage := .refused }
  /-- it is no longer counted as queued, as the queue was full -/
  | withdraw (stage : b.stage = .refused) :
      Proceeds p b { p with stats := { p.stats with queued := p.stats.queued - 1 } }
        { b with stage := .withdrawn }
  /-- it is counted as rejected, and told so -/
  | reject (stage : b.stage = .withdrawn) :
      Proceeds p b { p with stats := { p.stats with rejected := p.stats.rejected + 1 } }
        { b with stage := .ended (.error (.queueFull p.size.capacity)) }
  /-- it finds the pool gone -/
  | miss (stage : b.stage = .announced) (gone : p.isAlive = false) :
      Proceeds p b p { b with stage := .shut }
  /-- it is no longer counted as queued, as the pool was gone, and told so -/
  | leave (stage : b.stage = .shut) :
      Proceeds p b { p with stats := { p.stats with queued := p.stats.queued - 1 } }
        { b with stage := .ended (.error closedError) }

/-- **Every step of a submission that is under way is one of these.** -/
theorem proceeds_of_advance {p q : Pool} {b next : Submission} (h : b.isEnded = false) 
    (hstep : p.advance b = (q, next)) : p.Proceeds b q next := by
  obtain ⟨r, stage⟩ := b
  cases stage with
  | claimed =>
    cases hstep
    exact .announce rfl
  | announced =>
    simp only [advance, send] at hstep
    split at hstep
    · next hgone =>
      cases hstep
      exact .miss rfl (by simpa using hgone)
    · split at hstep
      · next hroom =>
        cases hstep
        exact .accept rfl hroom
      · next hfull =>
        cases hstep
        exact .refuse rfl (Nat.le_of_not_lt hfull)
  | refused =>
    cases hstep
    exact .withdraw rfl
  | withdrawn =>
    cases hstep
    exact .reject rfl
  | shut =>
    cases hstep
    exact .leave rfl
  | ended x => cases h

/-- A submission has made a step, and the pool has changed accordingly. -/
structure Advanced (p : Pool) (b : Submission) (q : Pool) (next : Submission) : Prop where
  /-- it is still about its request -/
  request_eq : next.request = b.request
  /-- the request is in the queue if it was accepted -/
  queue_eq : q.queue = p.queue ++ next.accepted?.toList
  /-- there is a ticket for it then -/
  tickets_eq : q.tickets = p.tickets ++ next.accepted?.toList.map fun r => (r.id, .pending)
  /-- the workers stay as they are -/
  workers_eq : q.workers = p.workers
  /-- the size stays -/
  size_eq : q.size = p.size
  /-- the next number stays -/
  nextId_eq : q.nextId = p.nextId
  /-- the pool stays open or closed -/
  isOpen_eq : q.isOpen = p.isOpen
  /-- the pool stays alive -/
  isAlive_eq : q.isAlive = p.isAlive

/-- A step that does not put the request into the queue. -/
theorem advanced_of_none {p : Pool} {b next : Submission} (stats : Stats)
    (hrequest : next.request = b.request) (hnone : next.accepted? = none) :
    Advanced p b { p with stats := stats } next where
  request_eq := hrequest
  queue_eq := by rw [hnone]; exact (List.append_nil _).symm
  tickets_eq := by rw [hnone]; exact (List.append_nil _).symm
  workers_eq := rfl
  size_eq := rfl
  nextId_eq := rfl
  isOpen_eq := rfl
  isAlive_eq := rfl

/-- What becomes of the pool in each of the steps. -/
theorem Proceeds.advanced {p q : Pool} {b next : Submission} (h : p.Proceeds b q next) :
    Advanced p b q next := by
  cases h with
  | accept stage room => exact ⟨rfl, rfl, rfl, rfl, rfl, rfl, rfl, rfl⟩
  | announce | refuse | withdraw | reject | miss | leave => exact advanced_of_none _ rfl rfl

/-- What a step of a submission that is under way does. -/
theorem advanced_of_advance {p q : Pool} {b next : Submission} (h : b.isEnded = false)
    (hstep : p.advance b = (q, next)) : Advanced p b q next :=
  (proceeds_of_advance h hstep).advanced

end Pool

end JobLoom
