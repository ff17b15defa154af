import JobLoom.Pool.Run

/-!
# What a move of a worker does

A worker makes a step, asks for a lookup, or gets a permit for one that waits in line. All of these
are told here in one way, so that nothing else has to look into them.

* **Phases.** `Phase.Goes` lists the ways in which a worker gets from one phase to the next.
* **Pools.** `Pool.Moved` says what a move does to the pool around the worker: it takes a request
  out of the queue when the worker receives it, counts what the worker has done, and tells a ticket
  when the worker answers it. The other workers, the size and the numbers stay as they are.
-/

namespace JobLoom

/-! ## Phases -/

/-- A lookup that is to be answered for a key. -/
def Lookup.IsOpenFor (l : Lookup) (key : String) : Prop :=
  l = .unasked (some key) ∨ l = .waiting key

namespace Phase

/-- The ways from a phase of a worker to the next one. -/
inductive Goes (s : Service) : Phase → Phase → Prop where
  /-- it is its turn to listen -/
  | listen : Goes s .idle .listening
  /-- it has taken a request out of the queue -/
  | receive (r : Request) : Goes s .listening (.received r)
  /-- there are no more requests -/
  | stop : Goes s .listening .stopped
  /-- the request is no longer counted as queued -/
  | dequeue (r : Request) : Goes s (.received r) (.dequeued r)
  /-- the request is counted as in progress -/
  | start (r : Request) : Goes s (.dequeued r) (.started r)
  /-- the request passes its checks -/
  | plan {r : Request} {plan : Plan} (passes : Plan.ofBytes r.source = .ok plan) :
      Goes s (.started r) (.asking r plan (plan.keys.map .unasked))
  /-- the request fails its checks -/
  | refuse {r : Request} {e : ConvertError} (fails : Plan.ofBytes r.source = .error e) :
      Goes s (.started r) (.converted r (.error e))
  /-- a job without a label needs no lookup -/
  | skip {r : Request} {plan : Plan} {lookups : List Lookup} {i : Nat}
      (place : lookups[i]? = some (.unasked none)) :
      Goes s (.asking r plan lookups) (.asking r plan (lookups.set i (.answered none)))
  /-- a lookup gets in line -/
  | wait {r : Request} {plan : Plan} {lookups : List Lookup} {i : Nat} {key : String}
      (place : lookups[i]? = some (.unasked (some key)))
      (gated : s.isGated s.converter.space key = true) :
      Goes s (.asking r plan lookups) (.asking r plan (lookups.set i (.waiting key)))
  /-- the store answers a lookup -/
  | hear {r : Request} {plan : Plan} {lookups : List Lookup} {i : Nat} {l : Lookup} {key : String}
      {a : Answer} (place : lookups[i]? = some l) (isOpen : l.IsOpenFor key)
      (reply : s.store s.converter.space key = .answer a) :
      Goes s (.asking r plan lookups) (.asking r plan (lookups.set i (.answered (some a))))
  /-- the store crashes in a lookup -/
  | crash {r : Request} {plan : Plan} {lookups : List Lookup} {i : Nat} {l : Lookup} {key : String}
      {text : String} (place : lookups[i]? = some l) (isOpen : l.IsOpenFor key)
      (reply : s.store s.converter.space key = .crash text) :
      Goes s (.asking r plan lookups) (.converted r (.error (crashError text)))
  /-- all lookups are answered -/
  | compose {r : Request} {plan : Plan} {lookups : List Lookup} {answers : List (Option Answer)}
      (complete : lookups.mapM Lookup.answer? = some answers) :
      Goes s (.asking r plan lookups) (.converted r
        (.ok ((plan.compose s.converter.defaults answers).render s.converter.format)))
  /-- the request is no longer counted as in progress -/
  | leave (r : Request) (x : Result) : Goes s (.converted r x) (.left r x)
  /-- the result is counted -/
  | count (r : Request) (x : Result) : Goes s (.left r x) (.counted r x)
  /-- the request is answered -/
  | reply (r : Request) (x : Result) : Goes s (.counted r x) .idle

/-- The request that a worker has just taken out of the queue. -/
def taken? : Phase → Option Request
  | .received r => some r
  | _ => none

/-- The answer that a worker gives next. -/
def answer? : Phase → Option (Request × Result)
  | .counted r x => some (r, x)
  | _ => none

/-- A worker gets a request from the queue, keeps it until it has answered it, and then has none. -/
theorem Goes.request?_eq {s : Service} {a b : Phase} (h : a.Goes s b) :
    a.request?.toList ++ b.taken?.toList =
      (a.answer?.map Prod.fst).toList ++ b.request?.toList := by
  cases h <;> rfl

end Phase

/-! ## Pools -/

namespace Pool

/-- A worker makes a move. -/
inductive Moves (s : Service) (p : Pool) (w : Nat) (q : Pool) : Prop where
  /-- a step of its own -/
  | step (h : p.work? s w = some q) : Moves s p w q
  /-- it asks for a lookup -/
  | ask (i : Nat) (h : p.ask? s w i = some q) : Moves s p w q
  /-- its lookup is the first in line and gets a permit -/
  | grant {i : Nat} {rest : List LineEntry} (first : p.line = ⟨w, i⟩ :: rest)
      (h : p.grant? s = some q) : Moves s p w q

/-- The tickets after a worker has left a phase. -/
def ticketsAfter (p : Pool) : Phase → List (Nat × TicketState)
  | .counted r x => (p.tell r.id (.ready x)).tickets
  | _ => p.tickets

/-- The counters after a worker has left a phase. -/
def statsAfter (p : Pool) : Phase → Stats
  | .received _ => { p.stats with queued := p.stats.queued - 1 }
  | .dequeued _ => { p.stats with inProgress := p.stats.inProgress + 1 }
  | .converted .. => { p.stats with inProgress := p.stats.inProgress - 1 }
  | .left _ x => p.stats.count x
  | _ => p.stats

/-- A worker has gone from one phase to another, and the pool has changed accordingly. -/
structure Moved (s : Service) (p : Pool) (w : Nat) (a b : Phase) (q : Pool) : Prop where
  /-- the worker was in the first phase -/
  phase_eq : p.workers[w]? = some a
  /-- the second phase follows on the first -/
  goes : a.Goes s b
  /-- it is in the second phase now -/
  workers_eq : q.workers = p.workers.set w b
  /-- the queue lacks what it has received -/
  queue_eq : p.queue = b.taken?.toList ++ q.queue
  /-- the tickets know what it has answered -/
  tickets_eq : q.tickets = p.ticketsAfter a
  /-- the counters know what it has done -/
  stats_eq : q.stats = p.statsAfter a
  /-- it ends only when nothing more can come -/
  ends : b = .stopped → p.queue = [] ∧ p.isOpen = false
  /-- the size stays -/
  size_eq : q.size = p.size
  /-- the next number stays -/
  nextId_eq : q.nextId = p.nextId
  /-- the pool stays open or closed -/
  isOpen_eq : q.isOpen = p.isOpen
  /-- the pool stays alive -/
  isAlive_eq : q.isAlive = p.isAlive

variable {s : Service} {p q : Pool} {w : Nat}

/-- A move that takes no request, tells no ticket and does not end the worker. -/
theorem moved_of_setPhase {a b : Phase} (permits : Nat) (line : List LineEntry)
    (ha : p.workers[w]? = some a) (hab : a.Goes s b) (hanswer : p.ticketsAfter a = p.tickets)
    (htaken : b.taken? = none) (hends : b ≠ .stopped) :
    Moved s p w a b
      ({ p with stats := p.statsAfter a, permits := permits, line := line }.setPhase w b) where
  phase_eq := ha
  goes := hab
  workers_eq := rfl
  queue_eq := by rw [htaken]; rfl
  tickets_eq := hanswer.symm
  stats_eq := rfl
  ends h := absurd h hends
  size_eq := rfl
  nextId_eq := rfl
  isOpen_eq := rfl
  isAlive_eq := rfl

theorem exists_moved_of_work (h : p.work? s w = some q) : ∃ a b, Moved s p w a b q := by
  unfold work? at h
  obtain ⟨a, ha, h⟩ := Option.bind_eq_some_iff.1 h
  cases a with
  | idle =>
    dsimp only at h
    split at h
    · cases h
    · cases h
      exact ⟨_, _, moved_of_setPhase _ _ ha .listen rfl rfl nofun⟩
  | listening =>
    dsimp only at h
    split at h
    · next r rest hq =>
      cases h
      exact ⟨_, _, ha, .receive r, rfl, hq, rfl, rfl, nofun, rfl, rfl, rfl, rfl⟩
    · next hq =>
      split at h
      · cases h
      · next ho =>
        cases h
        exact ⟨_, _, ha, .stop, rfl, rfl, rfl, rfl, fun _ => ⟨hq, by simpa using ho⟩, rfl, rfl, rfl,
          rfl⟩
  | received r =>
    cases h
    exact ⟨_, _, moved_of_setPhase _ _ ha (.dequeue r) rfl rfl nofun⟩
  | dequeued r =>
    cases h
    exact ⟨_, _, moved_of_setPhase _ _ ha (.start r) rfl rfl nofun⟩
  | started r =>
    dsimp only at h
    split at h
    · next plan hplan =>
      cases h
      exact ⟨_, _, moved_of_setPhase _ _ ha (.plan hplan) rfl rfl nofun⟩
    · next e he =>
      cases h
      exact ⟨_, _, moved_of_setPhase _ _ ha (.refuse he) rfl rfl nofun⟩
  | asking r plan lookups =>
    obtain ⟨answers, hanswers, h⟩ := Option.bind_eq_some_iff.1 h
    cases h
    exact ⟨_, _, moved_of_setPhase _ _ ha (.compose hanswers) rfl rfl nofun⟩
  | converted r x =>
    cases h
    exact ⟨_, _, moved_of_setPhase _ _ ha (.leave r x) rfl rfl nofun⟩
  | left r x =>
    cases h
    exact ⟨_, _, moved_of_setPhase _ _ ha (.count r x) rfl rfl nofun⟩
  | counted r x =>
    cases h
    exact ⟨_, _, ha, .reply r x, rfl, rfl, rfl, rfl, nofun, rfl, rfl, rfl, rfl⟩
  | stopped => cases h

theorem exists_moved_of_reply {r : Request} {plan : Plan} {lookups : List Lookup} {i : Nat}
    {l : Lookup} {key : String} (permits : Nat) (line : List LineEntry)
    (ha : p.workers[w]? = some (.asking r plan lookups)) (hl : lookups[i]? = some l)
    (hopen : l.IsOpenFor key) :
    ∃ b, Moved s p w (.asking r plan lookups) b
      ({ p with permits := permits, line := line }.reply s w r plan lookups i key) := by
  rw [reply]
  cases hr : s.store s.converter.space key with
  | answer a => exact ⟨_, moved_of_setPhase _ _ ha (.hear hl hopen hr) rfl rfl nofun⟩
  | crash text => exact ⟨_, moved_of_setPhase _ _ ha (.crash hl hopen hr) rfl rfl nofun⟩

theorem exists_moved_of_ask {i : Nat} (h : p.ask? s w i = some q) : ∃ a b, Moved s p w a b q := by
  unfold ask? at h
  split at h
  case h_2 => cases h
  case h_1 r plan lookups ha =>
    split at h
    · next hl =>
      cases h
      exact ⟨_, _, moved_of_setPhase _ _ ha (.skip hl) rfl rfl nofun⟩
    · next key hl =>
      split at h
      · cases h
        exact ⟨_, exists_moved_of_reply p.permits p.line ha hl (.inl rfl)⟩
      · next hgated =>
        split at h
        · cases h
          exact ⟨_, exists_moved_of_reply _ p.line ha hl (.inl rfl)⟩
        · cases h
          have hwait : (Phase.asking r plan lookups).Goes s _ := .wait hl (by simpa using hgated)
          exact ⟨_, _, moved_of_setPhase _ _ ha hwait rfl rfl nofun⟩
    · cases h

theorem exists_moved_of_grant {i : Nat} {rest : List LineEntry} (hline : p.line = ⟨w, i⟩ :: rest)
    (h : p.grant? s = some q) : ∃ a b, Moved s p w a b q := by
  simp only [grant?, hline] at h
  split at h
  · cases h
  · split at h
    · next r plan lookups ha =>
      split at h
      · next key hl =>
        cases h
        exact ⟨_, exists_moved_of_reply _ rest ha hl (.inr rfl)⟩
      · cases h
    · cases h

/-- **Every move of a worker is a way from its phase.** -/
theorem Moves.exists_moved (h : p.Moves s w q) : ∃ a b, Moved s p w a b q := by
  cases h with
  | step h => exact exists_moved_of_work h
  | ask i h => exact exists_moved_of_ask h
  | grant first h => exact exists_moved_of_grant first h

end Pool

end JobLoom
