import JobLoom.Proofs.Pool.Answer
import JobLoom.Proofs.Pool.Ticket

/-!
# Every request is answered, once and with its own answer

Whatever the callers, the workers and the owner do, and in whatever order they do it: the requests
are taken in the order in which they were accepted, each of them once; each is answered at most
once, with the result of its own conversion; and when no worker can move and no lookup is blocked,
all of them are answered.

* **Workers end** only when the owner shuts down and the queue is empty, so that there is always a
  worker for what is in the queue.
* **A worker with a request can move** unless one of its lookups is blocked.
-/

namespace JobLoom

namespace Workshop

/-! ## The workers are there -/

/-- The pool is alive, and its workers end when there is nothing left to do for them. -/
structure IsStaffed (v : Workshop) : Prop where
  /-- nobody has destroyed the workers -/
  isAlive : v.pool.isAlive = true
  /-- there is a worker -/
  workers_ne_nil : v.pool.workers ≠ []
  /-- a worker that has ended is not missed -/
  ended : .stopped ∈ v.pool.workers → v.pool.isOpen = false ∧ v.pool.queue = []
  /-- nothing is under way to a pool that is shut down -/
  closed : v.pool.isOpen = false → ∀ b ∈ v.submissions, b.isEnded = true

theorem isStaffed_opened {size : PoolSize} (h : 0 < size.workers) :
    (opened (.fresh size)).IsStaffed where
  isAlive := rfl
  workers_ne_nil := by
    intro hnil
    have hlength : (List.replicate size.workers Phase.idle).length = 0 := congrArg List.length hnil
    rw [List.length_replicate] at hlength
    omega
  ended hstopped := nomatch List.eq_of_mem_replicate hstopped
  closed := nofun

/-- A worker ends only when the queue is empty for good. -/
theorem IsStaffed.follow {s : Service} {v : Workshop} (h : v.IsStaffed) {w : Nat} {a b : Phase}
    {q : Pool} (hq : v.pool.Moved s w a b q) : (v.follow w q).IsStaffed where
  isAlive := hq.isAlive_eq.trans h.isAlive
  workers_ne_nil := by
    change q.workers ≠ []
    rw [hq.workers_eq, ne_eq, List.set_eq_nil_iff]
    exact h.workers_ne_nil
  ended := by
    intro hstopped
    change Phase.stopped ∈ q.workers at hstopped
    change q.isOpen = false ∧ q.queue = []
    rw [hq.workers_eq] at hstopped
    have hdone : v.pool.isOpen = false ∧ v.pool.queue = [] := by
      rcases List.mem_or_eq_of_mem_set hstopped with hold | hnew
      · exact h.ended hold
      · exact (hq.ends hnew.symm).symm
    have hqueue := hq.queue_eq
    rw [hdone.2] at hqueue
    exact ⟨hq.isOpen_eq.trans hdone.1, (List.append_eq_nil_iff.1 hqueue.symm).2⟩
  closed := by
    intro hclosed
    exact h.closed (hq.isOpen_eq.symm.trans hclosed)

/-- Every step leaves a worker for what is in the queue. -/
theorem IsStaffed.step {s : Service} {v v' : Workshop} (h : v.IsStaffed) (hs : v.Step s v') :
    v'.IsStaffed := by
  cases hs with
  | begin source isOpen =>
    refine ⟨h.isAlive, h.workers_ne_nil, h.ended, fun hclosed => ?_⟩
    exact nomatch isOpen.symm.trans hclosed
  | @advance i b next q place isUnderWay step =>
    have hq := Pool.advanced_of_advance isUnderWay step
    -- a submission is under way, so the pool is open and no worker has ended
    have hopen : v.pool.isOpen ≠ false := by
      intro hclosed
      have hended := h.closed hclosed b (List.mem_of_getElem? place)
      rw [isUnderWay] at hended
      cases hended
    refine ⟨hq.isAlive_eq.trans h.isAlive, ?_, ?_, ?_⟩
    · change q.workers ≠ []
      rw [hq.workers_eq]
      exact h.workers_ne_nil
    · intro hstopped
      change Phase.stopped ∈ q.workers at hstopped
      rw [hq.workers_eq] at hstopped
      exact absurd (h.ended hstopped).1 hopen
    · intro hclosed
      exact absurd (hq.isOpen_eq.symm.trans hclosed) hopen
  | move move =>
    obtain ⟨a, b, hq⟩ := move.exists_moved
    exact h.follow hq
  | permit n => exact ⟨h.isAlive, h.workers_ne_nil, h.ended, h.closed⟩
  | collect answer =>
    obtain ⟨rfl, -⟩ := Pool.take?_eq_some answer
    exact ⟨h.isAlive, h.workers_ne_nil, h.ended, h.closed⟩
  | drop isHeld => exact ⟨h.isAlive, h.workers_ne_nil, h.ended, h.closed⟩
  | close noneUnderWay =>
    exact ⟨h.isAlive, h.workers_ne_nil, fun hstopped => ⟨rfl, (h.ended hstopped).2⟩,
      fun _ => noneUnderWay⟩

end Workshop

/-! ## Who can move -/

/-- Either all lookups have an answer, or one of them has none. -/
theorem exists_answers_or_open (lookups : List Lookup) :
    (∃ answers, lookups.mapM Lookup.answer? = some answers) ∨
      ∃ (i : Nat) (l : Lookup), lookups[i]? = some l ∧ l.answer? = none := by
  induction lookups with
  | nil => exact .inl ⟨[], rfl⟩
  | cons l rest ih =>
    cases hl : l.answer? with
    | none => exact .inr ⟨0, l, rfl, hl⟩
    | some a =>
      rcases ih with ⟨answers, hanswers⟩ | ⟨i, l', hi, hl'⟩
      · refine .inl ⟨a :: answers, ?_⟩
        rw [List.mapM_cons, hl, hanswers]
        rfl
      · exact .inr ⟨i + 1, l', hi, hl'⟩

namespace Pool

variable {s : Service} {p : Pool} {w : Nat}

theorem exists_ask {r : Request} {plan : Plan} {lookups : List Lookup} {i : Nat}
    {key : Option String} (ha : p.workers[w]? = some (.asking r plan lookups))
    (hi : lookups[i]? = some (.unasked key)) : ∃ q, p.ask? s w i = some q := by
  simp only [ask?, ha, hi]
  cases key with
  | none => exact ⟨_, rfl⟩
  | some key =>
    dsimp only
    split
    · exact ⟨_, rfl⟩
    · split <;> exact ⟨_, rfl⟩

theorem exists_moves_of_isSome (h : (p.work? s w).isSome) : ∃ q, p.Moves s w q := by
  obtain ⟨q, hq⟩ := Option.isSome_iff_exists.1 h
  exact ⟨q, .step hq⟩

/-- A worker with a request can move, unless one of its lookups is blocked. -/
theorem exists_moves_of_request? {a : Phase} {r : Request} (ha : p.workers[w]? = some a)
    (hr : a.request? = some r)
    (hfree : ∀ plan lookups key, a = .asking r plan lookups → .waiting key ∉ lookups) :
    ∃ q, p.Moves s w q := by
  cases a with
  | idle => cases hr
  | listening => cases hr
  | stopped => cases hr
  | asking r' plan lookups =>
    cases hr
    -- it composes the manifest when it has all answers, and asks for one that it lacks otherwise
    rcases exists_answers_or_open lookups with ⟨answers, hanswers⟩ | ⟨i, l, hi, hl⟩
    · refine exists_moves_of_isSome ?_
      simp [work?, ha, hanswers]
    · cases l with
      | unasked key =>
        obtain ⟨q, hq⟩ := exists_ask ha hi
        exact ⟨q, .ask i hq⟩
      | waiting key => exact absurd (List.mem_of_getElem? hi) (hfree plan lookups key rfl)
      | answered answer => cases hl
  | started r' =>
    refine exists_moves_of_isSome ?_
    simp only [work?, ha, Option.bind_eq_bind, Option.bind_some]
    split <;> rfl
  | received r' | dequeued r' | converted r' x | left r' x | counted r' x =>
    refine exists_moves_of_isSome ?_
    simp [work?, ha]

/-- A worker that listens can move if there is a request. -/
theorem exists_moves_of_listening (ha : p.workers[w]? = some .listening) (hqueue : p.queue ≠ []) :
    ∃ q, p.Moves s w q := by
  refine exists_moves_of_isSome ?_
  obtain ⟨r, rest, hr⟩ := List.exists_cons_of_ne_nil hqueue
  simp [work?, ha, hr]

/-- A worker that waits for its turn to listen can move if nobody listens. -/
theorem exists_moves_of_idle (ha : p.workers[w]? = some .idle) (hnobody : p.hasListener = false) :
    ∃ q, p.Moves s w q := by
  refine exists_moves_of_isSome ?_
  simp [work?, ha, hnobody]

theorem hasListener_eq_false (h : .listening ∉ p.workers) : p.hasListener = false := by
  rw [hasListener, List.any_eq_false]
  intro a ha hl
  cases a <;> first | exact h ha | cases hl

/-- When no worker can move and no lookup is blocked, no worker has a request. -/
theorem request?_eq_none (hquiet : ∀ w q, ¬ p.Moves s w q)
    (hfree : ∀ r plan lookups key, .asking r plan lookups ∈ p.workers → .waiting key ∉ lookups)
    {a : Phase} (ha : a ∈ p.workers) : a.request? = none := by
  obtain ⟨w, hw⟩ := List.mem_iff_getElem?.1 ha
  cases hr : a.request? with
  | none => rfl
  | some r =>
    obtain ⟨q, hq⟩ := exists_moves_of_request? hw hr fun plan lookups key h => by
      cases h
      cases hr
      exact hfree r plan lookups key ha
    exact absurd hq (hquiet w q)

end Pool

/-! ## What comes of all requests -/

namespace Workshop

variable {s : Service} {v : Workshop}

/-- In a quiet state without blocked lookups no worker has a request. -/
theorem request?_eq_none (hquiet : v.IsQuiet s) (hfree : v.IsUnblocked) {a : Phase}
    (ha : a ∈ v.pool.workers) : a.request? = none := Pool.request?_eq_none hquiet hfree ha

/-- In a quiet state without blocked lookups the queue is empty. -/
theorem IsStaffed.queue_eq_nil (h : v.IsStaffed) (hquiet : v.IsQuiet s) (hfree : v.IsUnblocked) :
    v.pool.queue = [] := by
  by_contra hqueue
  -- nobody listens, since a listener would take the first request
  have hlistening : .listening ∉ v.pool.workers := by
    intro ha
    obtain ⟨w, hw⟩ := List.mem_iff_getElem?.1 ha
    obtain ⟨q, hq⟩ := Pool.exists_moves_of_listening (s := s) hw hqueue
    exact hquiet w q hq
  have hnobody := Pool.hasListener_eq_false hlistening
  -- so whoever is there has ended, and then the queue was empty
  obtain ⟨a, ha⟩ := List.exists_mem_of_ne_nil _ h.workers_ne_nil
  obtain ⟨w, hw⟩ := List.mem_iff_getElem?.1 ha
  have hnone := request?_eq_none hquiet hfree ha
  cases a with
  | idle =>
    obtain ⟨q, hq⟩ := Pool.exists_moves_of_idle (s := s) hw hnobody
    exact hquiet w q hq
  | listening => exact hlistening ha
  | stopped => exact hqueue (h.ended ha).2
  | received r | dequeued r | started r | asking r plan lookups => cases hnone
  | converted r x | left r x | counted r x => cases hnone

/-- In a quiet state without blocked lookups all accepted requests are answered. -/
theorem IsKept.exists_answer (h : v.IsKept) (hqueue : v.pool.queue = [])
    (hnone : ∀ a ∈ v.pool.workers, a.request? = none) {r : Request} (hr : r ∈ v.accepted) :
    ∃ x, (r, x) ∈ v.answered := by
  rw [h.accepted_eq, hqueue, List.append_nil, h.taken_perm.mem_iff] at hr
  rcases List.mem_append.1 hr with hanswered | hheld
  · obtain ⟨e, he, rfl⟩ := List.mem_map.1 hanswered
    exact ⟨e.2, he⟩
  · obtain ⟨a, ha, har⟩ := List.mem_filterMap.1 hheld
    rw [hnone a ha] at har
    cases har

/-- The requests of a workshop are treated as they should be. -/
structure IsFaithful (s : Service) (v : Workshop) : Prop where
  /-- the accepted requests are those of the submissions that were told so -/
  accepted_perm : v.accepted.Perm (v.submissions.filterMap Submission.accepted?)
  /-- no two of them share a number -/
  nodup : (v.accepted.map Request.id).Nodup
  /-- they are taken out of the queue in the order in which they were accepted -/
  accepted_eq : v.accepted = v.taken ++ v.pool.queue
  /-- what was taken is answered, or one worker has it -/
  taken_perm : v.taken.Perm (v.answered.map Prod.fst ++ v.pool.workers.filterMap Phase.request?)
  /-- none is answered twice -/
  answered_nodup : (v.answered.map fun e => e.1.id).Nodup
  /-- each answer is the result of the conversion of that very request -/
  answersTo : ∀ e ∈ v.answered, s.AnswersTo e.1.source e.2
  /-- the tickets are with the callers, used up or dropped -/
  tickets_perm : (v.accepted.map Request.id).Perm
    (v.pool.tickets.map Prod.fst ++ (v.collected.map Prod.fst ++ v.dropped))
  /-- a ticket tells the answer of its request as soon as there is one -/
  tickets : ∀ e ∈ v.pool.tickets, v.Tells e
  /-- what came out of a ticket is the answer of its request -/
  collected : ∀ e ∈ v.collected, ∃ a ∈ v.answered, a.1.id = e.1 ∧ a.2 = e.2
  /-- when no worker can move and no lookup is blocked, all of them are taken and answered -/
  complete : v.IsQuiet s → v.IsUnblocked →
    v.taken = v.accepted ∧ ∀ r ∈ v.accepted, ∃ x, (r, x) ∈ v.answered

/-- What holds of every reachable workshop. -/
structure Invariant (s : Service) (v : Workshop) : Prop where
  /-- the numbers -/
  isNumbered : v.IsNumbered
  /-- the places of the requests -/
  isKept : v.IsKept
  /-- the tickets -/
  isTold : v.IsTold
  /-- the answers -/
  isSound : v.IsSound s
  /-- the workers -/
  isStaffed : v.IsStaffed

/-- Every reachable workshop satisfies the invariant. -/
theorem invariant_of_reachable {size : PoolSize} (h : Reachable s size v) : v.Invariant s := by
  induction h with
  | start started =>
    obtain ⟨rfl, hworkers⟩ := Pool.start_eq_ok started
    exact ⟨isNumbered_opened size, isKept_opened size, isTold_opened size, isSound_opened size,
      isStaffed_opened hworkers⟩
  | step _ hs ih =>
    have hnumbered := ih.isNumbered.step hs
    exact ⟨hnumbered, ih.isKept.step ih.isNumbered hs, ih.isTold.step ih.isKept hnumbered hs,
      ih.isSound.step hs, ih.isStaffed.step hs⟩

/-- **Every request is answered once, and with its own answer.** Whatever order of steps has led to
a workshop, its requests are treated as they should be. -/
theorem isFaithful_of_reachable {size : PoolSize} (h : Reachable s size v) : v.IsFaithful s := by
  obtain ⟨hnumbered, hkept, htold, hsound, hstaffed⟩ := invariant_of_reachable h
  refine ⟨hnumbered.accepted_perm, hnumbered.nodup, hkept.accepted_eq, hkept.taken_perm, ?_,
    hsound.answered, hkept.tickets_perm, htold.tickets, htold.collected, ?_⟩
  case refine_1 =>
    -- the answered requests are among the accepted ones
    have hids := hnumbered.nodup
    rw [hkept.accepted_eq, List.map_append] at hids
    have htaken := (List.nodup_append.1 hids).1
    rw [(hkept.taken_perm.map Request.id).nodup_iff, List.map_append, List.map_map] at htaken
    exact (List.nodup_append.1 htaken).1
  case refine_2 =>
    intro hquiet hfree
    -- all requests have left the queue, and no worker holds one back
    have hqueue := hstaffed.queue_eq_nil hquiet hfree
    refine ⟨?_, fun r hr => ?_⟩
    · rw [hkept.accepted_eq, hqueue, List.append_nil]
    · exact hkept.exists_answer hqueue (fun a ha => request?_eq_none hquiet hfree ha) hr

/-- One worker with room for one request: the second submission is refused, the ticket of the first
is dropped while it is converted, and the owner shuts down. -/
theorem isFaithful_of_reachable_dropped :
    let s : Service := ⟨.standard, fun _ _ => .answer .missing, fun _ _ => false⟩
    ∃ v, Reachable s ⟨1, 1⟩ v ∧ v.answered = [(⟨1, []⟩, .error .emptySource)] ∧ v.dropped = [1] ∧
      v.pool.isStopped = true ∧ v.IsFaithful s := by
  intro s
  have h : Reachable s ⟨1, 1⟩ _ := .start rfl
  replace h := (h.step (.begin [] rfl)).step (.begin [] rfl)
  replace h := (h.step (.advance (i := 0) rfl rfl rfl)).step (.advance (i := 0) rfl rfl rfl)
  replace h := (h.step (.advance (i := 1) rfl rfl rfl)).step (.advance (i := 1) rfl rfl rfl)
  replace h := (h.step (.advance (i := 1) rfl rfl rfl)).step (.advance (i := 1) rfl rfl rfl)
  -- the worker listens, takes the request and counts it
  replace h := (h.step (.move (w := 0) (.step rfl))).step (.move (w := 0) (.step rfl))
  replace h := (h.step (.move (w := 0) (.step rfl))).step (.move (w := 0) (.step rfl))
  replace h := h.step (.drop (show Pool.holdsTicket _ 1 = true from rfl))
  replace h := h.step (.close (by decide))
  -- it converts the request, counts the result, answers, and ends
  replace h := (h.step (.move (w := 0) (.step rfl))).step (.move (w := 0) (.step rfl))
  replace h := (h.step (.move (w := 0) (.step rfl))).step (.move (w := 0) (.step rfl))
  replace h := (h.step (.move (w := 0) (.step rfl))).step (.move (w := 0) (.step rfl))
  exact ⟨_, h, rfl, rfl, rfl, isFaithful_of_reachable h⟩

end Workshop

end JobLoom
