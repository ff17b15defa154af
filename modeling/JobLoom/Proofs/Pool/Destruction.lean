import JobLoom.Proofs.Pool.Line

/-!
# What is left when the workers are destroyed

The workers and the queue can be gone at any moment, whatever the workers were doing. The callers
still have their tickets, and the counters are still there.

* **Tickets.** What has been answered is still told. All other tickets tell that their requests are
  lost, so that every accepted request has an outcome.
* **Submissions** that begin later find the pool gone, and change no counter.
* **Counters.** Nobody takes a request that was lost out of the count. What was counted as queued and
  as in progress stays so, though nothing is, and no lost request is counted as failed. So the counters
  agree with the outcomes exactly if there was nothing left to do but to give answers that had been
  counted as errors.
-/

namespace JobLoom

open Relation (ReflTransGen)

namespace Submission

/-- The submission finds the pool gone, or will. -/
def IsTurnedAway (b : Submission) : Prop :=
  b.stage = .claimed ∨ b.stage = .announced ∨ b.stage = .shut ∨
    b.stage = .ended (.error closedError)

/-- A submission that is turned away is not rejected. -/
theorem IsTurnedAway.isRejected_eq {b : Submission} (h : b.IsTurnedAway) : b.isRejected = false := by
  unfold isRejected
  rcases h with h | h | h | h <;> simp [h, closedError]

/-- A submission that is over is not counted as queued. -/
theorem isAnnounced_of_isEnded {b : Submission} (h : b.isEnded = true) : b.isAnnounced = false := by
  obtain ⟨r, stage⟩ := b
  cases stage with
  | ended x => rfl
  | claimed | withdrawn => rfl
  | announced | refused | shut => cases h

end Submission

/-- When as many elements have the narrower of two properties as the wider one, all that have the wider
one have both. -/
theorem forall_of_countP_eq {α : Type} {f g : α → Bool} {l : List α}
    (hfg : ∀ a, f a = true → g a = true) (h : l.countP f = l.countP g) :
    ∀ a ∈ l, g a = true → f a = true := by
  have hall : (l.filter g).countP f = (l.filter g).length := by
    rw [List.countP_filter, ← List.countP_eq_length_filter, ← h]
    refine List.countP_congr fun a _ => ?_
    simpa using hfg a
  exact fun a ha hga => List.countP_eq_length.1 hall a (List.mem_filter.2 ⟨ha, hga⟩)

namespace Phase

/-- The answer that the worker gives next is of some kind. -/
def answers (a : Phase) (f : Result → Bool) : Bool := (a.answer?.map fun e => f e.2).getD false

theorem countP_answer? (f : Result → Bool) (ws : List Phase) :
    ((ws.filterMap answer?).countP fun e => f e.2) = ws.countP (answers · f) := by
  rw [List.countP_filterMap]
  rfl

/-- A worker that gives an answer next has a request. -/
theorem isSome_request?_of_answers (a : Phase) {f : Result → Bool} (h : a.answers f = true) :
    (a.request?).isSome = true := by
  cases a <;> first | rfl | cases h

/-- A worker that answers with an error next has counted it. -/
theorem exists_of_answers_error {a : Phase} (h : (a.answers fun x => !x.isOk) = true) {r : Request}
    (hr : a.request? = some r) : ∃ e, a = .counted r (.error e) := by
  cases a with
  | counted r' x =>
    cases hr
    cases x with
    | error e => exact ⟨e, rfl⟩
    | ok x => cases h
  | _ => cases h

/-- A worker that has no request, or has counted an error as its answer, adds nothing to the other
counts. -/
theorem of_failed {a : Phase} (h : ∀ r, a.request? = some r → ∃ e, a = .counted r (.error e)) :
    a.taken? = none ∧ a.isInProgress = false ∧ a.answers Except.isOk = false ∧
      (a.answers fun x => !x.isOk) = (a.request?).isSome := by
  cases hr : a.request? with
  | some r =>
    obtain ⟨e, rfl⟩ := h r hr
    exact ⟨rfl, rfl, rfl, rfl⟩
  | none => cases a <;> first | exact ⟨rfl, rfl, rfl, rfl⟩ | cases hr

end Phase

namespace Pool

variable {s : Service} {p q : Pool} {b next : Submission}

/-- When all workers have ended, none can move. -/
theorem isQuiet_of_stopped (h : ∀ a ∈ p.workers, a = .stopped) : p.IsQuiet s := by
  intro w q hmove
  obtain ⟨a, b, hq⟩ := hmove.exists_moved
  have hgoes := hq.goes
  rw [h a (List.mem_of_getElem? hq.phase_eq)] at hgoes
  cases hgoes

/-- A pool that is gone accepts nothing, and turns away what comes. -/
theorem advance_of_gone (hgone : p.isAlive = false) (hstep : p.advance b = (q, next)) :
    (b.isEnded = false → next.accepted? = none) ∧ (b.IsTurnedAway → next.IsTurnedAway) := by
  obtain ⟨r, stage⟩ := b
  cases stage with
  | announced =>
    have hsend : p.send r = (p, .shut) := by simp [send, hgone]
    simp only [advance, hsend] at hstep
    cases hstep
    exact ⟨fun _ => rfl, fun _ => .inr (.inr (.inl rfl))⟩
  | claimed =>
    cases hstep
    exact ⟨fun _ => rfl, fun _ => .inr (.inl rfl)⟩
  | shut =>
    cases hstep
    exact ⟨fun _ => rfl, fun _ => .inr (.inr (.inr rfl))⟩
  | refused | withdrawn =>
    cases hstep
    exact ⟨fun _ => rfl, fun h => by rcases h with h | h | h | h <;> cases h⟩
  | ended x =>
    cases hstep
    exact ⟨fun h => (by cases h), id⟩

/-- A pool that is gone does not look at its queue and its workers. -/
theorem advance_restored (hgone : p.isAlive = false) (rs : List Request) (ws : List Phase) :
    { p with queue := rs, workers := ws }.advance b =
      ({ (p.advance b).1 with queue := rs, workers := ws }, (p.advance b).2) := by
  obtain ⟨r, stage⟩ := b
  cases stage with
  | announced => simp [advance, send, hgone]
  | claimed | refused | withdrawn | shut | ended x => rfl

/-- Nor do the tickets. -/
theorem take?_restored (p : Pool) (id : Nat) (rs : List Request) (ws : List Phase) :
    { p with queue := rs, workers := ws }.take? id =
      (p.take? id).map fun y => ({ y.1 with queue := rs, workers := ws }, y.2) := by
  simp only [take?]
  split <;> rfl

/-- A submission in one go to a pool that is gone only takes a number. -/
theorem submit_of_gone (hgone : p.isAlive = false) (source : List UInt8) :
    p.submit source = ({ p with nextId := p.nextId + 1 }, .error closedError) := by
  simp [submit, advanceBy, claim, advance, send, hgone]

end Pool

namespace Workshop

variable {s : Service} {size : PoolSize} {v v' v'' : Workshop}

/-! ## Outcomes -/

/-- The workers are destroyed. -/
def destroyed (v : Workshop) : Workshop := { v with pool := v.pool.destroy }

/-- What becomes of a request when the workers are destroyed: it keeps its answer, or it is lost. -/
def outcome (v : Workshop) (r : Request) : Result :=
  match v.answered.find? fun a => a.1 = r with
  | some a => a.2
  | none => .error (lostError r.id)

/-- The requests that were accepted and not answered. -/
def unanswered (v : Workshop) : List Request :=
  v.pool.workers.filterMap Phase.request? ++ v.pool.queue

/-- Every accepted request is answered or not. -/
theorem IsKept.accepted_perm (h : v.IsKept) :
    v.accepted.Perm (v.answered.map Prod.fst ++ v.unanswered) := by
  rw [h.accepted_eq, unanswered, ← List.append_assoc]
  exact h.taken_perm.append_right _

/-- No request is answered twice, and none is answered and unanswered. -/
theorem IsKept.nodup_requests (h : v.IsKept) (hv : v.IsNumbered) :
    (v.answered.map Prod.fst ++ v.unanswered).Nodup :=
  h.accepted_perm.nodup_iff.1 (List.Nodup.of_map _ hv.nodup)

/-- A request that was answered keeps its answer. -/
theorem IsKept.outcome_of_answered (h : v.IsKept) (hv : v.IsNumbered) {a : Request × Result}
    (ha : a ∈ v.answered) : v.outcome a.1 = a.2 := by
  have hnodup := (List.nodup_append.1 (h.nodup_requests hv)).1
  unfold outcome
  split
  · next e he =>
    have hfirst : e.1 = a.1 := by simpa using List.find?_some he
    rw [List.inj_on_of_nodup_map hnodup (List.mem_of_find?_eq_some he) ha hfirst]
  · next hnone => simpa using List.find?_eq_none.1 hnone a ha

/-- A request that was not answered is lost. -/
theorem outcome_of_not_answered {r : Request} (h : ∀ a ∈ v.answered, a.1 ≠ r) :
    v.outcome r = .error (lostError r.id) := by
  have hnone : (v.answered.find? fun a => a.1 = r) = none :=
    List.find?_eq_none.2 fun a ha => by simpa using h a ha
  rw [outcome, hnone]

/-- The outcomes of all accepted requests: the answers, and one error for each other request. -/
theorem IsKept.outcomes_perm (h : v.IsKept) (hv : v.IsNumbered) :
    (v.accepted.map v.outcome).Perm (v.answered.map Prod.snd ++
      v.unanswered.map fun r => .error (lostError r.id)) := by
  have hsplit := h.accepted_perm.map v.outcome
  rw [List.map_append, List.map_map] at hsplit
  have hanswered : v.answered.map (v.outcome ∘ Prod.fst) = v.answered.map Prod.snd :=
    List.map_congr_left fun a ha => h.outcome_of_answered hv ha
  have hlost : v.unanswered.map v.outcome = v.unanswered.map fun r => .error (lostError r.id) := by
    refine List.map_congr_left fun r hr => outcome_of_not_answered fun a ha har => ?_
    exact (List.nodup_append.1 (h.nodup_requests hv)).2.2 a.1 (List.mem_map_of_mem ha) r hr har
  rwa [hanswered, hlost] at hsplit

/-! ## After the workers were destroyed -/

/-- A later state with the queue and the workers as they were, as if nobody had destroyed them. -/
def restored (v v' : Workshop) : Workshop :=
  { v' with pool := { v'.pool with queue := v.pool.queue, workers := v.pool.workers } }

/-- What a ticket has to tell is the outcome of its request. -/
def TellsOutcome (v : Workshop) (e : Nat × TicketState) : Prop :=
  ∃ r ∈ v.accepted, r.id = e.1 ∧
    (e.2 = .ready (v.outcome r) ∨ e.2 = .lost ∧ v.outcome r = .error (lostError r.id))

/-- What holds in a state that comes after the one in which the workers were destroyed. -/
structure Aftermath (v v' : Workshop) : Prop where
  /-- the pool is gone -/
  isAlive_eq : v'.pool.isAlive = false
  /-- no worker is left -/
  workers_eq : ∀ a ∈ v'.pool.workers, a = .stopped
  /-- nothing has been accepted since -/
  accepted_eq : v'.accepted = v.accepted
  /-- nothing has been answered since -/
  answered_eq : v'.answered = v.answered
  /-- submissions still get their numbers -/
  isNumbered : v'.IsNumbered
  /-- the tickets are still where they were -/
  isKept : (v.restored v').IsKept
  /-- the counters still count what was there -/
  isBalanced : (v.restored v').IsBalanced
  /-- the tickets that are held tell the outcomes -/
  tickets : ∀ e ∈ v'.pool.tickets, v.TellsOutcome e
  /-- so did those that were used up -/
  collected : ∀ e ∈ v'.collected, ∃ r ∈ v.accepted, r.id = e.1 ∧ e.2 = v.outcome r
  /-- submissions that began since are turned away -/
  later : ∀ i b, v.submissions.length ≤ i → v'.submissions[i]? = some b → b.IsTurnedAway

/-- When the workers are destroyed, their requests and those in the queue are lost. -/
theorem aftermath_destroyed (h : v.Invariant s) (hbalanced : v.IsBalanced) :
    v.Aftermath v.destroyed := by
  obtain ⟨hnumbered, hkept, htold, -, -⟩ := h
  have houtcome {a : Request × Result} (ha : a ∈ v.answered) : v.outcome a.1 = a.2 :=
    hkept.outcome_of_answered hnumbered ha
  constructor
  case isAlive_eq => rfl
  case workers_eq =>
    intro a ha
    obtain ⟨-, -, rfl⟩ := List.mem_map.1 ha
    rfl
  case accepted_eq => rfl
  case answered_eq => rfl
  case isNumbered => exact ⟨hnumbered.ids_eq, hnumbered.nextId_eq, hnumbered.accepted_perm⟩
  case isKept =>
    refine ⟨hkept.accepted_eq, hkept.taken_perm, ?_⟩
    have hids : v.pool.destroy.tickets.map Prod.fst = v.pool.tickets.map Prod.fst := by
      rw [Pool.destroy, List.map_map]
      rfl
    change (v.accepted.map Request.id).Perm (v.pool.destroy.tickets.map Prod.fst ++ _)
    rw [hids]
    exact hkept.tickets_perm
  case isBalanced =>
    exact ⟨hbalanced.queued_eq, hbalanced.inProgress_eq, hbalanced.completed_eq,
      hbalanced.failed_eq, hbalanced.rejected_eq⟩
  case tickets =>
    intro e he
    obtain ⟨e, he', rfl⟩ := List.mem_map.1 he
    rcases htold.tickets e he' with ⟨hpending, hnone⟩ | ⟨a, ha, hid, hready⟩
    · have hid : e.1 ∈ v.accepted.map Request.id :=
        hkept.tickets_perm.mem_iff.2 (List.mem_append_left _ (List.mem_map_of_mem he'))
      obtain ⟨r, hr, hrid⟩ := List.mem_map.1 hid
      refine ⟨r, hr, hrid, .inr ⟨?_, outcome_of_not_answered fun a ha har => ?_⟩⟩
      · simp only [hpending]
      · exact hnone a ha (har ▸ hrid)
    · refine ⟨a.1, hkept.mem_accepted ha, hid, .inl ?_⟩
      simp only [hready, houtcome ha]
  case collected =>
    intro e he
    obtain ⟨a, ha, hid, hx⟩ := htold.collected e he
    exact ⟨a.1, hkept.mem_accepted ha, hid, hx ▸ (houtcome ha).symm⟩
  case later =>
    intro i b hi hb
    exact absurd (List.getElem?_eq_some_iff.1 hb).1 (Nat.not_lt.2 hi)

namespace Aftermath

/-- The last submissions are turned away still when one more begins. -/
theorem begin (h : v.Aftermath v') (source : List UInt8) : v.Aftermath (v'.begin source) where
  isAlive_eq := h.isAlive_eq
  workers_eq := h.workers_eq
  accepted_eq := h.accepted_eq
  answered_eq := h.answered_eq
  isNumbered := h.isNumbered.begin source
  isKept := ⟨h.isKept.accepted_eq, h.isKept.taken_perm, h.isKept.tickets_perm⟩
  isBalanced := by
    refine ⟨h.isBalanced.queued_eq.trans ?_, h.isBalanced.inProgress_eq, h.isBalanced.completed_eq,
      h.isBalanced.failed_eq, h.isBalanced.rejected_eq.trans ?_⟩
    · change _ + List.countP _ v'.submissions = _ + List.countP _ (v'.submissions ++ _)
      rw [List.countP_append]
      rfl
    · change List.countP _ v'.submissions = List.countP _ (v'.submissions ++ _)
      rw [List.countP_append]
      rfl
  tickets := h.tickets
  collected := h.collected
  later i b hi hb := by
    change (v'.submissions ++ [_])[i]? = some b at hb
    rw [List.getElem?_append] at hb
    split at hb
    · exact h.later i b hi hb
    · cases List.mem_singleton.1 (List.mem_of_getElem? hb)
      exact .inl rfl

/-- A submission that goes on changes nothing but the counters. -/
theorem advance (h : v.Aftermath v') {i : Nat} {b next : Submission} {q : Pool}
    (hb : v'.submissions[i]? = some b) (hunder : b.isEnded = false)
    (hstep : v'.pool.advance b = (q, next)) : v.Aftermath (v'.advance i q next) := by
  obtain ⟨hnone, hturned⟩ := Pool.advance_of_gone h.isAlive_eq hstep
  have hq := Pool.advanced_of_advance hunder hstep
  have hrestored : (v.restored v').pool.advance b =
      ({ q with queue := v.pool.queue, workers := v.pool.workers }, next) := by
    rw [restored, Pool.advance_restored h.isAlive_eq, hstep]
  constructor
  case isAlive_eq => exact hq.isAlive_eq.trans h.isAlive_eq
  case workers_eq =>
    change ∀ a ∈ q.workers, a = .stopped
    rw [hq.workers_eq]
    exact h.workers_eq
  case accepted_eq =>
    change v'.accepted ++ next.accepted?.toList = v.accepted
    rw [hnone hunder, h.accepted_eq]
    exact List.append_nil _
  case answered_eq => exact h.answered_eq
  case isNumbered => exact h.isNumbered.advance hb hunder hq
  case isKept => exact h.isKept.advance (Pool.advanced_of_advance hunder hrestored)
  case isBalanced => exact h.isBalanced.advance hb (Pool.proceeds_of_advance hunder hrestored)
  case tickets =>
    change ∀ e ∈ q.tickets, v.TellsOutcome e
    rw [hq.tickets_eq, hnone hunder]
    intro e he
    exact h.tickets e (by simpa using he)
  case collected => exact h.collected
  case later =>
    intro j c hj hc
    change (v'.submissions.set i next)[j]? = some c at hc
    by_cases hij : i = j
    · subst hij
      rw [List.getElem?_set_self (List.getElem?_eq_some_iff.1 hb).1] at hc
      cases hc
      exact hturned (h.later i b hj hb)
    · rw [List.getElem?_set_ne hij] at hc
      exact h.later j c hj hc

theorem collect (h : v.Aftermath v') {id : Nat} {q : Pool} {x : Result}
    (hx : v'.pool.take? id = some (q, x)) : v.Aftermath (v'.collect id q x) := by
  have hrestored : (v.restored v').pool.take? id =
      some ({ q with queue := v.pool.queue, workers := v.pool.workers }, x) := by
    rw [restored, Pool.take?_restored, hx]
    rfl
  have hnumbered : (v.restored v').IsNumbered :=
    ⟨h.isNumbered.ids_eq, h.isNumbered.nextId_eq, h.isNumbered.accepted_perm⟩
  have hkept := h.isKept.collect hnumbered hrestored
  obtain ⟨rfl, hticket⟩ := Pool.take?_eq_some hx
  refine ⟨h.isAlive_eq, h.workers_eq, h.accepted_eq, h.answered_eq,
    ⟨h.isNumbered.ids_eq, h.isNumbered.nextId_eq, h.isNumbered.accepted_perm⟩, hkept,
    ⟨h.isBalanced.queued_eq, h.isBalanced.inProgress_eq, h.isBalanced.completed_eq,
      h.isBalanced.failed_eq, h.isBalanced.rejected_eq⟩,
    fun e he => h.tickets e (List.mem_filter.1 he).1, fun e he => ?_, h.later⟩
  rcases List.mem_append.1 he with he | he
  · exact h.collected e he
  · cases List.mem_singleton.1 he
    rcases hticket with hready | ⟨hlost, rfl⟩
    · obtain ⟨r, hr, hid, htells⟩ := h.tickets _ (Pool.mem_tickets_of_lookup hready)
      rcases htells with htells | ⟨htells, -⟩
      · exact ⟨r, hr, hid, TicketState.ready.inj htells⟩
      · cases htells
    · obtain ⟨r, hr, hid, htells⟩ := h.tickets _ (Pool.mem_tickets_of_lookup hlost)
      rcases htells with htells | ⟨-, hlost⟩
      · cases htells
      · exact ⟨r, hr, hid, by rw [hlost, hid]⟩

/-- Every step that is possible without workers keeps what is left. -/
theorem step (h : v.Aftermath v') (hs : v'.Step s v'') : v.Aftermath v'' := by
  have hnumbered := h.isNumbered
  have hbalanced := h.isBalanced
  cases hs with
  | begin source isOpen => exact h.begin source
  | advance place isUnderWay step => exact h.advance place isUnderWay step
  | move move => exact absurd move (Pool.isQuiet_of_stopped h.workers_eq _ _)
  | collect answer => exact h.collect answer
  | drop isHeld =>
    have hkept := h.isKept.drop
      ⟨hnumbered.ids_eq, hnumbered.nextId_eq, hnumbered.accepted_perm⟩ isHeld
    exact ⟨h.isAlive_eq, h.workers_eq, h.accepted_eq, h.answered_eq,
      ⟨hnumbered.ids_eq, hnumbered.nextId_eq, hnumbered.accepted_perm⟩, hkept,
      ⟨hbalanced.queued_eq, hbalanced.inProgress_eq, hbalanced.completed_eq, hbalanced.failed_eq,
        hbalanced.rejected_eq⟩,
      fun e he => h.tickets e (List.mem_filter.1 he).1, h.collected, h.later⟩
  | permit n | close noneUnderWay =>
    exact ⟨h.isAlive_eq, h.workers_eq, h.accepted_eq, h.answered_eq,
      ⟨hnumbered.ids_eq, hnumbered.nextId_eq, hnumbered.accepted_perm⟩,
      ⟨h.isKept.accepted_eq, h.isKept.taken_perm, h.isKept.tickets_perm⟩,
      ⟨hbalanced.queued_eq, hbalanced.inProgress_eq, hbalanced.completed_eq, hbalanced.failed_eq,
        hbalanced.rejected_eq⟩, h.tickets, h.collected, h.later⟩

end Aftermath

/-- What is left stays left, whatever the callers and the owner do. -/
theorem aftermath_of_reachable (h : Reachable s size v)
    (hrun : ReflTransGen (Step s) v.destroyed v') : v.Aftermath v' := by
  induction hrun with
  | refl => exact aftermath_destroyed (invariant_of_reachable h) (isBalanced_of_reachable h)
  | tail _ hs ih => exact ih.step hs

/-! ## What the counters show -/

/-- The counters agree with the outcomes of all accepted requests. -/
structure AgreesWith (v v' : Workshop) : Prop where
  /-- nothing is counted as queued -/
  queued_eq : v'.pool.stats.queued = 0
  /-- nothing is counted as in progress -/
  inProgress_eq : v'.pool.stats.inProgress = 0
  /-- completed are the requests whose outcome is a manifest -/
  completed_eq : v'.pool.stats.completed = (v.accepted.map v.outcome).countP Except.isOk
  /-- failed are those whose outcome is an error -/
  failed_eq : v'.pool.stats.failed = (v.accepted.map v.outcome).countP fun x => !x.isOk

/-- Nothing is left to do but to give answers that are counted as errors. -/
def IsAllButTold (v : Workshop) : Prop :=
  v.pool.queue = [] ∧
    ∀ a ∈ v.pool.workers, ∀ r, a.request? = some r → ∃ e, a = .counted r (.error e)

/-- The requests with a manifest as their outcome are those that were answered with one. -/
theorem IsKept.countP_isOk (h : v.IsKept) (hv : v.IsNumbered) :
    (v.accepted.map v.outcome).countP Except.isOk = v.answered.countP fun e => e.2.isOk := by
  have hlost : (v.unanswered.map fun r => (.error (lostError r.id) : Result)).countP
      Except.isOk = 0 := by
    rw [List.countP_map]
    exact List.countP_eq_zero.2 fun r _ => nofun
  rw [(h.outcomes_perm hv).countP_eq, List.countP_append, hlost, List.countP_map]
  rfl

/-- The requests with an error as their outcome are those that were answered with one, and those that
were not answered. -/
theorem IsKept.countP_error (h : v.IsKept) (hv : v.IsNumbered) :
    ((v.accepted.map v.outcome).countP fun x => !x.isOk) =
      (v.answered.countP fun e => !e.2.isOk) + v.unanswered.length := by
  have hlost : ((v.unanswered.map fun r => (.error (lostError r.id) : Result)).countP
      fun x => !x.isOk) = v.unanswered.length := by
    rw [List.countP_map]
    exact List.countP_eq_length.2 fun r _ => rfl
  rw [(h.outcomes_perm hv).countP_eq, List.countP_append, hlost, List.countP_map]
  rfl

/-- What is counted when no submission is under way. -/
theorem Aftermath.counters_eq (h : v.Aftermath v') (hended : ∀ b ∈ v'.submissions, b.isEnded = true) :
    v'.pool.stats.queued = v.pool.queue.length + (v.pool.workers.filterMap Phase.taken?).length ∧
      v'.pool.stats.inProgress = v.pool.workers.countP Phase.isInProgress ∧
      v'.pool.stats.completed = v.answers.countP (fun e => e.2.isOk) ∧
      v'.pool.stats.failed = v.answers.countP (fun e => !e.2.isOk) ∧
      v'.pool.stats.rejected = v'.submissions.countP Submission.isRejected := by
  have hannounced : v'.submissions.countP Submission.isAnnounced = 0 :=
    List.countP_eq_zero.2 fun b hb => by simp [Submission.isAnnounced_of_isEnded (hended b hb)]
  have hanswers : (v.restored v').answers = v.answers := by
    rw [answers, answers, restored, h.answered_eq]
  refine ⟨?_, h.isBalanced.inProgress_eq, ?_, ?_, h.isBalanced.rejected_eq⟩
  · have hqueued := h.isBalanced.queued_eq
    change v'.pool.stats.queued = _ + _ + v'.submissions.countP Submission.isAnnounced at hqueued
    rwa [hannounced] at hqueued
  · rw [← hanswers]
    exact h.isBalanced.completed_eq
  · rw [← hanswers]
    exact h.isBalanced.failed_eq

/-- **The counters agree with the outcomes exactly if all was counted.** -/
theorem Aftermath.agreesWith_iff (h : v.Aftermath v') (hkept : v.IsKept) (hv : v.IsNumbered)
    (hended : ∀ b ∈ v'.submissions, b.isEnded = true) : v.AgreesWith v' ↔ v.IsAllButTold := by
  obtain ⟨hqueued, hprogress, hcompleted, hfailed, -⟩ := h.counters_eq hended
  have hok := hkept.countP_isOk hv
  have herror := hkept.countP_error hv
  rw [unanswered, List.length_append, List.length_filterMap_eq_countP] at herror
  rw [answers, List.countP_append, Phase.countP_answer? Except.isOk] at hcompleted
  rw [answers, List.countP_append, Phase.countP_answer? fun x => !x.isOk] at hfailed
  rw [List.length_filterMap_eq_countP] at hqueued
  constructor
  · rintro ⟨hqueued', -, -, hfailed'⟩
    have hqueue : v.pool.queue = [] := List.length_eq_zero_iff.1 (by omega)
    rw [hqueue] at herror
    -- as many workers have counted a failure as have a request, so these are the same workers
    have hsame : v.pool.workers.countP (Phase.answers · fun x => !x.isOk) =
        v.pool.workers.countP fun a => a.request?.isSome := by
      rw [List.length_nil] at herror
      omega
    refine ⟨hqueue, fun a ha r hr => ?_⟩
    have hsome : a.request?.isSome = true := hr ▸ rfl
    exact Phase.exists_of_answers_error (forall_of_countP_eq
      (fun a ha => a.isSome_request?_of_answers ha) hsame a ha hsome) hr
  · rintro ⟨hqueue, hall⟩
    have hworkers (a : Phase) (ha : a ∈ v.pool.workers) := Phase.of_failed (hall a ha)
    have htaken : (v.pool.workers.countP fun a => a.taken?.isSome) = 0 :=
      List.countP_eq_zero.2 fun a ha => by simp [(hworkers a ha).1]
    have hbusy : v.pool.workers.countP Phase.isInProgress = 0 :=
      List.countP_eq_zero.2 fun a ha => by simp [(hworkers a ha).2.1]
    have hnone : v.pool.workers.countP (Phase.answers · Except.isOk) = 0 :=
      List.countP_eq_zero.2 fun a ha => by simp [(hworkers a ha).2.2.1]
    have hsame : v.pool.workers.countP (Phase.answers · fun x => !x.isOk) =
        v.pool.workers.countP fun a => a.request?.isSome :=
      List.countP_congr fun a ha => by simp [(hworkers a ha).2.2.2]
    rw [hqueue] at hqueued herror
    rw [List.length_nil] at hqueued herror
    constructor <;> omega

/-! ## What the callers still have -/

/-- What holds in a state that comes after the one in which the workers were destroyed, for those who
use the pool. -/
structure Outlasts (s : Service) (v v' : Workshop) : Prop where
  /-- nothing is accepted any more -/
  accepted_eq : v'.accepted = v.accepted
  /-- nothing is answered any more -/
  answered_eq : v'.answered = v.answered
  /-- a request that was answered keeps its answer, which is the result of its conversion -/
  answers : ∀ a ∈ v.answered, v.outcome a.1 = a.2 ∧ s.AnswersTo a.1.source a.2
  /-- every other accepted request is lost, and its error tells which request it was -/
  lost : ∀ r ∈ v.accepted, (∀ a ∈ v.answered, a.1 ≠ r) → v.outcome r = .error (lostError r.id)
  /-- the tickets are with the callers, used up or dropped -/
  tickets_perm : (v'.accepted.map Request.id).Perm
    (v'.pool.tickets.map Prod.fst ++ (v'.collected.map Prod.fst ++ v'.dropped))
  /-- a ticket that is held tells the outcome of its request -/
  take : ∀ id, v'.pool.holdsTicket id = true → ∃ r ∈ v.accepted, r.id = id ∧
    v'.pool.take? id = some (v'.pool.dropTicket id, v.outcome r)
  /-- so did all that were used up -/
  collected : ∀ e ∈ v'.collected, ∃ r ∈ v.accepted, r.id = e.1 ∧ e.2 = v.outcome r
  /-- a submission that began since is turned away -/
  later : ∀ i b, v.submissions.length ≤ i → v'.submissions[i]? = some b → b.IsTurnedAway
  /-- one that nobody interrupts takes a number, and nothing else changes -/
  submit_eq : ∀ source, v'.pool.submit source =
    ({ v'.pool with nextId := v'.pool.nextId + 1 }, .error closedError)
  /-- when no submission is under way, then or now, all counters are as they were -/
  stats_eq : (∀ b ∈ v.submissions, b.isEnded = true) → (∀ b ∈ v'.submissions, b.isEnded = true) →
    v'.pool.stats = v.pool.stats
  /-- they agree with the outcomes exactly if all was counted -/
  agreesWith_iff : (∀ b ∈ v'.submissions, b.isEnded = true) → (v.AgreesWith v' ↔ v.IsAllButTold)

/-- A ticket that is held can be used up, and tells the outcome of its request. -/
theorem Aftermath.take (h : v.Aftermath v') {id : Nat} (hid : v'.pool.holdsTicket id = true) :
    ∃ r ∈ v.accepted, r.id = id ∧
      v'.pool.take? id = some (v'.pool.dropTicket id, v.outcome r) := by
  obtain ⟨t, ht⟩ := Option.isSome_iff_exists.1 hid
  obtain ⟨r, hr, hrid, htells⟩ := h.tickets _ (Pool.mem_tickets_of_lookup ht)
  refine ⟨r, hr, hrid, ?_⟩
  rcases htells with hready | ⟨hlost, houtcome⟩
  · cases hready
    simp only [Pool.take?, ht]
    rfl
  · cases hlost
    simp only [Pool.take?, ht, houtcome, hrid]
    rfl

/-- Submissions that are turned away leave the counters as they were. -/
theorem Aftermath.stats_eq (h : v.Aftermath v') (hbalanced : v.IsBalanced)
    (hrun : ReflTransGen (Step s) v.destroyed v') (hbefore : ∀ b ∈ v.submissions, b.isEnded = true)
    (hended : ∀ b ∈ v'.submissions, b.isEnded = true) : v'.pool.stats = v.pool.stats := by
  obtain ⟨hqueued, hprogress, hcompleted, hfailed, hrejected⟩ := h.counters_eq hended
  have hannounced : v.submissions.countP Submission.isAnnounced = 0 :=
    List.countP_eq_zero.2 fun b hb => by simp [Submission.isAnnounced_of_isEnded (hbefore b hb)]
  have hqueued' := hbalanced.queued_eq
  rw [hannounced, Nat.add_zero, ← hqueued] at hqueued'
  -- no submission that began since is rejected
  obtain ⟨new, hnew⟩ := exists_new hrun hbefore
  have hnone : new.countP Submission.isRejected = 0 := by
    refine List.countP_eq_zero.2 fun b hb => ?_
    obtain ⟨i, hi⟩ := List.mem_iff_getElem?.1 hb
    have hlast : v'.submissions[v.submissions.length + i]? = some b := by
      rw [hnew]
      change (v.submissions ++ new)[_]? = _
      rw [List.getElem?_append_right (Nat.le_add_right _ _), Nat.add_sub_cancel_left, hi]
    simp [(h.later _ b (Nat.le_add_right _ _) hlast).isRejected_eq]
  have hrejected' := hbalanced.rejected_eq
  rw [hnew, List.countP_append, hnone, Nat.add_zero] at hrejected
  change _ = v.submissions.countP Submission.isRejected at hrejected
  rw [← hrejected] at hrejected'
  have hprogress' := hbalanced.inProgress_eq.trans hprogress.symm
  have hcompleted' := hbalanced.completed_eq.trans hcompleted.symm
  have hfailed' := hbalanced.failed_eq.trans hfailed.symm
  cases hstats : v'.pool.stats
  cases hstats' : v.pool.stats
  simp_all

/-- **What outlasts the workers.** Whatever order of steps has led to a workshop whose workers are then
destroyed, and whatever the callers and the owner do after that: answers that were given are still
delivered, all other tickets tell that their requests are lost, and later submissions are turned away
and change no counter. The counters agree with the callers exactly if nothing was under way that had
not been counted as failed. -/
theorem outlasts_of_reachable (h : Reachable s size v)
    (hrun : ReflTransGen (Step s) v.destroyed v') : v.Outlasts s v' := by
  obtain ⟨hnumbered, hkept, -, hsound, -⟩ := invariant_of_reachable h
  have hafter := aftermath_of_reachable h hrun
  constructor
  case accepted_eq => exact hafter.accepted_eq
  case answered_eq => exact hafter.answered_eq
  case answers => exact fun a ha => ⟨hkept.outcome_of_answered hnumbered ha, hsound.answered a ha⟩
  case lost => exact fun r _ hnone => outcome_of_not_answered hnone
  case tickets_perm => exact hafter.isKept.tickets_perm
  case take => exact fun id hid => hafter.take hid
  case collected => exact hafter.collected
  case later => exact hafter.later
  case submit_eq => exact Pool.submit_of_gone hafter.isAlive_eq
  case stats_eq => exact hafter.stats_eq (isBalanced_of_reachable h) hrun
  case agreesWith_iff => exact hafter.agreesWith_iff hkept hnumbered

/-- One worker that has answered its only request when it is destroyed: the ticket tells the answer,
a later submission finds the pool gone, and the counters agree with that. -/
theorem outlasts_of_reachable_idle :
    let s : Service := ⟨.standard, fun _ _ => .answer .missing, fun _ _ => false⟩
    ∃ v v', Reachable s ⟨1, 1⟩ v ∧ ReflTransGen (Step s) v.destroyed v' ∧ v.Outlasts s v' ∧
      v'.collected = [(1, .error .emptySource)] ∧ v.AgreesWith v' ∧
      v'.submissions.map Submission.stage = [.ended (.ok ()), .ended (.error closedError)] := by
  intro s
  have h : Reachable s ⟨1, 1⟩ _ := .start rfl
  replace h := h.step (.begin [] rfl)
  replace h := (h.step (.advance (i := 0) rfl rfl rfl)).step (.advance (i := 0) rfl rfl rfl)
  -- the worker listens, takes the request and counts it
  replace h := (h.step (.move (w := 0) (.step rfl))).step (.move (w := 0) (.step rfl))
  replace h := (h.step (.move (w := 0) (.step rfl))).step (.move (w := 0) (.step rfl))
  -- it converts the request, counts the result, and answers
  replace h := (h.step (.move (w := 0) (.step rfl))).step (.move (w := 0) (.step rfl))
  replace h := (h.step (.move (w := 0) (.step rfl))).step (.move (w := 0) (.step rfl))
  have hstart (v : Workshop) (_ : Reachable s ⟨1, 1⟩ v) :
      ReflTransGen (Step s) v.destroyed v.destroyed := .refl
  have hrun := hstart _ h
  replace hrun := (hrun.tail (@Step.collect s _ 1 _ _ rfl)).tail (.begin [] rfl)
  replace hrun := hrun.tail (.advance (i := 1) rfl rfl rfl)
  replace hrun := hrun.tail (.advance (i := 1) rfl rfl rfl)
  replace hrun := hrun.tail (.advance (i := 1) rfl rfl rfl)
  have houtlasts := outlasts_of_reachable h hrun
  refine ⟨_, _, h, hrun, houtlasts, rfl, (houtlasts.agreesWith_iff ?_).2 ⟨rfl, ?_⟩, rfl⟩
  · exact List.forall_mem_cons.2 ⟨rfl, List.forall_mem_singleton.2 rfl⟩
  · intro a ha r hr
    cases List.mem_singleton.1 ha
    cases hr

/-- One worker that waits for a permit, and one request in the queue, when the workers are destroyed:
both tickets tell that their requests are lost, but one is counted as queued and one as in progress,
and none as failed. -/
theorem lost_requests_stay_counted :
    let s : Service := ⟨.standard, fun _ _ => .answer .missing, fun _ _ => true⟩
    ∃ v v', Reachable s ⟨1, 4⟩ v ∧ ReflTransGen (Step s) v.destroyed v' ∧
      v'.accepted.map Request.id = [1, 2] ∧
      v'.collected = [(1, .error (lostError 1)), (2, .error (lostError 2))] ∧
      v'.pool.stats = ⟨1, 1, 0, 0, 0⟩ ∧ ¬ v.AgreesWith v' := by
  intro s
  obtain ⟨r, plan, hid, h⟩ := exists_reachable_heldUp 3 rfl
  replace h := h.step (.begin [] rfl)
  replace h := (h.step (.advance (i := 1) rfl rfl rfl)).step (.advance (i := 1) rfl rfl rfl)
  have hstart (v : Workshop) (_ : Reachable s ⟨1, 4⟩ v) :
      ReflTransGen (Step s) v.destroyed v.destroyed := .refl
  have hrun := hstart _ h
  replace hrun := (hrun.tail (@Step.collect s _ 1 _ _ rfl)).tail (@Step.collect s _ 2 _ _ rfl)
  refine ⟨_, _, h, hrun, ?_, rfl, rfl, fun hagrees => ?_⟩
  · change [r.id, 2] = [1, 2]
    rw [hid]
  · exact Nat.one_ne_zero hagrees.queued_eq

end Workshop

end JobLoom
