import JobLoom.Proofs.Pool.Line

/-!
# Shutting down loses nothing

The owner may begin to shut down in any state: with requests in the queue, with workers anywhere
between two of their steps, with lookups that wait for permits.

* **Nothing comes in** any more, and what has been accepted is answered, with a worker, or in the
  queue still, whatever happens.
* **A worker ends** only when the queue is empty and nothing can come in.
* **When all workers have ended** every accepted request has been answered, with the result of its own
  conversion.
* **Nothing but a permit** can hold up the workers. With permits for all lookups that may still need
  one they end, whatever the order of their moves.
-/

namespace JobLoom

open Relation (ReflTransGen)

namespace Workshop

variable {s : Service} {size : PoolSize} {v v' v'' : Workshop}

/-! ## After the pool was closed -/

/-- Nothing comes into a pool that is closed, and it stays closed. -/
theorem Step.of_closed (hs : v.Step s v') (hstaffed : v.IsStaffed)
    (hclosed : v.pool.isOpen = false) : v'.pool.isOpen = false ∧ v'.accepted = v.accepted := by
  cases hs with
  | begin source isOpen => exact nomatch isOpen.symm.trans hclosed
  | advance place isUnderWay step =>
    have hended := hstaffed.closed hclosed _ (List.mem_of_getElem? place)
    exact nomatch isUnderWay.symm.trans hended
  | move move =>
    obtain ⟨a, b, hq⟩ := move.exists_moved
    exact ⟨hq.isOpen_eq.trans hclosed, rfl⟩
  | collect answer =>
    obtain ⟨rfl, -⟩ := Pool.take?_eq_some answer
    exact ⟨hclosed, rfl⟩
  | permit n => exact ⟨hclosed, rfl⟩
  | drop isHeld => exact ⟨hclosed, rfl⟩
  | close noneUnderWay => exact ⟨rfl, rfl⟩

/-- A run that begins in a closed pool takes nothing in. -/
theorem accepted_of_closed (h : Reachable s size v) (hclosed : v.pool.isOpen = false)
    (hrun : ReflTransGen (Step s) v v') : v'.pool.isOpen = false ∧ v'.accepted = v.accepted := by
  induction hrun with
  | refl => exact ⟨hclosed, rfl⟩
  | @tail v₁ v₂ hbefore hstep ih =>
    have hstaffed := (invariant_of_reachable (h.run hbefore)).isStaffed
    obtain ⟨hclosed', haccepted⟩ := hstep.of_closed hstaffed ih.1
    exact ⟨hclosed', haccepted.trans ih.2⟩

/-! ## When all workers have ended -/

/-- All requests are done with. -/
structure IsDone (s : Service) (v : Workshop) : Prop where
  /-- none is in the queue -/
  queue_eq : v.pool.queue = []
  /-- none is with a worker -/
  workers_eq : ∀ a ∈ v.pool.workers, a = .stopped
  /-- every accepted request was answered, once -/
  answered_perm : (v.answered.map Prod.fst).Perm v.accepted
  /-- each answer is the result of the conversion of that very request -/
  answersTo : ∀ e ∈ v.answered, s.AnswersTo e.1.source e.2
  /-- the tickets that are held tell the answers -/
  tickets : ∀ e ∈ v.pool.tickets, ∃ a ∈ v.answered, a.1.id = e.1 ∧ e.2 = .ready a.2
  /-- so did those that were used up -/
  collected : ∀ e ∈ v.collected, ∃ a ∈ v.answered, a.1.id = e.1 ∧ a.2 = e.2

/-- All workers of a pool that is stopped have ended. -/
theorem eq_stopped_of_isStopped {p : Pool} (h : p.isStopped = true) : ∀ a ∈ p.workers, a = .stopped := by
  intro a ha
  have hstopped := List.all_eq_true.1 h a ha
  cases a <;> first | rfl | cases hstopped

/-- **When all workers have ended, all requests are done with.** -/
theorem Invariant.isDone (h : v.Invariant s) (hstopped : v.pool.isStopped = true) : v.IsDone s := by
  have hworkers := eq_stopped_of_isStopped hstopped
  obtain ⟨a, ha⟩ := List.exists_mem_of_ne_nil _ h.isStaffed.workers_ne_nil
  have hqueue : v.pool.queue = [] := (h.isStaffed.ended (hworkers a ha ▸ ha)).2
  have hnone : v.pool.workers.filterMap Phase.request? = [] :=
    List.filterMap_eq_nil_iff.2 fun a ha => by rw [hworkers a ha]; rfl
  have hperm : (v.answered.map Prod.fst).Perm v.accepted := by
    have htaken := h.isKept.taken_perm
    rw [hnone, List.append_nil] at htaken
    rw [h.isKept.accepted_eq, hqueue, List.append_nil]
    exact htaken.symm
  refine ⟨hqueue, hworkers, hperm, h.isSound.answered, fun e he => ?_, h.isTold.collected⟩
  rcases h.isTold.tickets e he with ⟨-, hnone⟩ | hready
  · -- the ticket is that of an accepted request, which was answered
    have hid : e.1 ∈ v.accepted.map Request.id :=
      h.isKept.tickets_perm.mem_iff.2 (List.mem_append_left _ (List.mem_map_of_mem he))
    obtain ⟨r, hr, hrid⟩ := List.mem_map.1 hid
    obtain ⟨a, ha, rfl⟩ := List.mem_map.1 (hperm.mem_iff.2 hr)
    exact absurd hrid (hnone a ha)
  · exact hready

/-! ## How far the workers get -/

/-- A worker makes a move. -/
def WorkStep (s : Service) (v v' : Workshop) : Prop :=
  ∃ w q, v.pool.Moves s w q ∧ v' = v.follow w q

theorem WorkStep.step (h : v.WorkStep s v') : v.Step s v' := by
  obtain ⟨w, q, hmove, rfl⟩ := h
  exact .move hmove

/-- The workers do not move forever. -/
theorem not_forever (f : Nat → Workshop) : ¬ ∀ n, (f n).WorkStep s (f (n + 1)) := by
  intro h
  have hless (n : Nat) : (f (n + 1)).pool.workLeft < (f n).pool.workLeft := by
    obtain ⟨w, q, hmove, hnext⟩ := h n
    rw [hnext]
    exact Pool.workLeft_of_moves hmove
  -- after some moves more work would be done than there was
  have hbound (n : Nat) : (f n).pool.workLeft + n ≤ (f 0).pool.workLeft := by
    induction n with
    | zero => exact Nat.le_refl _
    | succ n ih =>
      have hn := hless n
      omega
  have hlast := hbound ((f 0).pool.workLeft + 1)
  omega

/-- The workers can always move on to where none of them can move. -/
theorem exists_isQuiet (s : Service) (v : Workshop) :
    ∃ v', ReflTransGen (WorkStep s) v v' ∧ v'.IsQuiet s := by
  induction hn : v.pool.workLeft using Nat.strong_induction_on generalizing v with
  | _ n ih =>
    by_cases hquiet : v.IsQuiet s
    · exact ⟨v, .refl, hquiet⟩
    · simp only [IsQuiet, not_forall, not_not] at hquiet
      obtain ⟨w, q, hmove⟩ := hquiet
      have hless : (v.follow w q).pool.workLeft < n := hn ▸ Pool.workLeft_of_moves hmove
      obtain ⟨v', hrun, hquiet'⟩ := ih _ hless _ rfl
      exact ⟨v', .head ⟨w, q, hmove, rfl⟩ hrun, hquiet'⟩

/-- Workers that have permits for all lookups that may need one have them after any moves. -/
theorem permits_of_workSteps (hrun : ReflTransGen (WorkStep s) v v')
    (henough : v.pool.permitsNeeded s ≤ v.pool.permits) :
    v'.pool.permitsNeeded s ≤ v'.pool.permits := by
  induction hrun with
  | refl => exact henough
  | tail _ hstep ih =>
    obtain ⟨w, q, hmove, rfl⟩ := hstep
    have hpermits := hmove.permits_le
    change q.permitsNeeded s ≤ q.permits
    omega

/-- When no worker of a closed pool can move, all have ended, or lookups wait in line for permits
that are not there. -/
theorem isStopped_or_waits (h : Reachable s size v) (hclosed : v.pool.isOpen = false)
    (hquiet : v.IsQuiet s) :
    v.pool.isStopped = true ∨ v.pool.permits = 0 ∧ v.pool.line ≠ [] := by
  have hlined := isLined_of_reachable h
  by_cases hline : v.pool.line = []
  · exact .inl (Pool.isStopped_of_isQuiet hquiet (hlined.isFree hline) hclosed)
  · exact .inr ⟨hlined.permits_eq_zero hquiet hline, hline⟩

/-! ## Draining -/

/-- What holds in a state that comes after the one in which the owner began to shut down. -/
structure Drains (s : Service) (v v' : Workshop) : Prop where
  /-- nothing has come in since -/
  accepted_eq : v'.accepted = v.accepted
  /-- every accepted request was answered, is with a worker, or is in the queue, once -/
  accepted_perm : v'.accepted.Perm (v'.answered.map Prod.fst ++
    (v'.pool.workers.filterMap Phase.request? ++ v'.pool.queue))
  /-- when all workers have ended, all requests are done with -/
  done : v'.pool.isStopped = true → v'.IsDone s
  /-- only a lookup that waits for a permit can hold up the workers -/
  held : v'.IsQuiet s → v'.pool.isStopped = true ∨ v'.pool.permits = 0 ∧ v'.pool.line ≠ []
  /-- the workers do not move forever -/
  finite : ∀ f : Nat → Workshop, f 0 = v' → ¬ ∀ n, (f n).WorkStep s (f (n + 1))
  /-- with permits for all lookups that may need one they move until all have ended -/
  ends : v'.pool.permitsNeeded s ≤ v'.pool.permits → ∀ v'', ReflTransGen (WorkStep s) v' v'' →
    v''.IsQuiet s → v''.pool.isStopped = true ∧ v''.IsDone s ∧ v''.accepted = v.accepted

/-- Shutting down drains the pool. -/
structure IsDraining (s : Service) (v : Workshop) : Prop where
  /-- a worker ends only when the queue is empty and nothing can come in -/
  ends : ∀ w q, v.pool.Moves s w q → q.workers[w]? = some .stopped →
    v.pool.queue = [] ∧ v.pool.isOpen = false
  /-- whatever happens after the owner has begun to shut down -/
  drains : (∀ b ∈ v.submissions, b.isEnded = true) →
    ∀ v', ReflTransGen (Step s) { v with pool := v.pool.close } v' → v.Drains s v'

/-- A closed pool drains from any reachable state on. -/
theorem drains_of_closed (h : Reachable s size v) (hclosed : v.pool.isOpen = false)
    (haccepted : v.accepted = v'.accepted) : v'.Drains s v := by
  have hinv := invariant_of_reachable h
  constructor
  case accepted_eq => exact haccepted
  case accepted_perm =>
    rw [hinv.isKept.accepted_eq, ← List.append_assoc]
    exact hinv.isKept.taken_perm.append_right _
  case done => exact hinv.isDone
  case held => exact isStopped_or_waits h hclosed
  case finite => exact fun f _ => not_forever f
  case ends =>
    intro henough v'' hrun hquiet
    have hsteps : ReflTransGen (Step s) v v'' :=
      Relation.ReflTransGen.mono (fun _ _ => WorkStep.step) _ _ hrun
    have h'' := h.run hsteps
    obtain ⟨hclosed'', haccepted''⟩ := accepted_of_closed h hclosed hsteps
    have hline := (isLined_of_reachable h'').line_eq_nil hquiet (permits_of_workSteps hrun henough)
    have hstopped : v''.pool.isStopped = true :=
      (isStopped_or_waits h'' hclosed'' hquiet).resolve_right fun hwaits => hwaits.2 hline
    exact ⟨hstopped, (invariant_of_reachable h'').isDone hstopped, haccepted''.trans haccepted⟩

/-- **Shutting down loses nothing.** Whatever order of steps has led to a workshop, when the owner
shuts down, all accepted requests are answered before the workers have ended, and the workers end once
no lookup lacks a permit. -/
theorem isDraining_of_reachable (h : Reachable s size v) : v.IsDraining s := by
  constructor
  case ends =>
    intro w q hmove hstopped
    obtain ⟨a, b, hq⟩ := hmove.exists_moved
    rw [hq.workers_eq, List.getElem?_set_self (List.getElem?_eq_some_iff.1 hq.phase_eq).1] at hstopped
    exact hq.ends (Option.some_inj.1 hstopped)
  case drains =>
    intro hended v' hrun
    have hclose := h.step (.close hended)
    obtain ⟨hclosed, haccepted⟩ := accepted_of_closed hclose rfl hrun
    exact drains_of_closed (hclose.run hrun) hclosed haccepted

/-- One worker that is held up in a lookup when the owner shuts down, and one request in the queue:
with a permit for the lookup the worker can move until it has ended, and then it has answered both. -/
theorem isDraining_of_reachable_held_up :
    let s : Service := ⟨.standard, fun _ _ => .answer .missing, fun _ _ => true⟩
    ∃ v v', Reachable s ⟨1, 1⟩ v ∧ v.IsDraining s ∧ v.pool.queue = [⟨2, []⟩] ∧
      v.pool.line = [⟨0, 0⟩] ∧ ReflTransGen (Step s) { v with pool := v.pool.close } v' ∧
      v'.pool.isStopped = true ∧ (v'.answered.map fun e => e.1.id).Perm [1, 2] := by
  intro s
  obtain ⟨r, plan, hid, h⟩ := exists_reachable_heldUp 0 rfl
  -- the second request goes into the queue
  replace h := h.step (.begin [] rfl)
  replace h := (h.step (.advance (i := 1) rfl rfl rfl)).step (.advance (i := 1) rfl rfl rfl)
  -- the owner shuts down, and the lookup may go on
  have hdraining := isDraining_of_reachable h
  have hdrains := hdraining.drains (List.forall_mem_cons.2 ⟨rfl, List.forall_mem_singleton.2 rfl⟩) _
    (.single (.permit 1))
  obtain ⟨v', hrun, hquiet⟩ := exists_isQuiet s _
  obtain ⟨hstopped, hdone, haccepted⟩ := hdrains.ends (Nat.le_refl 1) v' hrun hquiet
  have hids : (v'.answered.map fun e => e.1.id).Perm (v'.accepted.map Request.id) := by
    have hperm := hdone.answered_perm.map Request.id
    rwa [List.map_map] at hperm
  rw [haccepted] at hids
  change (v'.answered.map fun e => e.1.id).Perm [r.id, 2] at hids
  rw [hid] at hids
  exact ⟨_, v', h, hdraining, rfl, rfl,
    .head (.permit 1) (Relation.ReflTransGen.mono (fun _ _ => WorkStep.step) _ _ hrun), hstopped, hids⟩

end Workshop

end JobLoom
