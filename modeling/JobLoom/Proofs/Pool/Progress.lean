import JobLoom.Proofs.Pool.Admission
import JobLoom.Proofs.Pool.Caller

/-!
# Waiting comes to an end

Every move of a worker lowers the work that is left, so workers that move as long as they can come to
a halt. When no lookup has to wait for a permit, nothing is left undone then, and whoever waits for
an answer has it.

* **Settling** moves as long as any worker can.
* **Ungated** services never let a lookup wait.
* **Shutting down** ends all workers.
* **Patient turns** go on until there is an answer or nobody can move.
-/

namespace JobLoom

/-! ## Work left -/

/-- What all elements of a list need, and some more. -/
theorem foldr_add_eq {α : Type} (f : α → Nat) (l : List α) (n : Nat) :
    l.foldr (fun a n => f a + n) n = (l.map f).sum + n := by
  induction l with
  | nil => exact (Nat.zero_add n).symm
  | cons first rest ih => rw [List.foldr_cons, List.map_cons, List.sum_cons, ih, Nat.add_assoc]

namespace Pool

variable {s : Service} {p q : Pool} {w : Nat} {a b : Phase}

/-- The work of all requests that were not received yet: each is as much work as if it just had
been. -/
def requestWork (rs : List Request) : Nat := (rs.map fun r => phaseWork (.received r)).sum

/-- The work that is left is that of the queue and that of the workers. -/
theorem workLeft_eq (p : Pool) :
    p.workLeft = requestWork p.queue + (p.workers.map phaseWork).sum := by
  change p.queue.foldr (fun r n => phaseWork (.received r) + n)
    (p.workers.foldr (fun w n => phaseWork w + n) 0) = _
  rw [foldr_add_eq (fun r => phaseWork (.received r)), foldr_add_eq phaseWork]
  rfl

/-- A worker that is asking has some work left beside its lookups. -/
theorem phaseWork_asking (r : Request) (plan : Plan) (lookups : List Lookup) :
    phaseWork (.asking r plan lookups) = 6 + (lookups.map lookupWork).sum :=
  congrArg (6 + ·) (foldr_add_eq lookupWork lookups 0)

/-- A lookup that gets on leaves less work. -/
theorem phaseWork_set {r : Request} {plan : Plan} {lookups : List Lookup} {i : Nat} {l l' : Lookup}
    (hi : lookups[i]? = some l) (hl : lookupWork l' < lookupWork l) :
    phaseWork (.asking r plan (lookups.set i l')) < phaseWork (.asking r plan lookups) := by
  rw [phaseWork_asking, phaseWork_asking]
  have hset := sum_map_set_add (f := lookupWork) (b := l') hi
  omega

/-- A new plan leaves each of its lookups to be asked and answered. -/
theorem phaseWork_plan {r : Request} {plan : Plan} (h : Plan.ofBytes r.source = .ok plan) :
    phaseWork (.asking r plan (plan.keys.map .unasked)) < phaseWork (.started r) := by
  have hsum : ((plan.keys.map Lookup.unasked).map lookupWork).sum = 2 * plan.keys.length := by
    induction plan.keys with
    | nil => rfl
    | cons key rest ih =>
      rw [List.map_cons, List.map_cons, List.sum_cons, ih, List.length_cons]
      change 2 + 2 * rest.length = _
      omega
  have hcount : lookupCount r = plan.keys.length := by
    unfold lookupCount
    rw [h]
  rw [phaseWork_asking, hsum]
  change _ < 7 + 2 * lookupCount r
  omega

/-- A worker that gets on leaves less work, together with the queue that it may take a request
from. -/
theorem phaseWork_of_goes (h : a.Goes s b) :
    phaseWork b < phaseWork a + requestWork b.taken?.toList := by
  have hopen {l : Lookup} {key : String} (hl : l.IsOpenFor key) : 0 < lookupWork l := by
    rcases hl with rfl | rfl <;> exact Nat.zero_lt_succ _
  cases h with
  | receive r =>
    change phaseWork (.received r) < 1 + (phaseWork (.received r) + 0)
    omega
  | plan passes => exact phaseWork_plan passes
  | skip place => exact phaseWork_set place (Nat.zero_lt_two)
  | wait place gated => exact phaseWork_set place Nat.one_lt_two
  | hear place isOpen reply => exact phaseWork_set place (hopen isOpen)
  | crash place isOpen reply | compose complete =>
    rw [phaseWork_asking]
    change 5 < _ + 0
    omega
  | refuse fails | dequeue r | start r =>
    simp only [phaseWork]
    omega
  | listen | stop | leave r x | count r x | reply r x => exact Nat.lt_succ_self _

/-- **Every move of a worker lowers the work that is left.** -/
theorem workLeft_of_moves (h : p.Moves s w q) : q.workLeft < p.workLeft := by
  obtain ⟨a, b, hq⟩ := h.exists_moved
  have hset := sum_map_set_add (f := phaseWork) (b := b) hq.phase_eq
  have hgoes := phaseWork_of_goes hq.goes
  have hqueue : requestWork p.queue = requestWork b.taken?.toList + requestWork q.queue := by
    rw [hq.queue_eq, requestWork, List.map_append, List.sum_append]
    rfl
  rw [workLeft_eq, workLeft_eq, hq.workers_eq, hqueue]
  omega

/-! ## Settling -/

/-- No worker can move. -/
def IsQuiet (s : Service) (p : Pool) : Prop := ∀ w q, ¬ p.Moves s w q

theorem lt_length_of_moves (h : p.Moves s w q) : w < p.workers.length := by
  obtain ⟨a, b, hq⟩ := h.exists_moved
  exact (List.getElem?_eq_some_iff.1 hq.phase_eq).1

theorem mem_turns (h : w < p.workers.length) : w ∈ p.turns := by
  dsimp only [turns]
  rw [List.partition_eq_filter_filter]
  dsimp only
  rw [List.mem_append, List.mem_filter, List.mem_filter]
  have hw := List.mem_range.2 h
  by_cases hbusy : (p.workers[w]?.bind Phase.request?).isSome = true
  · exact .inl ⟨hw, hbusy⟩
  · exact .inr ⟨hw, by simpa using hbusy⟩

/-- A worker that has no next move neither makes a step nor asks for a lookup. -/
theorem work_and_ask_of_moveOf (h : p.moveOf? s w = none) :
    p.work? s w = none ∧ ∀ i, p.ask? s w i = none := by
  unfold moveOf? at h
  split at h
  · cases h
  · next hwork =>
    refine ⟨hwork, fun i => ?_⟩
    split at h
    · next r plan lookups ha =>
      by_cases hi : i < lookups.length
      · exact List.findSome?_eq_none_iff.1 h i (List.mem_range.2 hi)
      · simp only [ask?, ha, List.getElem?_eq_none (Nat.le_of_not_lt hi)]
    · next hother =>
      unfold ask?
      split
      · next r plan lookups ha => exact absurd ha (hother r plan lookups)
      · rfl

/-- A pool that has no next move is quiet. -/
theorem isQuiet_of_next (h : p.next? s = none) : p.IsQuiet s := by
  unfold next? at h
  split at h
  · cases h
  · next hgrant =>
    intro w q hmove
    have hmoveOf := List.findSome?_eq_none_iff.1 h w (mem_turns (lt_length_of_moves hmove))
    obtain ⟨hwork, hask⟩ := work_and_ask_of_moveOf hmoveOf
    cases hmove with
    | step hq => cases hwork.symm.trans hq
    | ask i hq => cases (hask i).symm.trans hq
    | grant first hq => cases hgrant.symm.trans hq

/-- As many moves as there is work lead to a quiet pool. -/
theorem isQuiet_settleBy {n : Nat} (h : p.workLeft ≤ n) : (settleBy s n p).IsQuiet s := by
  induction n generalizing p with
  | zero =>
    intro w q hmove
    have hless := workLeft_of_moves hmove
    rw [settleBy] at hless
    omega
  | succ n ih =>
    unfold settleBy
    split
    · next q hq =>
      obtain ⟨w, hmove⟩ := exists_moves_of_next hq
      have hless := workLeft_of_moves hmove
      exact ih (by omega)
    · next hnone => exact isQuiet_of_next hnone

/-- **Settling comes to an end**, and then no worker can move. -/
theorem isQuiet_settle (p : Pool) : (p.settle s).IsQuiet s := isQuiet_settleBy (Nat.le_refl _)

end Pool

/-! ## Ungated services -/

/-- No lookup of the service needs a permit. -/
def Service.IsUngated (s : Service) : Prop := ∀ space key, s.isGated space key = false

/-- No lookup of the worker waits for a permit. -/
def Phase.IsFree : Phase → Prop
  | .asking _ _ lookups => ∀ key, .waiting key ∉ lookups
  | _ => True

theorem Phase.Goes.isFree {s : Service} {a b : Phase} (h : a.Goes s b) (hs : s.IsUngated)
    (ha : a.IsFree) : b.IsFree := by
  have hset {r : Request} {plan : Plan} {lookups : List Lookup} (i : Nat) {l : Lookup}
      (hlookups : (Phase.asking r plan lookups).IsFree) (hl : ∀ key, l ≠ .waiting key) :
      (Phase.asking r plan (lookups.set i l)).IsFree := fun key hkey => by
    rcases List.mem_or_eq_of_mem_set hkey with hold | hnew
    · exact hlookups key hold
    · exact hl key hnew.symm
  cases h with
  | plan passes =>
    intro key hkey
    obtain ⟨key', -, hkey'⟩ := List.mem_map.1 hkey
    cases hkey'
  | @skip r plan lookups i place => exact hset i ha nofun
  | wait place gated => cases gated.symm.trans (hs _ _)
  | @hear r plan lookups i l key a place isOpen reply => exact hset i ha nofun
  | listen | receive r | stop | dequeue r | start r | refuse fails => exact trivial
  | crash place isOpen reply | compose complete => exact trivial
  | leave r x | count r x | reply r x => exact trivial

theorem Pool.Moves.isFree {s : Service} {p q : Pool} {w : Nat} (h : p.Moves s w q)
    (hs : s.IsUngated) (hfree : ∀ a ∈ p.workers, a.IsFree) : ∀ a ∈ q.workers, a.IsFree := by
  obtain ⟨a, b, hq⟩ := h.exists_moved
  intro c hc
  rw [hq.workers_eq] at hc
  rcases List.mem_or_eq_of_mem_set hc with hc | rfl
  · exact hfree c hc
  · exact hq.goes.isFree hs (hfree a (List.mem_of_getElem? hq.phase_eq))

namespace Workshop

variable {s : Service} {size : PoolSize} {v v' : Workshop}

theorem isFree_of_reachable (h : Reachable s size v) (hs : s.IsUngated) :
    ∀ a ∈ v.pool.workers, a.IsFree := by
  induction h with
  | start started =>
    obtain ⟨rfl, -⟩ := Pool.start_eq_ok started
    intro a ha
    rw [List.eq_of_mem_replicate ha]
    exact trivial
  | step _ hstep ih =>
    cases hstep with
    | @advance i b next q place isUnderWay step =>
      intro a ha
      change a ∈ q.workers at ha
      rw [(Pool.advanced_of_advance isUnderWay step).workers_eq] at ha
      exact ih a ha
    | move move => exact move.isFree hs ih
    | collect answer =>
      obtain ⟨rfl, -⟩ := Pool.take?_eq_some answer
      exact ih
    | begin source isOpen => exact ih
    | permit n => exact ih
    | drop isHeld => exact ih
    | close noneUnderWay => exact ih

/-- Without gates no lookup is blocked. -/
theorem isUnblocked_of_reachable (h : Reachable s size v) (hs : s.IsUngated) : v.IsUnblocked :=
  fun _ _ _ key ha => isFree_of_reachable h hs _ ha key

end Workshop

/-! ## Shutting down -/

/-- Once nothing comes in any more, the workers end: when none of them can move, all have ended. -/
def Pool.CanShutDown (s : Service) (p : Pool) : Prop :=
  ∀ q, p.close.Works s q → q.IsQuiet s → q.isStopped = true

namespace Pool

variable {s : Service} {size : PoolSize} {p q : Pool} {rs : List Request}

/-- Workers that are free stay so while they get on, and a pool that is closed stays closed. -/
theorem isFree_of_works (h : p.Works s q) (hs : s.IsUngated) (hfree : ∀ a ∈ p.workers, a.IsFree)
    (hclosed : p.isOpen = false) : (∀ a ∈ q.workers, a.IsFree) ∧ q.isOpen = false := by
  induction h with
  | refl => exact ⟨hfree, hclosed⟩
  | tail _ hmove ih =>
    obtain ⟨w, hw⟩ := hmove
    obtain ⟨a, b, hq⟩ := hw.exists_moved
    exact ⟨hw.isFree hs ih.1, hq.isOpen_eq.trans ih.2⟩

/-- In a pool that is closed a worker that listens can move: it takes a request, or it ends. -/
theorem exists_moves_of_closed {w : Nat} (hw : p.workers[w]? = some .listening)
    (hclosed : p.isOpen = false) : ∃ q, p.Moves s w q := by
  refine exists_moves_of_isSome ?_
  simp only [work?, hw, Option.bind_eq_bind, Option.bind_some, hclosed]
  split <;> rfl

/-- When no worker of a closed pool can move and none of them waits for a permit, all have ended. -/
theorem isStopped_of_isQuiet (hquiet : p.IsQuiet s) (hfree : ∀ a ∈ p.workers, a.IsFree)
    (hclosed : p.isOpen = false) : p.isStopped = true := by
  have hlistening : Phase.listening ∉ p.workers := by
    intro hl
    obtain ⟨w, hw⟩ := List.mem_iff_getElem?.1 hl
    obtain ⟨q, hq⟩ := exists_moves_of_closed (s := s) hw hclosed
    exact hquiet w q hq
  rw [isStopped, List.all_eq_true]
  intro a ha
  have hnone := request?_eq_none hquiet (fun _ _ _ key ha => hfree _ ha key) ha
  obtain ⟨w, hw⟩ := List.mem_iff_getElem?.1 ha
  cases a with
  | idle =>
    obtain ⟨q, hq⟩ := exists_moves_of_idle (s := s) hw (hasListener_eq_false hlistening)
    exact absurd hq (hquiet w q)
  | listening => exact absurd ha hlistening
  | stopped => rfl
  | received r | dequeued r | started r | asking r plan lookups => cases hnone
  | converted r x | left r x | counted r x => cases hnone

/-- Without gates a pool that serves can be shut down. -/
theorem Serves.canShutDown (h : p.Serves s size rs) (hs : s.IsUngated) : p.CanShutDown s := by
  obtain ⟨v, hv, rfl, -, -⟩ := h
  intro q hq hquiet
  obtain ⟨hfree, hclosed⟩ := isFree_of_works hq hs (Workshop.isFree_of_reachable hv hs) rfl
  exact isStopped_of_isQuiet hquiet hfree hclosed

end Pool

/-! ## Waiting for an answer -/

/-- The ticket of a request can be used up. -/
def Pool.HasAnswer (p : Pool) (id : Nat) : Prop := ∃ q x, p.take? id = some (q, x)

/-- Whoever waits for an answer waits until it is there, or until nobody can move. -/
def Turns.IsPatient (t : Turns) (s : Service) : Prop :=
  ∀ (id : Nat) (p : Pool), (t.untilAnswer id p).HasAnswer id ∨ (t.untilAnswer id p).IsQuiet s

theorem Turns.isPatient_lazy (s : Service) : (Turns.lazy s).IsPatient s :=
  fun _ p => .inr (Pool.isQuiet_settle p)

namespace Pool

variable {s : Service} {size : PoolSize} {p q : Pool} {rs : List Request}

/-- Tickets that are held stay so while the workers get on. -/
theorem ids_of_works (h : p.Works s q) : q.tickets.map Prod.fst = p.tickets.map Prod.fst := by
  induction h with
  | refl => rfl
  | tail _ hmove ih =>
    obtain ⟨w, hw⟩ := hmove
    obtain ⟨a, b, hq⟩ := hw.exists_moved
    rw [hq.tickets_eq, map_fst_ticketsAfter, ih]

/-- A pool whose workers get on without a request has an empty queue still, and room for one. -/
theorem queue_of_works (h : p.Works s q) (hqueue : p.queue = []) : q.queue = [] ∧ q.size = p.size ∧
    q.isAlive = p.isAlive := by
  induction h with
  | refl => exact ⟨hqueue, rfl, rfl⟩
  | tail _ hmove ih =>
    obtain ⟨w, hw⟩ := hmove
    obtain ⟨a, b, hq⟩ := hw.exists_moved
    obtain ⟨hempty, hsize, halive⟩ := ih
    have hafter := hq.queue_eq
    rw [hempty] at hafter
    exact ⟨(List.append_eq_nil_iff.1 hafter.symm).2, hq.size_eq.trans hsize,
      hq.isAlive_eq.trans halive⟩

/-- When no worker can move and no lookup is blocked, all tickets that are held have their answers. -/
theorem hasAnswer_of_isQuiet {v : Workshop} (hkept : v.IsKept) (htold : v.IsTold)
    (hstaffed : v.IsStaffed) (hquiet : v.IsQuiet s) (hfree : v.IsUnblocked) {id : Nat}
    (hheld : id ∈ v.pool.tickets.map Prod.fst) : v.pool.HasAnswer id := by
  have haccepted : id ∈ v.accepted.map Request.id :=
    hkept.tickets_perm.mem_iff.2 (List.mem_append_left _ hheld)
  obtain ⟨r, hr, rfl⟩ := List.mem_map.1 haccepted
  obtain ⟨x, hx⟩ := hkept.exists_answer (hstaffed.queue_eq_nil hquiet hfree)
    (fun a ha => Workshop.request?_eq_none hquiet hfree ha) hr
  obtain ⟨e, he, hid⟩ := List.mem_map.1 hheld
  have hsome : (v.pool.tickets.lookup r.id).isSome :=
    List.lookup_isSome_iff.2 ⟨e, he, by simpa using hid.symm⟩
  obtain ⟨t, ht⟩ := Option.isSome_iff_exists.1 hsome
  -- the request is answered, so its ticket is no longer pending
  rcases htold.tickets _ (mem_tickets_of_lookup ht) with ⟨-, hnone⟩ | ⟨a, -, -, hready⟩
  · exact absurd rfl (hnone _ hx)
  · cases hready
    exact ⟨_, _, by simp only [take?, ht]; rfl⟩

/-- When no worker can move and no lookup needs a permit, all tickets have their answers. -/
theorem Serves.hasAnswer (h : p.Serves s size rs) (hs : s.IsUngated) (hquiet : p.IsQuiet s)
    {id : Nat} (hheld : id ∈ p.tickets.map Prod.fst) : p.HasAnswer id := by
  obtain ⟨v, hv, rfl, -, -⟩ := h
  obtain ⟨-, hkept, htold, -, hstaffed⟩ := Workshop.invariant_of_reachable hv
  exact hasAnswer_of_isQuiet hkept htold hstaffed hquiet (Workshop.isUnblocked_of_reachable hv hs)
    hheld

/-- A pool that starts has room for a request. -/
theorem capacity_pos_of_start (h : start size = .ok p) : 0 < size.capacity :=
  (PoolSize.check_eq_ok_iff.1 (start_eq_ok_iff.1 h).1).2

end Pool

namespace Turns

variable {t : Turns} {s : Service} {size : PoolSize} {p q : Pool} {rs : List Request}

/-- Who waits patiently for a request waits until its ticket can be used up. -/
theorem Follows.hasAnswer (ht : t.Follows s) (hpatient : t.IsPatient s) (hs : s.IsUngated)
    (h : p.Serves s size rs) {id : Nat} (hheld : id ∈ p.tickets.map Prod.fst) :
    (t.untilAnswer id p).HasAnswer id := by
  have hworks := ht.untilAnswer id p
  rcases hpatient id p with hanswer | hquiet
  · exact hanswer
  · exact (h.works hworks).hasAnswer hs hquiet (Pool.ids_of_works hworks ▸ hheld)

/-- Who waits patiently for a request gets its answer. -/
theorem Follows.answersTo_of_await (ht : t.Follows s) (hpatient : t.IsPatient s)
    (hs : s.IsUngated) (h : p.Serves s size rs) {r : Request} (hr : r ∈ rs)
    (hheld : r.id ∈ p.tickets.map Prod.fst) : s.AnswersTo r.source (t.await p r.id).2 := by
  obtain ⟨q, x, htake⟩ := ht.hasAnswer hpatient hs h hheld
  unfold Turns.await
  dsimp only
  rw [htake]
  exact ((h.works (ht.untilAnswer r.id p)).take hr htake).2

/-- Submit a workflow file and wait for its result. -/
def convert (t : Turns) (p : Pool) (source : List UInt8) : Pool × Result :=
  match t.submit p source with
  | (p, .ok id) => t.await p id
  | (p, .error e) => (p, .error e)

/-- **The only request of a pool is accepted and answered**, and then the pool can be shut down. -/
theorem Follows.convert_of_start (ht : t.Follows s) (hpatient : t.IsPatient s)
    (hs : s.IsUngated) (h : Pool.start size = .ok p) (source : List UInt8) :
    s.AnswersTo source (t.convert p source).2 ∧ (t.convert p source).1.CanShutDown s := by
  have hcapacity := Pool.capacity_pos_of_start h
  have hserves := Pool.serves_start (s := s) h
  obtain ⟨rfl, -⟩ := Pool.start_eq_ok h
  obtain ⟨hqueue, hsize, halive⟩ := Pool.queue_of_works (ht.beforeSubmission (.fresh size)) rfl
  have hroom : (t.beforeSubmission (.fresh size)).queue.length <
      (t.beforeSubmission (.fresh size)).size.capacity := by
    rw [hqueue, hsize]
    exact hcapacity
  have hsubmit : t.submit (.fresh size) source = _ := Pool.submit_of_room halive hroom source
  have hnow := (ht.submit hserves hsubmit).2 _ rfl
  have hrequest : ⟨(t.beforeSubmission (.fresh size)).nextId, source⟩ ∈
      [] ++ [Request.mk (t.beforeSubmission (.fresh size)).nextId source] := List.mem_singleton.2 rfl
  unfold convert
  rw [hsubmit]
  refine ⟨ht.answersTo_of_await hpatient hs hnow hrequest ?_, ?_⟩
  · rw [List.map_append]
    exact List.mem_append_right _ (List.mem_singleton.2 rfl)
  · exact (ht.await hnow hrequest rfl).1.canShutDown hs

end Turns

end JobLoom
