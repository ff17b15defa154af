import JobLoom.Proofs.Pool.Progress

/-!
# What is not answered yet

A caller may submit more to a pool than its queue can hold, if it waits for its oldest request
whenever the queue is full. The store may change in the meantime: nothing here hangs on what a
request is converted to.

* **Unanswered** are the requests in the queue and those that a worker has. These are the accepted
  requests without an answer.
* **Backed** are the tickets of a caller that has used up all others. Whatever is unanswered has one
  of them, so a queue that is full means that the caller has a ticket left to wait for.
-/

namespace JobLoom

open Relation (ReflTransGen)

namespace Workshop

/-! ## Workers whose store may change -/

/-- What some order of steps leads to, from a pool that has just been started. What the workers
convert with may be another thing at each step. -/
inductive Arises (size : PoolSize) : Workshop → Prop where
  /-- the pool has just been started -/
  | start {p : Pool} (started : Pool.start size = .ok p) : Arises size (opened p)
  /-- one step more -/
  | step {s : Service} {v v' : Workshop} (before : Arises size v) (step : Step s v v') :
      Arises size v'

/-- What holds whatever the workers convert with. -/
structure IsOrderly (size : PoolSize) (v : Workshop) : Prop where
  /-- the numbers -/
  isNumbered : v.IsNumbered
  /-- the places of the requests -/
  isKept : v.IsKept
  /-- the tickets -/
  isTold : v.IsTold
  /-- the workers -/
  isStaffed : v.IsStaffed
  /-- the size -/
  isBounded : v.IsBounded size

variable {s : Service} {size : PoolSize} {v v' : Workshop}

/-- What a run leads to may arise. -/
theorem Arises.run (h : Arises size v) (hrun : ReflTransGen (Step s) v v') : Arises size v' := by
  induction hrun with
  | refl => exact h
  | tail _ hs ih => exact ih.step hs

theorem IsOrderly.step (h : v.IsOrderly size) (hs : v.Step s v') : v'.IsOrderly size :=
  have hnumbered := h.isNumbered.step hs
  ⟨hnumbered, h.isKept.step h.isNumbered hs, h.isTold.step h.isKept hnumbered hs,
    h.isStaffed.step hs, h.isBounded.step h.isStaffed.isAlive hs⟩

/-- **Whatever arises is orderly.** -/
theorem isOrderly_of_arises (h : Arises size v) : v.IsOrderly size := by
  induction h with
  | start started =>
    obtain ⟨rfl, hworkers⟩ := Pool.start_eq_ok started
    exact ⟨isNumbered_opened size, isKept_opened size, isTold_opened size,
      isStaffed_opened hworkers, isBounded_opened size⟩
  | step _ hs ih => exact ih.step hs

end Workshop

/-! ## Unanswered requests -/

namespace Pool

/-- The requests in the queue and those that a worker has. -/
def unanswered (p : Pool) : List Request := p.queue ++ p.workers.filterMap Phase.request?

end Pool

namespace Workshop

variable {size : PoolSize} {v : Workshop}

/-- **Unanswered are the accepted requests without an answer.** -/
theorem IsOrderly.mem_unanswered_iff (h : v.IsOrderly size) {r : Request} :
    r ∈ v.pool.unanswered ↔ r ∈ v.accepted ∧ r ∉ v.answered.map Prod.fst := by
  have hnodup : v.accepted.Nodup := h.isNumbered.nodup.of_map _
  -- an accepted request is answered, or a worker has it, or it is in the queue, and only one of these
  have hperm : v.accepted.Perm (v.answered.map Prod.fst ++ v.pool.unanswered) := by
    rw [h.isKept.accepted_eq, Pool.unanswered]
    refine (h.isKept.taken_perm.append_right _).trans ?_
    rw [List.append_assoc]
    exact List.perm_append_comm.append_left _
  rw [hperm.nodup_iff, List.nodup_append] at hnodup
  rw [hperm.mem_iff, List.mem_append]
  constructor
  · exact fun hr => ⟨.inr hr, fun ha => hnodup.2.2 r ha r hr rfl⟩
  · rintro ⟨ha | hr, hnot⟩
    · exact absurd ha hnot
    · exact hr

/-- As long as no ticket has been dropped, what is unanswered has a ticket that is held. -/
theorem IsOrderly.held_of_unanswered (h : v.IsOrderly size) (hdropped : v.dropped = [])
    {r : Request} (hr : r ∈ v.pool.unanswered) : r.id ∈ v.pool.tickets.map Prod.fst := by
  obtain ⟨haccepted, hnot⟩ := h.mem_unanswered_iff.1 hr
  have hplace := h.isKept.tickets_perm.mem_iff.1 (List.mem_map_of_mem haccepted)
  rw [hdropped, List.append_nil] at hplace
  rcases List.mem_append.1 hplace with hheld | hcollected
  · exact hheld
  · -- a ticket that was used up has told the answer of its request
    obtain ⟨e, he, hid⟩ := List.mem_map.1 hcollected
    obtain ⟨a, ha, haid, -⟩ := h.isTold.collected e he
    have hsame : a.1 = r := List.inj_on_of_nodup_map h.isNumbered.nodup
      (h.isKept.mem_accepted ha) haccepted (haid.trans hid)
    exact absurd (hsame ▸ List.mem_map_of_mem ha) hnot

end Workshop

/-! ## Tickets that are held -/

namespace Pool

/-- A pool is to answer its only caller for the tickets with these numbers: all others have been used
up, and none was dropped. -/
structure Backs (size : PoolSize) (p : Pool) (ids : List Nat) : Prop where
  /-- this is what some order of steps has led to -/
  exists_workshop : ∃ v, Workshop.Arises size v ∧ v.pool = p ∧ v.dropped = []
  /-- it is open -/
  isOpen : p.isOpen = true
  /-- no lookup waits for a permit -/
  isFree : ∀ a ∈ p.workers, a.IsFree
  /-- the caller has the tickets, in order -/
  tickets_eq : p.tickets.map Prod.fst = ids

variable {s : Service} {size : PoolSize} {p q : Pool} {id : Nat} {ids : List Nat}

theorem backs_start (h : start size = .ok p) : p.Backs size [] := by
  obtain ⟨rfl, -⟩ := start_eq_ok h
  refine ⟨⟨_, .start h, rfl, rfl⟩, rfl, fun a ha => ?_, rfl⟩
  rw [List.eq_of_mem_replicate ha]
  exact trivial

namespace Backs

/-- **What is unanswered has a ticket.** -/
theorem mem_of_unanswered (h : p.Backs size ids) {r : Request} (hr : r ∈ p.unanswered) :
    r.id ∈ ids := by
  obtain ⟨v, hv, rfl, hdropped⟩ := h.exists_workshop
  rw [← h.tickets_eq]
  exact (Workshop.isOrderly_of_arises hv).held_of_unanswered hdropped hr

/-- Without tickets the queue is empty. -/
theorem queue_eq_nil (h : p.Backs size []) : p.queue = [] :=
  List.eq_nil_iff_forall_not_mem.2 fun _ hr =>
    nomatch h.mem_of_unanswered (List.mem_append_left _ hr)

/-- The pool is alive and has the size that it was started with, and no two tickets share a number. -/
theorem isOrderly (h : p.Backs size ids) : p.isAlive = true ∧ p.size = size ∧ ids.Nodup := by
  obtain ⟨v, hv, rfl, -⟩ := h.exists_workshop
  have horderly := Workshop.isOrderly_of_arises hv
  refine ⟨horderly.isStaffed.isAlive, horderly.isBounded.size_eq, ?_⟩
  rw [← h.tickets_eq]
  exact horderly.isKept.nodup_tickets horderly.isNumbered

theorem works (h : p.Backs size ids) (hs : s.IsUngated) (hq : p.Works s q) : q.Backs size ids := by
  induction hq with
  | refl => exact h
  | tail _ hmove ih =>
    obtain ⟨w, hw⟩ := hmove
    obtain ⟨v, hv, rfl, hdropped⟩ := ih.exists_workshop
    obtain ⟨a, b, hmoved⟩ := hw.exists_moved
    refine ⟨⟨_, hv.step (.move hw), rfl, hdropped⟩, hmoved.isOpen_eq.trans ih.isOpen,
      hw.isFree hs ih.isFree, ?_⟩
    rw [hmoved.tickets_eq, map_fst_ticketsAfter, ih.tickets_eq]

/-- A submission may arise. -/
theorem exists_workshop_submit (h : p.Backs size ids) (source : List UInt8) :
    ∃ v, Workshop.Arises size v ∧ v.pool = (p.submit source).1 ∧ v.dropped = [] := by
  obtain ⟨v, hv, rfl, hdropped⟩ := h.exists_workshop
  -- no move of a worker belongs to a submission, so any service will do
  obtain ⟨v', x, hrun, hsubmit, -, -, hdropped', -⟩ := Workshop.exists_run_submit
    ⟨.standard, fun _ _ => .answer .missing, fun _ _ => false⟩ h.isOpen source
  refine ⟨v', hv.run hrun, ?_, hdropped'.trans hdropped⟩
  rw [hsubmit]

/-- When there is room, a request gets in, and there is a ticket more. -/
theorem submit_of_room (h : p.Backs size ids) (hroom : p.queue.length < size.capacity)
    (source : List UInt8) :
    ∃ id q, p.submit source = (q, .ok id) ∧ q.Backs size (ids ++ [id]) := by
  obtain ⟨halive, rfl, -⟩ := h.isOrderly
  have hsubmit := Pool.submit_of_room halive hroom source
  obtain ⟨v, hv, hpool, hdropped⟩ := h.exists_workshop_submit source
  rw [hsubmit] at hpool
  refine ⟨_, _, hsubmit, ⟨v, hv, hpool, hdropped⟩, h.isOpen, h.isFree, ?_⟩
  rw [List.map_append, h.tickets_eq]
  rfl

/-- When the queue is full, a request is refused, and the tickets stay. -/
theorem submit_of_full (h : p.Backs size ids) (hfull : size.capacity ≤ p.queue.length)
    (source : List UInt8) :
    ∃ q, p.submit source = (q, .error (.queueFull size.capacity)) ∧ q.Backs size ids := by
  obtain ⟨halive, rfl, -⟩ := h.isOrderly
  have hsubmit := Pool.submit_of_full halive hfull source
  obtain ⟨v, hv, hpool, hdropped⟩ := h.exists_workshop_submit source
  rw [hsubmit] at hpool
  exact ⟨_, hsubmit, ⟨v, hv, hpool, hdropped⟩, h.isOpen, h.isFree, h.tickets_eq⟩

/-- **A queue that is full means that there is a ticket to wait for**, and a submission fails for no
other reason. -/
theorem submit (h : p.Backs size ids) (hcapacity : 0 < size.capacity) (source : List UInt8) :
    (∃ id q, p.submit source = (q, .ok id) ∧ q.Backs size (ids ++ [id])) ∨
      ids ≠ [] ∧ ∃ q, p.submit source = (q, .error (.queueFull size.capacity)) ∧
        q.Backs size ids := by
  by_cases hroom : p.queue.length < size.capacity
  · exact .inl (h.submit_of_room hroom source)
  · refine .inr ⟨?_, h.submit_of_full (Nat.le_of_not_lt hroom) source⟩
    rintro rfl
    rw [h.queue_eq_nil] at hroom
    exact hroom hcapacity

/-- The first ticket is used up. -/
theorem take (h : p.Backs size (id :: ids)) {x : Result} (hx : p.take? id = some (q, x)) :
    q.Backs size ids := by
  obtain ⟨-, -, hnodup⟩ := h.isOrderly
  rw [← h.tickets_eq] at hnodup
  obtain ⟨v, hv, rfl, hdropped⟩ := h.exists_workshop
  have hcollect := hv.step (s := ⟨.standard, fun _ _ => .answer .missing, fun _ _ => false⟩)
    (.collect hx)
  obtain ⟨rfl, -⟩ := take?_eq_some hx
  exact ⟨⟨_, hcollect, rfl, hdropped⟩, h.isOpen, h.isFree, map_fst_dropTicket h.tickets_eq hnodup⟩

/-- When no worker can move, every ticket has its answer. -/
theorem hasAnswer (h : p.Backs size ids) (hquiet : p.IsQuiet s) (hid : id ∈ ids) :
    p.HasAnswer id := by
  obtain ⟨v, hv, rfl, -⟩ := h.exists_workshop
  obtain ⟨-, hkept, htold, hstaffed, -⟩ := Workshop.isOrderly_of_arises hv
  exact hasAnswer_of_isQuiet hkept htold hstaffed hquiet
    (fun _ _ _ key ha => h.isFree _ ha key) (h.tickets_eq ▸ hid)

end Backs

end Pool

/-! ## Taking turns -/

namespace Turns

variable {t : Turns} {s : Service} {size : PoolSize} {p : Pool} {id : Nat} {ids : List Nat}

/-- A submission is accepted, or else there is a ticket to wait for. -/
theorem Follows.submit_backs (ht : t.Follows s) (hs : s.IsUngated) (hcapacity : 0 < size.capacity)
    (h : p.Backs size ids) (source : List UInt8) :
    (∃ id q, t.submit p source = (q, .ok id) ∧ q.Backs size (ids ++ [id])) ∨
      ids ≠ [] ∧ ∃ q, t.submit p source = (q, .error (.queueFull size.capacity)) ∧
        q.Backs size ids := (h.works hs (ht.beforeSubmission p)).submit hcapacity source

/-- **Who waits patiently for the first ticket uses it up**, and the others are left. -/
theorem Follows.await_backs (ht : t.Follows s) (hpatient : t.IsPatient s) (hs : s.IsUngated)
    (h : p.Backs size (id :: ids)) : (t.await p id).1.Backs size ids := by
  have hworked := h.works hs (ht.untilAnswer id p)
  have hanswer : (t.untilAnswer id p).HasAnswer id :=
    (hpatient id p).elim (fun hanswer => hanswer) fun hquiet =>
      hworked.hasAnswer hquiet List.mem_cons_self
  obtain ⟨q, x, htake⟩ := hanswer
  unfold Turns.await
  dsimp only
  rw [htake]
  exact hworked.take htake

end Turns

end JobLoom
