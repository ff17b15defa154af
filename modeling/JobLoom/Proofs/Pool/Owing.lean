import JobLoom.Proofs.Pool.Progress

/-!
# A caller who waits for everything

Somebody submits workflow files to a pool and waits for the answers in their order, but not right
away.

* **Owed** are the answers to the requests that were accepted and not waited for. These are the
  requests that the caller has tickets for, and whatever is in the queue is one of them.
* **Room.** When nothing is owed the queue is empty. So a submission can only fail as long as there is
  something to wait for.
-/

namespace JobLoom

namespace Pool

/-- A pool owes its only caller the answers to these requests, and no others. -/
structure Owes (s : Service) (size : PoolSize) (p : Pool) (rs : List Request) : Prop where
  /-- it has accepted them -/
  serves : p.Serves s size rs
  /-- the caller has their tickets, in order -/
  tickets_eq : p.tickets.map Prod.fst = rs.map Request.id
  /-- what is in the queue is among them -/
  queue_subset : ∀ r ∈ p.queue, r.id ∈ rs.map Request.id

variable {s : Service} {size : PoolSize} {p q : Pool} {rs : List Request}

/-- Fewer requests may be looked at. -/
theorem Serves.mono (h : p.Serves s size rs) {rs' : List Request} (hrs : rs' ⊆ rs) :
    p.Serves s size rs' := by
  obtain ⟨v, hv, hpool, hopen, haccepted⟩ := h
  exact ⟨v, hv, hpool, hopen, fun r hr => haccepted (hrs hr)⟩

/-- A pool that serves is alive and has the size that it was started with. -/
theorem Serves.isAlive (h : p.Serves s size rs) : p.isAlive = true ∧ p.size = size := by
  obtain ⟨v, hv, rfl, -, -⟩ := h
  exact ⟨(Workshop.invariant_of_reachable hv).isStaffed.isAlive,
    (Workshop.isBounded_of_reachable hv).size_eq⟩

/-- A request that has its answer is not in the queue. -/
theorem Serves.not_queued_of_take (h : p.Serves s size rs) {id : Nat} {x : Result}
    (hx : p.take? id = some (q, x)) : ∀ r ∈ p.queue, r.id ≠ id := by
  obtain ⟨v, hv, rfl, -, -⟩ := h
  obtain ⟨hnumbered, hkept, -, -, -⟩ := Workshop.invariant_of_reachable hv
  have hcollect := Workshop.invariant_of_reachable (hv.step (.collect hx))
  obtain ⟨a, ha, hid, -⟩ := hcollect.isTold.collected (id, x)
    (List.mem_append_right _ (List.mem_singleton.2 rfl))
  have htaken : a.1 ∈ v.taken :=
    hkept.taken_perm.mem_iff.2 (List.mem_append_left _ (List.mem_map_of_mem ha))
  have hids := hnumbered.nodup
  rw [hkept.accepted_eq, List.map_append] at hids
  intro r hr hrid
  exact (List.nodup_append.1 hids).2.2 _ (List.mem_map_of_mem htaken) _ (List.mem_map_of_mem hr)
    (hid.trans hrid.symm)

/-- Nothing gets into the queue while the workers get on. -/
theorem queue_subset_of_works (h : p.Works s q) : q.queue ⊆ p.queue := by
  induction h with
  | refl => exact List.Subset.refl _
  | tail _ hmove ih =>
    obtain ⟨w, hw⟩ := hmove
    obtain ⟨a, b, hq⟩ := hw.exists_moved
    intro r hr
    refine ih ?_
    rw [hq.queue_eq]
    exact List.mem_append_right _ hr

theorem owes_start (h : start size = .ok p) : p.Owes s size [] := by
  refine ⟨serves_start h, ?_, ?_⟩
  · rw [(start_eq_ok h).1]
    rfl
  · rw [(start_eq_ok h).1]
    exact nofun

namespace Owes

/-- When nothing is owed the queue is empty. -/
theorem queue_eq_nil (h : p.Owes s size []) : p.queue = [] :=
  List.eq_nil_iff_forall_not_mem.2 fun r hr => nomatch h.queue_subset r hr

theorem works (h : p.Owes s size rs) (hq : p.Works s q) : q.Owes s size rs where
  serves := h.serves.works hq
  tickets_eq := (ids_of_works hq).trans h.tickets_eq
  queue_subset r hr := h.queue_subset r (queue_subset_of_works hq hr)

theorem submit_of_room (h : p.Owes s size rs) (hroom : p.queue.length < size.capacity)
    (source : List UInt8) :
    ∃ id q, p.submit source = (q, .ok id) ∧ q.Owes s size (rs ++ [⟨id, source⟩]) := by
  obtain ⟨halive, hsize⟩ := h.serves.isAlive
  have hsubmit := Pool.submit_of_room halive (hsize ▸ hroom) source
  refine ⟨_, _, hsubmit, (h.serves.submit hsubmit).2 _ rfl, ?_, fun r hr => ?_⟩
  · rw [List.map_append, List.map_append, h.tickets_eq]
    rfl
  · rw [List.map_append]
    rcases List.mem_append.1 hr with hr | hr
    · exact List.mem_append_left _ (h.queue_subset r hr)
    · cases List.mem_singleton.1 hr
      exact List.mem_append_right _ (List.mem_singleton.2 rfl)

theorem submit_of_full (h : p.Owes s size rs) (hfull : size.capacity ≤ p.queue.length)
    (source : List UInt8) :
    ∃ q, p.submit source = (q, .error (.queueFull size.capacity)) ∧ q.Owes s size rs := by
  obtain ⟨halive, hsize⟩ := h.serves.isAlive
  have hsubmit := Pool.submit_of_full halive (hsize ▸ hfull) source
  rw [hsize] at hsubmit
  exact ⟨_, hsubmit, (h.serves.submit hsubmit).1, h.tickets_eq, h.queue_subset⟩

/-- The oldest answer is taken. -/
theorem take {r : Request} (h : p.Owes s size (r :: rs)) {x : Result}
    (hx : p.take? r.id = some (q, x)) : q.Owes s size rs ∧ s.AnswersTo r.source x := by
  obtain ⟨hserves, hanswer⟩ := h.serves.take List.mem_cons_self hx
  have hnodup : (p.tickets.map Prod.fst).Nodup := by
    obtain ⟨v, hv, rfl, -, -⟩ := h.serves
    obtain ⟨hnumbered, hkept, -, -, -⟩ := Workshop.invariant_of_reachable hv
    exact hkept.nodup_tickets hnumbered
  have hqueued := h.serves.not_queued_of_take hx
  obtain ⟨rfl, -⟩ := take?_eq_some hx
  refine ⟨⟨hserves.mono (List.subset_cons_self _ _), map_fst_dropTicket h.tickets_eq hnodup,
    fun r' hr' => ?_⟩, hanswer⟩
  rcases List.mem_cons.1 (h.queue_subset r' hr') with hid | hid
  · exact absurd hid (hqueued r' hr')
  · exact hid

end Owes

end Pool

namespace Turns

variable {t : Turns} {s : Service} {size : PoolSize} {p : Pool} {rs : List Request}

/-- **A submission fails only when something is owed**, and then because the queue is full. -/
theorem Follows.submit_owes (ht : t.Follows s) (hcapacity : 0 < size.capacity)
    (h : p.Owes s size rs) (source : List UInt8) :
    (∃ id q, t.submit p source = (q, .ok id) ∧ q.Owes s size (rs ++ [⟨id, source⟩])) ∨
      rs ≠ [] ∧ ∃ q, t.submit p source = (q, .error (.queueFull size.capacity)) ∧
        q.Owes s size rs := by
  have hworked := h.works (ht.beforeSubmission p)
  by_cases hroom : (t.beforeSubmission p).queue.length < size.capacity
  · exact .inl (hworked.submit_of_room hroom source)
  · refine .inr ⟨?_, hworked.submit_of_full (Nat.le_of_not_lt hroom) source⟩
    rintro rfl
    rw [hworked.queue_eq_nil] at hroom
    exact hroom hcapacity

/-- **Who waits patiently gets the oldest answer that is owed**, and only the others are owed then. -/
theorem Follows.await_owes (ht : t.Follows s) (hpatient : t.IsPatient s) (hs : s.IsUngated)
    {r : Request} (h : p.Owes s size (r :: rs)) :
    ∃ q x, t.await p r.id = (q, x) ∧ q.Owes s size rs ∧ s.AnswersTo r.source x := by
  have hheld : r.id ∈ p.tickets.map Prod.fst := by
    rw [h.tickets_eq]
    exact List.mem_cons_self
  obtain ⟨q, x, htake⟩ := ht.hasAnswer hpatient hs h.serves hheld
  obtain ⟨howes, hanswer⟩ := (h.works (ht.untilAnswer r.id p)).take htake
  refine ⟨q, x, ?_, howes, hanswer⟩
  unfold Turns.await
  dsimp only
  rw [htake]
  rfl

end Turns

end JobLoom
