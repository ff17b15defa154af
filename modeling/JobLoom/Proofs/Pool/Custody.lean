import JobLoom.Proofs.Pool.Workshop

/-!
# Where the requests are

No request is lost, and none comes twice.

* **Numbers.** The submissions have the numbers from one on, so that no two requests share one.
* **Order.** What was taken out of the queue and what is still in it is what was accepted, in this
  order.
* **Custody.** What was taken out of the queue is answered, or one worker has it.
* **Tickets.** The ticket of an accepted request is with its caller, used up or dropped.
-/

namespace JobLoom

theorem perm_filterMap_set {α β : Type} {f : α → Option β} {l : List α} {i : Nat} {a b : α}
    (h : l[i]? = some a) :
    ((f a).toList ++ (l.set i b).filterMap f).Perm ((f b).toList ++ l.filterMap f) := by
  induction l generalizing i with
  | nil => cases h
  | cons first rest ih =>
    have hcons (c : α) (l : List α) : (c :: l).filterMap f = (f c).toList ++ l.filterMap f := by
      rw [List.filterMap_cons]
      cases f c <;> rfl
    cases i with
    | zero =>
      cases h
      rw [List.set_cons_zero, hcons, hcons, ← List.append_assoc, ← List.append_assoc]
      exact List.perm_append_comm.append_right _
    | succ i =>
      rw [List.set_cons_succ, hcons, hcons]
      refine (List.perm_append_comm_assoc _ _ _).trans ?_
      exact ((ih h).append_left _).trans (List.perm_append_comm_assoc _ _ _)

namespace Pool

theorem map_fst_ticketsAfter (p : Pool) (a : Phase) :
    (p.ticketsAfter a).map Prod.fst = p.tickets.map Prod.fst := by
  cases a with
  | counted r x =>
    change (p.tickets.map fun e => if e.1 = r.id then (r.id, TicketState.ready x) else e).map
      Prod.fst = _
    rw [List.map_map]
    refine List.map_congr_left fun e _ => ?_
    dsimp only [Function.comp]
    split
    · next he => exact he.symm
    · rfl
  | _ => rfl

/-- A ticket that is given up is no longer in the table, and all others are. -/
theorem perm_dropTicket {p : Pool} {id : Nat} (hids : (p.tickets.map Prod.fst).Nodup)
    (hid : id ∈ p.tickets.map Prod.fst) :
    (p.tickets.map Prod.fst).Perm (id :: (p.dropTicket id).tickets.map Prod.fst) := by
  have hrest : ((p.dropTicket id).tickets.map Prod.fst).Sublist (p.tickets.map Prod.fst) :=
    List.filter_sublist.map _
  have hgone : id ∉ (p.dropTicket id).tickets.map Prod.fst := by
    intro h
    obtain ⟨e, he, rfl⟩ := List.mem_map.1 h
    simpa using (List.mem_filter.1 he).2
  rw [List.perm_ext_iff_of_nodup hids (List.nodup_cons.2 ⟨hgone, hrest.nodup hids⟩)]
  intro n
  rw [List.mem_cons]
  constructor
  · intro hn
    obtain ⟨e, he, rfl⟩ := List.mem_map.1 hn
    by_cases hne : e.1 = id
    · exact .inl hne
    · exact .inr (List.mem_map.2 ⟨e, List.mem_filter.2 ⟨he, by simpa using hne⟩, rfl⟩)
  · rintro (rfl | hn)
    · exact hid
    · exact hrest.subset hn

/-- When the first ticket is given up, the others are left in their order. -/
theorem map_fst_dropTicket {p : Pool} {id : Nat} {ids : List Nat}
    (h : p.tickets.map Prod.fst = id :: ids) (hnodup : (p.tickets.map Prod.fst).Nodup) :
    (p.dropTicket id).tickets.map Prod.fst = ids := by
  have hfilter : (p.dropTicket id).tickets.map Prod.fst =
      (p.tickets.map Prod.fst).filter fun n => n ≠ id := by
    rw [dropTicket, List.filter_map]
    rfl
  rw [h, List.nodup_cons] at hnodup
  rw [hfilter, h, List.filter_cons_of_neg (by simp)]
  refine List.filter_eq_self.2 fun n hn => ?_
  simpa using fun heq : n = id => hnodup.1 (heq ▸ hn)

end Pool

namespace Workshop

/-! ## Numbers -/

/-- The submissions are numbered, and those that were accepted are recorded. -/
structure IsNumbered (v : Workshop) : Prop where
  /-- the numbers of the submissions -/
  ids_eq : v.submissions.map (fun b => b.request.id) = List.range' 1 v.submissions.length
  /-- the next number -/
  nextId_eq : v.pool.nextId = v.submissions.length + 1
  /-- the requests that were accepted -/
  accepted_perm : v.accepted.Perm (v.submissions.filterMap Submission.accepted?)

theorem isNumbered_opened (size : PoolSize) : (opened (.fresh size)).IsNumbered :=
  ⟨rfl, rfl, .refl _⟩

/-- The requests of submissions that were accepted have their numbers, in the same order. -/
theorem sublist_ids (bs : List Submission) :
    ((bs.filterMap Submission.accepted?).map Request.id).Sublist
      (bs.map fun b => b.request.id) := by
  induction bs with
  | nil => exact .slnil
  | cons b rest ih =>
    rw [List.filterMap_cons, List.map_cons, Submission.accepted?]
    cases hb : b.stage with
    | ended x =>
      cases x with
      | ok _ => exact ih.cons_cons _
      | error _ => exact ih.cons _
    | claimed | announced | refused | withdrawn | shut => exact ih.cons _

theorem IsNumbered.nodup {v : Workshop} (h : v.IsNumbered) : (v.accepted.map Request.id).Nodup := by
  rw [(h.accepted_perm.map Request.id).nodup_iff]
  refine (sublist_ids v.submissions).nodup ?_
  rw [h.ids_eq]
  exact List.nodup_range'

theorem IsNumbered.begin {v : Workshop} (h : v.IsNumbered) (source : List UInt8) :
    (v.begin source).IsNumbered where
  ids_eq := by
    simp [Workshop.begin, Pool.claim, h.ids_eq, h.nextId_eq, List.range'_concat, Nat.add_comm]
  nextId_eq := by
    simp [Workshop.begin, Pool.claim, h.nextId_eq]
  accepted_perm := by
    simp only [Workshop.begin, Pool.claim, List.filterMap_append]
    exact h.accepted_perm.trans (.of_eq (List.append_nil _).symm)

theorem IsNumbered.advance {v : Workshop} (h : v.IsNumbered) {i : Nat} {b next : Submission}
    {q : Pool} (hb : v.submissions[i]? = some b) (hunder : b.isEnded = false)
    (hq : v.pool.Advanced b q next) : (v.advance i q next).IsNumbered := by
  constructor
  case ids_eq =>
    change ((v.submissions.set i next).map fun b => b.request.id) =
      List.range' 1 (v.submissions.set i next).length
    rw [List.length_set, ← h.ids_eq, List.map_set, hq.request_eq]
    -- the number in the place is the one that was there before
    obtain ⟨hi, rfl⟩ := List.getElem?_eq_some_iff.1 hb
    have hi' : i < (v.submissions.map fun b => b.request.id).length := by rwa [List.length_map]
    rw [← List.getElem_map (fun b : Submission => b.request.id) (h := hi')]
    exact List.set_getElem_self hi'
  case nextId_eq =>
    change q.nextId = (v.submissions.set i next).length + 1
    rw [List.length_set, hq.nextId_eq, h.nextId_eq]
  case accepted_perm =>
    change (v.accepted ++ next.accepted?.toList).Perm
      ((v.submissions.set i next).filterMap Submission.accepted?)
    have hset := perm_filterMap_set (f := Submission.accepted?) (b := next) hb
    rw [Submission.accepted?_of_isEnded hunder] at hset
    exact (List.perm_append_comm.trans (h.accepted_perm.append_left _)).trans hset.symm

theorem IsNumbered.step {s : Service} {v v' : Workshop} (h : v.IsNumbered) (hs : v.Step s v') :
    v'.IsNumbered := by
  cases hs with
  | begin source isOpen => exact h.begin source
  | advance place isUnderWay step =>
    exact h.advance place isUnderWay (Pool.advanced_of_advance isUnderWay step)
  | move move =>
    obtain ⟨a, b, hq⟩ := move.exists_moved
    exact ⟨h.ids_eq, hq.nextId_eq.trans h.nextId_eq, h.accepted_perm⟩
  | permit n => exact ⟨h.ids_eq, h.nextId_eq, h.accepted_perm⟩
  | collect answer =>
    obtain ⟨rfl, -⟩ := Pool.take?_eq_some answer
    exact ⟨h.ids_eq, h.nextId_eq, h.accepted_perm⟩
  | drop isHeld => exact ⟨h.ids_eq, h.nextId_eq, h.accepted_perm⟩
  | close noneUnderWay => exact ⟨h.ids_eq, h.nextId_eq, h.accepted_perm⟩

/-! ## Custody -/

/-- Every accepted request has its place, and so has its ticket. -/
structure IsKept (v : Workshop) : Prop where
  /-- the accepted requests, in their order -/
  accepted_eq : v.accepted = v.taken ++ v.pool.queue
  /-- the requests that were taken out of the queue -/
  taken_perm : v.taken.Perm
    (v.answered.map Prod.fst ++ v.pool.workers.filterMap Phase.request?)
  /-- the tickets of the accepted requests -/
  tickets_perm : (v.accepted.map Request.id).Perm
    (v.pool.tickets.map Prod.fst ++ (v.collected.map Prod.fst ++ v.dropped))

/-- Nothing is anywhere before the first request. -/
theorem isKept_opened (size : PoolSize) : (opened (.fresh size)).IsKept := by
  refine ⟨rfl, .of_eq ?_, .refl _⟩
  change [] = [] ++ (List.replicate size.workers Phase.idle).filterMap Phase.request?
  rw [List.filterMap_replicate]
  rfl

/-- A move hands a request on. -/
theorem IsKept.follow {s : Service} {v : Workshop} (h : v.IsKept) {w : Nat} {a b : Phase} {q : Pool}
    (hq : v.pool.Moved s w a b q) : (v.follow w q).IsKept := by
  constructor
  case accepted_eq =>
    rw [taken_follow hq, List.append_assoc]
    change v.accepted = v.taken ++ (b.taken?.toList ++ q.queue)
    rw [← hq.queue_eq, h.accepted_eq]
  case taken_perm =>
    rw [taken_follow hq, answered_follow hq]
    change (v.taken ++ b.taken?.toList).Perm
      ((v.answered ++ a.answer?.toList).map Prod.fst ++ q.workers.filterMap Phase.request?)
    have hset := perm_filterMap_set (f := Phase.request?) (b := b) hq.phase_eq
    have hanswer : a.answer?.toList.map Prod.fst = (a.answer?.map Prod.fst).toList := by
      cases a.answer? <;> rfl
    rw [hq.workers_eq, List.map_append, hanswer]
    -- every request is counted in the places before and after the move
    refine List.perm_iff_count.2 fun r => ?_
    have hbefore := h.taken_perm.count_eq r
    have hworkers := hset.count_eq r
    have hgoes := congrArg (List.count r) hq.goes.request?_eq
    simp only [List.count_append] at hbefore hworkers hgoes ⊢
    omega
  case tickets_perm =>
    change (v.accepted.map Request.id).Perm
      (q.tickets.map Prod.fst ++ (v.collected.map Prod.fst ++ v.dropped))
    rw [hq.tickets_eq, Pool.map_fst_ticketsAfter]
    exact h.tickets_perm

/-- An accepted request goes to the end of the queue, and its caller has a ticket. -/
theorem IsKept.advance {v : Workshop} (h : v.IsKept) {i : Nat} {b next : Submission} {q : Pool}
    (hq : v.pool.Advanced b q next) : (v.advance i q next).IsKept := by
  constructor
  case accepted_eq =>
    change v.accepted ++ next.accepted?.toList = v.taken ++ q.queue
    rw [hq.queue_eq, h.accepted_eq, List.append_assoc]
  case taken_perm =>
    change v.taken.Perm (v.answered.map Prod.fst ++ q.workers.filterMap Phase.request?)
    rw [hq.workers_eq]
    exact h.taken_perm
  case tickets_perm =>
    change ((v.accepted ++ next.accepted?.toList).map Request.id).Perm
      (q.tickets.map Prod.fst ++ (v.collected.map Prod.fst ++ v.dropped))
    have hnew : next.accepted?.toList.map Request.id =
        (next.accepted?.toList.map fun r => (r.id, TicketState.pending)).map Prod.fst := by
      rw [List.map_map]
      rfl
    rw [hq.tickets_eq, List.map_append, List.map_append, hnew]
    refine List.perm_iff_count.2 fun n => ?_
    have hbefore := h.tickets_perm.count_eq n
    simp only [List.count_append] at hbefore ⊢
    omega

/-- The tickets that are held have different numbers. -/
theorem IsKept.nodup_tickets {v : Workshop} (h : v.IsKept) (hv : v.IsNumbered) :
    (v.pool.tickets.map Prod.fst).Nodup :=
  (List.nodup_append.1 (h.tickets_perm.nodup_iff.1 hv.nodup)).1

theorem IsKept.collect {v : Workshop} (h : v.IsKept) (hv : v.IsNumbered) {id : Nat} {q : Pool}
    {x : Result} (hx : v.pool.take? id = some (q, x)) : (v.collect id q x).IsKept := by
  obtain ⟨rfl, -⟩ := Pool.take?_eq_some hx
  refine ⟨h.accepted_eq, h.taken_perm, ?_⟩
  change (v.accepted.map Request.id).Perm ((v.pool.dropTicket id).tickets.map Prod.fst ++
    ((v.collected ++ [(id, x)]).map Prod.fst ++ v.dropped))
  refine List.perm_iff_count.2 fun n => ?_
  have hbefore := h.tickets_perm.count_eq n
  have hgone := (Pool.perm_dropTicket (h.nodup_tickets hv) (Pool.mem_ids_of_take? hx)).count_eq n
  rw [List.map_append, List.map_singleton]
  simp only [List.count_append, List.count_cons, List.count_nil] at hbefore hgone ⊢
  omega

theorem IsKept.drop {v : Workshop} (h : v.IsKept) (hv : v.IsNumbered) {id : Nat}
    (hid : v.pool.holdsTicket id = true) : (v.drop id).IsKept := by
  refine ⟨h.accepted_eq, h.taken_perm, ?_⟩
  change (v.accepted.map Request.id).Perm ((v.pool.dropTicket id).tickets.map Prod.fst ++
    (v.collected.map Prod.fst ++ (v.dropped ++ [id])))
  refine List.perm_iff_count.2 fun n => ?_
  have hbefore := h.tickets_perm.count_eq n
  have hgone :=
    (Pool.perm_dropTicket (h.nodup_tickets hv) (Pool.mem_ids_of_holdsTicket hid)).count_eq n
  simp only [List.count_append, List.count_cons, List.count_nil] at hbefore hgone ⊢
  omega

/-- Every step keeps every request in its place. -/
theorem IsKept.step {s : Service} {v v' : Workshop} (h : v.IsKept) (hv : v.IsNumbered)
    (hs : v.Step s v') : v'.IsKept := by
  cases hs with
  | begin source isOpen => exact ⟨h.accepted_eq, h.taken_perm, h.tickets_perm⟩
  | advance place isUnderWay step => exact h.advance (Pool.advanced_of_advance isUnderWay step)
  | move move =>
    obtain ⟨a, b, hq⟩ := move.exists_moved
    exact h.follow hq
  | permit n => exact ⟨h.accepted_eq, h.taken_perm, h.tickets_perm⟩
  | collect answer => exact h.collect hv answer
  | drop isHeld => exact h.drop hv isHeld
  | close noneUnderWay => exact ⟨h.accepted_eq, h.taken_perm, h.tickets_perm⟩

end Workshop

end JobLoom
