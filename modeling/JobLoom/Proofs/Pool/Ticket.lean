import JobLoom.Proofs.Pool.Custody

/-!
# What tickets tell

A ticket that is held tells the answer of its request as soon as there is one, and nothing before.
What came out of a ticket that was used up is the answer of its request.
-/

namespace JobLoom

/-- A ticket after a worker has left a phase is an old one, for another request than the worker has
answered, or it tells the answer. -/
theorem Pool.mem_ticketsAfter {p : Pool} {a : Phase} {e : Nat × TicketState}
    (h : e ∈ p.ticketsAfter a) :
    (e ∈ p.tickets ∧ ∀ r x, a.answer? = some (r, x) → r.id ≠ e.1) ∨
      ∃ r x, a.answer? = some (r, x) ∧ e = (r.id, .ready x) := by
  cases a with
  | counted r x =>
    obtain ⟨e, he, rfl⟩ := List.mem_map.1 h
    split
    · exact .inr ⟨r, x, rfl, rfl⟩
    · next hne =>
      refine .inl ⟨he, fun r' x' ha => ?_⟩
      cases ha
      exact fun hid => hne hid.symm
  | _ => exact .inl ⟨h, nofun⟩

namespace Workshop

/-- What a ticket tells agrees with the record. -/
def Tells (v : Workshop) (e : Nat × TicketState) : Prop :=
  (e.2 = .pending ∧ ∀ a ∈ v.answered, a.1.id ≠ e.1) ∨
    ∃ a ∈ v.answered, a.1.id = e.1 ∧ e.2 = .ready a.2

/-- What the tickets tell and what they have told agrees with the record. -/
structure IsTold (v : Workshop) : Prop where
  /-- the tickets that are held -/
  tickets : ∀ e ∈ v.pool.tickets, v.Tells e
  /-- the tickets that were used up -/
  collected : ∀ e ∈ v.collected, ∃ a ∈ v.answered, a.1.id = e.1 ∧ a.2 = e.2

/-- There are no tickets before the first request. -/
theorem isTold_opened (size : PoolSize) : (opened (.fresh size)).IsTold :=
  ⟨nofun, nofun⟩

/-- What was answered was accepted. -/
theorem IsKept.mem_accepted {v : Workshop} (h : v.IsKept) {a : Request × Result}
    (ha : a ∈ v.answered) : a.1 ∈ v.accepted := by
  have htaken : a.1 ∈ v.taken :=
    h.taken_perm.mem_iff.2 (List.mem_append_left _ (List.mem_map_of_mem ha))
  rw [h.accepted_eq]
  exact List.mem_append_left _ htaken

/-- The ticket of a request that has just been accepted has nothing to tell yet. -/
theorem IsTold.advance {v : Workshop} (h : v.IsTold) (hkept : v.IsKept) {i : Nat}
    {b next : Submission} {q : Pool} (hq : v.pool.Advanced b q next)
    (hv : (v.advance i q next).IsNumbered) : (v.advance i q next).IsTold := by
  refine ⟨fun e he => ?_, h.collected⟩
  change e ∈ q.tickets at he
  rw [hq.tickets_eq] at he
  rcases List.mem_append.1 he with he | he
  · exact h.tickets e he
  · obtain ⟨r, hr, rfl⟩ := List.mem_map.1 he
    refine .inl ⟨rfl, fun a ha hid => ?_⟩
    -- the number of the new request is not among those accepted before
    have hnodup : ((v.accepted ++ next.accepted?.toList).map Request.id).Nodup := hv.nodup
    rw [List.map_append, List.nodup_append] at hnodup
    exact hnodup.2.2 a.1.id (List.mem_map_of_mem (hkept.mem_accepted ha)) r.id
      (List.mem_map_of_mem hr) hid

/-- A ticket still agrees with the record when other requests have been answered. -/
theorem Tells.of_append {v v' : Workshop} {e : Nat × TicketState} (h : v.Tells e)
    {new : List (Request × Result)} (hv : v'.answered = v.answered ++ new)
    (hnew : ∀ a ∈ new, a.1.id ≠ e.1) : v'.Tells e := by
  rw [Tells, hv]
  rcases h with ⟨hpending, hnone⟩ | ⟨a, ha, hid, hready⟩
  · refine .inl ⟨hpending, fun a ha => ?_⟩
    rcases List.mem_append.1 ha with ha | ha
    · exact hnone a ha
    · exact hnew a ha
  · exact .inr ⟨a, List.mem_append_left _ ha, hid, hready⟩

/-- The ticket of a request that has just been answered tells the answer. -/
theorem IsTold.follow {s : Service} {v : Workshop} (h : v.IsTold) {w : Nat} {a b : Phase} {q : Pool}
    (hq : v.pool.Moved s w a b q) : (v.follow w q).IsTold := by
  refine ⟨fun e he => ?_, fun e he => ?_⟩
  · change e ∈ q.tickets at he
    rw [hq.tickets_eq] at he
    rcases Pool.mem_ticketsAfter he with ⟨hold, hother⟩ | ⟨r, x, ha, rfl⟩
    · refine (h.tickets e hold).of_append (answered_follow hq) fun a' ha' => ?_
      exact hother a'.1 a'.2 (Option.mem_toList.1 ha')
    · refine .inr ⟨(r, x), ?_, rfl, rfl⟩
      rw [answered_follow hq, ha]
      exact List.mem_append_right _ (List.mem_singleton.2 rfl)
  · -- answers stay in the record
    obtain ⟨a', ha', hid, hx⟩ := h.collected e he
    refine ⟨a', ?_, hid, hx⟩
    rw [answered_follow hq]
    exact List.mem_append_left _ ha'

/-- A ticket that is used up tells an answer. -/
theorem IsTold.collect {v : Workshop} (h : v.IsTold) {id : Nat} {q : Pool} {x : Result}
    (hq : v.pool.take? id = some (q, x)) : (v.collect id q x).IsTold := by
  obtain ⟨rfl, hx⟩ := Pool.take?_eq_some hq
  refine ⟨fun e he => h.tickets e (List.mem_filter.1 he).1, fun e he => ?_⟩
  rcases List.mem_append.1 he with he | he
  · exact h.collected e he
  · cases List.mem_singleton.1 he
    rcases hx with hready | ⟨hlost, -⟩
    · rcases h.tickets _ (Pool.mem_tickets_of_lookup hready) with ⟨hpending, -⟩ | ⟨a, ha, hid, hax⟩
      · cases hpending
      · cases hax
        exact ⟨a, ha, hid, rfl⟩
    · -- no ticket is lost while the pool is alive
      rcases h.tickets _ (Pool.mem_tickets_of_lookup hlost) with ⟨hpending, -⟩ | ⟨a, -, -, hax⟩
      · cases hpending
      · cases hax

/-- Every step keeps what the tickets tell in agreement with the record. -/
theorem IsTold.step {s : Service} {v v' : Workshop} (h : v.IsTold) (hkept : v.IsKept)
    (hv : v'.IsNumbered) (hs : v.Step s v') : v'.IsTold := by
  cases hs with
  | begin source isOpen => exact ⟨h.tickets, h.collected⟩
  | advance place isUnderWay step =>
    exact h.advance hkept (Pool.advanced_of_advance isUnderWay step) hv
  | move move =>
    obtain ⟨a, b, hq⟩ := move.exists_moved
    exact h.follow hq
  | permit n => exact ⟨h.tickets, h.collected⟩
  | collect answer => exact h.collect answer
  | drop isHeld => exact ⟨fun e he => h.tickets e (List.mem_filter.1 he).1, h.collected⟩
  | close noneUnderWay => exact ⟨h.tickets, h.collected⟩

end Workshop

end JobLoom
