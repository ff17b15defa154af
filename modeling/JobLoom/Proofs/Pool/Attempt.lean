import JobLoom.Proofs.Pool.Delivery

/-!
# What a submission counts for

* **Counters.** A submission is counted as queued from before it is sent until its request is in the
  queue or it was turned away, and it is counted as rejected when it is told so. Every step but the one
  in which a request is accepted changes the counters and nothing else.
* **Bounds.** Since a request gets into the queue only when there is room, the queue does not outgrow
  its capacity. As long as the pool is alive no submission finds it gone, so what does not get in has
  found the queue full.
-/

namespace JobLoom

namespace Submission

/-- The submission is counted as queued, though its request is not in the queue. -/
def isAnnounced (b : Submission) : Bool :=
  match b.stage with
  | .announced | .refused | .shut => true
  | .claimed | .withdrawn | .ended _ => false

/-- The submission was told that the queue is full. -/
def isRejected (b : Submission) : Bool :=
  match b.stage with
  | .ended (.error (.queueFull _)) => true
  | _ => false

/-- The submission has found the queue full at this capacity, and will be told so or has been. -/
def IsRefused (capacity : Nat) (b : Submission) : Prop :=
  b.stage = .refused ∨ b.stage = .withdrawn ∨ b.stage = .ended (.error (.queueFull capacity))

end Submission

namespace Pool

variable {p q : Pool} {b next : Submission}

namespace Proceeds

/-- A submission is counted as queued from before it is sent until its request is in the queue or it
has not got in. -/
theorem queued_eq (h : p.Proceeds b q next) (hpos : b.isAnnounced = true → 0 < p.stats.queued) :
    q.stats.queued + b.isAnnounced.toNat =
      p.stats.queued + next.isAnnounced.toNat + next.accepted?.toList.length := by
  cases h with
  | announce stage | accept stage | refuse stage | reject stage | miss stage =>
    simp [Submission.isAnnounced, Submission.accepted?, stage]
  | withdraw stage | leave stage =>
    have hb : b.isAnnounced = true := by simp [Submission.isAnnounced, stage]
    have hqueued := hpos hb
    rw [hb]
    change p.stats.queued - 1 + 1 = p.stats.queued + 0 + 0
    omega

/-- A submission that is under way was not rejected yet. -/
theorem isRejected_eq (h : p.Proceeds b q next) : b.isRejected = false := by
  cases h <;> simp [Submission.isRejected, *]

/-- A submission is counted as rejected when it is told so. -/
theorem rejected_eq (h : p.Proceeds b q next) :
    q.stats.rejected = p.stats.rejected + next.isRejected.toNat := by
  cases h <;> rfl

/-- As long as a request is not accepted, its submission changes nothing but the counters. -/
theorem eq_of_not_accepted (h : p.Proceeds b q next) (hnone : next.accepted? = none) :
    q = { p with stats := q.stats } := by
  cases h with
  | accept stage room => cases hnone
  | announce | refuse | withdraw | reject | miss | leave => rfl

end Proceeds

end Pool

namespace Workshop

/-! ## Bounds -/

/-- The pool has the size that it was started with, and keeps to it. -/
structure IsBounded (size : PoolSize) (v : Workshop) : Prop where
  /-- its size -/
  size_eq : v.pool.size = size
  /-- its workers -/
  workers_length : v.pool.workers.length = size.workers
  /-- its queue -/
  queue_le : v.pool.queue.length ≤ size.capacity
  /-- no submission finds the pool gone -/
  stage_ne_shut : ∀ b ∈ v.submissions, b.stage ≠ .shut
  /-- a submission that fails does so because the queue is full -/
  error_eq : ∀ b ∈ v.submissions, ∀ e, b.stage = .ended (.error e) → e = .queueFull size.capacity

theorem isBounded_opened (size : PoolSize) : (opened (.fresh size)).IsBounded size where
  size_eq := rfl
  workers_length := List.length_replicate
  queue_le := Nat.zero_le _
  stage_ne_shut := nofun
  error_eq := nofun

variable {s : Service} {size : PoolSize} {v : Workshop}

theorem IsBounded.advance (h : v.IsBounded size) (halive : v.pool.isAlive = true) {i : Nat}
    {b next : Submission} {q : Pool} (hb : v.submissions[i]? = some b)
    (hq : v.pool.Proceeds b q next) : (v.advance i q next).IsBounded size where
  size_eq := by cases hq <;> exact h.size_eq
  workers_length := by
    change q.workers.length = size.workers
    rw [hq.advanced.workers_eq]
    exact h.workers_length
  queue_le := by
    cases hq with
    | accept stage room =>
      change (v.pool.queue ++ [b.request]).length ≤ size.capacity
      rw [List.length_append, ← h.size_eq]
      exact room
    | announce | refuse | withdraw | reject | miss | leave => exact h.queue_le
  stage_ne_shut := by
    intro c hc
    rcases List.mem_or_eq_of_mem_set hc with hc | rfl
    · exact h.stage_ne_shut c hc
    · cases hq with
      | miss stage gone => exact nomatch halive.symm.trans gone
      | announce | accept | refuse | withdraw | reject | leave => exact nofun
  error_eq := by
    intro c hc e he
    rcases List.mem_or_eq_of_mem_set hc with hc | rfl
    · exact h.error_eq c hc e he
    · cases hq with
      | reject stage =>
        cases he
        rw [h.size_eq]
      | leave stage => exact absurd stage (h.stage_ne_shut b (List.mem_of_getElem? hb))
      | announce | accept | refuse | withdraw | miss => cases he

theorem IsBounded.step {v' : Workshop} (h : v.IsBounded size) (halive : v.pool.isAlive = true)
    (hs : v.Step s v') : v'.IsBounded size := by
  cases hs with
  | begin source isOpen =>
    refine ⟨h.size_eq, h.workers_length, h.queue_le, fun b hb => ?_, fun b hb e he => ?_⟩
    · rcases List.mem_append.1 hb with hb | hb
      · exact h.stage_ne_shut b hb
      · cases List.mem_singleton.1 hb
        exact nofun
    · rcases List.mem_append.1 hb with hb | hb
      · exact h.error_eq b hb e he
      · cases List.mem_singleton.1 hb
        cases he
  | advance place isUnderWay step =>
    exact h.advance halive place (Pool.proceeds_of_advance isUnderWay step)
  | move move =>
    obtain ⟨a, b, hq⟩ := move.exists_moved
    refine ⟨hq.size_eq.trans h.size_eq, ?_, ?_, h.stage_ne_shut, h.error_eq⟩
    · rw [← h.workers_length, follow, hq.workers_eq, List.length_set]
    · -- the queue gets shorter or stays
      have hqueue := congrArg List.length hq.queue_eq
      have hle := h.queue_le
      rw [List.length_append] at hqueue
      dsimp only [follow]
      omega
  | permit n => exact ⟨h.size_eq, h.workers_length, h.queue_le, h.stage_ne_shut, h.error_eq⟩
  | collect answer =>
    obtain ⟨rfl, -⟩ := Pool.take?_eq_some answer
    exact ⟨h.size_eq, h.workers_length, h.queue_le, h.stage_ne_shut, h.error_eq⟩
  | drop isHeld => exact ⟨h.size_eq, h.workers_length, h.queue_le, h.stage_ne_shut, h.error_eq⟩
  | close noneUnderWay =>
    exact ⟨h.size_eq, h.workers_length, h.queue_le, h.stage_ne_shut, h.error_eq⟩

theorem isBounded_of_reachable (h : Reachable s size v) : v.IsBounded size := by
  induction h with
  | start started =>
    obtain ⟨rfl, -⟩ := Pool.start_eq_ok started
    exact isBounded_opened size
  | step hv hs ih => exact ih.step (invariant_of_reachable hv).isStaffed.isAlive hs

end Workshop

end JobLoom
