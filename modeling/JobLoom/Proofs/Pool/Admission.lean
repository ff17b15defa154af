import Mathlib.Logic.Relation
import JobLoom.Proofs.Pool.Accounts

/-!
# What a pool takes in

A pool takes in what it has room for, and nothing more. When a request is sent, the length of the
queue decides what comes of its submission: it is refused if the queue is full, and accepted
otherwise. This holds in whatever order the callers and the workers act, since a refused submission
stays refused whatever happens next.

* **Refused** submissions change nothing but the counters.
* **Bursts.** When every worker is held up in a lookup, nothing leaves the queue. Of all submissions
  that come then, as many are accepted as the queue has room for, and the others are rejected.
-/

namespace JobLoom

open Relation (ReflTransGen)

namespace Pool

variable {s : Service} {p q : Pool} {b next : Submission}

namespace Proceeds

/-- A submission is refused when it is sent to a queue that is full, and accepted when there is
room. -/
theorem sent (h : p.Proceeds b q next) (hsent : b.stage = .announced) (halive : p.isAlive = true) :
    (p.size.capacity ≤ p.queue.length ∧ next.stage = .refused) ∨
      (p.queue.length < p.size.capacity ∧ next.stage = .ended (.ok ())) := by
  cases h with
  | accept stage room => exact .inr ⟨room, rfl⟩
  | refuse stage full => exact .inl ⟨full, rfl⟩
  | miss stage gone => cases halive.symm.trans gone
  | announce stage | withdraw stage | reject stage | leave stage => cases stage.symm.trans hsent

theorem isRefused (h : p.Proceeds b q next) (hrefused : b.IsRefused p.size.capacity) :
    next.IsRefused p.size.capacity := by
  cases h with
  | withdraw stage => exact .inr (.inl rfl)
  | reject stage => exact .inr (.inr rfl)
  | announce stage | accept stage | refuse stage | miss stage | leave stage =>
    rcases hrefused with h | h | h <;> cases stage.symm.trans h

/-- A submission is refused only when the queue is full, unless it was refused before. -/
theorem full_of_isRefused (h : p.Proceeds b q next) {capacity : Nat}
    (hrefused : next.IsRefused capacity) (hbefore : ¬ b.IsRefused capacity) :
    p.size.capacity ≤ p.queue.length := by
  cases h with
  | refuse stage full => exact full
  | withdraw stage => exact absurd (.inl stage) hbefore
  | reject stage => exact absurd (.inr (.inl stage)) hbefore
  | announce stage | accept stage | miss stage => rcases hrefused with h | h | h <;> cases h
  | leave stage => rcases hrefused with h | h | h <;> cases h

end Proceeds

/-! ## Submissions that nobody interrupts -/

/-- A full pool refuses a request, and only the number and the count of the rejected change. -/
theorem submit_of_full (halive : p.isAlive = true) (hfull : p.size.capacity ≤ p.queue.length)
    (source : List UInt8) : p.submit source =
      ({ p with
          nextId := p.nextId + 1
          stats := { p.stats with rejected := p.stats.rejected + 1 } },
        .error (.queueFull p.size.capacity)) := by
  simp [submit, advanceBy, claim, advance, send, halive, Nat.not_lt.2 hfull]

theorem submit_of_room (halive : p.isAlive = true) (hroom : p.queue.length < p.size.capacity)
    (source : List UInt8) : p.submit source =
      ({ p with
          nextId := p.nextId + 1
          queue := p.queue ++ [⟨p.nextId, source⟩]
          tickets := p.tickets ++ [(p.nextId, .pending)]
          stats := { p.stats with queued := p.stats.queued + 1 } },
        .ok p.nextId) := by
  simp [submit, advanceBy, claim, advance, send, halive, hroom]

end Pool

/-- Two more steps tell a refused submission what has become of it. -/
theorem Submission.IsRefused.told {b : Submission} {p : Pool} (h : b.IsRefused p.size.capacity) :
    (Pool.advanceBy 2 (p, b)).2 = ⟨b.request, .ended (.error (.queueFull p.size.capacity))⟩ := by
  obtain ⟨r, stage⟩ := b
  rcases h with h | h | h <;> cases h <;> rfl

/-! ## Runs -/

namespace Workshop

variable {s : Service} {size : PoolSize} {v v' : Workshop} {i : Nat} {b : Submission}

/-- In a step of the workshop a submission stays as it is, unless it is the one that goes on. -/
theorem Step.submission (hs : v.Step s v') (hi : v.submissions[i]? = some b) :
    v'.submissions[i]? = some b ∨ ∃ q next, b.isEnded = false ∧ v.pool.Proceeds b q next ∧
      v'.submissions[i]? = some next := by
  cases hs with
  | begin source isOpen =>
    left
    change (v.submissions ++ _)[i]? = some b
    rw [List.getElem?_append_left (List.getElem?_eq_some_iff.1 hi).1]
    exact hi
  | @advance j c next q place isUnderWay step =>
    change (v.submissions.set j next)[i]? = some b ∨ _
    by_cases hij : j = i
    · subst hij
      cases Option.some.inj (hi.symm.trans place)
      right
      exact ⟨q, next, isUnderWay, Pool.proceeds_of_advance isUnderWay step,
        List.getElem?_set_self (List.getElem?_eq_some_iff.1 hi).1⟩
    · left
      rw [List.getElem?_set_ne hij]
      exact hi
  | move move => exact .inl hi
  | permit n => exact .inl hi
  | collect answer => exact .inl hi
  | drop isHeld => exact .inl hi
  | close noneUnderWay => exact .inl hi

theorem submission_of_isEnded (hrun : ReflTransGen (Step s) v v') (hi : v.submissions[i]? = some b)
    (hended : b.isEnded = true) : v'.submissions[i]? = some b := by
  induction hrun with
  | refl => exact hi
  | tail _ hs ih =>
    rcases hs.submission ih with hsame | ⟨q, next, hunder, -, -⟩
    · exact hsame
    · cases hended.symm.trans hunder

theorem submission_of_isRefused (h : Reachable s size v) (hrun : ReflTransGen (Step s) v v')
    (hi : v.submissions[i]? = some b) (hrefused : b.IsRefused size.capacity) :
    ∃ c, v'.submissions[i]? = some c ∧ c.request = b.request ∧ c.IsRefused size.capacity := by
  induction hrun with
  | refl => exact ⟨b, hi, rfl, hrefused⟩
  | tail hbefore hs ih =>
    obtain ⟨c, hc, hrequest, hrefused⟩ := ih
    have hsize := (isBounded_of_reachable (h.run hbefore)).size_eq
    rcases hs.submission hc with hsame | ⟨q, next, -, hq, hnext⟩
    · exact ⟨c, hsame, hrequest, hrefused⟩
    · rw [← hsize] at hrefused ⊢
      exact ⟨next, hnext, hq.advanced.request_eq.trans hrequest, hq.isRefused hrefused⟩

/-! ## Bursts -/

end Workshop

/-- A worker is held up: one of its lookups waits for a permit, and none of the others can end its
conversion before. -/
def Phase.IsHeldUp (s : Service) : Phase → Prop
  | .asking _ _ lookups => (∃ key, .waiting key ∈ lookups) ∧
      ∀ key text, .unasked (some key) ∈ lookups → s.isGated s.converter.space key = false →
        s.store s.converter.space key ≠ .crash text
  | _ => False

namespace Phase.IsHeldUp

variable {s : Service} {a : Phase}

theorem taken?_eq (h : a.IsHeldUp s) : a.taken? = none := by
  cases a with
  | received r => exact h.elim
  | _ => rfl

/-- A worker stays held up when one of its lookups is asked for. -/
theorem set {r : Request} {plan : Plan} {lookups : List Lookup} {i : Nat} {l : Lookup}
    {key : Option String} (h : (Phase.asking r plan lookups).IsHeldUp s)
    (hi : lookups[i]? = some (.unasked key)) (hl : ∀ key, l ≠ .unasked key) :
    (Phase.asking r plan (lookups.set i l)).IsHeldUp s := by
  obtain ⟨⟨waited, hwaiting⟩, hcrash⟩ := h
  refine ⟨⟨waited, ?_⟩, fun key' text hkey' => ?_⟩
  · -- the lookup that waits is another one
    obtain ⟨j, hj⟩ := List.mem_iff_getElem?.1 hwaiting
    have hij : i ≠ j := by
      rintro rfl
      cases hi.symm.trans hj
    refine List.mem_of_getElem? (i := j) ?_
    rw [List.getElem?_set_ne hij]
    exact hj
  · rcases List.mem_or_eq_of_mem_set hkey' with hold | hnew
    · exact hcrash key' text hold
    · exact absurd hnew.symm (hl _)

end Phase.IsHeldUp

/-- A lookup that waits for a permit has no answer. -/
theorem waiting_not_mem_of_answers {lookups : List Lookup} {answers : List (Option Answer)}
    (h : lookups.mapM Lookup.answer? = some answers) (key : String) : .waiting key ∉ lookups := by
  induction lookups generalizing answers with
  | nil => exact List.not_mem_nil
  | cons l rest ih =>
    rw [List.mapM_cons] at h
    obtain ⟨a, hl, h⟩ := Option.bind_eq_some_iff.1 h
    obtain ⟨others, hothers, -⟩ := Option.bind_eq_some_iff.1 h
    rw [List.mem_cons]
    rintro (rfl | hrest)
    · cases hl
    · exact ih hothers hrest

/-- All workers are held up. -/
def Pool.IsHeldUp (s : Service) (p : Pool) : Prop := ∀ a ∈ p.workers, a.IsHeldUp s

namespace Pool.IsHeldUp

variable {s : Service} {p q : Pool} {w : Nat}

/-- One worker does something else, and is held up in it. -/
theorem setPhase (h : p.IsHeldUp s) {a : Phase} (ha : a.IsHeldUp s) : (p.setPhase w a).IsHeldUp s :=
  fun c hc => by
    rcases List.mem_or_eq_of_mem_set hc with hc | rfl
    · exact h c hc
    · exact ha

/-- Without permits, workers that are held up only ask for more lookups. -/
theorem moves (h : p.IsHeldUp s) (hpermits : p.permits = 0) (hq : p.Moves s w q) :
    q.IsHeldUp s := by
  cases hq with
  | step hwork =>
    unfold work? at hwork
    obtain ⟨a, ha, hwork⟩ := Option.bind_eq_some_iff.1 hwork
    have hheld := h a (List.mem_of_getElem? ha)
    cases a with
    | asking r plan lookups =>
      obtain ⟨answers, hanswers, -⟩ := Option.bind_eq_some_iff.1 hwork
      obtain ⟨⟨key, hwaiting⟩, -⟩ := hheld
      exact absurd hwaiting (waiting_not_mem_of_answers hanswers key)
    | _ => exact hheld.elim
  | ask i hask =>
    unfold ask? at hask
    split at hask
    case h_2 => cases hask
    case h_1 r plan lookups ha =>
      have hheld := h _ (List.mem_of_getElem? ha)
      split at hask
      · next hi =>
        cases hask
        exact h.setPhase (hheld.set hi fun _ heq => by cases heq)
      · next key hi =>
        split at hask
        · next hgated =>
          -- the store answers, as it does not crash
          cases hask
          have hcrash := hheld.2 key
          rw [reply]
          cases hreply : s.store s.converter.space key with
          | answer answer => exact h.setPhase (hheld.set hi fun _ heq => by cases heq)
          | crash text =>
            exact absurd hreply (hcrash text (List.mem_of_getElem? hi) (by simpa using hgated))
        · split at hask
          · next hgranted => simp [hpermits] at hgranted
          · cases hask
            -- the line does not matter to the workers
            have hwaiting := hheld.set hi (l := .waiting key) fun _ heq => by cases heq
            have hset := h.setPhase (w := w) hwaiting
            exact hset
      · cases hask
  | grant first hgrant =>
    rw [grant?, if_pos hpermits] at hgrant
    cases hgrant

end Pool.IsHeldUp

namespace Workshop

variable {s : Service} {size : PoolSize} {v v' : Workshop}

/-- Something happens, and no lookup may go on. -/
def HeldStep (s : Service) (v v' : Workshop) : Prop := v.Step s v' ∧ v'.pool.permits = 0

/-- While all workers are held up they take no request, so that the queue holds all that was accepted
meanwhile. -/
structure IsJammed (s : Service) (size : PoolSize) (v v' : Workshop) : Prop where
  /-- the workers are held up -/
  isHeldUp : v'.pool.IsHeldUp s
  /-- there are no permits -/
  permits_eq : v'.pool.permits = 0
  /-- no request was taken -/
  taken_eq : v'.taken = v.taken
  /-- a submission is refused only when the queue is full, and then it stays full -/
  full : ∀ i b, v.submissions.length ≤ i → v'.submissions[i]? = some b →
    b.IsRefused size.capacity → size.capacity ≤ v'.pool.queue.length

theorem isJammed_self (hheld : v.pool.IsHeldUp s) (hpermits : v.pool.permits = 0) :
    v.IsJammed s size v where
  isHeldUp := hheld
  permits_eq := hpermits
  taken_eq := rfl
  full i b hi hb := by
    rw [List.getElem?_eq_none hi] at hb
    cases hb

/-- A submission that begins is not refused yet. -/
theorem IsJammed.begin (h : v.IsJammed s size v') (source : List UInt8) :
    v.IsJammed s size (v'.begin source) where
  isHeldUp := h.isHeldUp
  permits_eq := h.permits_eq
  taken_eq := h.taken_eq
  full i b hi hb hrefused := by
    change (v'.submissions ++ [_])[i]? = some b at hb
    rw [List.getElem?_append] at hb
    split at hb
    · exact h.full i b hi hb hrefused
    · cases List.mem_singleton.1 (List.mem_of_getElem? hb)
      rcases hrefused with hstage | hstage | hstage <;> cases hstage

/-- A submission that goes on takes nothing off the queue, and is refused only if that is full. -/
theorem IsJammed.advance (h : v.IsJammed s size v') (hsize : v'.pool.size = size) {j : Nat}
    {c next : Submission} {q : Pool} (place : v'.submissions[j]? = some c)
    (hq : v'.pool.Proceeds c q next) (hpermits : q.permits = 0) :
    v.IsJammed s size (v'.advance j q next) := by
  have hqueue : v'.pool.queue.length ≤ q.queue.length := by
    rw [hq.advanced.queue_eq, List.length_append]
    exact Nat.le_add_right _ _
  refine ⟨fun a ha => ?_, hpermits, h.taken_eq, fun i b hi hb hrefused => ?_⟩
  · change a ∈ q.workers at ha
    rw [hq.advanced.workers_eq] at ha
    exact h.isHeldUp a ha
  · change (v'.submissions.set j next)[i]? = some b at hb
    by_cases hij : j = i
    · subst hij
      rw [List.getElem?_set_self (List.getElem?_eq_some_iff.1 place).1] at hb
      cases hb
      by_cases hbefore : c.IsRefused size.capacity
      · exact Nat.le_trans (h.full j c hi place hbefore) hqueue
      · rw [← hsize]
        exact Nat.le_trans (hq.full_of_isRefused hrefused hbefore) hqueue
    · rw [List.getElem?_set_ne hij] at hb
      exact Nat.le_trans (h.full i b hi hb hrefused) hqueue

/-- A worker that is held up before and after its move has taken no request. -/
theorem IsJammed.follow (h : v.IsJammed s size v') {w : Nat} {q : Pool}
    (move : v'.pool.Moves s w q) (hpermits : q.permits = 0) :
    v.IsJammed s size (v'.follow w q) := by
  have hheld := h.isHeldUp.moves h.permits_eq move
  obtain ⟨a, b, hq⟩ := move.exists_moved
  have hb : b ∈ q.workers := by
    rw [hq.workers_eq]
    exact List.mem_set (List.getElem?_eq_some_iff.1 hq.phase_eq).1 b
  have hnone : b.taken? = none := (hheld b hb).taken?_eq
  have htaken := taken_follow hq
  have hqueue := hq.queue_eq
  rw [hnone] at htaken hqueue
  refine ⟨hheld, hpermits, ?_, fun i c hi hc hrefused => ?_⟩
  · rw [htaken, ← h.taken_eq]
    exact List.append_nil _
  · change size.capacity ≤ q.queue.length
    rw [← show v'.pool.queue = q.queue from hqueue]
    exact h.full i c hi hc hrefused

/-- The workers stay held up, whatever happens. -/
theorem IsJammed.step {v'' : Workshop} (h : v.IsJammed s size v') (hsize : v'.pool.size = size)
    (hs : v'.HeldStep s v'') : v.IsJammed s size v'' := by
  obtain ⟨hs, hpermits⟩ := hs
  cases hs with
  | begin source isOpen => exact h.begin source
  | advance place isUnderWay step =>
    exact h.advance hsize place (Pool.proceeds_of_advance isUnderWay step) hpermits
  | move move => exact h.follow move hpermits
  | permit n => exact ⟨h.isHeldUp, hpermits, h.taken_eq, h.full⟩
  | collect answer =>
    obtain ⟨rfl, -⟩ := Pool.take?_eq_some answer
    exact ⟨h.isHeldUp, hpermits, h.taken_eq, h.full⟩
  | drop isHeld => exact ⟨h.isHeldUp, hpermits, h.taken_eq, h.full⟩
  | close noneUnderWay => exact ⟨h.isHeldUp, hpermits, h.taken_eq, h.full⟩

/-- What happens while no lookup may go on is a run. -/
theorem run_of_held (hrun : ReflTransGen (HeldStep s) v v') : ReflTransGen (Step s) v v' :=
  ReflTransGen.mono (fun _ _ (h : HeldStep s _ _) => h.1) _ _ hrun

/-- The workers stay held up as long as no lookup may go on. -/
theorem isJammed_of_held (h : Reachable s size v) (hheld : v.pool.IsHeldUp s)
    (hpermits : v.pool.permits = 0) (hrun : ReflTransGen (HeldStep s) v v') :
    v.IsJammed s size v' := by
  induction hrun with
  | refl => exact isJammed_self hheld hpermits
  | tail hbefore hs ih =>
    exact ih.step (isBounded_of_reachable (h.run (run_of_held hbefore))).size_eq hs

/-- All workers are held up, the queue is empty, and no submission is under way. -/
structure IsHeldUp (s : Service) (v : Workshop) : Prop where
  /-- the workers are held up -/
  isHeldUp : v.pool.IsHeldUp s
  /-- there are no permits -/
  permits_eq : v.pool.permits = 0
  /-- the queue is empty -/
  queue_eq : v.pool.queue = []
  /-- all submissions are over -/
  ended : ∀ b ∈ v.submissions, b.isEnded = true

/-- Submissions that are over stay in their places, and others come after them. -/
theorem exists_new (hrun : ReflTransGen (Step s) v v')
    (hended : ∀ b ∈ v.submissions, b.isEnded = true) :
    ∃ new, v'.submissions = v.submissions ++ new := by
  have hprefix : v.submissions <+: v'.submissions := by
    rw [List.prefix_iff_getElem?]
    intro i hi
    exact submission_of_isEnded hrun (List.getElem?_eq_getElem hi) (hended _ (List.getElem_mem hi))
  obtain ⟨new, hnew⟩ := hprefix
  exact ⟨new, hnew.symm⟩

/-- Of a burst of submissions as many are accepted as the queue has room for, and the others are
rejected. -/
theorem Reachable.burst (h : Reachable s size v) (hjam : v.IsHeldUp s)
    (hrun : ReflTransGen (HeldStep s) v v') (hended : ∀ b ∈ v'.submissions, b.isEnded = true) :
    ∃ new, v'.submissions = v.submissions ++ new ∧
      (new.filterMap Submission.accepted?).length = min new.length size.capacity ∧
      new.countP Submission.isRejected = new.length - min new.length size.capacity := by
  have hrun' := run_of_held hrun
  have h' := h.run hrun'
  have hjammed := isJammed_of_held h hjam.isHeldUp hjam.permits_eq hrun
  have hbounded := isBounded_of_reachable h'
  obtain ⟨new, hnew⟩ := exists_new hrun' hjam.ended
  have hmem : ∀ b ∈ new, b ∈ v'.submissions := fun b hb => hnew ▸ List.mem_append_right _ hb
  -- what was accepted meanwhile is in the queue
  have hqueue : v'.pool.queue.length = (new.filterMap Submission.accepted?).length := by
    have hbefore := congrArg List.length (invariant_of_reachable h).isKept.accepted_eq
    have hafter := congrArg List.length (invariant_of_reachable h').isKept.accepted_eq
    have hold := (invariant_of_reachable h).isNumbered.accepted_perm.length_eq
    have hall := (invariant_of_reachable h').isNumbered.accepted_perm.length_eq
    rw [hjam.queue_eq, List.append_nil] at hbefore
    rw [hjammed.taken_eq, List.length_append] at hafter
    rw [hnew, List.filterMap_append, List.length_append] at hall
    omega
  -- if something was rejected, then the queue was full
  have hfull : 0 < new.countP Submission.isRejected → size.capacity ≤ v'.pool.queue.length := by
    intro hpos
    obtain ⟨b, hb, hrejected⟩ := List.countP_pos_iff.1 hpos
    obtain ⟨i, hi⟩ := List.mem_iff_getElem?.1 hb
    refine hjammed.full (v.submissions.length + i) b (Nat.le_add_right _ _) ?_ ?_
    · rw [hnew, List.getElem?_append_right (Nat.le_add_right _ _), Nat.add_sub_cancel_left]
      exact hi
    · have herror := hbounded.error_eq b (hmem b hb)
      obtain ⟨r, stage⟩ := b
      unfold Submission.isRejected at hrejected
      split at hrejected
      · next capacity hstage =>
        rw [herror _ hstage] at hstage
        exact .inr (.inr hstage)
      · cases hrejected
  have hle := hbounded.queue_le
  have hlength := hbounded.length_eq hmem fun b hb => hended b (hmem b hb)
  refine ⟨new, hnew, ?_, ?_⟩ <;> omega

/-! ## Admission -/

/-- The pool takes in what it has room for, and nothing more. -/
structure IsAdmitting (s : Service) (size : PoolSize) (v : Workshop) : Prop where
  /-- the queue keeps to its capacity -/
  queue_le : v.pool.queue.length ≤ size.capacity
  /-- no more conversions are in progress than there are workers -/
  converting_le : v.pool.workers.countP Phase.isConverting ≤ size.workers
  /-- nor does the counter show more -/
  inProgress_le : v.pool.stats.inProgress ≤ size.workers
  /-- nor are there more requests that were taken and not answered -/
  taken_le : v.taken.length ≤ v.answered.length + size.workers
  /-- the submissions are numbered in their order, whatever becomes of them -/
  ids_eq : v.submissions.map (fun b => b.request.id) = List.range' 1 v.submissions.length
  /-- the next one gets the next number -/
  nextId_eq : v.pool.nextId = v.submissions.length + 1
  /-- every submission that was told that the queue is full is counted as rejected, once -/
  rejected_eq : v.pool.stats.rejected = v.submissions.countP Submission.isRejected
  /-- the length of the queue decides what comes of a submission when it is sent, whatever happens
  next -/
  decided : ∀ i b, v.submissions[i]? = some b → b.stage = .announced →
    ∀ q next, v.pool.advance b = (q, next) →
    ∀ v', ReflTransGen (Step s) (v.advance i q next) v' →
    ∃ c, v'.submissions[i]? = some c ∧ c.request = b.request ∧
      (c.IsRefused size.capacity ↔ v.pool.queue.length = size.capacity) ∧
      (c.stage = .ended (.ok ()) ↔ v.pool.queue.length < size.capacity)
  /-- a refused submission is told so within two steps -/
  told : ∀ b ∈ v.submissions, b.IsRefused size.capacity →
    (Pool.advanceBy 2 (v.pool, b)).2 = ⟨b.request, .ended (.error (.queueFull size.capacity))⟩
  /-- a step of a submission that is not accepted in it changes the counters and nothing else; it
  counts as rejected when it is told so -/
  spared : ∀ b ∈ v.submissions, b.isEnded = false → ∀ q next, v.pool.advance b = (q, next) →
    next.accepted? = none → q = { v.pool with stats := q.stats } ∧
      q.stats.rejected = v.pool.stats.rejected + next.isRejected.toNat
  /-- a full pool refuses a request that is submitted in one go -/
  submit_full : v.pool.queue.length = size.capacity → ∀ source, v.pool.submit source =
    ({ v.pool with
        nextId := v.pool.nextId + 1
        stats := { v.pool.stats with rejected := v.pool.stats.rejected + 1 } },
      .error (.queueFull size.capacity))
  /-- when all workers are held up, a burst of submissions fills the queue, and what is left of it is
  rejected -/
  burst : v.IsHeldUp s → ∀ v', ReflTransGen (HeldStep s) v v' →
    (∀ b ∈ v'.submissions, b.isEnded = true) → ∃ new, v'.submissions = v.submissions ++ new ∧
      (new.filterMap Submission.accepted?).length = min new.length size.capacity ∧
      new.countP Submission.isRejected = new.length - min new.length size.capacity

/-- What comes of a submission is decided when it is sent. -/
theorem decided_of_sent (h : Reachable s size v) {i : Nat} {b next : Submission} {q : Pool}
    (hi : v.submissions[i]? = some b) (hsent : b.stage = .announced)
    (hstep : v.pool.advance b = (q, next)) (hrun : ReflTransGen (Step s) (v.advance i q next) v') :
    ∃ c, v'.submissions[i]? = some c ∧ c.request = b.request ∧
      (c.IsRefused size.capacity ↔ v.pool.queue.length = size.capacity) ∧
      (c.stage = .ended (.ok ()) ↔ v.pool.queue.length < size.capacity) := by
  have hbounded := isBounded_of_reachable h
  have hle := hbounded.queue_le
  have hunder : b.isEnded = false := by
    unfold Submission.isEnded
    rw [hsent]
  have hq := Pool.proceeds_of_advance hunder hstep
  have hnext : (v.advance i q next).submissions[i]? = some next :=
    List.getElem?_set_self (List.getElem?_eq_some_iff.1 hi).1
  have h' := h.step (.advance hi hunder hstep)
  rcases hq.sent hsent (invariant_of_reachable h).isStaffed.isAlive with
    ⟨hfull, hstage⟩ | ⟨hroom, hstage⟩
  · rw [hbounded.size_eq] at hfull
    obtain ⟨c, hc, hrequest, hrefused⟩ := submission_of_isRefused h' hrun hnext (.inl hstage)
    refine ⟨c, hc, hrequest.trans hq.advanced.request_eq, ⟨fun _ => Nat.le_antisymm hle hfull,
      fun _ => hrefused⟩, fun hok => ?_, fun hroom => absurd hroom (Nat.not_lt.2 hfull)⟩
    rcases hrefused with hc | hc | hc <;> cases hok.symm.trans hc
  · rw [hbounded.size_eq] at hroom
    have hended : next.isEnded = true := by
      unfold Submission.isEnded
      rw [hstage]
    refine ⟨next, submission_of_isEnded hrun hnext hended, hq.advanced.request_eq, ⟨fun hrefused => ?_,
      fun hfull => absurd hfull (Nat.ne_of_lt hroom)⟩, fun _ => hroom, fun _ => hstage⟩
    rcases hrefused with hc | hc | hc <;> cases hstage.symm.trans hc

/-- **A pool takes in what it has room for, and nothing more.** Whatever order of steps has led to a
workshop, and whatever happens next. -/
theorem isAdmitting_of_reachable (h : Reachable s size v) : v.IsAdmitting s size := by
  obtain ⟨hnumbered, hkept, -, -, hstaffed⟩ := invariant_of_reachable h
  have hbalanced := isBalanced_of_reachable h
  have hbounded := isBounded_of_reachable h
  constructor
  case queue_le => exact hbounded.queue_le
  case converting_le => exact hbounded.workers_length ▸ List.countP_le_length
  case inProgress_le =>
    rw [hbalanced.inProgress_eq]
    exact hbounded.workers_length ▸ List.countP_le_length
  case taken_le =>
    have hplaces := hkept.taken_perm.length_eq
    have hworkers := List.length_filterMap_le Phase.request? v.pool.workers
    rw [List.length_append, List.length_map] at hplaces
    rw [hbounded.workers_length] at hworkers
    omega
  case ids_eq => exact hnumbered.ids_eq
  case nextId_eq => exact hnumbered.nextId_eq
  case rejected_eq => exact hbalanced.rejected_eq
  case decided => exact fun i b hi hsent q next hstep v' hrun => decided_of_sent h hi hsent hstep hrun
  case told =>
    intro b hb hrefused
    rw [← hbounded.size_eq] at hrefused ⊢
    exact hrefused.told
  case spared =>
    intro b hb hunder q next hstep hnone
    have hq := Pool.proceeds_of_advance hunder hstep
    exact ⟨hq.eq_of_not_accepted hnone, hq.rejected_eq⟩
  case submit_full =>
    intro hfull source
    rw [← hbounded.size_eq] at hfull ⊢
    exact Pool.submit_of_full hstaffed.isAlive (Nat.le_of_eq hfull.symm) source
  case burst => exact fun hheld v' hrun hended => h.burst hheld hrun hended

/-- One worker with room for one request, held up in a lookup: of two more submissions, which run
side by side, the one that is sent first is accepted and the other one is rejected. -/
theorem isAdmitting_of_reachable_held_up :
    let s : Service := ⟨.standard, fun _ _ => .answer .missing, fun _ _ => true⟩
    ∃ v v', Reachable s ⟨1, 1⟩ v ∧ v.IsAdmitting s ⟨1, 1⟩ ∧ v.IsHeldUp s ∧
      ReflTransGen (HeldStep s) v v' ∧
      v'.submissions.map Submission.stage =
        [.ended (.ok ()), .ended (.error (.queueFull 1)), .ended (.ok ())] := by
  intro s
  let source := "jobs:\n  t: {runs-on: gpu}\n".toUTF8.toList
  have hchecks : (Plan.ofBytes source).toOption.map Plan.keys = some [some "gpu.yaml"] := by
    decide +kernel
  obtain ⟨plan, hplan, hkeys⟩ := Option.map_eq_some_iff.1 hchecks
  replace hplan : Plan.ofBytes source = .ok plan := by
    cases hx : Plan.ofBytes source <;> rw [hx] at hplan <;> cases hplan
    rfl
  have h : Reachable s ⟨1, 1⟩ _ := .start rfl
  replace h := h.step (.begin source rfl)
  replace h := (h.step (.advance (i := 0) rfl rfl rfl)).step (.advance (i := 0) rfl rfl rfl)
  -- the worker listens, takes the request and counts it
  replace h := (h.step (.move (w := 0) (.step rfl))).step (.move (w := 0) (.step rfl))
  replace h := (h.step (.move (w := 0) (.step rfl))).step (.move (w := 0) (.step rfl))
  -- it finds one label in the request, and its lookup gets in line
  have hplans (p : Pool) (hp : p.workers[0]? = some (.started ⟨1, source⟩)) :
      p.work? s 0 = some (p.setPhase 0 (.asking ⟨1, source⟩ plan [.unasked (some "gpu.yaml")])) := by
    simp [Pool.work?, hp, hplan, hkeys]
  replace h := h.step (.move (.step (hplans _ rfl)))
  replace h := h.step (.move (w := 0) (.ask 0 rfl))
  -- two more submissions: the later one is sent first, and the earlier one finds the queue full
  have hstart (v : Workshop) (_ : Reachable s ⟨1, 1⟩ v) : ReflTransGen (HeldStep s) v v := .refl
  have hrun := hstart _ h
  replace hrun := (hrun.tail ⟨.begin [] rfl, rfl⟩).tail ⟨.begin [] rfl, rfl⟩
  replace hrun := hrun.tail ⟨.advance (i := 1) rfl rfl rfl, rfl⟩
  replace hrun := hrun.tail ⟨.advance (i := 2) rfl rfl rfl, rfl⟩
  replace hrun := hrun.tail ⟨.advance (i := 2) rfl rfl rfl, rfl⟩
  replace hrun := hrun.tail ⟨.advance (i := 1) rfl rfl rfl, rfl⟩
  replace hrun := hrun.tail ⟨.advance (i := 1) rfl rfl rfl, rfl⟩
  replace hrun := hrun.tail ⟨.advance (i := 1) rfl rfl rfl, rfl⟩
  refine ⟨_, _, h, isAdmitting_of_reachable h, ⟨fun a ha => ?_, rfl, rfl, ?_⟩, hrun, rfl⟩
  · cases List.mem_singleton.1 ha
    refine ⟨⟨_, List.mem_singleton.2 rfl⟩, fun key text hkey => ?_⟩
    cases List.mem_singleton.1 hkey
  · intro b hb
    cases List.mem_singleton.1 hb
    rfl

end Workshop

end JobLoom
