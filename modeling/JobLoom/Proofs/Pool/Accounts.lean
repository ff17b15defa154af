import Mathlib.Data.List.Perm.Subperm
import Mathlib.Data.List.Nodup
import JobLoom.Proofs.Pool.Attempt
import JobLoom.Proofs.Pool.Delivery

/-!
# What the counters tell

Each counter is changed by several parties, before or after the change of the pool that it stands
for. Still every step leaves them in balance: what a counter shows is what it should show, together
with what is on its way.

* **Queued** are the requests in the queue, those that a worker has just taken out of it, and those
  that are about to be sent or have not got in.
* **In progress** are the requests that a worker is converting.
* **Completed** and **failed** are the answers that were given, and those that are given next.
* **Rejected** are the submissions that were told that the queue is full.

So nothing is ever taken from a counter that shows zero, an answer is counted before it is given, and
when nobody is in between two steps all counters tell the truth.
-/

namespace JobLoom

theorem sum_map_set_add {α : Type} {f : α → Nat} {l : List α} {i : Nat} {a b : α}
    (h : l[i]? = some a) : ((l.set i b).map f).sum + f a = (l.map f).sum + f b := by
  induction l generalizing i with
  | nil => cases h
  | cons first rest ih =>
    cases i with
    | zero =>
      cases h
      rw [List.set_cons_zero, List.map_cons, List.map_cons, List.sum_cons, List.sum_cons]
      omega
    | succ i =>
      have hrest := ih (i := i) h
      rw [List.set_cons_succ, List.map_cons, List.map_cons, List.sum_cons, List.sum_cons]
      omega

theorem countP_eq_sum {α : Type} (f : α → Bool) (l : List α) :
    l.countP f = (l.map fun a => (f a).toNat).sum := by
  induction l with
  | nil => rfl
  | cons first rest ih =>
    rw [List.countP_cons, List.map_cons, List.sum_cons, ih, Nat.add_comm]
    cases f first <;> rfl

theorem countP_set_add {α : Type} {f : α → Bool} {l : List α} {i : Nat} {a b : α}
    (h : l[i]? = some a) : (l.set i b).countP f + (f a).toNat = l.countP f + (f b).toNat := by
  rw [countP_eq_sum, countP_eq_sum]
  exact sum_map_set_add (f := fun a => (f a).toNat) h

/-! ## Workers -/

namespace Phase

/-- The worker is converting its request. -/
def isConverting : Phase → Bool
  | .started _ | .asking .. => true
  | _ => false

/-- The worker has counted its request as in progress. -/
def isInProgress : Phase → Bool
  | .started _ | .asking .. | .converted .. => true
  | _ => false

/-- The worker is not between two of its steps: it has no request, or it is converting one. -/
def IsAtRest (a : Phase) : Prop := a.isConverting = true ∨ a.request? = none

namespace IsAtRest

variable {a : Phase}

theorem taken?_eq (h : a.IsAtRest) : a.taken? = none := by
  cases a with
  | received r => rcases h with h | h <;> cases h
  | _ => rfl

theorem answer?_eq (h : a.IsAtRest) : a.answer? = none := by
  cases a with
  | counted r x => rcases h with h | h <;> cases h
  | _ => rfl

theorem isInProgress_eq (h : a.IsAtRest) : a.isInProgress = a.isConverting := by
  cases a with
  | converted r x => rcases h with h | h <;> cases h
  | _ => rfl

theorem isSome_request? (h : a.IsAtRest) : a.request?.isSome = a.isConverting := by
  cases a with
  | received r | dequeued r | converted r x | left r x | counted r x =>
    rcases h with h | h <;> cases h
  | _ => rfl

end IsAtRest

end Phase

namespace Pool

variable {s : Service} {p : Pool} {a b : Phase}

/-- A request that a worker has taken out of the queue is taken out of the count. -/
theorem queued_statsAfter (p : Pool) (a : Phase) :
    (p.statsAfter a).queued = p.stats.queued - a.taken?.toList.length := by
  cases a with
  | left r x => cases x <;> rfl
  | _ => rfl

/-- The requests in progress are counted when their conversion begins and until it ends. -/
theorem inProgress_statsAfter (hgoes : a.Goes s b)
    (hpos : a.isInProgress = true → 0 < p.stats.inProgress) :
    (p.statsAfter a).inProgress + a.isInProgress.toNat =
      p.stats.inProgress + b.isInProgress.toNat := by
  cases hgoes with
  | leave r x =>
    have h := hpos rfl
    change p.stats.inProgress - 1 + 1 = p.stats.inProgress + 0
    omega
  | count r x => cases x <;> rfl
  | _ => rfl

/-- A result is counted before it is the answer. -/
theorem completed_statsAfter (hgoes : a.Goes s b) : (p.statsAfter a).completed =
    p.stats.completed + b.answer?.toList.countP fun e => e.2.isOk := by
  cases hgoes with
  | count r x => cases x <;> rfl
  | _ => rfl

/-- An error is counted before it is the answer. -/
theorem failed_statsAfter (hgoes : a.Goes s b) : (p.statsAfter a).failed =
    p.stats.failed + b.answer?.toList.countP fun e => !e.2.isOk := by
  cases hgoes with
  | count r x => cases x <;> rfl
  | _ => rfl

/-- Workers reject nothing. -/
theorem rejected_statsAfter (p : Pool) (a : Phase) :
    (p.statsAfter a).rejected = p.stats.rejected := by
  cases a with
  | left r x => cases x <;> rfl
  | _ => rfl

end Pool

namespace Workshop

/-! ## The balance -/

/-- The answers that were given, and those that are given next. -/
def answers (v : Workshop) : List (Request × Result) :=
  v.answered ++ v.pool.workers.filterMap Phase.answer?

/-- The counters are in balance. -/
structure IsBalanced (v : Workshop) : Prop where
  /-- what is counted as queued -/
  queued_eq : v.pool.stats.queued = v.pool.queue.length +
    (v.pool.workers.filterMap Phase.taken?).length + v.submissions.countP Submission.isAnnounced
  /-- what is counted as in progress -/
  inProgress_eq : v.pool.stats.inProgress = v.pool.workers.countP Phase.isInProgress
  /-- what is counted as completed -/
  completed_eq : v.pool.stats.completed = v.answers.countP fun e => e.2.isOk
  /-- what is counted as failed -/
  failed_eq : v.pool.stats.failed = v.answers.countP fun e => !e.2.isOk
  /-- what is counted as rejected -/
  rejected_eq : v.pool.stats.rejected = v.submissions.countP Submission.isRejected

theorem isBalanced_opened (size : PoolSize) : (opened (.fresh size)).IsBalanced := by
  have htaken : (List.replicate size.workers Phase.idle).filterMap Phase.taken? = [] :=
    List.filterMap_replicate
  have hanswer : (List.replicate size.workers Phase.idle).filterMap Phase.answer? = [] :=
    List.filterMap_replicate
  have hprogress : (List.replicate size.workers Phase.idle).countP Phase.isInProgress = 0 :=
    List.countP_replicate
  constructor <;> simp [opened, Pool.fresh, answers, htaken, hanswer, hprogress]

/-- The answer that a worker has given moves from those that are given next to those that were
given. -/
theorem answers_follow {s : Service} {v : Workshop} {w : Nat} {a b : Phase} {q : Pool}
    (hq : v.pool.Moved s w a b q) :
    (v.follow w q).answers.Perm (b.answer?.toList ++ v.answers) := by
  have hset := perm_filterMap_set (f := Phase.answer?) (b := b) hq.phase_eq
  change ((v.follow w q).answered ++ q.workers.filterMap Phase.answer?).Perm
    (b.answer?.toList ++ (v.answered ++ v.pool.workers.filterMap Phase.answer?))
  rw [answered_follow hq, hq.workers_eq, List.append_assoc]
  exact (hset.append_left _).trans (List.perm_append_comm_assoc _ _ _)

/-- Every move of a worker keeps the balance. -/
theorem IsBalanced.follow {s : Service} {v : Workshop} (h : v.IsBalanced) {w : Nat} {a b : Phase}
    {q : Pool} (hq : v.pool.Moved s w a b q) : (v.follow w q).IsBalanced := by
  have ha : a ∈ v.pool.workers := List.mem_of_getElem? hq.phase_eq
  constructor
  case queued_eq =>
    change q.stats.queued = q.queue.length + (q.workers.filterMap Phase.taken?).length +
      v.submissions.countP Submission.isAnnounced
    have hset := (perm_filterMap_set (f := Phase.taken?) (b := b) hq.phase_eq).length_eq
    have hqueue := congrArg List.length hq.queue_eq
    have hbefore := h.queued_eq
    rw [hq.stats_eq, Pool.queued_statsAfter, hq.workers_eq]
    simp only [List.length_append] at hset hqueue
    omega
  case inProgress_eq =>
    change q.stats.inProgress = q.workers.countP Phase.isInProgress
    have hset := countP_set_add (f := Phase.isInProgress) (b := b) hq.phase_eq
    have hbefore := h.inProgress_eq
    have hpos : a.isInProgress = true → 0 < v.pool.stats.inProgress := fun hprogress => by
      rw [hbefore]
      exact List.countP_pos_iff.2 ⟨a, ha, hprogress⟩
    have hafter := Pool.inProgress_statsAfter hq.goes hpos
    rw [hq.stats_eq, hq.workers_eq]
    omega
  case completed_eq =>
    change q.stats.completed = _
    rw [hq.stats_eq, Pool.completed_statsAfter hq.goes, h.completed_eq,
      (answers_follow hq).countP_eq, List.countP_append, Nat.add_comm]
  case failed_eq =>
    change q.stats.failed = _
    rw [hq.stats_eq, Pool.failed_statsAfter hq.goes, h.failed_eq,
      (answers_follow hq).countP_eq, List.countP_append, Nat.add_comm]
  case rejected_eq =>
    change q.stats.rejected = _
    rw [hq.stats_eq, Pool.rejected_statsAfter]
    exact h.rejected_eq

theorem IsBalanced.advance {v : Workshop} (h : v.IsBalanced) {i : Nat} {b next : Submission}
    {q : Pool} (hb : v.submissions[i]? = some b) (hq : v.pool.Proceeds b q next) :
    (v.advance i q next).IsBalanced := by
  constructor
  case queued_eq =>
    change q.stats.queued = q.queue.length + (q.workers.filterMap Phase.taken?).length +
      (v.submissions.set i next).countP Submission.isAnnounced
    have hset := countP_set_add (f := Submission.isAnnounced) (b := next) hb
    have hbefore := h.queued_eq
    have hpos : b.isAnnounced = true → 0 < v.pool.stats.queued := fun hannounced => by
      have hsome := List.countP_pos_iff.2 ⟨b, List.mem_of_getElem? hb, hannounced⟩
      omega
    have hafter := hq.queued_eq hpos
    have hqueue := congrArg List.length hq.advanced.queue_eq
    rw [hq.advanced.workers_eq]
    simp only [List.length_append] at hqueue
    omega
  case inProgress_eq => cases hq <;> exact h.inProgress_eq
  case completed_eq => cases hq <;> exact h.completed_eq
  case failed_eq => cases hq <;> exact h.failed_eq
  case rejected_eq =>
    change q.stats.rejected = (v.submissions.set i next).countP Submission.isRejected
    have hset := countP_set_add (f := Submission.isRejected) (b := next) hb
    have hbefore := h.rejected_eq
    rw [hq.isRejected_eq] at hset
    rw [hq.rejected_eq]
    simp only [Bool.toNat_false] at hset
    omega

variable {s : Service} {size : PoolSize} {v : Workshop}

theorem IsBalanced.step {v' : Workshop} (h : v.IsBalanced) (hs : v.Step s v') : v'.IsBalanced := by
  cases hs with
  | begin source isOpen =>
    -- a submission that begins is not counted yet
    refine ⟨h.queued_eq.trans ?_, h.inProgress_eq, h.completed_eq, h.failed_eq,
      h.rejected_eq.trans ?_⟩
    · rw [begin, List.countP_append]
      rfl
    · rw [begin, List.countP_append]
      rfl
  | advance place isUnderWay step => exact h.advance place (Pool.proceeds_of_advance isUnderWay step)
  | move move =>
    obtain ⟨a, b, hq⟩ := move.exists_moved
    exact h.follow hq
  | permit n =>
    exact ⟨h.queued_eq, h.inProgress_eq, h.completed_eq, h.failed_eq, h.rejected_eq⟩
  | collect answer =>
    obtain ⟨rfl, -⟩ := Pool.take?_eq_some answer
    exact ⟨h.queued_eq, h.inProgress_eq, h.completed_eq, h.failed_eq, h.rejected_eq⟩
  | drop isHeld =>
    exact ⟨h.queued_eq, h.inProgress_eq, h.completed_eq, h.failed_eq, h.rejected_eq⟩
  | close noneUnderWay =>
    exact ⟨h.queued_eq, h.inProgress_eq, h.completed_eq, h.failed_eq, h.rejected_eq⟩

/-- The counters of every reachable workshop are in balance. -/
theorem isBalanced_of_reachable (h : Reachable s size v) : v.IsBalanced := by
  induction h with
  | start started =>
    obtain ⟨rfl, -⟩ := Pool.start_eq_ok started
    exact isBalanced_opened size
  | step _ hs ih => exact ih.step hs

/-! ## What follows from it -/

/-- No submission and no worker is between two of its steps. -/
structure IsAtRest (v : Workshop) : Prop where
  /-- every submission is over -/
  submissions : ∀ b ∈ v.submissions, b.isEnded = true
  /-- every worker waits for a request or is converting one -/
  workers : ∀ a ∈ v.pool.workers, a.IsAtRest

/-- The counters tell the truth. -/
structure IsTallied (v : Workshop) : Prop where
  /-- queued are the accepted requests that were not taken yet -/
  queued_eq : v.pool.stats.queued = v.pool.queue.length
  /-- the same, by the record -/
  queued_add : v.pool.stats.queued + v.taken.length = v.accepted.length
  /-- in progress are the requests that are being converted -/
  inProgress_eq : v.pool.stats.inProgress = v.pool.workers.countP Phase.isConverting
  /-- the same, by the record -/
  inProgress_add : v.pool.stats.inProgress + v.answered.length = v.taken.length
  /-- completed are those that were answered with a manifest -/
  completed_eq : v.pool.stats.completed = v.answered.countP fun e => e.2.isOk
  /-- failed are those that were answered with an error -/
  failed_eq : v.pool.stats.failed = v.answered.countP fun e => !e.2.isOk
  /-- rejected are the submissions that were told that the queue is full -/
  rejected_eq : v.pool.stats.rejected = v.submissions.countP Submission.isRejected
  /-- together they are all submissions -/
  sum_eq : v.pool.stats.queued + v.pool.stats.inProgress + v.pool.stats.completed +
    v.pool.stats.failed + v.pool.stats.rejected = v.submissions.length

/-- The counters account for everything that happens. -/
structure IsAccounted (size : PoolSize) (v : Workshop) : Prop where
  /-- there is something to take from the count of a submission that did not get in -/
  withdraw_pos : ∀ b ∈ v.submissions, b.stage = .refused ∨ b.stage = .shut →
    0 < v.pool.stats.queued
  /-- there is something to take from the count of a request that was received -/
  dequeue_pos : ∀ r, .received r ∈ v.pool.workers → 0 < v.pool.stats.queued
  /-- there is something to take from the count of a request that was converted -/
  leave_pos : ∀ r x, .converted r x ∈ v.pool.workers → 0 < v.pool.stats.inProgress
  /-- a manifest is counted before it is the answer -/
  completed_le : (v.answered.countP fun e => e.2.isOk) ≤ v.pool.stats.completed
  /-- an error is counted before it is the answer -/
  failed_le : (v.answered.countP fun e => !e.2.isOk) ≤ v.pool.stats.failed
  /-- what came out of a ticket is one of the answers, and no answer comes out twice -/
  collected_subperm : v.collected.Subperm (v.answered.map fun e => (e.1.id, e.2))
  /-- every answer is counted -/
  answered_le : v.answered.length ≤ v.pool.stats.completed + v.pool.stats.failed
  /-- each worker may have counted one answer more -/
  le_answered : v.pool.stats.completed + v.pool.stats.failed ≤ v.answered.length + size.workers
  /-- nothing is on its way when nobody is between two steps -/
  tallied : v.IsAtRest → v.IsTallied

/-- Every result that was counted is an answer that was given or is given next. -/
theorem IsBalanced.length_answers (h : v.IsBalanced) :
    v.pool.stats.completed + v.pool.stats.failed = v.answers.length := by
  rw [h.completed_eq, h.failed_eq, List.length_eq_countP_add_countP fun e => e.2.isOk]
  congr 1
  exact List.countP_congr fun e _ => by cases e.2.isOk <;> decide

/-- The numbers of the tickets that were used up are all different. -/
theorem IsKept.nodup_collected (h : v.IsKept) (hv : v.IsNumbered) :
    (v.collected.map Prod.fst).Nodup :=
  (List.nodup_append.1 (List.nodup_append.1 (h.tickets_perm.nodup_iff.1 hv.nodup)).2.1).1

/-- What came out of the tickets are answers, each at most once. -/
theorem IsTold.collected_subperm (h : v.IsTold) (hkept : v.IsKept) (hv : v.IsNumbered) :
    v.collected.Subperm (v.answered.map fun e => (e.1.id, e.2)) := by
  refine List.subperm_of_subset (List.Nodup.of_map _ (hkept.nodup_collected hv)) fun e he => ?_
  obtain ⟨a, ha, hid, hx⟩ := h.collected e he
  exact List.mem_map.2 ⟨a, ha, Prod.ext hid hx⟩

/-- Submissions that are over were accepted, or they were told that the queue is full. -/
theorem IsBounded.length_eq (h : v.IsBounded size) {bs : List Submission}
    (hbs : ∀ b ∈ bs, b ∈ v.submissions) (hended : ∀ b ∈ bs, b.isEnded = true) :
    bs.length = (bs.filterMap Submission.accepted?).length + bs.countP Submission.isRejected := by
  rw [List.length_eq_countP_add_countP Submission.isRejected, Nat.add_comm,
    List.length_filterMap_eq_countP]
  congr 1
  refine List.countP_congr fun b hb => ?_
  have hended := hended b hb
  have herror := h.error_eq b (hbs b hb)
  obtain ⟨r, stage⟩ := b
  cases stage with
  | ended x =>
    cases x with
    | ok u => exact ⟨fun _ => rfl, fun _ => rfl⟩
    | error e =>
      cases herror e rfl
      exact ⟨nofun, nofun⟩
  | claimed | announced | refused | withdrawn | shut => cases hended

namespace IsAtRest

/-- At rest the workers with a request are those that are converting one. -/
theorem length_requests (h : v.IsAtRest) :
    (v.pool.workers.filterMap Phase.request?).length =
      v.pool.workers.countP Phase.isConverting := by
  rw [List.length_filterMap_eq_countP]
  exact List.countP_congr fun a ha => by rw [(h.workers a ha).isSome_request?]

/-- At rest the counters tell the truth. -/
theorem isTallied (h : v.IsAtRest) (hbalanced : v.IsBalanced) (hnumbered : v.IsNumbered)
    (hkept : v.IsKept) (hbounded : v.IsBounded size) : v.IsTallied := by
  have htaken : v.pool.workers.filterMap Phase.taken? = [] :=
    List.filterMap_eq_nil_iff.2 fun a ha => (h.workers a ha).taken?_eq
  have hanswer : v.pool.workers.filterMap Phase.answer? = [] :=
    List.filterMap_eq_nil_iff.2 fun a ha => (h.workers a ha).answer?_eq
  have hannounced : v.submissions.countP Submission.isAnnounced = 0 := by
    refine List.countP_eq_zero.2 fun b hb hannounced => ?_
    have hended := h.submissions b hb
    obtain ⟨r, stage⟩ := b
    cases stage with
    | announced | refused | shut => cases hended
    | claimed | withdrawn | ended x => cases hannounced
  have hanswers : v.answers = v.answered := by
    rw [answers, hanswer, List.append_nil]
  have hqueued : v.pool.stats.queued = v.pool.queue.length := by
    rw [hbalanced.queued_eq, htaken, hannounced]
    rfl
  have hprogress : v.pool.stats.inProgress = v.pool.workers.countP Phase.isConverting := by
    rw [hbalanced.inProgress_eq]
    exact List.countP_congr fun a ha => by rw [(h.workers a ha).isInProgress_eq]
  -- the record, in numbers
  have haccepted := congrArg List.length hkept.accepted_eq
  have hplaces := hkept.taken_perm.length_eq
  have hcounted := hbalanced.length_answers
  rw [List.length_append] at haccepted
  rw [List.length_append, List.length_map, h.length_requests] at hplaces
  rw [hanswers] at hcounted
  constructor
  case queued_eq => exact hqueued
  case queued_add => omega
  case inProgress_eq => exact hprogress
  case inProgress_add => omega
  case completed_eq => rw [hbalanced.completed_eq, hanswers]
  case failed_eq => rw [hbalanced.failed_eq, hanswers]
  case rejected_eq => exact hbalanced.rejected_eq
  case sum_eq =>
    rw [hbounded.length_eq (fun _ hb => hb) h.submissions, ← hnumbered.accepted_perm.length_eq,
      ← hbalanced.rejected_eq]
    omega

end IsAtRest

/-- **The counters account for everything.** Whatever order of steps has led to a workshop, nothing
is taken from a counter that shows zero, all answers are counted, and at rest the counters tell the
truth. -/
theorem isAccounted_of_reachable (h : Reachable s size v) : v.IsAccounted size := by
  obtain ⟨hnumbered, hkept, htold, -, -⟩ := invariant_of_reachable h
  have hbalanced := isBalanced_of_reachable h
  have hbounded := isBounded_of_reachable h
  have hlength := hbalanced.length_answers
  rw [answers, List.length_append] at hlength
  constructor
  case withdraw_pos =>
    intro b hb hstage
    have hannounced : b.isAnnounced = true := by
      rcases hstage with hstage | hstage <;> rw [Submission.isAnnounced, hstage]
    have hpos := List.countP_pos_iff.2 ⟨b, hb, hannounced⟩
    have hqueued := hbalanced.queued_eq
    omega
  case dequeue_pos =>
    intro r hr
    have hpos := List.length_pos_of_mem (List.mem_filterMap.2 ⟨_, hr, rfl⟩ :
      r ∈ v.pool.workers.filterMap Phase.taken?)
    have hqueued := hbalanced.queued_eq
    omega
  case leave_pos =>
    intro r x hr
    rw [hbalanced.inProgress_eq]
    exact List.countP_pos_iff.2 ⟨_, hr, rfl⟩
  case completed_le =>
    rw [hbalanced.completed_eq, answers, List.countP_append]
    exact Nat.le_add_right _ _
  case failed_le =>
    rw [hbalanced.failed_eq, answers, List.countP_append]
    exact Nat.le_add_right _ _
  case collected_subperm => exact htold.collected_subperm hkept hnumbered
  case answered_le => omega
  case le_answered =>
    have hworkers := List.length_filterMap_le Phase.answer? v.pool.workers
    rw [hbounded.workers_length] at hworkers
    omega
  case tallied => exact fun hrest => hrest.isTallied hbalanced hnumbered hkept hbounded

/-- One worker with room for one request: of four requests the first is answered, the second is being
converted, the third is in the queue, and the fourth was rejected. -/
theorem isAccounted_of_reachable_at_rest :
    let s : Service := ⟨.standard, fun _ _ => .answer .missing, fun _ _ => false⟩
    ∃ v, Reachable s ⟨1, 1⟩ v ∧ v.pool.stats = ⟨1, 1, 0, 1, 1⟩ ∧ v.IsTallied ∧
      v.IsAccounted ⟨1, 1⟩ := by
  intro s
  have h : Reachable s ⟨1, 1⟩ _ := .start rfl
  replace h := (h.step (.begin [] rfl)).step (.begin [] rfl)
  replace h := (h.step (.advance (i := 0) rfl rfl rfl)).step (.advance (i := 0) rfl rfl rfl)
  -- the worker listens, takes the first request and counts it
  replace h := (h.step (.move (w := 0) (.step rfl))).step (.move (w := 0) (.step rfl))
  replace h := (h.step (.move (w := 0) (.step rfl))).step (.move (w := 0) (.step rfl))
  replace h := (h.step (.advance (i := 1) rfl rfl rfl)).step (.advance (i := 1) rfl rfl rfl)
  -- it converts the request, counts the result, and answers
  replace h := (h.step (.move (w := 0) (.step rfl))).step (.move (w := 0) (.step rfl))
  replace h := (h.step (.move (w := 0) (.step rfl))).step (.move (w := 0) (.step rfl))
  -- then it does the same with the second request
  replace h := (h.step (.move (w := 0) (.step rfl))).step (.move (w := 0) (.step rfl))
  replace h := (h.step (.move (w := 0) (.step rfl))).step (.move (w := 0) (.step rfl))
  replace h := (h.step (.begin [] rfl)).step (.begin [] rfl)
  replace h := (h.step (.advance (i := 2) rfl rfl rfl)).step (.advance (i := 2) rfl rfl rfl)
  replace h := (h.step (.advance (i := 3) rfl rfl rfl)).step (.advance (i := 3) rfl rfl rfl)
  replace h := (h.step (.advance (i := 3) rfl rfl rfl)).step (.advance (i := 3) rfl rfl rfl)
  have haccounted := isAccounted_of_reachable h
  refine ⟨_, h, rfl, haccounted.tallied ⟨by decide, fun a ha => ?_⟩, haccounted⟩
  cases List.mem_singleton.1 ha
  exact .inl rfl

end Workshop

end JobLoom
