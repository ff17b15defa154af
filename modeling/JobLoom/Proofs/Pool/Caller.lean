import Mathlib.Data.List.Nodup
import Mathlib.Logic.Relation
import JobLoom.Pool.Turns
import JobLoom.Proofs.Pool.Delivery

/-!
# One caller

Somebody submits workflow files to a pool and waits for the results, while the workers get on as far
as they like. All that comes of it are steps of a workshop, so that what comes out of a ticket is the
result of the conversion that the ticket was given out for.
-/

namespace JobLoom

open Relation (ReflTransGen)

/-! ## Workers that get on -/

/-- The workers make some moves. -/
def Pool.Works (s : Service) : Pool → Pool → Prop := ReflTransGen fun p q => ∃ w, p.Moves s w q

/-- What happens while somebody uses a pool are moves of the workers. -/
structure Turns.Follows (t : Turns) (s : Service) : Prop where
  /-- before a submission -/
  beforeSubmission : ∀ p : Pool, p.Works s (t.beforeSubmission p)
  /-- until there is an answer -/
  untilAnswer : ∀ (id : Nat) (p : Pool), p.Works s (t.untilAnswer id p)

namespace Pool

variable {s : Service} {p q : Pool}

/-- A permit goes to the worker that is first in line. -/
theorem exists_moves_of_grant (h : p.grant? s = some q) : ∃ w, p.Moves s w q := by
  have hline : p.line ≠ [] := by
    intro hnil
    unfold grant? at h
    rw [hnil] at h
    split at h <;> cases h
  obtain ⟨⟨w, i⟩, rest, hfirst⟩ := List.exists_cons_of_ne_nil hline
  exact ⟨w, .grant hfirst h⟩

theorem moves_of_moveOf {w : Nat} (h : p.moveOf? s w = some q) : p.Moves s w q := by
  unfold moveOf? at h
  split at h
  · next q' hq' =>
    cases h
    exact .step hq'
  · split at h
    · obtain ⟨i, -, hi⟩ := List.exists_of_findSome?_eq_some h
      exact .ask i hi
    · cases h

theorem exists_moves_of_next (h : p.next? s = some q) : ∃ w, p.Moves s w q := by
  unfold next? at h
  split at h
  · next q' hq' =>
    cases h
    exact exists_moves_of_grant hq'
  · obtain ⟨w, -, hw⟩ := List.exists_of_findSome?_eq_some h
    exact ⟨w, moves_of_moveOf hw⟩

/-- Settling lets the workers move. -/
theorem works_settleBy (n : Nat) (p : Pool) : p.Works s (settleBy s n p) := by
  induction n generalizing p with
  | zero => exact .refl
  | succ n ih =>
    unfold settleBy
    split
    · next q hq => exact .head (exists_moves_of_next hq) (ih q)
    · exact .refl

end Pool

/-- Workers that move only while somebody waits do nothing but move. -/
theorem Turns.follows_lazy (s : Service) : (Turns.lazy s).Follows s :=
  ⟨fun _ => .refl, fun _ p => Pool.works_settleBy p.workLeft p⟩

/-! ## Submissions that nobody interrupts -/

/-- A submission comes to an end within four steps, and is still about its request. -/
theorem Pool.exists_ended_of_claim (p : Pool) (source : List UInt8) :
    ∃ x, (advanceBy 4 (p.claim source)).2 = ⟨⟨p.nextId, source⟩, .ended x⟩ := by
  have hannounced (q : Pool) (r : Request) :
      ∃ x, (advanceBy 3 (q, ⟨r, .announced⟩)).2 = ⟨r, .ended x⟩ := by
    simp only [advanceBy, advance, send]
    cases q.isAlive
    · exact ⟨_, rfl⟩
    · by_cases hroom : q.queue.length < q.size.capacity
      · simp only [if_pos hroom]
        exact ⟨_, rfl⟩
      · simp only [if_neg hroom]
        exact ⟨_, rfl⟩
  exact hannounced _ _

namespace Workshop

variable {s : Service} {v : Workshop}

/-- A submission goes on for some steps. -/
theorem exists_run_advanceBy (s : Service) (n : Nat) {i : Nat} {b : Submission}
    (hi : v.submissions[i]? = some b) :
    ∃ v', ReflTransGen (Step s) v v' ∧ (v'.pool, v'.submissions[i]?) =
        ((Pool.advanceBy n (v.pool, b)).1, some (Pool.advanceBy n (v.pool, b)).2) ∧
      v'.pool.isOpen = v.pool.isOpen ∧ v.accepted ⊆ v'.accepted ∧ v'.dropped = v.dropped := by
  induction n generalizing v b with
  | zero => exact ⟨v, .refl, by rw [hi]; rfl, rfl, fun _ hr => hr, rfl⟩
  | succ n ih =>
    cases hended : b.isEnded with
    | true =>
      -- nothing happens to a submission that is over
      have hstay : v.pool.advance b = (v.pool, b) := by
        obtain ⟨r, stage⟩ := b
        cases stage <;> first | rfl | cases hended
      rw [Pool.advanceBy, hstay]
      exact ih hi
    | false =>
      cases hstep : v.pool.advance b with
      | mk q next =>
        have hq := Pool.advanced_of_advance hended hstep
        have hi' : (v.advance i q next).submissions[i]? = some next :=
          List.getElem?_set_self (List.getElem?_eq_some_iff.1 hi).1
        obtain ⟨v', hrun, hends, hopen, haccepted, hdropped⟩ := ih hi'
        rw [Pool.advanceBy, hstep]
        refine ⟨v', .head (.advance hi hended hstep) hrun, hends, hopen.trans hq.isOpen_eq,
          fun r hr => haccepted ?_, hdropped⟩
        exact List.mem_append_left _ hr

/-- A workflow file is submitted to an open pool, and the submission is told what has become of it. -/
theorem exists_run_submit (s : Service) (hopen : v.pool.isOpen = true) (source : List UInt8) :
    ∃ v' x, ReflTransGen (Step s) v v' ∧
      v.pool.submit source = (v'.pool, x.map fun _ => v.pool.nextId) ∧ v'.pool.isOpen = true ∧
      v.accepted ⊆ v'.accepted ∧ v'.dropped = v.dropped ∧
      ⟨⟨v.pool.nextId, source⟩, .ended x⟩ ∈ v'.submissions := by
  obtain ⟨x, hx⟩ := Pool.exists_ended_of_claim v.pool source
  have hlast : (v.begin source).submissions[v.submissions.length]? =
      some (v.pool.claim source).2 := by
    change (v.submissions ++ [_])[v.submissions.length]? = _
    rw [List.getElem?_append_right (Nat.le_refl _), Nat.sub_self]
    rfl
  obtain ⟨v', hrun, hends, hopen', haccepted, hdropped⟩ := exists_run_advanceBy s 4 hlast
  obtain ⟨hpool, hended⟩ := Prod.mk.inj hends
  change v'.pool = (Pool.advanceBy 4 (v.pool.claim source)).1 at hpool
  change _ = some (Pool.advanceBy 4 (v.pool.claim source)).2 at hended
  rw [hx] at hended
  refine ⟨v', x, .head (.begin source hopen) hrun, ?_, hopen'.trans hopen, haccepted, hdropped,
    List.mem_of_getElem? hended⟩
  rw [hpool]
  unfold Pool.submit
  simp only [hx]
  cases x <;> rfl

end Workshop

/-! ## The caller -/

/-- A pool has accepted these requests of its only caller, and is still open. -/
def Pool.Serves (s : Service) (size : PoolSize) (p : Pool) (rs : List Request) : Prop :=
  ∃ v, Workshop.Reachable s size v ∧ v.pool = p ∧ p.isOpen = true ∧ rs ⊆ v.accepted

namespace Pool

variable {s : Service} {size : PoolSize} {p q : Pool} {rs : List Request}

theorem serves_start (h : start size = .ok p) : p.Serves s size [] := by
  refine ⟨_, .start h, rfl, ?_, List.nil_subset _⟩
  rw [(start_eq_ok h).1]
  rfl

namespace Serves

theorem works (h : p.Serves s size rs) (hq : p.Works s q) : q.Serves s size rs := by
  induction hq with
  | refl => exact h
  | tail _ hmove ih =>
    obtain ⟨v, hv, rfl, hopen, hrs⟩ := ih
    obtain ⟨w, hw⟩ := hmove
    obtain ⟨a, b, hmoved⟩ := hw.exists_moved
    exact ⟨_, hv.step (.move hw), rfl, hmoved.isOpen_eq.trans hopen, hrs⟩

/-- A workflow file is submitted; if it is accepted, then under its number. -/
theorem submit (h : p.Serves s size rs) {source : List UInt8} {x : Except ConvertError Nat}
    (hx : p.submit source = (q, x)) :
    q.Serves s size rs ∧ ∀ id, x = .ok id → q.Serves s size (rs ++ [⟨id, source⟩]) := by
  obtain ⟨v, hv, rfl, hopen, hrs⟩ := h
  obtain ⟨v', y, hrun, hsubmit, hopen', haccepted, -, hended⟩ :=
    Workshop.exists_run_submit s hopen source
  rw [hsubmit] at hx
  cases hx
  have hv' := hv.run hrun
  have hrs' : rs ⊆ v'.accepted := fun r hr => haccepted (hrs hr)
  refine ⟨⟨v', hv', rfl, hopen', hrs'⟩, fun id hid => ⟨v', hv', rfl, hopen', fun r hr => ?_⟩⟩
  rcases List.mem_append.1 hr with hr | hr
  · exact hrs' hr
  · -- the submission was told that its request is accepted
    cases y with
    | error e => cases hid
    | ok u =>
      cases hid
      rw [List.mem_singleton.1 hr]
      exact (Workshop.invariant_of_reachable hv').isNumbered.accepted_perm.mem_iff.2
        (List.mem_filterMap.2 ⟨_, hended, rfl⟩)

/-- What comes out of the ticket of a request is the result of its conversion. -/
theorem take (h : p.Serves s size rs) {r : Request} (hr : r ∈ rs) {x : Result}
    (hx : p.take? r.id = some (q, x)) : q.Serves s size rs ∧ s.AnswersTo r.source x := by
  obtain ⟨v, hv, rfl, hopen, hrs⟩ := h
  have hcollect := hv.step (.collect hx)
  have hinv := Workshop.invariant_of_reachable hcollect
  have hq : q.isOpen = true := by
    rw [(take?_eq_some hx).1]
    exact hopen
  refine ⟨⟨_, hcollect, rfl, hq, hrs⟩, ?_⟩
  obtain ⟨a, ha, hid, rfl⟩ := hinv.isTold.collected (r.id, x)
    (List.mem_append_right _ (List.mem_singleton.2 rfl))
  -- no other request has this number
  have hsame : a.1 = r :=
    List.inj_on_of_nodup_map hinv.isNumbered.nodup (hinv.isKept.mem_accepted ha) (hrs hr) hid
  rw [← hsame]
  exact hinv.isSound.answered a ha

end Serves

end Pool

/-! ## Taking turns -/

namespace Turns

variable {t : Turns} {s : Service} {size : PoolSize} {p q : Pool} {rs : List Request}

theorem Follows.submit (ht : t.Follows s) (h : p.Serves s size rs) {source : List UInt8}
    {x : Except ConvertError Nat} (hx : t.submit p source = (q, x)) :
    q.Serves s size rs ∧ ∀ id, x = .ok id → q.Serves s size (rs ++ [⟨id, source⟩]) :=
  (h.works (ht.beforeSubmission p)).submit hx

/-- Waiting for a request among workers that get on: a manifest that comes out of its ticket is the
one that its workflow file is converted to. -/
theorem Follows.await (ht : t.Follows s) (h : p.Serves s size rs) {r : Request} (hr : r ∈ rs)
    {x : Result} (hx : t.await p r.id = (q, x)) :
    q.Serves s size rs ∧ (x = .error (lostError r.id) ∨ s.AnswersTo r.source x) := by
  have hworked := h.works (ht.untilAnswer r.id p)
  unfold Turns.await at hx
  dsimp only at hx
  cases htake : (t.untilAnswer r.id p).take? r.id with
  | none =>
    rw [htake] at hx
    cases hx
    exact ⟨hworked, .inl rfl⟩
  | some e =>
    rw [htake] at hx
    cases hx
    obtain ⟨hserves, hanswers⟩ := hworked.take hr htake
    exact ⟨hserves, .inr hanswers⟩

end Turns

end JobLoom
