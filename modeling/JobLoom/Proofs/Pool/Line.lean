import JobLoom.Proofs.Pool.Progress

/-!
# The line for permits

The lookups that wait for a permit stand in one line, over all workers together.

* **Who is in line.** Exactly the lookups that wait, each once. So the first in line can always be
  served, and a lookup waits only as long as there are no permits.
* **Permits.** Every permit that is spent answers a lookup that has needed one. If there are permits
  for all lookups that may still need one, then it stays so, and none of them waits for long.
-/

namespace JobLoom

/-! ## Lookups that wait -/

namespace Phase

/-- The lookups of the worker. -/
def lookups : Phase → List Lookup
  | .asking _ _ lookups => lookups
  | _ => []

/-- The lookup in a place waits for a permit. -/
def WaitsAt (a : Phase) (i : Nat) : Prop := ∃ key, a.lookups[i]? = some (.waiting key)

theorem not_waitsAt_of_lookups_eq_nil {a : Phase} (h : a.lookups = []) (i : Nat) : ¬ a.WaitsAt i := by
  rintro ⟨key, hkey⟩
  rw [h] at hkey
  cases hkey

/-- A lookup that waits is one of a worker that is asking. -/
theorem exists_asking_of_waitsAt {a : Phase} {i : Nat} (h : a.WaitsAt i) :
    ∃ r plan lookups key, a = .asking r plan lookups ∧ lookups[i]? = some (.waiting key) := by
  obtain ⟨key, hkey⟩ := h
  cases a with
  | asking r plan lookups => exact ⟨r, plan, lookups, key, rfl, hkey⟩
  | _ => cases hkey

variable {r : Request} {plan : Plan} {lookups : List Lookup} {i : Nat} {l l' : Lookup}

/-- The lookups in the other places wait as before. -/
theorem waitsAt_set_of_ne {j : Nat} (h : j ≠ i) :
    (Phase.asking r plan (lookups.set i l')).WaitsAt j ↔ (Phase.asking r plan lookups).WaitsAt j := by
  unfold WaitsAt Phase.lookups
  rw [List.getElem?_set_ne h.symm]

/-- A lookup that takes the place of another one waits or does not. -/
theorem waitsAt_set_self (hi : lookups[i]? = some l) :
    (Phase.asking r plan (lookups.set i l')).WaitsAt i ↔ ∃ key, l' = .waiting key := by
  unfold WaitsAt Phase.lookups
  rw [List.getElem?_set_self (List.getElem?_eq_some_iff.1 hi).1]
  exact exists_congr fun key => Option.some_inj

/-- Whether a lookup waits is seen in its place. -/
theorem waitsAt_iff (hi : lookups[i]? = some l) :
    (Phase.asking r plan lookups).WaitsAt i ↔ ∃ key, l = .waiting key := by
  unfold WaitsAt Phase.lookups
  rw [hi]
  exact exists_congr fun key => Option.some_inj

/-- A lookup that is answered does not wait, and the others wait as before. -/
theorem waitsAt_set_answered (hi : lookups[i]? = some l) (a : Option Answer) (j : Nat) :
    (Phase.asking r plan (lookups.set i (.answered a))).WaitsAt j ↔
      (Phase.asking r plan lookups).WaitsAt j ∧ j ≠ i := by
  by_cases hj : j = i
  · subst hj
    rw [waitsAt_set_self hi]
    exact ⟨fun ⟨key, h⟩ => (by cases h), fun h => absurd rfl h.2⟩
  · rw [waitsAt_set_of_ne hj]
    exact (and_iff_left hj).symm

theorem not_waitsAt_of_unasked {key : Option String} (hi : lookups[i]? = some (.unasked key)) :
    ¬ (Phase.asking r plan lookups).WaitsAt i := by
  rw [waitsAt_iff hi]
  exact nofun

/-- A lookup that is answered when it is asked does not wait before or after that. -/
theorem waitsAt_set_answered_of_unasked {key : Option String}
    (hi : lookups[i]? = some (.unasked key)) (a : Option Answer) (j : Nat) :
    (Phase.asking r plan (lookups.set i (.answered a))).WaitsAt j ↔
      (Phase.asking r plan lookups).WaitsAt j := by
  rw [waitsAt_set_answered hi, and_iff_left_iff_imp]
  rintro hj rfl
  exact not_waitsAt_of_unasked hi hj

/-- A lookup that gets in line waits from then on, and the others wait as before. -/
theorem waitsAt_set_waiting (hi : lookups[i]? = some l) (key : String) (j : Nat) :
    (Phase.asking r plan (lookups.set i (.waiting key))).WaitsAt j ↔
      (Phase.asking r plan lookups).WaitsAt j ∨ j = i := by
  by_cases hj : j = i
  · subst hj
    rw [waitsAt_set_self hi]
    exact iff_of_true ⟨key, rfl⟩ (.inr rfl)
  · rw [waitsAt_set_of_ne hj]
    exact (or_iff_left hj).symm

theorem not_waitsAt_unasked (keys : List (Option String)) (i : Nat) :
    ¬ (Phase.asking r plan (keys.map .unasked)).WaitsAt i := by
  rintro ⟨key, hkey⟩
  obtain ⟨key', -, h⟩ := List.mem_map.1 (List.mem_of_getElem? hkey)
  cases h

theorem not_waitsAt_of_answers {answers : List (Option Answer)}
    (h : lookups.mapM Lookup.answer? = some answers) (i : Nat) :
    ¬ (Phase.asking r plan lookups).WaitsAt i := by
  rintro ⟨key, hkey⟩
  exact waiting_not_mem_of_answers h key (List.mem_of_getElem? hkey)

end Phase

/-! ## Lookups that may need a permit -/

/-- The lookup may still need a permit. -/
def Service.needsPermit (s : Service) : Lookup → Bool
  | .unasked (some key) => s.isGated s.converter.space key
  | .waiting _ => true
  | .unasked none | .answered _ => false

/-- How many lookups of a request need a permit. -/
def Service.permitsFor (s : Service) (r : Request) : Nat :=
  match Plan.ofBytes r.source with
  | .ok plan => (plan.keys.map Lookup.unasked).countP s.needsPermit
  | .error _ => 0

/-- How many permits a worker may still need for its request. -/
def Phase.permitsNeeded (s : Service) : Phase → Nat
  | .received r | .dequeued r | .started r => s.permitsFor r
  | .asking _ _ lookups => lookups.countP s.needsPermit
  | _ => 0

/-- How many permits may still be needed for all requests. -/
def Pool.permitsNeeded (s : Service) (p : Pool) : Nat :=
  (p.queue.map s.permitsFor).sum + (p.workers.map (Phase.permitsNeeded s)).sum

namespace Phase

variable {s : Service} {a b : Phase} {r : Request} {plan : Plan} {lookups : List Lookup} {i : Nat}
  {l : Lookup}

/-- A lookup takes the place of another one. -/
theorem permitsNeeded_set (s : Service) (r : Request) (plan : Plan) (hi : lookups[i]? = some l)
    (l' : Lookup) :
    (Phase.asking r plan (lookups.set i l')).permitsNeeded s + (s.needsPermit l).toNat =
      (Phase.asking r plan lookups).permitsNeeded s + (s.needsPermit l').toNat :=
  countP_set_add hi

/-- A worker that gets on needs no more permits, apart from those for a request that it receives. -/
theorem Goes.permitsNeeded_le (h : a.Goes s b) :
    b.permitsNeeded s ≤ a.permitsNeeded s + (b.taken?.toList.map s.permitsFor).sum := by
  cases h with
  | receive r =>
    change s.permitsFor r ≤ 0 + (s.permitsFor r + 0)
    omega
  | @plan r plan passes =>
    have hcount : s.permitsFor r = (plan.keys.map Lookup.unasked).countP s.needsPermit := by
      unfold Service.permitsFor
      rw [passes]
    exact Nat.le_of_eq hcount.symm
  | @skip r plan lookups i place =>
    have hset := permitsNeeded_set s r plan place (.answered none)
    exact Nat.le_of_eq hset
  | @wait r plan lookups i key place gated =>
    have hset := permitsNeeded_set s r plan place (.waiting key)
    have hgated : s.needsPermit (.unasked (some key)) = true := gated
    rw [hgated] at hset
    exact Nat.le_of_eq (Nat.add_right_cancel hset)
  | @hear r plan lookups i l key a place isOpen reply =>
    have hset := permitsNeeded_set s r plan place (.answered (some a))
    change _ = _ + 0 at hset
    exact Nat.le_trans (Nat.le_add_right _ _) (Nat.le_of_eq hset)
  | dequeue r | start r => exact Nat.le_refl _
  | listen | stop | refuse fails | crash place isOpen reply | compose complete => exact Nat.zero_le _
  | leave r x | count r x | reply r x => exact Nat.zero_le _

/-- An answer to a lookup that needs a permit leaves one less to need one. -/
theorem permitsNeeded_set_answered (hi : lookups[i]? = some l) (hl : s.needsPermit l = true)
    (a : Option Answer) : (Phase.asking r plan (lookups.set i (.answered a))).permitsNeeded s <
      (Phase.asking r plan lookups).permitsNeeded s := by
  have hset := permitsNeeded_set s r plan hi (.answered a)
  rw [hl] at hset
  exact Nat.lt_of_succ_le (Nat.le_of_eq hset)

theorem permitsNeeded_pos (hi : lookups[i]? = some l) (hl : s.needsPermit l = true) :
    0 < (Phase.asking r plan lookups).permitsNeeded s :=
  List.countP_pos_iff.2 ⟨l, List.mem_of_getElem? hi, hl⟩

end Phase

namespace Pool

variable {s : Service} {p q : Pool} {w : Nat} {a b : Phase}

/-! ## What a move does to the line -/

/-- What a move of a worker does to the line and to the permits. -/
inductive Queues (s : Service) (p : Pool) (w : Nat) (a b : Phase) (q : Pool) : Prop where
  /-- nothing -/
  | stay (line_eq : q.line = p.line) (permits_eq : q.permits = p.permits)
      (same : ∀ i, b.WaitsAt i ↔ a.WaitsAt i) : Queues s p w a b q
  /-- a lookup gets in line -/
  | join {i : Nat} (line_eq : q.line = p.line ++ [⟨w, i⟩]) (permits_eq : q.permits = p.permits)
      (new : ¬ a.WaitsAt i) (waits : ∀ j, b.WaitsAt j ↔ a.WaitsAt j ∨ j = i) : Queues s p w a b q
  /-- a lookup takes a permit that nobody waits for -/
  | pay (line_eq : q.line = p.line) (permits_eq : q.permits + 1 = p.permits)
      (needed : b.permitsNeeded s < a.permitsNeeded s) (same : ∀ i, b.WaitsAt i ↔ a.WaitsAt i) :
      Queues s p w a b q
  /-- the first lookup in line gets a permit -/
  | serve {i : Nat} (line_eq : p.line = ⟨w, i⟩ :: q.line) (permits_eq : q.permits + 1 = p.permits)
      (needed : b.permitsNeeded s < a.permitsNeeded s)
      (waits : ∀ j, b.WaitsAt j ↔ a.WaitsAt j ∧ j ≠ i) : Queues s p w a b q
  /-- a crash takes the lookups of the worker out of the line -/
  | clear (line_eq : q.line = p.line.filter fun e => e.worker ≠ w)
      (permits : q.permits = p.permits ∨
        q.permits + 1 = p.permits ∧ b.permitsNeeded s < a.permitsNeeded s)
      (none : ∀ i, ¬ b.WaitsAt i) : Queues s p w a b q

/-- A step of a worker leaves the line and the permits as they are. -/
theorem line_eq_of_work (h : p.work? s w = some q) : q.line = p.line ∧ q.permits = p.permits := by
  unfold work? at h
  obtain ⟨a, -, h⟩ := Option.bind_eq_some_iff.1 h
  cases a with
  | idle | listening =>
    dsimp only at h
    repeat' split at h
    all_goals first | cases h; exact ⟨rfl, rfl⟩ | cases h
  | started r =>
    dsimp only at h
    split at h <;> cases h <;> exact ⟨rfl, rfl⟩
  | asking r plan lookups =>
    obtain ⟨answers, -, h⟩ := Option.bind_eq_some_iff.1 h
    cases h
    exact ⟨rfl, rfl⟩
  | received r | dequeued r | converted r x | left r x | counted r x =>
    cases h
    exact ⟨rfl, rfl⟩
  | stopped => cases h

/-- Neither before nor after a step of a worker does one of its lookups wait. -/
theorem Moved.not_waitsAt_of_work (hq : p.Moved s w a b q) (h : p.work? s w = some q) :
    (∀ i, ¬ a.WaitsAt i) ∧ ∀ i, ¬ b.WaitsAt i := by
  have hgoes := hq.goes
  cases a with
  | asking r plan lookups =>
    -- it composes its manifest from the answers of all lookups
    unfold work? at h
    obtain ⟨a', ha', h⟩ := Option.bind_eq_some_iff.1 h
    cases ha'.symm.trans hq.phase_eq
    obtain ⟨answers, hanswers, h⟩ := Option.bind_eq_some_iff.1 h
    have hb : q.workers[w]? = some b := by
      rw [hq.workers_eq]
      exact List.getElem?_set_self (List.getElem?_eq_some_iff.1 hq.phase_eq).1
    cases h
    have hw := (List.getElem?_eq_some_iff.1 hq.phase_eq).1
    change (p.workers.set w _)[w]? = some b at hb
    rw [List.getElem?_set_self hw] at hb
    cases hb
    exact ⟨Phase.not_waitsAt_of_answers hanswers, Phase.not_waitsAt_of_lookups_eq_nil rfl⟩
  | started r =>
    refine ⟨Phase.not_waitsAt_of_lookups_eq_nil rfl, ?_⟩
    cases hgoes with
    | plan passes => exact Phase.not_waitsAt_unasked _
    | refuse fails => exact Phase.not_waitsAt_of_lookups_eq_nil rfl
  | idle | listening | received r | dequeued r | converted r x | left r x | counted r x =>
    cases hgoes <;>
      exact ⟨Phase.not_waitsAt_of_lookups_eq_nil rfl, Phase.not_waitsAt_of_lookups_eq_nil rfl⟩
  | stopped => cases hgoes

/-- What a step of a worker does to the line: nothing. -/
theorem exists_queues_of_work (h : p.work? s w = some q) :
    ∃ a b, Moved s p w a b q ∧ Queues s p w a b q := by
  obtain ⟨a, b, hq⟩ := exists_moved_of_work h
  obtain ⟨hline, hpermits⟩ := line_eq_of_work h
  obtain ⟨ha, hb⟩ := hq.not_waitsAt_of_work h
  exact ⟨a, b, hq, .stay hline hpermits fun i => iff_of_false (hb i) (ha i)⟩

section reply

variable {r : Request} {plan : Plan} {lookups : List Lookup} {i : Nat} {l : Lookup} {key : String}

/-- What the store replies to an open lookup answers it, or takes all lookups of the worker out of
the line. -/
theorem exists_answered_of_reply (permits : Nat) (line : List LineEntry)
    (ha : p.workers[w]? = some (.asking r plan lookups)) (hl : lookups[i]? = some l)
    (hopen : l.IsOpenFor key)
    (hq : { p with permits := permits, line := line }.reply s w r plan lookups i key = q) :
    ∃ b, Moved s p w (.asking r plan lookups) b q ∧ q.permits = permits ∧
      ((∃ x, b = .asking r plan (lookups.set i (.answered x)) ∧ q.line = line) ∨
        ∃ x, b = .converted r x ∧ q.line = line.filter fun e => e.worker ≠ w) := by
  rw [reply] at hq
  cases hr : s.store s.converter.space key with
  | answer a =>
    rw [hr] at hq
    cases hq
    exact ⟨_, moved_of_setPhase _ _ ha (.hear hl hopen hr) rfl rfl (fun h => (by cases h)), rfl,
      .inl ⟨_, rfl, rfl⟩⟩
  | crash text =>
    rw [hr] at hq
    cases hq
    exact ⟨_, moved_of_setPhase _ _ ha (.crash hl hopen hr) rfl rfl (fun h => (by cases h)), rfl,
      .inr ⟨_, rfl, rfl⟩⟩

/-- A lookup that needs no permit is answered without one. -/
theorem exists_queues_of_free (ha : p.workers[w]? = some (.asking r plan lookups))
    (hl : lookups[i]? = some (.unasked (some key)))
    (hq : p.reply s w r plan lookups i key = q) : ∃ a b, Moved s p w a b q ∧ Queues s p w a b q := by
  obtain ⟨b, hmoved, hpermits, ⟨x, rfl, hline⟩ | ⟨x, rfl, hline⟩⟩ :=
    exists_answered_of_reply p.permits p.line ha hl (.inl rfl) hq
  · exact ⟨_, _, hmoved, .stay hline hpermits (Phase.waitsAt_set_answered_of_unasked hl x)⟩
  · exact ⟨_, _, hmoved, .clear hline (.inl hpermits) (Phase.not_waitsAt_of_lookups_eq_nil rfl)⟩

/-- A lookup that needs a permit takes one that nobody waits for. -/
theorem exists_queues_of_pay (ha : p.workers[w]? = some (.asking r plan lookups))
    (hl : lookups[i]? = some (.unasked (some key)))
    (hgated : s.isGated s.converter.space key = true) (hpos : 0 < p.permits)
    (hq : { p with permits := p.permits - 1 }.reply s w r plan lookups i key = q) :
    ∃ a b, Moved s p w a b q ∧ Queues s p w a b q := by
  obtain ⟨b, hmoved, hpermits, hcases⟩ :=
    exists_answered_of_reply (p.permits - 1) p.line ha hl (.inl rfl) hq
  have hpaid : q.permits + 1 = p.permits := by omega
  have hneeds : s.needsPermit (.unasked (some key)) = true := hgated
  rcases hcases with ⟨x, rfl, hline⟩ | ⟨x, rfl, hline⟩
  · exact ⟨_, _, hmoved, .pay hline hpaid (Phase.permitsNeeded_set_answered hl hneeds x)
      (Phase.waitsAt_set_answered_of_unasked hl x)⟩
  · exact ⟨_, _, hmoved, .clear hline (.inr ⟨hpaid, Phase.permitsNeeded_pos hl hneeds⟩)
      (Phase.not_waitsAt_of_lookups_eq_nil rfl)⟩

end reply

/-- What asking for a lookup does to the line. -/
theorem exists_queues_of_ask {i : Nat} (h : p.ask? s w i = some q) :
    ∃ a b, Moved s p w a b q ∧ Queues s p w a b q := by
  unfold ask? at h
  split at h
  case h_2 => cases h
  case h_1 r plan lookups ha =>
    split at h
    · next hl =>
      cases h
      exact ⟨_, _, moved_of_setPhase _ _ ha (.skip hl) rfl rfl nofun,
        .stay rfl rfl (Phase.waitsAt_set_answered_of_unasked hl none)⟩
    · next key hl =>
      split at h
      · exact exists_queues_of_free ha hl (Option.some_inj.1 h)
      · next hgated =>
        have hgated : s.isGated s.converter.space key = true := by simpa using hgated
        split at h
        · next hpermit =>
          have hpos : 0 < p.permits := by simpa using (Bool.and_eq_true_iff.1 hpermit).1
          exact exists_queues_of_pay ha hl hgated hpos (Option.some_inj.1 h)
        · cases h
          refine ⟨_, _, moved_of_setPhase _ _ ha (.wait hl hgated) rfl rfl nofun,
            .join (i := i) rfl rfl (Phase.not_waitsAt_of_unasked hl) fun j => ?_⟩
          exact Phase.waitsAt_set_waiting hl key j
    · cases h

/-- What a permit for the first lookup in line does to the line. -/
theorem exists_queues_of_grant {i : Nat} {rest : List LineEntry}
    (hfirst : p.line = ⟨w, i⟩ :: rest) (h : p.grant? s = some q) :
    ∃ a b, Moved s p w a b q ∧ Queues s p w a b q := by
  simp only [grant?, hfirst] at h
  split at h
  · cases h
  · next hpermits =>
    split at h
    · next r plan lookups ha =>
      split at h
      · next key hl =>
        obtain ⟨b, hmoved, hspent, hcases⟩ :=
          exists_answered_of_reply (p.permits - 1) rest ha hl (.inr rfl) (Option.some_inj.1 h)
        have hpaid : q.permits + 1 = p.permits := by omega
        rcases hcases with ⟨x, rfl, hline⟩ | ⟨x, rfl, hline⟩
        · refine ⟨_, _, hmoved, .serve (hline ▸ hfirst) hpaid
            (Phase.permitsNeeded_set_answered hl rfl x) (Phase.waitsAt_set_answered hl x)⟩
        · refine ⟨_, _, hmoved, .clear ?_ (.inr ⟨hpaid, Phase.permitsNeeded_pos hl rfl⟩)
            (Phase.not_waitsAt_of_lookups_eq_nil rfl)⟩
          rw [hline, hfirst]
          exact (List.filter_cons_of_neg (by simp)).symm
      · cases h
    · cases h

/-- **What every move of a worker does to the line.** -/
theorem Moves.exists_queues (h : p.Moves s w q) :
    ∃ a b, Moved s p w a b q ∧ Queues s p w a b q := by
  cases h with
  | step h => exact exists_queues_of_work h
  | ask i h => exact exists_queues_of_ask h
  | grant first h => exact exists_queues_of_grant first h

/-! ## Who is in line -/

/-- The line is made up of the lookups that wait, each of them once. -/
structure IsLined (p : Pool) : Prop where
  /-- nobody is in line twice -/
  nodup : p.line.Nodup
  /-- who is in line -/
  mem_iff : ∀ e, e ∈ p.line ↔ ∃ c, p.workers[e.worker]? = some c ∧ c.WaitsAt e.lookup

theorem isLined_fresh (size : PoolSize) : (fresh size).IsLined where
  nodup := .nil
  mem_iff e := by
    refine iff_of_false List.not_mem_nil ?_
    rintro ⟨c, hc, hwaits⟩
    cases List.eq_of_mem_replicate (List.mem_of_getElem? hc)
    exact Phase.not_waitsAt_of_lookups_eq_nil rfl _ hwaits

/-- After a move the lookups of the worker wait in its new phase, and all others wait as before. -/
theorem Moved.waits_iff (hq : p.Moved s w a b q) (v i : Nat) :
    (∃ c, q.workers[v]? = some c ∧ c.WaitsAt i) ↔
      (v = w ∧ b.WaitsAt i) ∨ (v ≠ w ∧ ∃ c, p.workers[v]? = some c ∧ c.WaitsAt i) := by
  rw [hq.workers_eq]
  by_cases hv : v = w
  · subst hv
    rw [List.getElem?_set_self (List.getElem?_eq_some_iff.1 hq.phase_eq).1]
    simp
  · rw [List.getElem?_set_ne (Ne.symm hv)]
    simp [hv]

/-- The lookups of the worker that moves are in line when they wait. -/
theorem IsLined.mem_iff_of_moved (h : p.IsLined) (hq : p.Moved s w a b q) (i : Nat) :
    (⟨w, i⟩ : LineEntry) ∈ p.line ↔ a.WaitsAt i := by
  rw [h.mem_iff]
  constructor
  · rintro ⟨c, hc, hwaits⟩
    cases hc.symm.trans hq.phase_eq
    exact hwaits
  · exact fun hwaits => ⟨a, hq.phase_eq, hwaits⟩

/-- When the lookups of the worker that moves are in line as they should be, and the others are as
before, all are. -/
theorem IsLined.of_moved (h : p.IsLined) (hq : p.Moved s w a b q) (hnodup : q.line.Nodup)
    (hworker : ∀ i, (⟨w, i⟩ : LineEntry) ∈ q.line ↔ b.WaitsAt i)
    (hothers : ∀ e : LineEntry, e.worker ≠ w → (e ∈ q.line ↔ e ∈ p.line)) : q.IsLined where
  nodup := hnodup
  mem_iff := by
    rintro ⟨v, i⟩
    rw [hq.waits_iff v i]
    by_cases hv : v = w
    · subst hv
      rw [hworker i]
      simp
    · rw [hothers ⟨v, i⟩ hv, h.mem_iff ⟨v, i⟩]
      simp [hv]

/-- **Every move keeps the line.** -/
theorem IsLined.moves (h : p.IsLined) (hmove : p.Moves s w q) : q.IsLined := by
  obtain ⟨a, b, hq, hqueues⟩ := hmove.exists_queues
  have hmem := h.mem_iff_of_moved hq
  cases hqueues with
  | stay line_eq permits_eq same | pay line_eq permits_eq needed same =>
    refine h.of_moved hq (line_eq ▸ h.nodup) (fun i => ?_) fun e _ => by rw [line_eq]
    rw [line_eq, hmem, same]
  | @join i line_eq permits_eq new waits =>
    have hnew : (⟨w, i⟩ : LineEntry) ∉ p.line := fun hi => new ((hmem i).1 hi)
    refine h.of_moved hq ?_ (fun j => ?_) fun e he => ?_
    · rw [line_eq]
      exact (List.perm_append_singleton _ _).nodup_iff.2 (List.nodup_cons.2 ⟨hnew, h.nodup⟩)
    · rw [line_eq, List.mem_append, hmem, waits, List.mem_singleton, LineEntry.mk.injEq]
      simp
    · rw [line_eq, List.mem_append, List.mem_singleton]
      exact or_iff_left fun heq => he (heq ▸ rfl)
  | @serve i line_eq permits_eq needed waits =>
    -- the first in line is not in the rest of it
    have hnodup := h.nodup
    rw [line_eq, List.nodup_cons] at hnodup
    refine h.of_moved hq hnodup.2 (fun j => ?_) fun e he => ?_
    · rw [waits, ← hmem, line_eq, List.mem_cons, LineEntry.mk.injEq]
      constructor
      · exact fun hj => ⟨.inr hj, fun hji => hnodup.1 (hji ▸ hj)⟩
      · rintro ⟨⟨-, hji⟩ | hj, hne⟩
        · exact absurd hji hne
        · exact hj
    · rw [line_eq, List.mem_cons]
      refine (or_iff_right ?_).symm
      rintro rfl
      exact he rfl
  | clear line_eq permits none =>
    refine h.of_moved hq (line_eq ▸ h.nodup.filter _) (fun i => ?_) fun e he => ?_
    · rw [line_eq, List.mem_filter]
      exact iff_of_false (fun hi => by simp at hi) (none i)
    · rw [line_eq, List.mem_filter]
      exact and_iff_left (by simpa using he)

/-- The lookups of a pool with nobody in line do not wait. -/
theorem IsLined.isFree (h : p.IsLined) (hline : p.line = []) : ∀ a ∈ p.workers, a.IsFree := by
  intro a ha
  obtain ⟨w, hw⟩ := List.mem_iff_getElem?.1 ha
  cases a with
  | asking r plan lookups =>
    intro key hkey
    obtain ⟨i, hi⟩ := List.mem_iff_getElem?.1 hkey
    have hmem : (⟨w, i⟩ : LineEntry) ∈ p.line := (h.mem_iff _).2 ⟨_, hw, key, hi⟩
    rw [hline] at hmem
    cases hmem
  | _ => exact trivial

/-- The first in line can be served if there is a permit. -/
theorem IsLined.exists_moves (h : p.IsLined) (hline : p.line ≠ []) (hpermits : p.permits ≠ 0) :
    ∃ w q, p.Moves s w q := by
  obtain ⟨⟨w, i⟩, rest, hfirst⟩ := List.exists_cons_of_ne_nil hline
  have hmem : (⟨w, i⟩ : LineEntry) ∈ p.line := hfirst ▸ List.mem_cons_self
  obtain ⟨a, ha, hwaits⟩ := (h.mem_iff _).1 hmem
  obtain ⟨r, plan, lookups, key, rfl, hl⟩ := Phase.exists_asking_of_waitsAt hwaits
  have hgrant : p.grant? s =
      some ({ p with permits := p.permits - 1, line := rest }.reply s w r plan lookups i key) := by
    simp only [grant?, if_neg hpermits, hfirst, ha, hl]
  exact ⟨w, _, .grant hfirst hgrant⟩

/-- **In a quiet pool somebody is in line only if there are no permits.** -/
theorem IsLined.permits_eq_zero (h : p.IsLined) (hquiet : p.IsQuiet s) (hline : p.line ≠ []) :
    p.permits = 0 := by
  by_contra hpermits
  obtain ⟨w, q, hmove⟩ := h.exists_moves (s := s) hline hpermits
  exact hquiet w q hmove

/-! ## Permits for all -/

/-- **Every permit that is spent is needed.** A move needs no more permits than it leaves. -/
theorem Moves.permits_le (hmove : p.Moves s w q) :
    p.permits + q.permitsNeeded s ≤ q.permits + p.permitsNeeded s := by
  obtain ⟨a, b, hq, hqueues⟩ := hmove.exists_queues
  have hset := sum_map_set_add (f := Phase.permitsNeeded s) (b := b) hq.phase_eq
  have hgoes := hq.goes.permitsNeeded_le
  have hqueue : (p.queue.map s.permitsFor).sum =
      (b.taken?.toList.map s.permitsFor).sum + (q.queue.map s.permitsFor).sum := by
    rw [hq.queue_eq, List.map_append, List.sum_append]
  have hkept : q.permits = p.permits ∨
      q.permits + 1 = p.permits ∧ b.permitsNeeded s < a.permitsNeeded s := by
    cases hqueues with
    | stay line_eq permits_eq same => exact .inl permits_eq
    | join line_eq permits_eq new waits => exact .inl permits_eq
    | pay line_eq permits_eq needed same => exact .inr ⟨permits_eq, needed⟩
    | serve line_eq permits_eq needed waits => exact .inr ⟨permits_eq, needed⟩
    | clear line_eq permits none => exact permits
  rw [permitsNeeded, permitsNeeded, hq.workers_eq]
  omega

/-- A lookup that waits needs a permit. -/
theorem IsLined.permitsNeeded_pos (h : p.IsLined) (hline : p.line ≠ []) :
    0 < p.permitsNeeded s := by
  obtain ⟨e, he⟩ := List.exists_mem_of_ne_nil _ hline
  obtain ⟨a, ha, hwaits⟩ := (h.mem_iff e).1 he
  obtain ⟨r, plan, lookups, key, rfl, hl⟩ := Phase.exists_asking_of_waitsAt hwaits
  have hpos : 0 < (Phase.asking r plan lookups).permitsNeeded s := Phase.permitsNeeded_pos hl rfl
  have hworkers : 0 < (p.workers.map (Phase.permitsNeeded s)).sum :=
    List.sum_pos_iff_exists_pos_nat.2 ⟨_, List.mem_map_of_mem (List.mem_of_getElem? ha), hpos⟩
  rw [permitsNeeded]
  omega

/-- In a quiet pool with permits for all that may need one, nobody is in line. -/
theorem IsLined.line_eq_nil (h : p.IsLined) (hquiet : p.IsQuiet s)
    (henough : p.permitsNeeded s ≤ p.permits) : p.line = [] := by
  by_contra hline
  have hnone := h.permits_eq_zero hquiet hline
  have hpos := h.permitsNeeded_pos (s := s) hline
  omega

end Pool

/-! ## The line of a workshop -/

namespace Workshop

variable {s : Service} {size : PoolSize} {v v' : Workshop}

/-- Only the workers change the line. -/
theorem isLined_of_step (h : v.pool.IsLined) (hs : v.Step s v') : v'.pool.IsLined := by
  cases hs with
  | @advance i b next q place isUnderWay step =>
    have hq := Pool.proceeds_of_advance isUnderWay step
    cases hq <;> exact ⟨h.nodup, h.mem_iff⟩
  | move move => exact h.moves move
  | collect answer =>
    obtain ⟨rfl, -⟩ := Pool.take?_eq_some answer
    exact ⟨h.nodup, h.mem_iff⟩
  | begin source isOpen | permit n | drop isHeld | close noneUnderWay =>
    exact ⟨h.nodup, h.mem_iff⟩

/-- In every reachable workshop the line is made up of the lookups that wait. -/
theorem isLined_of_reachable (h : Reachable s size v) : v.pool.IsLined := by
  induction h with
  | start started =>
    obtain ⟨rfl, -⟩ := Pool.start_eq_ok started
    exact Pool.isLined_fresh size
  | step _ hs ih => exact isLined_of_step ih hs

/-! ## A worker in line -/

/-- The only worker of a pool waits for a permit, with the only request so far. -/
def heldUp (size : PoolSize) (r : Request) (plan : Plan) : Workshop where
  pool := {
    size := size
    queue := []
    workers := [.asking r plan [.waiting "gpu.yaml"]]
    permits := 0
    line := [⟨0, 0⟩]
    stats := ⟨0, 1, 0, 0, 0⟩
    nextId := 2
    tickets := [(1, .pending)]
    isOpen := true
    isAlive := true }
  submissions := [⟨r, .ended (.ok ())⟩]
  accepted := [r]
  taken := [r]
  answered := []
  collected := []
  dropped := []

/-- A worker gets in line when its request has a label and all lookups need a permit. -/
theorem exists_reachable_heldUp (capacity : Nat)
    (hstart : Pool.start ⟨1, capacity + 1⟩ = .ok (.fresh ⟨1, capacity + 1⟩)) :
    ∃ r plan, r.id = 1 ∧ Reachable ⟨.standard, fun _ _ => .answer .missing, fun _ _ => true⟩
      ⟨1, capacity + 1⟩ (heldUp ⟨1, capacity + 1⟩ r plan) := by
  let s : Service := ⟨.standard, fun _ _ => .answer .missing, fun _ _ => true⟩
  let source := "jobs:\n  t: {runs-on: gpu}\n".toUTF8.toList
  have hchecks : (Plan.ofBytes source).toOption.map Plan.keys = some [some "gpu.yaml"] := by
    decide +kernel
  obtain ⟨plan, hplan, hkeys⟩ := Option.map_eq_some_iff.1 hchecks
  replace hplan : Plan.ofBytes source = .ok plan := by
    cases hx : Plan.ofBytes source <;> rw [hx] at hplan <;> cases hplan
    rfl
  have h : Reachable s ⟨1, capacity + 1⟩ _ := .start hstart
  replace h := h.step (.begin source rfl)
  replace h := (h.step (.advance (i := 0) rfl rfl rfl)).step (.advance (i := 0) rfl rfl rfl)
  -- the worker listens, takes the request and counts it
  replace h := (h.step (.move (w := 0) (.step rfl))).step (.move (w := 0) (.step rfl))
  replace h := (h.step (.move (w := 0) (.step rfl))).step (.move (w := 0) (.step rfl))
  -- it finds one label in the request, and its lookup gets in line
  have hplans (p : Pool) (hp : p.workers[0]? = some (.started ⟨1, source⟩)) :
      p.work? s 0 = some (p.setPhase 0 (.asking ⟨1, source⟩ plan [.unasked (some "gpu.yaml")])) := by
    simp [Pool.work?, hp, hplan, hkeys]
  replace h := h.step (.move (.step (hplans _ rfl)))
  exact ⟨⟨1, source⟩, plan, rfl, h.step (.move (w := 0) (.ask 0 rfl))⟩

end Workshop

end JobLoom
