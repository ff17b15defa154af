import JobLoom.Proofs.Command.Sequence
import JobLoom.Proofs.Pool.Backlog

/-!
# Batches get on

A batch that finds the queue full waits for its oldest pending input and tries again. Inputs may be
unreadable, manifests may be written over inputs or into the store, and the workers may be up to
anything: as long as the conversions that are waited for come to their end, the batch gets on.

* **Scenes** are where a batch may be on its way. It goes from one to the next by reading an input,
  by trying to submit it, or by recording a result.
* **Nothing is lost.** In every scene the accepted requests without an answer are pending.
* **Every step counts.** An input is read once, accepted once and recorded once, so there is an end.
-/

namespace JobLoom.Command

open Relation (ReflTransGen)

/-- A file that cannot be read or written is at fault. -/
def Failure.IsFileFault : Failure → Prop
  | .unreadable _ _ | .unwritable _ _ | .unmakable _ _ => True
  | _ => False

/-- How many files have their results. -/
def Tally.total (t : Tally) : Nat := t.converted + t.failed

/-- The pool is to answer for the pending inputs, and for nothing else. -/
def Progress.IsBacked (size : PoolSize) (p : Progress) : Prop :=
  p.pool.Backs size (p.pending.map Pending.ticket)

/-- What may come of trying to submit an input: it is the last one that is pending, or the oldest one
is no longer pending and has its result. There is no waiting for nothing. -/
def Attempt.Advances (size : PoolSize) (names : List String) (p : Progress) : Attempt → Prop
  | .accepted q => q.IsBacked size ∧ q.tally = p.tally ∧
      ∃ id, q.pending = p.pending ++ [⟨names, id⟩]
  | .retired q => q.IsBacked size ∧ q.tally.total = p.tally.total + 1 ∧
      ∃ oldest, p.pending = oldest :: q.pending
  | .yielded _ => False

/-- Some of the oldest inputs have their results recorded, and an input is pending after the others. -/
def Progress.Admits (names : List String) (p q : Progress) : Prop :=
  ∃ retries id, retries ≤ p.pending.length ∧
    q.pending = p.pending.drop retries ++ [⟨names, id⟩] ∧
    q.tally.total = p.tally.total + retries

namespace Batch

/-! ## Scenes -/

/-- Where a batch is on its way. -/
structure Scene where
  /-- the input that has been read and is to be submitted, with its content -/
  current : Option (List String × List UInt8)
  /-- the inputs that are still to be read -/
  later : List (List String)
  /-- what has been submitted -/
  progress : Progress
  /-- the files and the outputs -/
  session : Session

/-- The scene in which a batch begins. -/
def Scene.opening (inputs : List (List String)) (pool : Pool) (s : Session) : Scene :=
  ⟨none, inputs, ⟨pool, [], ⟨0, 0⟩⟩, s⟩

/-- The scene in which a batch ends. -/
def Scene.closing (pool : Pool) (t : Tally) (s : Session) : Scene := ⟨none, [], ⟨pool, [], t⟩, s⟩

/-- How much is left to do in a scene. -/
def Scene.work (l : Scene) : Nat :=
  3 * l.later.length + 2 * l.current.toList.length + l.progress.pending.length

/-- How many inputs have a result, or are to get one. -/
def Scene.total (l : Scene) : Nat :=
  l.progress.tally.total + l.progress.pending.length + l.current.toList.length + l.later.length

variable (b : Batch) (turns : Service → Turns) (st : Settings) (format : OutputFormat)

/-- What a batch does next. -/
inductive Goes : Scene → Scene → Prop where
  /-- the next input is read -/
  | read {names : List String} {source : List UInt8} {later : List (List String)} {p : Progress}
      {s s' : Session}
      (run : (Session.host.readFile (b.sourcePath names)).run.run s = (.ok source, s')) :
      Goes ⟨none, names :: later, p, s⟩ ⟨some (names, source), later, p, s'⟩
  /-- an input is accepted -/
  | accept {names : List String} {source : List UInt8} {later : List (List String)} {p q : Progress}
      {s s' : Session}
      (run : (Session.host.attempt (turnsNow turns st format) b names source p).run.run s =
        (.ok (.accepted q), s')) :
      Goes ⟨some (names, source), later, p, s⟩ ⟨none, later, q, s'⟩
  /-- an input is not accepted, and is tried again after a result has been recorded -/
  | retire {names : List String} {source : List UInt8} {later : List (List String)} {p q : Progress}
      {s s' : Session}
      (run : (Session.host.attempt (turnsNow turns st format) b names source p).run.run s =
        (.ok (.retired q), s')) :
      Goes ⟨some (names, source), later, p, s⟩ ⟨some (names, source), later, q, s'⟩
  /-- an input is not accepted, and is tried again after the workers have got on -/
  | yield {names : List String} {source : List UInt8} {later : List (List String)} {p q : Progress}
      {s s' : Session}
      (run : (Session.host.attempt (turnsNow turns st format) b names source p).run.run s =
        (.ok (.yielded q), s')) :
      Goes ⟨some (names, source), later, p, s⟩ ⟨some (names, source), later, q, s'⟩
  /-- all inputs are accepted, and a result is recorded -/
  | collect {oldest : Pending} {pending : List Pending} {pool pool' : Pool} {t t' : Tally}
      {s s' : Session}
      (run : (Session.host.retire (turnsNow turns st format) b pool oldest t).run.run s =
        (.ok (pool', t'), s')) :
      Goes ⟨none, [], ⟨pool, oldest :: pending, t⟩, s⟩ ⟨none, [], ⟨pool', pending, t'⟩, s'⟩

/-- The scenes that a batch may come to from another one. -/
def Reaches : Scene → Scene → Prop := ReflTransGen (b.Goes turns st format)

variable {b turns st format} {names : List String} {source : List UInt8}
  {later : List (List String)} {p q : Progress} {pool : Pool} {pending : List Pending} {t : Tally}
  {s s' : Session} {l l' : Scene}

/-! ## Recording results -/

/-- A result that is recorded is counted. Only a file can be at fault. -/
theorem meets_record (s : Session) (b : Batch) (names : List String) (x : Result) (t : Tally) :
    s.Meets (Session.host.record b names x t) (fun t' _ => t'.total = t.total + 1)
      Failure.IsFileFault := by
  unfold Host.record
  cases x with
  | error e => exact .bind (.lift rfl (.pure (Nat.add_assoc ..).symm))
  | ok o =>
    refine .bind (.lift (s.run_tellWarnings _ o) ?_)
    refine .bind (.orFail (fun _ => trivial) fun _ s₁ _ => ?_)
    refine .bind (.orFail (fun _ => trivial) fun _ s₂ _ => ?_)
    exact .bind (.lift rfl (.pure (Nat.add_right_comm ..)))

section

variable (hfollows : ∀ v, (turns v).Follows v)
  (hpatient : ∀ v, v.IsUngated → (turns v).IsPatient v)

include hfollows hpatient

/-- The oldest pending input is waited for, and its result is recorded. -/
theorem meets_retire {oldest : Pending}
    (h : Progress.IsBacked st.pool ⟨pool, oldest :: pending, t⟩) :
    s.Meets (Session.host.retire (turnsNow turns st format) b pool oldest t)
      (fun e _ => Progress.IsBacked st.pool ⟨e.1, pending, e.2⟩ ∧ e.2.total = t.total + 1)
      Failure.IsFileFault := by
  have hungated := s.isUngated_service st format
  have hawait := (hfollows _).await_backs (hpatient _ hungated) hungated h
  refine .bind (.lift (run_turnsNow_of_service rfl) ?_)
  exact .bind ((meets_record s b oldest.names _ t).mono fun t' s' ht => .pure ⟨hawait, ht⟩)

theorem meets_finish (h : Progress.IsBacked st.pool ⟨pool, pending, t⟩) :
    s.Meets (Session.host.finish (turnsNow turns st format) b pool t pending)
      (fun t' s' => ∃ q, b.Reaches turns st format ⟨none, [], ⟨pool, pending, t⟩, s⟩
        (.closing q t' s'))
      Failure.IsFileFault := by
  induction pending generalizing pool t s with
  | nil => exact .pure ⟨pool, .refl⟩
  | cons oldest pending ih =>
    refine .bind ((meets_retire hfollows hpatient h).and_run_eq.mono fun e s₁ ⟨he, hrun⟩ => ?_)
    exact (ih he.1).mono fun t' s' ⟨q, hreach⟩ => ⟨q, .head (.collect hrun) hreach⟩

/-! ## Submitting -/

variable (hcapacity : 0 < st.pool.capacity)

include hcapacity

/-- **No attempt is made for nothing.** -/
theorem meets_attempt (h : p.IsBacked st.pool) (names : List String) (source : List UInt8) :
    s.Meets (Session.host.attempt (turnsNow turns st format) b names source p)
      (fun x _ => x.Advances st.pool names p) Failure.IsFileFault := by
  obtain ⟨pool, pending, t⟩ := p
  refine .bind (.lift (run_turnsNow_of_service rfl) ?_)
  rcases (hfollows _).submit_backs (s.isUngated_service st format) hcapacity h source with
    ⟨id, q, hsubmit, hq⟩ | ⟨hne, q, hsubmit, hq⟩
  · rw [hsubmit]
    refine .pure ⟨?_, rfl, id, rfl⟩
    unfold Progress.IsBacked
    rwa [List.map_append]
  · rw [hsubmit]
    cases pending with
    | nil => exact absurd rfl hne
    | cons oldest pending =>
      refine .bind ((meets_retire hfollows hpatient hq).mono fun e s' he => .pure ?_)
      exact ⟨he.1, he.2, oldest, rfl⟩

/-- Whoever may try once more than inputs are pending need not try more often. -/
theorem run_submitWithin_congr (h : p.IsBacked st.pool) {n k : Nat} (hn : p.pending.length < n)
    (hk : p.pending.length < k) :
    (Session.host.submitWithin (turnsNow turns st format) b names source n p).run.run s =
      (Session.host.submitWithin (turnsNow turns st format) b names source k p).run.run s := by
  induction n generalizing k p s with
  | zero => exact absurd hn (Nat.not_lt_zero _)
  | succ n ih =>
    cases k with
    | zero => exact absurd hk (Nat.not_lt_zero _)
    | succ k =>
      refine Session.run_bind_congr rfl fun x s₁ hrun => ?_
      have hx := (meets_attempt hfollows hpatient hcapacity h names source).of_run _ _ hrun
      cases x with
      | accepted q => rfl
      | retired q =>
        obtain ⟨hq, -, oldest, hpending⟩ := hx
        rw [hpending] at hn hk
        exact ih hq (Nat.lt_of_succ_lt_succ hn) (Nat.lt_of_succ_lt_succ hk)
      | yielded q => exact hx.elim

/-- An input gets in when it may be tried once more than inputs are pending. -/
theorem meets_submitWithin (h : p.IsBacked st.pool) (names : List String) (source : List UInt8)
    (later : List (List String)) {n : Nat} (hn : p.pending.length < n) :
    s.Meets (Session.host.submitWithin (turnsNow turns st format) b names source n p)
      (fun q s' => p.Admits names q ∧
        b.Reaches turns st format ⟨some (names, source), later, p, s⟩ ⟨none, later, q, s'⟩)
      Failure.IsFileFault := by
  -- a refusal takes away one attempt and one pending input, so the attempts stay ahead
  induction n generalizing p s with
  | zero => exact absurd hn (Nat.not_lt_zero _)
  | succ n ih =>
    refine .bind ((meets_attempt hfollows hpatient hcapacity h names source).and_run_eq.mono
      fun x s₁ ⟨hx, hrun⟩ => ?_)
    cases x with
    | accepted q =>
      obtain ⟨-, htally, id, hpending⟩ := hx
      exact .pure ⟨⟨0, id, Nat.zero_le _, hpending, htally ▸ rfl⟩, .single (.accept hrun)⟩
    | retired q =>
      obtain ⟨hq, htotal, oldest, hpending⟩ := hx
      rw [hpending] at hn
      refine (ih hq (Nat.lt_of_succ_lt_succ hn)).mono fun q' s' ⟨hadmits, hreach⟩ =>
        ⟨?_, .head (.retire hrun) hreach⟩
      obtain ⟨retries, id, hretries, hpending', htotal'⟩ := hadmits
      refine ⟨retries + 1, id, ?_, ?_, ?_⟩
      · rw [hpending]
        exact Nat.succ_le_succ hretries
      · rw [hpending, List.drop_succ_cons, hpending']
      · rw [htotal', htotal, Nat.add_assoc, Nat.add_comm 1]
    | yielded q => exact hx.elim

/-! ## What every step does -/

/-- **Every step counts.** -/
theorem Goes.step (hgoes : b.Goes turns st format l l') (h : l.progress.IsBacked st.pool) :
    l'.progress.IsBacked st.pool ∧ l.work = l'.work + 1 ∧ l'.total = l.total := by
  cases hgoes with
  | read run => exact ⟨h, by simp +arith [Scene.work], by simp +arith [Scene.total]⟩
  | @accept names source later p q s s' run =>
    obtain ⟨hq, htally, id, hpending⟩ :=
      (meets_attempt hfollows hpatient hcapacity h names source).of_run _ _ run
    exact ⟨hq, by simp +arith [Scene.work, hpending], by simp +arith [Scene.total, hpending, htally]⟩
  | @retire names source later p q s s' run =>
    obtain ⟨hq, htotal, oldest, hpending⟩ :=
      (meets_attempt hfollows hpatient hcapacity h names source).of_run _ _ run
    dsimp only at hpending htotal
    exact ⟨hq, by simp +arith [Scene.work, hpending], by simp +arith [Scene.total, hpending, htotal]⟩
  | yield run =>
    -- a refused input finds something pending
    exact ((meets_attempt hfollows hpatient hcapacity h _ _).of_run _ _ run).elim
  | collect run =>
    obtain ⟨hq, htotal⟩ := (meets_retire hfollows hpatient h).of_run _ _ run
    dsimp only at htotal
    exact ⟨hq, by simp +arith [Scene.work], by simp +arith [Scene.total, htotal]⟩

/-- Whatever a batch comes to, the pool is to answer for what is pending, and no input is lost. -/
theorem Reaches.kept (hreach : b.Reaches turns st format l l') (h : l.progress.IsBacked st.pool) :
    l'.progress.IsBacked st.pool ∧ l'.total = l.total := by
  induction hreach with
  | refl => exact ⟨h, rfl⟩
  | tail _ hgoes ih =>
    obtain ⟨hkept, -, htotal⟩ := hgoes.step hfollows hpatient hcapacity ih.1
    exact ⟨hkept, htotal.trans ih.2⟩

/-- Whatever way a batch goes, with every step there is one thing less left to do. -/
theorem reaches_of_goes {way : Nat → Scene} {n : Nat} (h : (way 0).progress.IsBacked st.pool)
    (hway : ∀ k < n, b.Goes turns st format (way k) (way (k + 1))) :
    b.Reaches turns st format (way 0) (way n) ∧ (way n).work + n = (way 0).work := by
  induction n with
  | zero => exact ⟨.refl, rfl⟩
  | succ n ih =>
    obtain ⟨hreach, hwork⟩ := ih fun k hk => hway k (Nat.lt_succ_of_lt hk)
    have hgoes := hway n (Nat.lt_succ_self n)
    have hn := (hreach.kept hfollows hpatient hcapacity h).1
    have hless := (hgoes.step hfollows hpatient hcapacity hn).2.1
    exact ⟨hreach.tail hgoes, by omega⟩

/-! ## Whole batches -/

theorem meets_takeInput (h : p.IsBacked st.pool) (names : List String)
    (later : List (List String)) :
    s.Meets (Session.host.takeInput (turnsNow turns st format) b p names)
      (fun q s' => b.Reaches turns st format ⟨none, names :: later, p, s⟩ ⟨none, later, q, s'⟩)
      Failure.IsFileFault := by
  have hread : s.Meets (Session.host.readFile (b.sourcePath names)) (fun _ _ => True)
      Failure.IsFileFault := .orFail (fun _ => trivial) fun _ _ _ => trivial
  refine .bind (hread.and_run_eq.mono fun source s₁ ⟨_, hrun⟩ => ?_)
  exact (meets_submitWithin hfollows hpatient hcapacity h names source later
    (Nat.lt_succ_self _)).mono fun q s' hq => .head (.read hrun) hq.2

/-- All inputs are read and submitted, and all results are recorded. -/
theorem meets_courseFrom (h : p.IsBacked st.pool) :
    s.Meets (b.courseFrom turns st format later p)
      (fun t s' => ∃ q, b.Reaches turns st format ⟨none, later, p, s⟩ (.closing q t s'))
      Failure.IsFileFault := by
  induction later generalizing p s with
  | nil => exact meets_finish hfollows hpatient h
  | cons names later ih =>
    unfold courseFrom
    rw [List.foldlM_cons, bind_assoc]
    refine .bind ((meets_takeInput hfollows hpatient hcapacity h names later).mono
      fun q s₁ hreach => ?_)
    have hq := (hreach.kept hfollows hpatient hcapacity h).1
    exact (ih hq).mono fun t s' ⟨q', hrest⟩ => ⟨q', hreach.trans hrest⟩

end

/-! ## Getting on -/

/-- In a scene, a batch gets on. -/
structure Scene.GetsOn (b : Batch) (turns : Service → Turns) (st : Settings) (format : OutputFormat)
    (l : Scene) : Prop where
  /-- whatever the workers do, what has been accepted and has no answer is pending -/
  unanswered : ∀ v q, v.IsUngated → l.progress.pool.Works v q →
    (∃ w, Workshop.Arises st.pool w ∧ w.pool = q) ∧
      ∀ w, Workshop.Arises st.pool w → w.pool = q →
        ∀ r ∈ w.accepted, r ∉ w.answered.map Prod.fst → ∃ e ∈ l.progress.pending, e.ticket = r.id
  /-- whatever the workers do, a submission fails only if the queue is full, and then something is
  pending -/
  full : ∀ v q, v.IsUngated → l.progress.pool.Works v q →
    ∀ source q' e, q.submit source = (q', .error e) →
      e = .queueFull st.pool.capacity ∧ l.progress.pending ≠ []
  /-- the tickets are those of the pending inputs, one each -/
  tickets_eq : l.progress.pool.tickets.map Prod.fst = l.progress.pending.map Pending.ticket
  /-- no two pending inputs share a ticket -/
  nodup : (l.progress.pending.map Pending.ticket).Nodup
  /-- an input is accepted, or else one result is recorded, unless a file is at fault -/
  attempt : ∀ names source, l.session.Meets
    (Session.host.attempt (turnsNow turns st format) b names source l.progress)
    (fun x _ => x.Advances st.pool names l.progress) Failure.IsFileFault
  /-- an input gets in when it may be tried once more than inputs are pending, unless a file is at
  fault -/
  submit : ∀ names source n, l.progress.pending.length < n → l.session.Meets
    (Session.host.submitWithin (turnsNow turns st format) b names source n l.progress)
    (fun q _ => l.progress.Admits names q) Failure.IsFileFault
  /-- to be allowed to try more often makes no difference -/
  submit_eq : ∀ names source n, l.progress.pending.length < n →
    (Session.host.submitWithin (turnsNow turns st format) b names source n
      l.progress).run.run l.session =
    (Session.host.submitInput (turnsNow turns st format) b names source l.progress.pool
      l.progress.tally l.progress.pending).run.run l.session
  /-- whatever is done next, there is one thing less left to do -/
  work_eq : ∀ l', b.Goes turns st format l l' → l.work = l'.work + 1

/-- A batch with these inputs gets on to its end. -/
structure GetsOn (b : Batch) (turns : Service → Turns) (st : Settings) (format : OutputFormat)
    (inputs : List (List String)) (pool : Pool) (s : Session) : Prop where
  /-- it gets on in every scene that it comes to -/
  getsOn : ∀ l, b.Reaches turns st format (.opening inputs pool s) l → l.GetsOn b turns st format
  /-- it never goes on for more than three steps for each input -/
  le_of_goes : ∀ (way : Nat → Scene) n, way 0 = .opening inputs pool s →
    (∀ k < n, b.Goes turns st format (way k) (way (k + 1))) → n ≤ 3 * inputs.length
  /-- in the end nothing is pending and all results are recorded, unless a file is at fault -/
  ends : s.Meets (b.course turns st format inputs pool)
    (fun t s' => ∃ q, b.Reaches turns st format (.opening inputs pool s) (.closing q t s') ∧
      q.tickets = [] ∧ q.unanswered = [] ∧ t.total = inputs.length)
    Failure.IsFileFault

/-- As long as the pool is to answer for what is pending, a batch gets on. -/
theorem Scene.getsOn_of_isBacked (hfollows : ∀ v, (turns v).Follows v)
    (hpatient : ∀ v, v.IsUngated → (turns v).IsPatient v) (hcapacity : 0 < st.pool.capacity)
    (h : l.progress.IsBacked st.pool) : l.GetsOn b turns st format where
  unanswered v q hv hq := by
    have hbacked := h.works hv hq
    obtain ⟨w, hw, hpool, -⟩ := hbacked.exists_workshop
    refine ⟨⟨w, hw, hpool⟩, fun w' hw' hpool' r hr hnot => ?_⟩
    -- whichever steps have led to this pool, it shows what is unanswered
    subst hpool'
    have hunanswered := (Workshop.isOrderly_of_arises hw').mem_unanswered_iff.2 ⟨hr, hnot⟩
    exact List.mem_map.1 (hbacked.mem_of_unanswered hunanswered)
  full v q hv hq source q' e hsubmit := by
    rcases (h.works hv hq).submit hcapacity source with ⟨id, q₁, haccepted, -⟩ | ⟨hne, q₁, hfull, -⟩
    · rw [haccepted] at hsubmit
      cases hsubmit
    · rw [hfull] at hsubmit
      cases hsubmit
      exact ⟨rfl, fun hnil => hne (hnil ▸ rfl)⟩
  tickets_eq := h.tickets_eq
  nodup := h.isOrderly.2.2
  attempt := meets_attempt hfollows hpatient hcapacity h
  submit names source n hn :=
    (meets_submitWithin hfollows hpatient hcapacity h names source [] hn).mono fun q s' hq => hq.1
  submit_eq names source n hn :=
    run_submitWithin_congr hfollows hpatient hcapacity h hn (Nat.lt_succ_self _)
  work_eq l' hgoes := (hgoes.step hfollows hpatient hcapacity h).2.1

/-- **A batch gets on to its end.** Whenever a request is refused, an earlier one is pending, and what
has been accepted is either answered or pending, whatever the workers do. So every input gets in after
at most as many results have been recorded as inputs are pending, and all are recorded in the end. -/
theorem getsOn_of_start {inputs : List (List String)} (hfollows : ∀ v, (turns v).Follows v)
    (hpatient : ∀ v, v.IsUngated → (turns v).IsPatient v) (hpool : Pool.start st.pool = .ok pool)
    (s : Session) : b.GetsOn turns st format inputs pool s := by
  have hcapacity := Pool.capacity_pos_of_start hpool
  have hbacked : (Scene.opening inputs pool s).progress.IsBacked st.pool := Pool.backs_start hpool
  refine ⟨fun l hreach => ?_, fun way n hopening hway => ?_, ?_⟩
  · exact Scene.getsOn_of_isBacked hfollows hpatient hcapacity
      (hreach.kept hfollows hpatient hcapacity hbacked).1
  · rw [← hopening] at hbacked
    obtain ⟨-, hwork⟩ := reaches_of_goes hfollows hpatient hcapacity hbacked hway
    rw [hopening] at hwork
    exact Nat.le_of_add_left_le (Nat.le_of_eq hwork)
  · refine (meets_courseFrom hfollows hpatient hcapacity hbacked).mono fun t s' ⟨q, hreach⟩ => ?_
    obtain ⟨hq, htotal⟩ := hreach.kept hfollows hpatient hcapacity hbacked
    refine ⟨q, hreach, List.map_eq_nil_iff.1 hq.tickets_eq, ?_, ?_⟩
    · exact List.eq_nil_iff_forall_not_mem.2 fun r hr => nomatch hq.mem_of_unanswered hr
    · simpa [Scene.total, Scene.opening, Scene.closing, Tally.total] using htotal

/-- Two files go through a pool that has room for one. -/
theorem getsOn_of_start_full :
    let s : Session := ⟨⟨[(["in"], .directory),
      (["in", "a.yml"], .file "jobs: {a: {}}".toUTF8.toList),
      (["in", "b.yml"], .file "jobs: {a: {needs: b}, b: {needs: a}}".toUTF8.toList)], []⟩,
      fun _ => none, "settings.toml", "", ""⟩
    let st : Settings := { Settings.standard with pool := ⟨1, 1⟩ }
    let b : Batch := ⟨"in", "out"⟩
    let inputs := [["a.yml"], ["b.yml"]]
    Pool.start st.pool = .ok (.fresh st.pool) ∧
      b.GetsOn Turns.lazy st .yaml inputs (.fresh st.pool) s ∧
      ((b.course Turns.lazy st .yaml inputs (.fresh st.pool)).run.run s).1.toOption =
        some ⟨1, 1⟩ :=
  ⟨rfl, getsOn_of_start Turns.follows_lazy (fun v _ => Turns.isPatient_lazy v) rfl _,
    by decide +kernel⟩

end Batch

end JobLoom.Command
