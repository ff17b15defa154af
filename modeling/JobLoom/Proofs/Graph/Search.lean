import Mathlib.Algebra.Ring.Nat
import JobLoom.Proofs.Graph.Tables

/-!
# What the search for cycles keeps

The invariant of `Search.step`, and what follows from it for a whole search of a closed graph.

* **On the path** are exactly the jobs of the frames, each once, and each frame stands at the
  successor of the one below that its cursor passed last.
* **Passed** successors are settled, the job of the next frame up aside.
* **Settled** jobs have settled successors only, and no cycle goes through them.

So the search ends without a cycle exactly when there is none. It does end: every move makes the
starts, the unseen jobs and the rests of the frames fewer.
-/

namespace JobLoom

open Relation

/-! ## Marks -/

theorem map_fst_setMark {marks : List (String × Mark)} {job : String}
    (h : job ∈ marks.map Prod.fst) (m : Mark) :
    (setMark marks job m).map Prod.fst = marks.map Prod.fst :=
  map_fst_putEntry h m

theorem lookup_setMark (marks : List (String × Mark)) (job x : String) (m : Mark) :
    (setMark marks job m).lookup x = if x = job then some m else marks.lookup x :=
  lookup_putEntry job m marks x

namespace Search

/-- The mark of a job. -/
def mark (s : Search) (job : String) : Option Mark := s.marks.lookup job

/-! ## Moves -/

/-- The five ways in which the search goes on. -/
inductive Goes (g : JobGraph) (s : Search) : Search → Prop where
  /-- a start has been met before -/
  | skip {job : String} {rest : List String} (path : s.path = []) (starts : s.starts = job :: rest)
      (met : s.mark job ≠ some .unseen) : Goes g s { s with starts := rest }
  /-- a start has not been met -/
  | root {job : String} {rest : List String} (path : s.path = []) (starts : s.starts = job :: rest)
      (unseen : s.mark job = some .unseen) : Goes g s (enter { s with starts := rest } job)
  /-- all successors of the last job of the path are passed -/
  | leave {f : Frame} {below : List Frame} (path : s.path = f :: below)
      (passed : (g.successorsOf f.job)[f.cursor]? = none) :
      Goes g s { s with marks := setMark s.marks f.job .settled, path := below }
  /-- the next successor is settled -/
  | pass {f : Frame} {below : List Frame} {next : String} (path : s.path = f :: below)
      (successor : (g.successorsOf f.job)[f.cursor]? = some next)
      (settled : s.mark next = some .settled) :
      Goes g s { s with path := { f with cursor := f.cursor + 1 } :: below }
  /-- the next successor is neither settled nor on the path -/
  | deepen {f : Frame} {below : List Frame} {next : String} (path : s.path = f :: below)
      (successor : (g.successorsOf f.job)[f.cursor]? = some next)
      (new : s.mark next ≠ some .settled ∧ s.mark next ≠ some .onPath) :
      Goes g s (enter { s with path := { f with cursor := f.cursor + 1 } :: below } next)

variable {g : JobGraph} {s t : Search}

/-- A move that goes on is one of the five. -/
theorem goes_of_step (h : s.step g = .continue t) : Goes g s t := by
  unfold step at h
  split at h
  · next hp =>
    split at h
    · cases h
    · next job rest hs =>
      dsimp only at h
      split at h
      · next hm => cases h; exact .root hp hs hm
      · next hm => cases h; exact .skip hp hs hm
  · next f below hp =>
    split at h
    · next ho => cases h; exact .leave hp ho
    · next n ho =>
      split at h
      · cases h
      · next hm => cases h; exact .pass hp ho hm
      · next h₁ h₂ => cases h; exact .deepen hp ho ⟨h₂, h₁⟩

/-- The search finishes when path and starts are used up. -/
theorem of_step_finished (h : s.step g = .finished) : s.path = [] ∧ s.starts = [] := by
  unfold step at h
  split at h
  · next hp =>
    split at h
    · next hs => exact ⟨hp, hs⟩
    · dsimp only at h
      split at h <;> cases h
  · split at h
    · cases h
    · split at h <;> cases h

/-- The search closes a walk when a successor of the last job of the path is on the path. -/
theorem of_step_closed {walk : List String} (h : s.step g = .closed walk) :
    ∃ f below n, s.path = f :: below ∧ (g.successorsOf f.job)[f.cursor]? = some n ∧
      s.mark n = some .onPath ∧
      walk = closedWalk ({ f with cursor := f.cursor + 1 } :: below) n := by
  unfold step at h
  split at h
  · split at h
    · cases h
    · dsimp only at h
      split at h <;> cases h
  · next f below hp =>
    split at h
    · cases h
    · next n ho =>
      split at h
      · next hm => cases h; exact ⟨f, below, n, hp, ho, hm, rfl⟩
      · cases h
      · cases h

/-! ## The invariant -/

/-- A frame stands above another one: at the successor that the other one passed last. All other
successors that it has passed are settled. -/
structure Above (g : JobGraph) (s : Search) (f below : Frame) : Prop where
  /-- the frame below has passed a successor -/
  pos : 0 < below.cursor
  /-- the one that it passed last is the job above -/
  last : (g.successorsOf below.job)[below.cursor - 1]? = some f.job
  /-- the others are settled -/
  passed : ∀ {i n}, i < below.cursor → (g.successorsOf below.job)[i]? = some n →
    n = f.job ∨ s.mark n = some .settled

/-- What every move keeps. -/
structure Invariant (g : JobGraph) (s : Search) : Prop where
  /-- every job has a mark -/
  keys : s.marks.map Prod.fst = g.ids
  /-- the starts are jobs -/
  starts_mem : ∀ {job}, job ∈ s.starts → job ∈ g.ids
  /-- a job that is not met is still to be tried as a start -/
  unseen_mem : ∀ {job}, s.mark job = some .unseen → job ∈ s.starts
  /-- no job is on the path twice -/
  nodup : (s.path.map Frame.job).Nodup
  /-- the jobs on the path are those marked so -/
  onPath_iff : ∀ {job}, s.mark job = some .onPath ↔ job ∈ s.path.map Frame.job
  /-- each frame stands above the one below it -/
  chain : s.path.IsChain (Above g s)
  /-- what the last frame has passed is settled -/
  top : ∀ {f}, s.path.head? = some f → ∀ {i n}, i < f.cursor →
    (g.successorsOf f.job)[i]? = some n → s.mark n = some .settled
  /-- the successors of a settled job are settled -/
  settled_of_edge : ∀ {d t}, s.mark d = some .settled → g.Edge d t → s.mark t = some .settled
  /-- no cycle goes through a settled job -/
  acyclic : ∀ {job}, s.mark job = some .settled → ¬ TransGen g.Edge job job

theorem Above.mono {f below : Frame} (h : Above g s f below)
    (hm : ∀ {n}, s.mark n = some .settled → t.mark n = some .settled) : Above g t f below where
  pos := h.pos
  last := h.last
  passed hi hn := (h.passed hi hn).imp_right hm

/-- What stands below a frame does not look at its cursor. -/
theorem isChain_above_congr {f f' : Frame} {below : List Frame} (hjob : f'.job = f.job)
    (h : (f :: below).IsChain (Above g s)) : (f' :: below).IsChain (Above g s) := by
  cases below with
  | nil => exact List.IsChain.singleton _
  | cons b rest =>
    obtain ⟨ha, hr⟩ := List.isChain_cons_cons.1 h
    exact List.isChain_cons_cons.2 ⟨⟨ha.pos, hjob ▸ ha.last, hjob ▸ ha.passed⟩, hr⟩

namespace Invariant

theorem exists_mark_iff (h : Invariant g s) {job : String} :
    (∃ m, s.mark job = some m) ↔ job ∈ g.ids := by
  rw [← h.keys, ← Option.isSome_iff_exists, mark, List.lookup_isSome_iff, List.mem_map]
  refine exists_congr fun e => and_congr_right fun _ => ?_
  rw [beq_iff_eq, eq_comm]

/-- What is neither settled nor on the path has not been met. -/
theorem unseen_of_new (h : Invariant g s) {job : String} (hj : job ∈ g.ids)
    (hs : s.mark job ≠ some .settled) (hp : s.mark job ≠ some .onPath) :
    s.mark job = some .unseen := by
  obtain ⟨m, hm⟩ := h.exists_mark_iff.2 hj
  cases m with
  | unseen => exact hm
  | onPath => exact absurd hm hp
  | settled => exact absurd hm hs

/-- The jobs that can be reached from a settled one are settled. -/
theorem settled_of_reflTransGen (h : Invariant g s) {d t : String}
    (hd : s.mark d = some .settled) (hr : ReflTransGen g.Edge d t) : s.mark t = some .settled := by
  induction hr with
  | refl => exact hd
  | tail _ he ih => exact h.settled_of_edge ih he

/-- A job whose successors are settled and that is not settled itself is on no cycle. -/
theorem not_transGen_of_settled (h : Invariant g s) {d : String}
    (hd : s.mark d ≠ some .settled) (hs : ∀ {t}, g.Edge d t → s.mark t = some .settled) :
    ¬ TransGen g.Edge d d := by
  intro hc
  obtain ⟨b, hb, hr⟩ := TransGen.head'_iff.1 hc
  exact hd (h.settled_of_reflTransGen (hs hb) hr)

theorem mem_keys (h : Invariant g s) {job : String} (hj : job ∈ g.ids) :
    job ∈ s.marks.map Prod.fst := by
  rw [h.keys]
  exact hj

end Invariant

/-- What a change of one mark does to the marks. -/
theorem mark_of_setMark {job : String} {m : Mark} (ht : t.marks = setMark s.marks job m)
    (x : String) : t.mark x = if x = job then some m else s.mark x := by
  rw [mark, ht, lookup_setMark]
  rfl

theorem settled_of_enter {job : String} (hu : s.mark job = some .unseen)
    (ht : t.marks = setMark s.marks job .onPath) {x : String} :
    t.mark x = some .settled ↔ s.mark x = some .settled := by
  rw [mark_of_setMark ht]
  split
  · next hx => simp [hx, hu]
  · exact Iff.rfl

theorem settled_of_settle {job : String} (ht : t.marks = setMark s.marks job .settled) {x : String}
    (hx : s.mark x = some .settled) : t.mark x = some .settled := by
  rw [mark_of_setMark ht]
  split
  · rfl
  · exact hx

/-! ## The invariant is kept -/

theorem mark_start (g : JobGraph) (job : String) :
    (start g).mark job = if job ∈ g.ids then some .unseen else none :=
  lookup_map_pair (fun _ => Mark.unseen) g.ids job

namespace Invariant

theorem start (g : JobGraph) : Invariant g (Search.start g) where
  keys := by simp [Search.start, Function.comp_def]
  starts_mem hj := hj
  unseen_mem {job} hj := by
    rw [mark_start] at hj
    split at hj
    · assumption
    · cases hj
  nodup := List.nodup_nil
  onPath_iff {job} := by
    rw [mark_start]
    split <;> simp [Search.start]
  chain := List.IsChain.nil
  top hf := by cases hf
  settled_of_edge {d t} hd := by
    rw [mark_start] at hd
    split at hd <;> cases hd
  acyclic {job} hj := by
    rw [mark_start] at hj
    split at hj <;> cases hj

theorem skip (h : Invariant g s) {job : String} {rest : List String}
    (hs : s.starts = job :: rest) (hm : s.mark job ≠ some .unseen) :
    Invariant g { s with starts := rest } where
  keys := h.keys
  starts_mem hj := h.starts_mem (hs ▸ List.mem_cons_of_mem _ hj)
  unseen_mem {x} hx := by
    have hstart : x ∈ s.starts := h.unseen_mem hx
    rw [hs] at hstart
    rcases List.mem_cons.1 hstart with rfl | hr
    · exact absurd hx hm
    · exact hr
  nodup := h.nodup
  onPath_iff := h.onPath_iff
  chain := h.chain.imp fun _ _ ha => ha.mono id
  top := h.top
  settled_of_edge := h.settled_of_edge
  acyclic := h.acyclic

theorem pass (h : Invariant g s) {f : Frame} {below : List Frame} {next : String}
    (hp : s.path = f :: below) (hn : (g.successorsOf f.job)[f.cursor]? = some next)
    (hm : s.mark next = some .settled) :
    Invariant g { s with path := { f with cursor := f.cursor + 1 } :: below } where
  keys := h.keys
  starts_mem := h.starts_mem
  unseen_mem := h.unseen_mem
  nodup := by simpa [hp] using h.nodup
  onPath_iff {x} := by
    have hpath : s.mark x = some .onPath ↔ x ∈ s.path.map Frame.job := h.onPath_iff
    rw [hp] at hpath
    exact hpath
  chain := by
    have hchain : (f :: below).IsChain (Above g s) := hp ▸ h.chain
    have hpassed : ({ f with cursor := f.cursor + 1 } :: below).IsChain (Above g s) :=
      isChain_above_congr (f := f) rfl hchain
    exact hpassed.imp fun _ _ ha => ha.mono id
  top {f'} hf {i n} hi hsucc := by
    cases hf
    -- the successor that has just been passed is settled, the others were before
    rcases Nat.lt_succ_iff_lt_or_eq.1 hi with hlt | rfl
    · exact h.top (f := f) (by rw [hp]; rfl) hlt hsucc
    · obtain rfl : next = n := Option.some.inj (hn.symm.trans hsucc)
      exact hm
  settled_of_edge := h.settled_of_edge
  acyclic := h.acyclic

/-- A job is put on a path that is empty or whose last frame has just passed it. -/
theorem enter (h : Invariant g s) {job : String} (hj : job ∈ g.ids)
    (hu : s.mark job = some .unseen) {starts : List String} {path : List Frame}
    (hstarts : ∀ x ∈ starts, x ∈ g.ids)
    (hunseen : ∀ {x}, x ≠ job → s.mark x = some .unseen → x ∈ starts)
    (hjobs : path.map Frame.job = s.path.map Frame.job)
    (hchain : (⟨job, 0⟩ :: path).IsChain (Above g s)) :
    Invariant g (Search.enter { s with starts := starts, path := path } job) where
  keys := by rw [Search.enter, map_fst_setMark (h.mem_keys hj)]; exact h.keys
  starts_mem hx := hstarts _ hx
  unseen_mem {x} hx := by
    rw [mark_of_setMark (s := s) rfl] at hx
    split at hx
    · cases hx
    · next hne => exact hunseen hne hx
  nodup := by
    -- what is on the path has been met already
    refine List.nodup_cons.2 ⟨fun hm => ?_, hjobs ▸ h.nodup⟩
    rw [hjobs, ← h.onPath_iff, hu] at hm
    cases hm
  onPath_iff {x} := by
    have hpath : s.mark x = some .onPath ↔ x ∈ s.path.map Frame.job := h.onPath_iff
    rw [mark_of_setMark (s := s) rfl, Search.enter, List.map_cons, List.mem_cons, hjobs, ← hpath]
    split <;> simp [*]
  chain := hchain.imp fun _ _ ha => ha.mono (settled_of_enter (s := s) hu rfl).2
  top {f} hf {i n} hi _ := by
    cases hf
    exact absurd hi (Nat.not_lt_zero i)
  settled_of_edge hd he :=
    (settled_of_enter (s := s) hu rfl).2
      (h.settled_of_edge ((settled_of_enter (s := s) hu rfl).1 hd) he)
  acyclic hx := h.acyclic ((settled_of_enter (s := s) hu rfl).1 hx)

/-- Once the cursor of the last frame stands behind all successors, they are settled. -/
theorem settled_of_passed (h : Invariant g s) {f : Frame} {below : List Frame}
    (hp : s.path = f :: below) (ho : (g.successorsOf f.job)[f.cursor]? = none) {x : String}
    (hx : g.Edge f.job x) : s.mark x = some .settled := by
  obtain ⟨i, hi⟩ := List.mem_iff_getElem?.1 hx
  have hlt : i < (g.successorsOf f.job).length := (List.getElem?_eq_some_iff.1 hi).1
  have hle : (g.successorsOf f.job).length ≤ f.cursor := List.getElem?_eq_none_iff.1 ho
  exact h.top (f := f) (by rw [hp]; rfl) (Nat.lt_of_lt_of_le hlt hle) hi

/-- The last frame has passed all its successors, and they are settled; so it is settled as well. -/
theorem leave (h : Invariant g s) {f : Frame} {below : List Frame} (hp : s.path = f :: below)
    (ho : (g.successorsOf f.job)[f.cursor]? = none) :
    Invariant g { s with marks := setMark s.marks f.job .settled, path := below } := by
  have honPath : s.mark f.job = some .onPath := h.onPath_iff.2 (by simp [hp])
  have hj : f.job ∈ g.ids := h.exists_mark_iff.1 ⟨_, honPath⟩
  have hmark := mark_of_setMark (s := s) (m := .settled)
    (t := { s with marks := setMark s.marks f.job .settled, path := below }) rfl
  have hmono : ∀ {x}, s.mark x = some .settled →
      ({ s with marks := setMark s.marks f.job .settled, path := below } : Search).mark x =
        some .settled := settled_of_settle rfl
  have hchain : (f :: below).IsChain (Above g s) := hp ▸ h.chain
  have hnodup : f.job ∉ below.map Frame.job ∧ (below.map Frame.job).Nodup := by
    simpa [hp] using h.nodup
  exact {
    keys := by rw [map_fst_setMark (h.mem_keys hj)]; exact h.keys
    starts_mem := h.starts_mem
    unseen_mem := fun {x} hx => by
      rw [hmark] at hx
      split at hx
      · cases hx
      · exact h.unseen_mem hx
    nodup := hnodup.2
    onPath_iff := fun {x} => by
      have hpath : s.mark x = some .onPath ↔ x ∈ s.path.map Frame.job := h.onPath_iff
      rw [hp, List.map_cons, List.mem_cons] at hpath
      rw [hmark]
      split
      · next hx => simpa [hx] using hnodup.1
      · next hx => rw [hpath]; simp [hx]
    chain := hchain.of_cons.imp fun _ _ ha => ha.mono hmono
    top := fun {f'} hf {i n} hi hn => by
      obtain ⟨rest, rfl⟩ : ∃ rest, below = f' :: rest := by
        cases below with
        | nil => cases hf
        | cons b rest => cases hf; exact ⟨rest, rfl⟩
      -- the frame below has passed settled jobs and, last, the one that is settled now
      have habove : Above g s f f' := (List.isChain_cons_cons.1 hchain).1
      rcases habove.passed hi hn with rfl | hs
      · rw [hmark, if_pos rfl]
      · exact hmono hs
    settled_of_edge := fun {d t} hd ht => by
      rw [hmark] at hd
      split at hd
      · next hx => exact hmono (h.settled_of_passed hp ho (hx ▸ ht))
      · exact hmono (h.settled_of_edge hd ht)
    acyclic := fun {x} hx => by
      rw [hmark] at hx
      split at hx
      · next hf =>
        -- settled jobs lead to settled ones only, so no way leads back to this one
        subst hf
        exact h.not_transGen_of_settled (by simp [honPath]) (h.settled_of_passed hp ho)
      · exact h.acyclic hx }

/-- **Every move keeps the invariant.** -/
theorem goes (hg : g.IsClosed) (h : Invariant g s) (hm : Goes g s t) : Invariant g t := by
  cases hm with
  | skip _ hs hmet => exact h.skip hs hmet
  | pass hp hn hs => exact h.pass hp hn hs
  | leave hp ho => exact h.leave hp ho
  | @root job rest hp hs hu =>
    refine h.enter (h.starts_mem (by simp [hs])) hu (fun x hx => h.starts_mem (by simp [hs, hx]))
      (fun {x} hne hx => ?_) rfl (by rw [hp]; exact List.IsChain.singleton _)
    have := h.unseen_mem hx
    rw [hs] at this
    exact (List.mem_cons.1 this).resolve_left hne
  | @deepen f below next hp hn hnew =>
    have hmem : next ∈ g.ids := hg.mem_ids (List.mem_of_getElem? hn)
    refine h.enter hmem (h.unseen_of_new hmem hnew.1 hnew.2) (fun _ => h.starts_mem)
      (fun _ => h.unseen_mem) (by simp [hp]) ?_
    -- the frame of the new job stands above the one whose cursor has moved to it
    refine List.isChain_cons_cons.2 ⟨⟨Nat.succ_pos _, by simpa using hn, ?_⟩, ?_⟩
    · intro i n hi hsucc
      rcases Nat.lt_succ_iff_lt_or_eq.1 hi with hlt | rfl
      · exact .inr (h.top (f := f) (by rw [hp]; rfl) hlt hsucc)
      · exact .inl (Option.some.inj (hsucc.symm.trans hn))
    · exact isChain_above_congr (f := f) rfl (hp ▸ h.chain)

/-! ## How the search ends -/

/-- The path leads from each of its jobs to its last one. -/
theorem reflTransGen_of_mem_path {f : Frame} {below : List Frame}
    (h : (f :: below).IsChain (Above g s)) {job : String}
    (hj : job ∈ (f :: below).map Frame.job) : ReflTransGen g.Edge job f.job := by
  induction below generalizing f with
  | nil =>
    obtain rfl : job = f.job := by simpa using hj
    exact .refl
  | cons b rest ih =>
    obtain ⟨ha, hr⟩ := List.isChain_cons_cons.1 h
    rcases List.mem_cons.1 hj with rfl | hj
    · exact .refl
    · exact (ih hr hj).tail (List.mem_of_getElem? ha.last)

/-- A walk is closed only if there is a cycle. -/
theorem exists_transGen_of_closed (h : Invariant g s) {walk : List String}
    (hw : s.step g = .closed walk) : ∃ id, TransGen g.Edge id id := by
  obtain ⟨f, below, n, hp, hn, hm, -⟩ := of_step_closed hw
  have hmem : n ∈ (f :: below).map Frame.job := hp ▸ h.onPath_iff.1 hm
  -- the path leads from the job to the last one, and an edge leads from there back to it
  have hr : ReflTransGen g.Edge n f.job := reflTransGen_of_mem_path (hp ▸ h.chain) hmem
  exact ⟨n, TransGen.tail' hr (List.mem_of_getElem? hn)⟩

/-- When the search finishes, all jobs are settled. -/
theorem settled_of_finished (h : Invariant g s) (hf : s.step g = .finished) {job : String}
    (hj : job ∈ g.ids) : s.mark job = some .settled := by
  obtain ⟨hp, hs⟩ := of_step_finished hf
  obtain ⟨m, hm⟩ := h.exists_mark_iff.2 hj
  cases m with
  | settled => exact hm
  | unseen =>
    have := h.unseen_mem hm
    rw [hs] at this
    cases this
  | onPath =>
    have := h.onPath_iff.1 hm
    rw [hp] at this
    cases this

theorem not_transGen_of_finished (hg : g.IsClosed) (h : Invariant g s)
    (hf : s.step g = .finished) (id : String) : ¬ TransGen g.Edge id id := by
  intro hc
  have hid : id ∈ g.ids := by
    obtain ⟨b, -, he⟩ := TransGen.tail'_iff.1 hc
    exact hg.mem_ids he
  exact h.acyclic (h.settled_of_finished hf hid) hc

end Invariant

/-! ## The work that is left -/

/-- The moves that a job may still cause: one for each of its successors and one to leave it, unless
it has been met. -/
def markWork (g : JobGraph) (e : String × Mark) : Nat :=
  if e.2 = .unseen then (g.successorsOf e.1).length + 1 else 0

/-- The moves that a frame still causes. -/
def frameWork (g : JobGraph) (f : Frame) : Nat := (g.successorsOf f.job).length - f.cursor + 1

/-- How many moves go on, at most. -/
def workLeft (g : JobGraph) (s : Search) : Nat :=
  s.starts.length + (s.marks.map (markWork g)).sum + (s.path.map (frameWork g)).sum

/-- A mark that is not `unseen` never adds work. -/
theorem sum_setMark_le (g : JobGraph) (marks : List (String × Mark)) (job : String) {m : Mark}
    (hm : m ≠ .unseen) :
    ((setMark marks job m).map (markWork g)).sum ≤ (marks.map (markWork g)).sum := by
  have hzero : markWork g (job, m) = 0 := if_neg hm
  induction marks with
  | nil => exact Nat.le_of_eq hzero
  | cons e rest ih =>
    have hcons : setMark (e :: rest) job m =
        if e.1 = job then (job, m) :: rest else e :: setMark rest job m := rfl
    rw [hcons]
    split
    · simp [hzero]
    · simpa using ih

/-- Meeting a job takes its work away. -/
theorem sum_setMark_add_le (g : JobGraph) {marks : List (String × Mark)} {job : String} {m : Mark}
    (hm : m ≠ .unseen) (hu : marks.lookup job = some .unseen) :
    ((setMark marks job m).map (markWork g)).sum + ((g.successorsOf job).length + 1) ≤
      (marks.map (markWork g)).sum := by
  have hzero : markWork g (job, m) = 0 := if_neg hm
  induction marks with
  | nil => cases hu
  | cons e rest ih =>
    have hcons : setMark (e :: rest) job m =
        if e.1 = job then (job, m) :: rest else e :: setMark rest job m := rfl
    rw [lookup_cons_eq_ite] at hu
    rw [hcons]
    split
    · next heq =>
      rw [if_pos heq.symm] at hu
      have he : markWork g e = (g.successorsOf job).length + 1 := by
        rw [markWork, if_pos (Option.some.inj hu), heq]
      rw [List.map_cons, List.map_cons, List.sum_cons, List.sum_cons, hzero, he]
      omega
    · next hne =>
      rw [if_neg (Ne.symm hne)] at hu
      have hle := ih hu
      rw [List.map_cons, List.map_cons, List.sum_cons, List.sum_cons]
      omega

/-- **Every move that goes on takes work away.** -/
theorem workLeft_lt_of_goes (hg : g.IsClosed) (h : Invariant g s) (hm : Goes g s t) :
    workLeft g t < workLeft g s := by
  cases hm with
  | skip hp hs _ => simp [workLeft, hs]
  | @root job rest hp hs hu =>
    have hle := sum_setMark_add_le g (m := .onPath) (by decide) hu
    simp only [workLeft, enter, hs, hp, List.map_cons, List.map_nil, List.sum_cons, List.sum_nil,
      List.length_cons, frameWork]
    omega
  | @leave f below hp ho =>
    have hle := sum_setMark_le g s.marks f.job (m := .settled) (by decide)
    simp only [workLeft, hp, List.map_cons, List.sum_cons, frameWork]
    omega
  | @pass f below next hp hn _ =>
    have hlt : f.cursor < (g.successorsOf f.job).length := (List.getElem?_eq_some_iff.1 hn).1
    simp only [workLeft, hp, List.map_cons, List.sum_cons, frameWork]
    omega
  | @deepen f below next hp hn hnew =>
    have hlt : f.cursor < (g.successorsOf f.job).length := (List.getElem?_eq_some_iff.1 hn).1
    have hu := h.unseen_of_new (hg.mem_ids (List.mem_of_getElem? hn)) hnew.1 hnew.2
    have hle := sum_setMark_add_le g (m := .onPath) (by decide) hu
    simp only [workLeft, enter, hp, List.map_cons, List.sum_cons, frameWork]
    omega

/-- The work at the start: each job as a start and as a frame, and each edge. -/
theorem workLeft_start (hg : g.IsClosed) : workLeft g (start g) = 2 * g.size + g.edgeCount := by
  have hnodup : (g.successors.map Prod.fst).Nodup := hg.keys ▸ hg.nodup
  have hlookup : ∀ e ∈ g.successors, g.successorsOf e.1 = e.2 := by
    intro e he
    rw [JobGraph.successorsOf, lookup_eq_some_of_mem hnodup he, Option.getD_some]
  have hsum : ∀ l : List (String × List String), (∀ e ∈ l, g.successorsOf e.1 = e.2) →
      ((l.map Prod.fst).map fun id => (g.successorsOf id).length + 1).sum =
        l.length + l.foldr (fun e n => e.2.length + n) 0 := by
    intro l hl
    induction l with
    | nil => rfl
    | cons e rest ih =>
      have hrest := ih fun x hx => hl x (List.mem_cons_of_mem _ hx)
      simp only [List.map_cons, List.sum_cons, List.length_cons, List.foldr_cons, hrest,
        hl e List.mem_cons_self]
      omega
  have hsize : g.successors.length = g.ids.length := by rw [← hg.keys, List.length_map]
  have hmarks : ((start g).marks.map (markWork g)).sum =
      (g.ids.map fun id => (g.successorsOf id).length + 1).sum := by
    simp [start, markWork, Function.comp_def]
  have hpath : ((start g).path.map (frameWork g)).sum = 0 := rfl
  have hstarts : (start g).starts.length = g.ids.length := rfl
  rw [workLeft, hmarks, hpath, hstarts, ← hg.keys, hsum _ hlookup, List.length_map,
    JobGraph.size, ← hsize, JobGraph.edgeCount]
  omega

/-! ## Whole searches -/

/-- With moves enough, a search ends in a state that keeps the invariant, and tells what the last
move tells. -/
theorem run_ends (hg : g.IsClosed) {fuel : Nat} (h : Invariant g s) (hw : workLeft g s < fuel) :
    ∃ t, Invariant g t ∧
      (t.step g = .finished ∧ s.run g fuel = some none ∨
        ∃ walk, t.step g = .closed walk ∧ s.run g fuel = some (some walk)) := by
  induction fuel generalizing s with
  | zero => exact absurd hw (Nat.not_lt_zero _)
  | succ fuel ih =>
    unfold run
    cases hstep : s.step g with
    | finished => exact ⟨s, h, .inl ⟨hstep, rfl⟩⟩
    | closed walk => exact ⟨s, h, .inr ⟨walk, hstep, rfl⟩⟩
    | «continue» t =>
      have hgoes := goes_of_step hstep
      have hlt := workLeft_lt_of_goes hg h hgoes
      exact ih (h.goes hg hgoes) (by omega)

end Search

namespace JobGraph

variable {g : JobGraph}

/-- The bound on the moves is enough for the whole search. -/
theorem search_ends (hg : g.IsClosed) :
    ∃ t, Search.Invariant g t ∧
      (t.step g = .finished ∧ g.findCycle = none ∨
        ∃ walk, t.step g = .closed walk ∧ g.findCycle = some walk) := by
  have hw : Search.workLeft g (Search.start g) < g.searchBound := by
    rw [Search.workLeft_start hg, searchBound]
    omega
  obtain ⟨t, ht, ⟨hf, hr⟩ | ⟨walk, hc, hr⟩⟩ := Search.run_ends hg (.start g) hw
  · exact ⟨t, ht, .inl ⟨hf, by rw [findCycle, hr]; rfl⟩⟩
  · exact ⟨t, ht, .inr ⟨walk, hc, by rw [findCycle, hr]; rfl⟩⟩

/-- **The search finds a cycle exactly when there is one.** -/
theorem exists_findCycle_iff (hg : g.IsClosed) :
    (∃ walk, g.findCycle = some walk) ↔ ∃ id, TransGen g.Edge id id := by
  obtain ⟨t, ht, ⟨hf, hr⟩ | ⟨walk, hc, hr⟩⟩ := search_ends hg
  · have hno := ht.not_transGen_of_finished hg hf
    simp [hr, hno]
  · exact ⟨fun _ => ht.exists_transGen_of_closed hc, fun _ => ⟨walk, hr⟩⟩

end JobGraph

end JobLoom
