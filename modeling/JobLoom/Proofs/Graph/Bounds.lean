import JobLoom.Proofs.Graph.Course

/-!
# How long a search takes

Every search of the graph of a pipeline ends, whether a cycle is in it or not, and what it does is
bounded by the graph.

* A job that has been met stays met, so each job is put on the path once at most.
* The cursor of a frame only moves on, so each entry of the successors is examined once at most.
* A move with a path examines an entry or leaves a frame, so there are at most as many of them as
  there are jobs and edges together.
-/

namespace JobLoom

namespace Search

/-! ## What a move does -/

/-- The job that the next move puts on the path. -/
def entered? (g : JobGraph) (s : Search) : Option String :=
  match s.step g with
  | .continue t => if s.path.length < t.path.length then t.path.head?.map Frame.job else none
  | _ => none

/-- The entry of the successors that the next move examines: its job and its position. -/
def examined? (g : JobGraph) (s : Search) : Option (String × Nat) :=
  match s.path with
  | [] => none
  | f :: _ => if f.cursor < (g.successorsOf f.job).length then some (f.job, f.cursor) else none

/-- The next move is the last one, and tells what was found. -/
def Ends (g : JobGraph) (s : Search) (found : Option (List String)) : Prop :=
  s.step g = .finished ∧ found = none ∨ ∃ walk, s.step g = .closed walk ∧ found = some walk

variable {g : JobGraph} {before : List Search} {s t u : Search}

/-- The job that a move puts on the path is new, and a start or a successor. -/
theorem new_of_entered? {job : String} (h : entered? g s = some job) :
    ∃ t, s.step g = .continue t ∧ t.mark job = some .onPath ∧
      (s.mark job = some .unseen ∨
        (∃ d, g.Edge d job) ∧ s.mark job ≠ some .settled ∧ s.mark job ≠ some .onPath) := by
  unfold entered? at h
  split at h
  · next t hstep =>
    refine ⟨t, hstep, ?_⟩
    cases goes_of_step hstep with
    | skip hp => simp [hp] at h
    | @leave f below hp =>
      have hge : ¬ s.path.length < below.length := by simp [hp]
      rw [if_neg hge] at h
      cases h
    | pass hp => simp [hp] at h
    | root hp _ hu =>
      have hjob := by simpa [Search.enter, hp] using h
      subst hjob
      exact ⟨by rw [mark_of_setMark (s := s) rfl, if_pos rfl], .inl hu⟩
    | deepen hp hn hnew =>
      have hjob := by simpa [Search.enter, hp] using h
      subst hjob
      exact ⟨by rw [mark_of_setMark (s := s) rfl, if_pos rfl],
        .inr ⟨⟨_, List.mem_of_getElem? hn⟩, hnew⟩⟩
  · cases h

/-- What is put on the path has not been met. -/
theorem unseen_of_entered? (hg : g.IsClosed) (hs : Invariant g s) {job : String}
    (h : entered? g s = some job) : s.mark job = some .unseen := by
  obtain ⟨-, -, -, hu | ⟨⟨d, he⟩, hset, hpath⟩⟩ := new_of_entered? h
  · exact hu
  · exact hs.unseen_of_new (hg.mem_ids he) hset hpath

/-- An entry is examined by the last frame, where its cursor stands. -/
theorem examined?_eq_some_iff {job : String} {i : Nat} :
    examined? g s = some (job, i) ↔
      ∃ below, s.path = ⟨job, i⟩ :: below ∧ i < (g.successorsOf job).length := by
  unfold examined?
  split
  · next hp => simp [hp]
  · next f below hp =>
    rw [hp]
    split
    · next hlt =>
      constructor
      · intro h
        cases h
        exact ⟨below, rfl, hlt⟩
      · rintro ⟨below', hpath, -⟩
        cases hpath
        rfl
    · next hge =>
      refine ⟨fun h => (by cases h), ?_⟩
      rintro ⟨below', hpath, hlt⟩
      cases hpath
      exact absurd hlt hge

/-! ## What is kept from state to state -/

/-- One state is later than another one: no job goes back to `unseen`, settled jobs stay settled, and a
frame is left or its cursor has moved on. -/
structure Later (s t : Search) : Prop where
  /-- what is not met now was not met before -/
  unseen : ∀ {job}, t.mark job = some .unseen → s.mark job = some .unseen
  /-- settled jobs stay settled -/
  settled : ∀ {job}, s.mark job = some .settled → t.mark job = some .settled
  /-- a frame is left, or its cursor has moved on -/
  frame : ∀ f ∈ s.path, t.mark f.job = some .settled ∨
    ∃ f' ∈ t.path, f'.job = f.job ∧ f.cursor ≤ f'.cursor

theorem Later.refl (s : Search) : Later s s where
  unseen h := h
  settled h := h
  frame f hf := .inr ⟨f, hf, rfl, Nat.le_refl _⟩

theorem Later.trans (h : Later s t) (k : Later t u) : Later s u where
  unseen hj := h.unseen (k.unseen hj)
  settled hj := k.settled (h.settled hj)
  frame f hf := by
    rcases h.frame f hf with hs | ⟨f', hf', hjob, hle⟩
    · exact .inl (k.settled hs)
    · rw [← hjob]
      exact (k.frame f' hf').imp_right fun ⟨f'', hf'', hjob', hle'⟩ =>
        ⟨f'', hf'', hjob', hle.trans hle'⟩

/-- To put a job on the path that is not settled is a step on. -/
theorem later_enter {job : String} {path : List Frame} {starts : List String}
    (hnew : s.mark job ≠ some .settled)
    (hframe : ∀ f ∈ s.path, ∃ f' ∈ path, f'.job = f.job ∧ f.cursor ≤ f'.cursor) :
    Later s (Search.enter { s with starts := starts, path := path } job) where
  unseen {x} hx := by
    rw [mark_of_setMark (s := s) rfl] at hx
    split at hx
    · cases hx
    · exact hx
  settled {x} hx := by
    rw [mark_of_setMark (s := s) rfl, if_neg]
    · exact hx
    · rintro rfl
      exact hnew hx
  frame f hf :=
    have ⟨f', hf', hjob⟩ := hframe f hf
    .inr ⟨f', List.mem_cons_of_mem _ hf', hjob⟩

/-- When a cursor moves on, each frame still has its job, and no cursor moves back. -/
theorem exists_frame_of_pass {f : Frame} {below : List Frame} (hp : s.path = f :: below) :
    ∀ f' ∈ s.path, ∃ f'' ∈ { f with cursor := f.cursor + 1 } :: below,
      f''.job = f'.job ∧ f'.cursor ≤ f''.cursor := by
  intro f' hf'
  rw [hp] at hf'
  rcases List.mem_cons.1 hf' with rfl | hmem
  · exact ⟨_, List.mem_cons_self, rfl, Nat.le_succ _⟩
  · exact ⟨f', List.mem_cons_of_mem _ hmem, rfl, Nat.le_refl _⟩

/-- **Every move is a step on.** -/
theorem later_of_goes (h : Goes g s t) : Later s t := by
  cases h with
  | skip => exact ⟨id, id, fun f hf => .inr ⟨f, hf, rfl, Nat.le_refl _⟩⟩
  | root hp _ hu =>
    exact later_enter (by rw [hu]; decide) fun f hf => ⟨f, hf, rfl, Nat.le_refl _⟩
  | @leave f below hp =>
    have hmark := mark_of_setMark (s := s) (m := .settled)
      (t := { s with marks := setMark s.marks f.job .settled, path := below }) rfl
    refine ⟨fun {x} hx => ?_, fun {x} hx => ?_, fun f' hf' => ?_⟩
    · rw [hmark] at hx
      split at hx
      · cases hx
      · exact hx
    · rw [hmark]
      split
      · rfl
      · exact hx
    · rw [hp] at hf'
      rcases List.mem_cons.1 hf' with rfl | hmem
      · exact .inl (by rw [hmark, if_pos rfl])
      · exact .inr ⟨f', hmem, rfl, Nat.le_refl _⟩
  | pass hp => exact ⟨id, id, fun f hf => .inr (exists_frame_of_pass hp f hf)⟩
  | deepen hp _ hnew => exact later_enter hnew.1 (exists_frame_of_pass hp)

/-- An entry that has been examined is behind the cursor of its frame. -/
theorem exists_frame_of_examined? {job : String} {i : Nat} (h : examined? g s = some (job, i))
    (hm : Goes g s t) : ∃ f ∈ t.path, f.job = job ∧ i < f.cursor := by
  obtain ⟨below, hpath, hlt⟩ := examined?_eq_some_iff.1 h
  cases hm with
  | skip hp => rw [hp] at hpath; cases hpath
  | root hp => rw [hp] at hpath; cases hpath
  | leave hp hover =>
    rw [hp] at hpath
    cases hpath
    exact absurd hlt (Nat.not_lt.2 (List.getElem?_eq_none_iff.1 hover))
  | pass hp =>
    rw [hp] at hpath
    cases hpath
    exact ⟨_, List.mem_cons_self, rfl, Nat.lt_succ_self i⟩
  | deepen hp =>
    rw [hp] at hpath
    cases hpath
    exact ⟨_, List.mem_cons_of_mem _ List.mem_cons_self, rfl, Nat.lt_succ_self i⟩

/-! ## What is kept over a whole search -/

namespace Comes

/-- From each state before, the search has moved on to this one. -/
theorem exists_later (h : Comes g before s) {r : Search} (hr : r ∈ before) :
    ∃ t, r.step g = .continue t ∧ Later t s := by
  induction h with
  | start => cases hr
  | @move before s t _ hstep ih =>
    rcases List.mem_cons.1 hr with rfl | hr
    · exact ⟨t, hstep, .refl t⟩
    · obtain ⟨r', hr', hlater⟩ := ih hr
      exact ⟨r', hr', hlater.trans (later_of_goes (goes_of_step hstep))⟩

/-- A job that has been met before has been met now. -/
theorem mark_ne_unseen (h : Comes g before s) {r : Search} (hr : r ∈ before) {job : String}
    (hm : r.mark job ≠ some .unseen) : s.mark job ≠ some .unseen := by
  obtain ⟨t, hstep, hlater⟩ := h.exists_later hr
  exact fun hs => hm ((later_of_goes (goes_of_step hstep)).unseen (hlater.unseen hs))

theorem entered?_not_mem (hg : g.IsClosed) (h : Comes g before s) {job : String}
    (hs : entered? g s = some job) : job ∉ before.filterMap (entered? g) := by
  intro hmem
  obtain ⟨r, hr, hentered⟩ := List.mem_filterMap.1 hmem
  obtain ⟨t, hstep, hlater⟩ := h.exists_later hr
  obtain ⟨t', hstep', honPath, -⟩ := new_of_entered? hentered
  obtain rfl : t = t' := Move.continue.inj (hstep.symm.trans hstep')
  -- it would have been met, and that is never undone
  have hunseen := hlater.unseen (unseen_of_entered? hg (h.invariant hg) hs)
  rw [honPath] at hunseen
  cases hunseen

/-- The entry that is examined next was not examined before. -/
theorem examined?_not_mem (hg : g.IsClosed) (h : Comes g before s) {e : String × Nat}
    (hs : examined? g s = some e) : e ∉ before.filterMap (examined? g) := by
  intro hmem
  obtain ⟨r, hr, hexamined⟩ := List.mem_filterMap.1 hmem
  obtain ⟨t, hstep, hlater⟩ := h.exists_later hr
  obtain ⟨below, hpath, -⟩ := examined?_eq_some_iff.1 hs
  obtain ⟨f, hf, hjob, hlt⟩ := exists_frame_of_examined? hexamined (goes_of_step hstep)
  have hinv := h.invariant hg
  have honPath : s.mark e.1 = some .onPath := hinv.onPath_iff.2 (by rw [hpath]; exact List.mem_cons_self)
  rcases hlater.frame f hf with hset | ⟨f', hf', hjob', hle⟩
  · -- a job that has been left is not on the path any more
    rw [hjob, honPath] at hset
    cases hset
  · -- the job has one frame only, and its cursor has moved on
    have hnodup := hinv.nodup
    rw [hpath] at hf' hnodup
    rcases List.mem_cons.1 hf' with rfl | hmem
    · exact absurd hle (Nat.not_le.2 hlt)
    · refine (List.nodup_cons.1 hnodup).1 ?_
      exact List.mem_map.2 ⟨f', hmem, hjob'.trans hjob⟩

/-- What is new at every state comes once in the whole search. -/
theorem nodup_filterMap {β : Type} {f : Search → Option β}
    (hnew : ∀ {before s b}, Comes g before s → f s = some b → b ∉ before.filterMap f)
    (h : Comes g before s) : ((s :: before).filterMap f).Nodup := by
  have hstate {before : List Search} {s : Search} (h : Comes g before s)
      (hn : (before.filterMap f).Nodup) : ((s :: before).filterMap f).Nodup := by
    cases hs : f s with
    | none => rwa [List.filterMap_cons_none hs]
    | some b =>
      rw [List.filterMap_cons_some hs]
      exact List.nodup_cons.2 ⟨hnew h hs, hn⟩
  induction h with
  | start => exact hstate .start List.nodup_nil
  | move hcomes hstep ih => exact hstate (.move hcomes hstep) ih

/-! ## How many moves there are -/

/-- The moves that have been made and those that are left are not more than at the start. -/
theorem length_add_workLeft_le (hg : g.IsClosed) (h : Comes g before s) :
    before.length + workLeft g s ≤ 2 * g.size + g.edgeCount := by
  induction h with
  | start => exact Nat.le_of_eq (by rw [List.length_nil, Nat.zero_add, workLeft_start hg])
  | @move before s t hcomes hstep ih =>
    have hlt := workLeft_lt_of_goes hg (hcomes.invariant hg) (goes_of_step hstep)
    rw [List.length_cons]
    omega

/-- A move without a path takes off one start, and no other move takes off one. -/
theorem countP_isEmpty_add_starts (h : Comes g before s) :
    before.countP (fun t => t.path.isEmpty) + s.starts.length = g.size := by
  induction h with
  | start => exact Nat.zero_add _
  | @move before s t _ hstep ih =>
    rw [List.countP_cons, ← ih]
    cases goes_of_step hstep with
    | skip hp hs => simp only [hp, hs, List.isEmpty_nil, if_true, List.length_cons]; omega
    | root hp hs => simp only [hp, hs, List.isEmpty_nil, if_true, List.length_cons, enter]; omega
    | leave hp => simp [hp]
    | pass hp => simp [hp]
    | deepen hp => simp [hp, enter]

theorem exists_ends (hg : g.IsClosed) (h : Comes g before s) :
    ∃ before' t r, Comes g before' t ∧ Ends g t r := by
  induction hw : workLeft g s using Nat.strong_induction_on generalizing before s with
  | _ n ih =>
    cases hstep : s.step g with
    | finished => exact ⟨before, s, none, h, .inl ⟨hstep, rfl⟩⟩
    | closed walk => exact ⟨before, s, some walk, h, .inr ⟨walk, hstep, rfl⟩⟩
    | «continue» t =>
      have hlt := workLeft_lt_of_goes hg (h.invariant hg) (goes_of_step hstep)
      exact ih _ (hw ▸ hlt) (h.move hstep) rfl

/-- What a search finds does not hang on how many moves it is given, if there are enough for the last
one. -/
theorem run_of_ends (h : Comes g before s) {r : Option (List String)} (hend : Ends g s r) {n : Nat}
    (hn : before.length < n) : (Search.start g).run g n = some r := by
  obtain ⟨k, rfl⟩ : ∃ k, n = before.length + (k + 1) := ⟨n - before.length - 1, by omega⟩
  rw [h.run_start, run]
  rcases hend with ⟨hstep, rfl⟩ | ⟨walk, hstep, rfl⟩
  · rw [hstep]
  · rw [hstep]

end Comes

/-- How many of some moves are made with a job on the path. -/
def movesOnPath (states : List Search) : Nat := states.countP fun s => !s.path.isEmpty

/-- The moves with a job on the path are at most as many as the jobs and the edges. -/
theorem movesOnPath_le (hg : g.IsClosed) (h : Comes g before s) :
    movesOnPath (s :: before) ≤ g.size + g.edgeCount := by
  have hwork := h.length_add_workLeft_le hg
  have hstarts := h.countP_isEmpty_add_starts
  have hsplit : before.length = before.countP (fun t => t.path.isEmpty) + movesOnPath before := by
    rw [movesOnPath, List.length_eq_countP_add_countP fun t : Search => t.path.isEmpty]
    congr 1
    exact List.countP_congr fun t _ => by simp
  have hhere : movesOnPath (s :: before) ≤ movesOnPath before + (s.path.map (frameWork g)).sum := by
    rw [movesOnPath, List.countP_cons]
    cases hp : s.path with
    | nil => exact Nat.le_refl _
    | cons f below => simp [frameWork, movesOnPath]; omega
  rw [workLeft] at hwork
  omega

/-- What a search has done up to a state, and the move that it makes there, within the bounds of its
graph. -/
structure IsBounded (g : JobGraph) (before : List Search) (s : Search) : Prop where
  /-- no job is put on the path twice -/
  entered_nodup : ((s :: before).filterMap (entered? g)).Nodup
  /-- no entry of the successors is examined twice -/
  examined_nodup : ((s :: before).filterMap (examined? g)).Nodup
  /-- with a job on the path there are at most as many moves as jobs and edges -/
  movesOnPath_le : movesOnPath (s :: before) ≤ g.size + g.edgeCount
  /-- no job goes back to `unseen` -/
  mark_ne_unseen : ∀ t ∈ before, ∀ job, t.mark job ≠ some .unseen → s.mark job ≠ some .unseen
  /-- the other moves are at most as many as the starts -/
  length_le : before.length ≤ 2 * g.size + g.edgeCount

/-- **Every search is bounded by its graph, and ends.** Whether a cycle is in the graph or not: each
job is put on the path once at most and never goes back to `unseen`, each entry of the successors is
examined once at most, and with a job on the path there are at most as many moves as there are jobs
and edges. The search comes to its end, and tells what it finds there however many moves it is
given beyond the bound. -/
theorem isBounded_of_comes {p : Pipeline} (hp : JobGraph.ofPipeline p = .ok g) :
    (∀ before s, Comes g before s → IsBounded g before s) ∧
      (∃ before s, Comes g before s ∧ Ends g s g.findCycle) ∧
      ∀ n, g.searchBound ≤ n → (start g).run g n = some g.findCycle := by
  obtain ⟨hids, -, rfl⟩ := JobGraph.ofPipeline_eq_ok_iff.1 hp
  have hg := JobGraph.isClosed_tables hids
  refine ⟨fun before s h => ?_, ?_⟩
  · exact {
      entered_nodup := h.nodup_filterMap fun hcomes => hcomes.entered?_not_mem hg
      examined_nodup := h.nodup_filterMap fun hcomes => hcomes.examined?_not_mem hg
      movesOnPath_le := movesOnPath_le hg h
      mark_ne_unseen := fun t ht job hm => h.mark_ne_unseen ht hm
      length_le := by have hle := h.length_add_workLeft_le hg; omega }
  · obtain ⟨before, s, found, h, hend⟩ := Comes.exists_ends hg .start
    have hlt : before.length < (JobGraph.tables p).searchBound := by
      have hle := h.length_add_workLeft_le hg
      rw [JobGraph.searchBound]
      omega
    have hfind : (JobGraph.tables p).findCycle = found := by
      rw [JobGraph.findCycle, h.run_of_ends hend hlt]
      rfl
    rw [hfind]
    exact ⟨⟨before, s, h, hend⟩, fun n hn => h.run_of_ends hend (Nat.lt_of_lt_of_le hlt hn)⟩

/-- Two jobs that need each other, behind one that both need. All three are put on the path, and the
third entry that is examined closes the walk. -/
theorem isBounded_of_comes_closing :
    let needing : List String → Job := fun ids => { Job.empty with needs := some (.several ids) }
    let p : Pipeline := ⟨"", .empty,
      [("a", .empty), ("b", needing ["a", "c"]), ("c", needing ["a", "b"])]⟩
    let g := JobGraph.tables p
    let s : Search := ⟨[("a", .onPath), ("b", .onPath), ("c", .onPath)],
      [⟨"c", 0⟩, ⟨"b", 0 + 1⟩, ⟨"a", 0 + 1⟩], ["b", "c"]⟩
    JobGraph.ofPipeline p = .ok g ∧ g.findCycle = some ["b", "c", "b"] ∧
      ∃ before, Comes g before s ∧ IsBounded g before s ∧ Ends g s g.findCycle ∧
        (s :: before).filterMap (entered? g) = ["c", "b", "a"] ∧
        (s :: before).filterMap (examined? g) = [("c", 0), ("b", 0), ("a", 0)] := by
  intro needing p g s
  have hp : JobGraph.ofPipeline p = .ok g := by rfl
  have hcomes : Comes g _ s := .move (.move (.move .start rfl) rfl) rfl
  have hfind : g.findCycle = some ["b", "c", "b"] := by rfl
  refine ⟨hp, hfind, _, hcomes, (isBounded_of_comes hp).1 _ _ hcomes, ?_, by decide, by decide⟩
  exact .inr ⟨_, by rfl, hfind⟩

end Search

end JobLoom
