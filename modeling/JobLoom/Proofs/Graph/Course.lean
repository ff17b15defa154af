import JobLoom.Proofs.Graph.Walk

/-!
# The states of a search

A search goes from state to state, each move on from the last one. At every state the marks agree
with the path.

* **On the path** are exactly the jobs that are marked so, each once, and each was put there as a
  successor that the frame below it had just passed.
* **Passed** successors are on the path or settled, and successors of settled jobs are settled.
* **Fallbacks.** Every job that is met has a mark, and a job marked to be on the path is found there.
  What the search would do otherwise never happens.
* **Starts** are tried on an empty path only.
-/

namespace JobLoom

namespace Search

/-- A search of a graph has come to a state; the states before it are listed, the last one first. -/
inductive Comes (g : JobGraph) : List Search → Search → Prop where
  /-- it has not moved yet -/
  | start : Comes g [] (start g)
  /-- one move more -/
  | move {before : List Search} {s t : Search} (comes : Comes g before s)
      (step : s.step g = .continue t) : Comes g (s :: before) t

/-- The marks and the path of a search agree. -/
structure Agrees (g : JobGraph) (s : Search) : Prop where
  /-- the jobs of the frames are those marked to be on the path -/
  onPath_iff : ∀ job, s.mark job = some .onPath ↔ job ∈ s.path.map Frame.job
  /-- no job has two frames -/
  nodup : (s.path.map Frame.job).Nodup
  /-- each frame above another one is for the successor that the other one passed last -/
  above : s.path.IsChain fun f below =>
    0 < below.cursor ∧ (g.successorsOf below.job)[below.cursor - 1]? = some f.job
  /-- the successors of a settled job are settled -/
  settled : ∀ d t, s.mark d = some .settled → t ∈ g.successorsOf d → s.mark t = some .settled
  /-- the successors that a frame has passed are on the path or settled -/
  passed : ∀ f ∈ s.path, ∀ i n, i < f.cursor → (g.successorsOf f.job)[i]? = some n →
    s.mark n = some .onPath ∨ s.mark n = some .settled
  /-- a job that is still to be tried has a mark -/
  start_marked : ∀ job ∈ s.starts, s.mark job ≠ none
  /-- a successor has a mark -/
  successor_marked : ∀ d t, t ∈ g.successorsOf d → s.mark t ≠ none
  /-- a successor that is marked to be on the path has its place there -/
  placed : ∀ f below n, s.path = f :: below → (g.successorsOf f.job)[f.cursor]? = some n →
    s.mark n = some .onPath →
    ∃ i, place? ({ f with cursor := f.cursor + 1 } :: below) n = some i ∧
      (s.path.reverse[i]?).map Frame.job = some n
  /-- a start is taken off only when the path is empty -/
  path_of_starts : ∀ t, s.step g = .continue t → t.starts ≠ s.starts → s.path = []
  /-- the search finishes only when the path is empty -/
  path_of_finished : s.step g = .finished → s.path = []
  /-- while the path is empty, each job is either not met or settled -/
  unseen_or_settled : s.path = [] → ∀ job ∈ g.ids,
    s.mark job = some .unseen ∨ s.mark job = some .settled

variable {g : JobGraph} {before : List Search} {s t : Search}

theorem Comes.invariant (hg : g.IsClosed) (h : Comes g before s) : Invariant g s := by
  induction h with
  | start => exact .start g
  | move _ hstep ih => exact ih.goes hg (goes_of_step hstep)

/-- The run of a search goes through its states: what is left of it is the run from there. -/
theorem Comes.run_start (h : Comes g before s) (n : Nat) :
    (Search.start g).run g (before.length + n) = s.run g n := by
  induction h generalizing n with
  | start => rw [List.length_nil, Nat.zero_add]
  | @move before s t _ hstep ih =>
    rw [List.length_cons, Nat.add_assoc, ih, Nat.add_comm 1 n, run, hstep]

/-- Only a search with an empty path takes off a start. -/
theorem Goes.path_eq_nil (h : Goes g s t) (hne : t.starts ≠ s.starts) : s.path = [] := by
  cases h with
  | skip hp _ _ => exact hp
  | root hp _ _ => exact hp
  | leave => exact absurd rfl hne
  | pass => exact absurd rfl hne
  | deepen => exact absurd rfl hne

namespace Invariant

/-- What a frame has passed is on the path or settled: below the last frame, the job of the next one
up is on the path, and all others are settled. -/
theorem met_of_passed (h : Invariant g s) {f : Frame} (hf : f ∈ s.path) {i : Nat} {n : String}
    (hi : i < f.cursor) (hn : (g.successorsOf f.job)[i]? = some n) :
    s.mark n = some .onPath ∨ s.mark n = some .settled := by
  obtain ⟨upper, lower, hpath⟩ := List.append_of_mem hf
  rcases List.eq_nil_or_concat' upper with rfl | ⟨us, u, rfl⟩
  · exact .inr (h.top (by rw [hpath]; rfl) hi hn)
  · have hchain : (us ++ u :: f :: lower).IsChain (Above g s) := by
      rw [List.append_cons, ← hpath]
      exact h.chain
    obtain ⟨habove, -⟩ := List.isChain_cons_cons.1 hchain.right_of_append
    rcases habove.passed hi hn with rfl | hs
    · exact .inl (h.onPath_iff.2 (by rw [hpath]; simp))
    · exact .inr hs

theorem mark_ne_none (h : Invariant g s) {job : String} (hj : job ∈ g.ids) : s.mark job ≠ none := by
  obtain ⟨m, hm⟩ := h.exists_mark_iff.2 hj
  rw [hm]
  exact Option.some_ne_none m

/-- A job marked to be on the path is found there. -/
theorem exists_place (h : Invariant g s) {path : List Frame} {job : String}
    (hjobs : path.map Frame.job = s.path.map Frame.job) (hm : s.mark job = some .onPath) :
    ∃ i, place? path job = some i ∧ (s.path.reverse[i]?).map Frame.job = some job := by
  obtain ⟨upper, lower, hsplit⟩ := List.append_of_mem (h.onPath_iff.1 hm)
  have hnodup := h.nodup
  rw [hsplit] at hnodup
  have honce : job ∉ lower := (List.nodup_cons.1 (List.nodup_append.1 hnodup).2.1).1
  refine ⟨lower.length, place?_of_split (hjobs.trans hsplit) honce, ?_⟩
  -- counted from the first frame, the jobs below come before it
  rw [← List.getElem?_map, List.map_reverse, hsplit, List.reverse_append, List.reverse_cons,
    List.append_assoc, List.getElem?_append_right (by simp)]
  simp

/-- While nothing is on the path, no job is marked to be there. -/
theorem unseen_or_settled (h : Invariant g s) (hp : s.path = []) {job : String} (hj : job ∈ g.ids) :
    s.mark job = some .unseen ∨ s.mark job = some .settled := by
  obtain ⟨m, hm⟩ := h.exists_mark_iff.2 hj
  cases m with
  | unseen => exact .inl hm
  | settled => exact .inr hm
  | onPath =>
    have hmem := h.onPath_iff.1 hm
    rw [hp] at hmem
    cases hmem

end Invariant

/-- **The marks agree with the path at every state of a search.** This is so for every graph of a
pipeline, whether a cycle is in it or not. -/
theorem agrees_of_comes {p : Pipeline} (hp : JobGraph.ofPipeline p = .ok g)
    (h : Comes g before s) : Agrees g s := by
  obtain ⟨hids, -, rfl⟩ := JobGraph.ofPipeline_eq_ok_iff.1 hp
  have hg := JobGraph.isClosed_tables hids
  have hinv := h.invariant hg
  exact {
    onPath_iff := fun _ => hinv.onPath_iff
    nodup := hinv.nodup
    above := hinv.chain.imp fun _ _ habove => ⟨habove.pos, habove.last⟩
    settled := fun _ _ hd ht => hinv.settled_of_edge hd ht
    passed := fun _ hf _ _ hi hn => hinv.met_of_passed hf hi hn
    start_marked := fun _ hj => hinv.mark_ne_none (hinv.starts_mem hj)
    successor_marked := fun _ _ ht => hinv.mark_ne_none (hg.mem_ids ht)
    placed := fun f below _ hpath _ hm => hinv.exists_place (by rw [hpath]; rfl) hm
    path_of_starts := fun _ hstep hne => (goes_of_step hstep).path_eq_nil hne
    path_of_finished := fun hf => (of_step_finished hf).1
    unseen_or_settled := fun hpath _ hj => hinv.unseen_or_settled hpath hj }

/-- Two jobs that need each other behind a job that is settled: the last move closes the walk, as the
job that it meets is on the path below the last one. -/
theorem agrees_of_comes_before_closing :
    let needing : List String → Job := fun ids => { Job.empty with needs := some (.several ids) }
    let p : Pipeline := ⟨"", .empty,
      [("a", .empty), ("b", needing ["a", "c"]), ("c", needing ["b"])]⟩
    let g := JobGraph.tables p
    let s : Search := ⟨[("a", .onPath), ("b", .onPath), ("c", .onPath)],
      [⟨"c", 0⟩, ⟨"b", 1⟩, ⟨"a", 1⟩], ["b", "c"]⟩
    JobGraph.ofPipeline p = .ok g ∧ (∃ before, Comes g before s) ∧ Agrees g s ∧
      s.step g = .closed ["b", "c", "b"] ∧ place? s.path "b" = some 1 := by
  intro needing p g s
  have hp : JobGraph.ofPipeline p = .ok g := by rfl
  have hcomes : Comes g _ s := .move (.move (.move .start rfl) rfl) rfl
  exact ⟨hp, ⟨_, hcomes⟩, agrees_of_comes hp hcomes, by rfl, by decide⟩

end Search

end JobLoom
