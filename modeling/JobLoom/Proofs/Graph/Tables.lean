import Mathlib.Data.List.Basic
import Mathlib.Logic.Relation
import JobLoom.Graph.Cycle
import JobLoom.Proofs.Dictionary
import JobLoom.Proofs.Graph.Needs

/-!
# The tables of a job graph

What `JobGraph.ofPipeline` makes of a pipeline, said without its loops.

* **Needs** are the source relation: a job needs those that it names. The edges of the graph are the
  same relation turned around, from a job to those that need it.
* **Ids** are refused at the first position that holds the root template or an id that came before.
* **Unknown needs** are looked for job by job, and in a job from the first need on; leaving out
  repetitions does not change which one is found first.
-/

namespace JobLoom

open Relation

/-! ## What a pipeline says about its jobs -/

namespace Pipeline

/-- A job names another one among its needs. -/
def Needs (p : Pipeline) (a b : String) : Prop := ∃ j, (a, j) ∈ p.jobs ∧ b ∈ j.needsList

/-- No job has the id of the root template, and no two jobs have one id. -/
structure HasProperIds (p : Pipeline) : Prop where
  /-- no job has the reserved id -/
  root_not_mem : rootTemplate ∉ p.ids
  /-- no id comes twice -/
  nodup : p.ids.Nodup

/-- Every job that is needed is there. -/
def NeedsKnown (p : Pipeline) : Prop := ∀ e ∈ p.jobs, ∀ n ∈ e.2.needsList, n ∈ p.ids

/-- Some job needs itself, directly or through others. -/
def IsCyclic (p : Pipeline) : Prop := ∃ id, TransGen p.Needs id id

/-- The first offending position of the ids, with the error for it: everything before it is fine,
and it holds the reserved id or one that came before. -/
inductive FirstImproperId (p : Pipeline) : ConvertError → Prop where
  /-- the position holds the reserved id -/
  | reserved {before rest : List String} (split : p.ids = before ++ rootTemplate :: rest)
      (root_not_mem : rootTemplate ∉ before) (nodup : before.Nodup) :
      FirstImproperId p (.reservedJobId rootTemplate)
  /-- the position holds an id that came before -/
  | duplicate {before rest : List String} {id : String} (split : p.ids = before ++ id :: rest)
      (root_not_mem : rootTemplate ∉ before) (nodup : before.Nodup) (mem : id ∈ before) :
      FirstImproperId p (.duplicateJob id)

/-- The first job that needs an unknown one, and its first unknown need: all jobs before it need
known ones only, and so does it up to there. -/
structure FirstUnknown (p : Pipeline) (id needed : String) : Prop where
  /-- the job and the need stand where all before them is known -/
  split : ∃ before j rest, p.jobs = before ++ (id, j) :: rest ∧
    (∀ e ∈ before, ∀ n ∈ e.2.needsList, n ∈ p.ids) ∧
    ∃ known more, j.needsList = known ++ needed :: more ∧ ∀ n ∈ known, n ∈ p.ids
  /-- there is no job with the needed id -/
  not_mem : needed ∉ p.ids

end Pipeline

/-! ## The check of the ids -/

/-- The ids are accepted exactly when each is proper and new. -/
theorem checkIds_eq_ok_iff {passed ids : List String} :
    checkIds passed ids = .ok () ↔
      rootTemplate ∉ ids ∧ ids.Nodup ∧ ∀ id ∈ ids, id ∉ passed := by
  induction ids generalizing passed with
  | nil => simp [checkIds]
  | cons id rest ih =>
    unfold checkIds
    split
    · next h => simp [h]
    · next hroot =>
      split
      · next h => simp [List.contains_iff_mem.1 h]
      · next h =>
        rw [ih]
        have hnew : id ∉ passed := by simpa using h
        constructor
        · rintro ⟨hr, hn, hp⟩
          refine ⟨by simp [hr, Ne.symm hroot], List.nodup_cons.2 ⟨fun hm => ?_, hn⟩, ?_⟩
          · exact hp id hm List.mem_cons_self
          · intro x hx
            rcases List.mem_cons.1 hx with rfl | hx
            · exact hnew
            · exact fun hm => hp x hx (List.mem_cons_of_mem _ hm)
        · rintro ⟨hr, hn, hp⟩
          obtain ⟨hid, hn⟩ := List.nodup_cons.1 hn
          refine ⟨fun hm => hr (List.mem_cons_of_mem _ hm), hn, fun x hx hm => ?_⟩
          rcases List.mem_cons.1 hm with rfl | hm
          · exact hid hx
          · exact hp x (List.mem_cons_of_mem _ hx) hm

/-- A refused list of ids splits at its first offending position. -/
theorem checkIds_eq_error {passed ids : List String} {e : ConvertError}
    (h : checkIds passed ids = .error e) :
    ∃ before id rest, ids = before ++ id :: rest ∧ rootTemplate ∉ before ∧ before.Nodup ∧
      (∀ x ∈ before, x ∉ passed) ∧
      (id = rootTemplate ∧ e = .reservedJobId id ∨
        id ≠ rootTemplate ∧ (id ∈ passed ∨ id ∈ before) ∧ e = .duplicateJob id) := by
  induction ids generalizing passed with
  | nil => cases h
  | cons id rest ih =>
    unfold checkIds at h
    split at h
    · next hroot =>
      cases h
      exact ⟨[], id, rest, rfl, by simp, List.nodup_nil, by simp, .inl ⟨hroot, rfl⟩⟩
    · next hroot =>
      split at h
      · next hmem =>
        cases h
        exact ⟨[], id, rest, rfl, by simp, List.nodup_nil, by simp,
          .inr ⟨hroot, .inl (by simpa using hmem), rfl⟩⟩
      · next hmem =>
        have hnew : id ∉ passed := by simpa using hmem
        obtain ⟨before, x, more, rfl, hr, hn, hp, hx⟩ := ih h
        refine ⟨id :: before, x, more, rfl, by simp [hr, Ne.symm hroot], ?_, ?_, ?_⟩
        · exact List.nodup_cons.2 ⟨fun hm => hp id hm List.mem_cons_self, hn⟩
        · intro y hy
          rcases List.mem_cons.1 hy with rfl | hy
          · exact hnew
          · exact fun hm => hp y hy (List.mem_cons_of_mem _ hm)
        · refine hx.imp_right fun ⟨hne, hm, he⟩ => ⟨hne, ?_, he⟩
          rcases hm with hm | hm
          · rcases List.mem_cons.1 hm with rfl | hm
            · exact .inr List.mem_cons_self
            · exact .inl hm
          · exact .inr (List.mem_cons_of_mem _ hm)

/-! ## The edges of the jobs -/

/-- The edges of a job, whether what it needs is known or not. -/
def Job.taskEdges (j : Job) : TaskEdges := ⟨normalizeNeeds j.needsList, j.guard, j.continueOnError⟩

/-- The edges of a job hang on its first unknown need, whether repetitions are left out or not. -/
theorem Job.edges_eq (id : String) (j : Job) (isKnown : String → Bool) :
    j.edges id isKnown = match j.needsList.find? fun n => !isKnown n with
      | some missing => .error (.unknownDependency id missing)
      | none => .ok j.taskEdges := by
  have h : (normalizeNeeds j.needsList).find? (fun n => !isKnown n) =
      j.needsList.find? fun n => !isKnown n := find?_firstMentions (by simp)
  rw [← h]
  rfl

/-- A job has edges exactly when it needs known jobs only. -/
theorem Job.edges_eq_ok_iff {id : String} {j : Job} {isKnown : String → Bool} {t : TaskEdges} :
    j.edges id isKnown = .ok t ↔ (∀ n ∈ j.needsList, isKnown n) ∧ t = j.taskEdges := by
  rw [Job.edges_eq]
  cases h : j.needsList.find? fun n => !isKnown n with
  | none =>
    have hall : ∀ n ∈ j.needsList, isKnown n := by simpa using h
    simp only [Except.ok.injEq]
    exact ⟨fun ht => ⟨hall, ht.symm⟩, fun ht => ht.2.symm⟩
  | some n =>
    obtain ⟨hn, -⟩ := List.find?_eq_some_iff_append.1 h
    have hmem : n ∈ j.needsList := List.mem_of_find?_eq_some h
    refine ⟨fun ht => (by cases ht), fun ht => ?_⟩
    have := ht.1 n hmem
    simp [this] at hn

/-- A job without edges is reported with its first unknown need. -/
theorem Job.edges_eq_error {id : String} {j : Job} {isKnown : String → Bool} {e : ConvertError}
    (h : j.edges id isKnown = .error e) :
    ∃ known n more, j.needsList = known ++ n :: more ∧ (∀ k ∈ known, isKnown k) ∧
      isKnown n = false ∧ e = .unknownDependency id n := by
  rw [Job.edges_eq] at h
  cases hf : j.needsList.find? fun n => !isKnown n with
  | none => rw [hf] at h; cases h
  | some n =>
    rw [hf] at h
    cases h
    obtain ⟨hn, known, more, hsplit, hknown⟩ := List.find?_eq_some_iff_append.1 hf
    exact ⟨known, n, more, hsplit, by simpa using hknown, by simpa using hn, rfl⟩

/-! ## Entering the jobs -/

namespace JobGraph

theorem ids_enter (g : JobGraph) (job : String) (x : TaskEdges) : (g.enter job x).ids = g.ids := rfl

/-- Enter jobs one after the other, whether what they need is known or not. -/
def enterAll (g : JobGraph) (jobs : List (String × Job)) : JobGraph :=
  jobs.foldl (fun g e => g.enter e.1 e.2.taskEdges) g

/-- All jobs are entered exactly when each needs known jobs only. -/
theorem foldlM_addJob_eq_ok_iff {g g' : JobGraph} {jobs : List (String × Job)} :
    jobs.foldlM addJob g = .ok g' ↔
      (∀ e ∈ jobs, ∀ n ∈ e.2.needsList, n ∈ g.ids) ∧ g' = g.enterAll jobs := by
  induction jobs generalizing g with
  | nil => simp [enterAll, pure, Except.pure, eq_comm]
  | cons e rest ih =>
    rw [List.foldlM_cons, addJob]
    cases he : e.2.edges e.1 g.ids.contains with
    | error err =>
      obtain ⟨known, n, more, hsplit, -, hn, -⟩ := Job.edges_eq_error he
      refine ⟨fun h => (by cases h), fun h => ?_⟩
      have hmem : n ∈ g.ids := h.1 e List.mem_cons_self n (by simp [hsplit])
      simp [hmem] at hn
    | ok t =>
      -- the first job is fine, so the others decide
      obtain ⟨hknown, rfl⟩ := Job.edges_eq_ok_iff.1 he
      have hknown : ∀ n ∈ e.2.needsList, n ∈ g.ids := by simpa using hknown
      refine (ih (g := g.enter e.1 e.2.taskEdges)).trans ?_
      rw [ids_enter, List.forall_mem_cons]
      exact and_congr_left fun _ => ⟨fun hrest => ⟨hknown, hrest⟩, fun hall => hall.2⟩

/-- Jobs that cannot all be entered split at the first one that needs an unknown job. -/
theorem foldlM_addJob_eq_error {g : JobGraph} {jobs : List (String × Job)} {err : ConvertError}
    (h : jobs.foldlM addJob g = .error err) :
    ∃ before id j rest n, jobs = before ++ (id, j) :: rest ∧
      (∀ e ∈ before, ∀ n ∈ e.2.needsList, n ∈ g.ids) ∧
      (∃ known more, j.needsList = known ++ n :: more ∧ ∀ k ∈ known, k ∈ g.ids) ∧
      n ∉ g.ids ∧ err = .unknownDependency id n := by
  induction jobs generalizing g with
  | nil => cases h
  | cons e rest ih =>
    rw [List.foldlM_cons, addJob] at h
    cases he : e.2.edges e.1 g.ids.contains with
    | error e' =>
      rw [he] at h
      cases h
      obtain ⟨known, n, more, hsplit, hk, hn, rfl⟩ := Job.edges_eq_error he
      exact ⟨[], e.1, e.2, rest, n, rfl, by simp, ⟨known, more, hsplit, by simpa using hk⟩,
        by simpa using hn, rfl⟩
    | ok t =>
      obtain ⟨hknown, rfl⟩ := Job.edges_eq_ok_iff.1 he
      rw [he] at h
      obtain ⟨before, id, j, more, n, rfl, hbefore, hj⟩ := ih (g := g.enter e.1 e.2.taskEdges) h
      refine ⟨e :: before, id, j, more, n, rfl, fun x hx => ?_, hj⟩
      rcases List.mem_cons.1 hx with rfl | hx
      · simpa using hknown
      · exact hbefore x hx

end JobGraph

/-! ## The tables -/

theorem lookup_map_pair {α : Type} (f : String → α) (ids : List String) (id : String) :
    (ids.map fun x => (x, f x)).lookup id = if id ∈ ids then some (f id) else none := by
  induction ids with
  | nil => rfl
  | cons x rest ih =>
    rw [List.map_cons, List.lookup_cons, ih]
    by_cases h : id = x
    · subst h
      simp
    · rw [beq_false_of_ne h]
      simp [h]

theorem lookup_putEntry {α : Type} (key : String) (a : α) (table : List (String × α)) (x : String) :
    (putEntry key a table).lookup x = if x = key then some a else table.lookup x := by
  induction table with
  | nil => exact lookup_cons_eq_ite (key, a) [] x
  | cons e rest ih =>
    unfold putEntry
    split
    · next heq =>
      -- the value that is replaced was under the same key
      rw [lookup_cons_eq_ite, lookup_cons_eq_ite, heq]
      split <;> rfl
    · next hne =>
      rw [lookup_cons_eq_ite, ih, lookup_cons_eq_ite]
      by_cases hx : x = key
      · rw [if_pos hx, if_pos hx, if_neg (hx ▸ Ne.symm hne)]
      · rw [if_neg hx, if_neg hx]

theorem map_fst_putEntry {α : Type} {key : String} {table : List (String × α)}
    (h : key ∈ table.map Prod.fst) (a : α) :
    (putEntry key a table).map Prod.fst = table.map Prod.fst := by
  induction table with
  | nil => cases h
  | cons e rest ih =>
    unfold putEntry
    split
    · next heq => rw [List.map_cons, List.map_cons, heq]
    · next hne =>
      rw [List.map_cons, List.map_cons, ih ((List.mem_cons.1 h).resolve_left (Ne.symm hne))]

theorem putEntry_of_not_mem {α : Type} {key : String} {table : List (String × α)}
    (h : key ∉ table.map Prod.fst) (a : α) : putEntry key a table = table ++ [(key, a)] := by
  induction table with
  | nil => rfl
  | cons e rest ih =>
    rw [List.map_cons, List.mem_cons, not_or] at h
    rw [putEntry, if_neg (Ne.symm h.1), ih h.2, List.cons_append]

/-- A job gets behind the successors of each job that it needs, and nowhere else. -/
theorem foldl_addSuccessor (job : String) {needs : List String} (h : needs.Nodup)
    (ids : List String) (f : String → List String) :
    needs.foldl (addSuccessor job) (ids.map fun id => (id, f id)) =
      ids.map fun id => (id, if id ∈ needs then f id ++ [job] else f id) := by
  induction needs generalizing f with
  | nil => simp
  | cons needed rest ih =>
    obtain ⟨hnew, hrest⟩ := List.nodup_cons.1 h
    have hfirst : addSuccessor job (ids.map fun id => (id, f id)) needed =
        ids.map fun id => (id, if id = needed then f id ++ [job] else f id) := by
      rw [addSuccessor, List.map_map]
      refine List.map_congr_left fun id _ => ?_
      dsimp only [Function.comp]
      split <;> rfl
    rw [List.foldl_cons, hfirst, ih hrest]
    refine List.map_congr_left fun id _ => ?_
    -- no job is needed twice, so at most one of the two cases adds the job
    by_cases hid : id = needed
    · subst hid
      simp [hnew]
    · simp [hid]

/-- The jobs that need this one. -/
def neededBy (edges : List (String × TaskEdges)) (id : String) : List String :=
  (edges.filter fun e => e.2.dependencies.contains id).map Prod.fst

/-- One job more may need this one. -/
theorem neededBy_concat (edges : List (String × TaskEdges)) (job : String) (x : TaskEdges)
    (id : String) : neededBy (edges ++ [(job, x)]) id =
      if id ∈ x.dependencies then neededBy edges id ++ [job] else neededBy edges id := by
  rw [neededBy, neededBy, List.filter_append, List.map_append]
  by_cases hid : id ∈ x.dependencies
  · rw [if_pos hid, List.filter_cons_of_pos (by simpa using hid)]
    rfl
  · rw [if_neg hid, List.filter_cons_of_neg (by simpa using hid)]
    exact List.append_nil _

namespace JobGraph

/-- The tables of a pipeline, made without any check. -/
def tables (p : Pipeline) : JobGraph :=
  let edges := p.jobs.map fun e => (e.1, e.2.taskEdges)
  ⟨p.ids, edges, p.ids.map fun id => (id, neededBy edges id)⟩

/-- An edge goes from a job to one that needs it. -/
def Edge (g : JobGraph) (d t : String) : Prop := t ∈ g.successorsOf d

/-- What the search relies on: no job is listed twice, the successors are told for each job and for
no other, and they are jobs. -/
structure IsClosed (g : JobGraph) : Prop where
  /-- no job is listed twice -/
  nodup : g.ids.Nodup
  /-- the successors are told for the jobs, in their order -/
  keys : g.successors.map Prod.fst = g.ids
  /-- successors are jobs -/
  mem_ids : ∀ {d t}, g.Edge d t → t ∈ g.ids

variable {p : Pipeline}

/-- What some of the jobs say together. -/
def tablesOf (ids : List String) (jobs : List (String × Job)) : JobGraph :=
  let edges := jobs.map fun e => (e.1, e.2.taskEdges)
  ⟨ids, edges, ids.map fun id => (id, neededBy edges id)⟩

/-- A job with a new id is entered behind those that have been entered. -/
theorem enter_tablesOf (ids : List String) {before : List (String × Job)} {e : String × Job}
    (h : e.1 ∉ before.map Prod.fst) :
    (tablesOf ids before).enter e.1 e.2.taskEdges = tablesOf ids (before ++ [e]) := by
  have hnew : e.1 ∉ (before.map fun e => (e.1, e.2.taskEdges)).map Prod.fst := by
    rw [List.map_map]
    exact h
  have hedges : (before ++ [e]).map (fun e => (e.1, e.2.taskEdges)) =
      before.map (fun e => (e.1, e.2.taskEdges)) ++ [(e.1, e.2.taskEdges)] := List.map_append
  simp only [tablesOf, enter, hedges, putEntry_of_not_mem hnew, neededBy_concat]
  congr 1
  exact foldl_addSuccessor e.1 (nodup_normalizeNeeds e.2.needsList) ids _

/-- Jobs with different ids are entered one after the other. -/
theorem enterAll_tablesOf (ids : List String) (before jobs : List (String × Job))
    (h : ((before ++ jobs).map Prod.fst).Nodup) :
    enterAll (tablesOf ids before) jobs = tablesOf ids (before ++ jobs) := by
  induction jobs generalizing before with
  | nil => rw [List.append_nil]; rfl
  | cons e rest ih =>
    have hnew : e.1 ∉ before.map Prod.fst := fun hmem => by
      rw [List.map_append] at h
      exact (List.nodup_append.1 h).2.2 e.1 hmem e.1 List.mem_cons_self rfl
    rw [List.append_cons] at h ⊢
    rw [← ih _ h, ← enter_tablesOf ids hnew]
    rfl

/-- All jobs of a pipeline together give its tables. -/
theorem enterAll_start (h : p.HasProperIds) :
    enterAll ⟨p.ids, [], p.ids.map fun id => (id, [])⟩ p.jobs = tables p :=
  enterAll_tablesOf p.ids [] p.jobs h.nodup

/-- A pipeline has a graph exactly when its ids are proper and its needs known, and the graph holds
its tables. -/
theorem ofPipeline_eq_ok_iff {g : JobGraph} :
    ofPipeline p = .ok g ↔ p.HasProperIds ∧ p.NeedsKnown ∧ g = tables p := by
  unfold ofPipeline
  cases hc : checkIds [] p.ids with
  | error e =>
    refine ⟨fun h => (by cases h), fun h => ?_⟩
    have hok : checkIds [] p.ids = .ok () :=
      checkIds_eq_ok_iff.2 ⟨h.1.root_not_mem, h.1.nodup, by simp⟩
    rw [hc] at hok
    cases hok
  | ok u =>
    obtain ⟨hroot, hnodup, -⟩ := checkIds_eq_ok_iff.1 hc
    have hids : p.HasProperIds := ⟨hroot, hnodup⟩
    refine foldlM_addJob_eq_ok_iff.trans ?_
    rw [enterAll_start hids]
    exact ⟨fun h => ⟨hids, h⟩, fun h => h.2⟩

/-- A pipeline without a graph is reported with the first fault: an improper id comes before an
unknown need. -/
theorem ofPipeline_eq_error {e : ConvertError} (h : ofPipeline p = .error e) :
    p.FirstImproperId e ∨
      p.HasProperIds ∧ ∃ id n, p.FirstUnknown id n ∧ e = .unknownDependency id n := by
  unfold ofPipeline at h
  cases hc : checkIds [] p.ids with
  | error e' =>
    rw [hc] at h
    cases h
    left
    obtain ⟨before, id, rest, hsplit, hroot, hnodup, -, hid⟩ := checkIds_eq_error hc
    rcases hid with ⟨rfl, rfl⟩ | ⟨-, hmem, rfl⟩
    · exact .reserved hsplit hroot hnodup
    · exact .duplicate hsplit hroot hnodup (hmem.resolve_left List.not_mem_nil)
  | ok u =>
    obtain ⟨hroot, hnodup, -⟩ := checkIds_eq_ok_iff.1 hc
    rw [hc] at h
    obtain ⟨before, id, j, rest, n, hsplit, hbefore, hj, hn, rfl⟩ := foldlM_addJob_eq_error h
    exact .inr ⟨⟨hroot, hnodup⟩, id, n, ⟨⟨before, j, rest, hsplit, hbefore, hj⟩, hn⟩, rfl⟩

theorem mem_neededBy {d t : String} :
    t ∈ neededBy (tables p).edges d ↔ p.Needs t d := by
  simp [neededBy, tables, Pipeline.Needs, Job.taskEdges]

/-- The edges of the tables are the needs, turned around. -/
theorem edge_tables_iff {d t : String} : (tables p).Edge d t ↔ d ∈ p.ids ∧ p.Needs t d := by
  have h : (tables p).successors.lookup d =
      if d ∈ p.ids then some (neededBy (tables p).edges d) else none := lookup_map_pair _ _ _
  rw [Edge, successorsOf, h]
  split <;> simp [*, mem_neededBy]

theorem mem_ids_of_needs {a b : String} (h : p.Needs a b) : a ∈ p.ids := by
  obtain ⟨j, hj, -⟩ := h
  exact List.mem_map_of_mem hj

theorem isClosed_tables (h : p.HasProperIds) : (tables p).IsClosed where
  nodup := h.nodup
  keys := by simp [tables, Function.comp_def]
  mem_ids he := mem_ids_of_needs (edge_tables_iff.1 he).2

theorem edges?_tables (h : p.HasProperIds) {id : String} {j : Job} (hj : (id, j) ∈ p.jobs) :
    (tables p).edges? id = some j.taskEdges := by
  refine lookup_eq_some_of_mem ?_ (List.mem_map.2 ⟨(id, j), hj, rfl⟩)
  rw [tables, List.map_map]
  exact h.nodup

/-- The tables have a cycle exactly when the needs have one. -/
theorem exists_transGen_edge_iff (hk : p.NeedsKnown) :
    (∃ id, TransGen (tables p).Edge id id) ↔ p.IsCyclic := by
  have hedge : (tables p).Edge = Function.swap p.Needs := by
    funext d t
    refine propext (edge_tables_iff.trans ⟨fun h => h.2, fun h => ⟨?_, h⟩⟩)
    obtain ⟨j, hj, hd⟩ := h
    exact hk (t, j) hj d hd
  rw [hedge, Pipeline.IsCyclic]
  exact exists_congr fun id => transGen_swap

end JobGraph

end JobLoom
