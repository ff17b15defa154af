import Mathlib.Data.List.Nodup
import JobLoom.Proofs.Graph.Tables

/-!
# The graph and the needs of its pipeline

The graph of a pipeline holds the needs of the jobs twice, once for each direction. Both tables have
the jobs of the pipeline as their keys, each once. What is told of a job in the one is told, turned
around, in the other: a job is among the successors of exactly those that it needs.
-/

namespace JobLoom

namespace JobGraph

/-- A graph that tells the needs of a pipeline in both directions, nothing left out, doubled or put
under the wrong job. -/
structure Tells (g : JobGraph) (p : Pipeline) : Prop where
  /-- no two jobs have one id -/
  nodup : p.ids.Nodup
  /-- the jobs are listed as in the pipeline -/
  ids : g.ids = p.ids
  /-- each job has its edges, once -/
  edgesKeys : g.edges.map Prod.fst = p.ids
  /-- each job has its successors, once -/
  successorsKeys : g.successors.map Prod.fst = p.ids
  /-- the edges under an id are those of the job with this id -/
  edges? : ∀ {id j}, (id, j) ∈ p.jobs → g.edges? id = some j.taskEdges
  /-- a job depends on what it needs, without later repetitions -/
  dependencies : ∀ {id j}, (id, j) ∈ p.jobs → g.dependencies id = j.needsList.eraseDups
  /-- an id without a job has no edges -/
  edges?_eq_none : ∀ {id}, id ∉ p.ids → g.edges? id = none
  /-- the successors of a job are the jobs that depend on it, in the order of the pipeline -/
  successorsOf : ∀ d, g.successorsOf d = p.ids.filter fun t => (g.dependencies t).contains d
  /-- the two tables are the same relation -/
  mem_successorsOf_iff : ∀ {d t}, t ∈ g.successorsOf d ↔ d ∈ g.dependencies t
  /-- no successor comes twice -/
  nodup_successorsOf : ∀ d, (g.successorsOf d).Nodup
  /-- no dependency comes twice -/
  nodup_dependencies : ∀ t, (g.dependencies t).Nodup
  /-- an edge joins two jobs of the pipeline -/
  mem_ids : ∀ {d t}, t ∈ g.successorsOf d → d ∈ p.ids ∧ t ∈ p.ids

variable {p : Pipeline}

theorem dependencies_tables (h : p.HasProperIds) {id : String} {j : Job} (hj : (id, j) ∈ p.jobs) :
    (tables p).dependencies id = normalizeNeeds j.needsList := by
  rw [dependencies, edges?_tables h hj]
  rfl

/-- The tables have no edges for an id without a job. -/
theorem edges?_tables_of_not_mem {id : String} (h : id ∉ p.ids) : (tables p).edges? id = none := by
  refine lookup_eq_none_of_not_mem ?_
  rw [tables, List.map_map]
  exact h

theorem mem_dependencies_tables (h : p.HasProperIds) {d t : String} :
    d ∈ (tables p).dependencies t ↔ p.Needs t d := by
  constructor
  · intro hd
    by_cases ht : t ∈ p.ids
    · obtain ⟨⟨_, j⟩, hj, rfl⟩ := List.mem_map.1 ht
      rw [dependencies_tables h hj, mem_normalizeNeeds] at hd
      exact ⟨j, hj, hd⟩
    · rw [dependencies, edges?_tables_of_not_mem ht] at hd
      cases hd
  · rintro ⟨j, hj, hd⟩
    rw [dependencies_tables h hj]
    exact mem_normalizeNeeds.2 hd

/-- The jobs whose edges name a job are the ids of the jobs that depend on it. -/
theorem neededBy_tables (h : p.HasProperIds) (d : String) :
    neededBy (tables p).edges d = p.ids.filter fun t => ((tables p).dependencies t).contains d := by
  rw [neededBy, tables, Pipeline.ids, List.filter_map, List.filter_map, List.map_map]
  congr 1
  refine List.filter_congr fun e he => ?_
  have hdeps := dependencies_tables h he
  rw [Function.comp, Function.comp]
  exact congrArg (List.contains · d) hdeps.symm

/-- In the tables the successors of a job are the jobs that depend on it. An id without a job has
none, as nothing depends on it. -/
theorem successorsOf_tables (h : p.HasProperIds) (hk : p.NeedsKnown) (d : String) :
    (tables p).successorsOf d =
      p.ids.filter fun t => ((tables p).dependencies t).contains d := by
  have hlookup : (tables p).successors.lookup d =
      if d ∈ p.ids then some (neededBy (tables p).edges d) else none := lookup_map_pair _ _ _
  rw [JobGraph.successorsOf, hlookup]
  split
  · exact neededBy_tables h d
  · next hd =>
    refine (List.filter_eq_nil_iff.2 fun t _ ht => hd ?_).symm
    obtain ⟨j, hj, hn⟩ := (mem_dependencies_tables h).1 (List.contains_iff_mem.1 ht)
    exact hk (t, j) hj d hn

theorem nodup_dependencies_tables (h : p.HasProperIds) (t : String) :
    ((tables p).dependencies t).Nodup := by
  by_cases ht : t ∈ p.ids
  · obtain ⟨⟨_, j⟩, hj, rfl⟩ := List.mem_map.1 ht
    rw [dependencies_tables h hj]
    exact nodup_normalizeNeeds j.needsList
  · rw [dependencies, edges?_tables_of_not_mem ht]
    exact List.nodup_nil

/-- **A graph is the needs of its pipeline, in both directions.** The edges have one entry for each
job and no other; a job depends on what it needs, without later repetitions; and its successors are
exactly the jobs that depend on it, each once, in the order of the pipeline. -/
theorem tells_of_ofPipeline {g : JobGraph} (h : ofPipeline p = .ok g) : g.Tells p := by
  obtain ⟨hids, hknown, rfl⟩ := ofPipeline_eq_ok_iff.1 h
  have hsucc := successorsOf_tables hids hknown
  have hmem : ∀ {d t}, t ∈ (tables p).successorsOf d ↔ d ∈ (tables p).dependencies t := by
    intro d t
    rw [hsucc, List.mem_filter, List.contains_iff_mem, and_iff_right_iff_imp]
    exact fun hd => mem_ids_of_needs ((mem_dependencies_tables hids).1 hd)
  exact {
    nodup := hids.nodup
    ids := rfl
    edgesKeys := by rw [tables, List.map_map]; rfl
    successorsKeys := (isClosed_tables hids).keys
    edges? := edges?_tables hids
    dependencies := fun hj => by rw [dependencies_tables hids hj, normalizeNeeds_eq_eraseDups]
    edges?_eq_none := edges?_tables_of_not_mem
    successorsOf := hsucc
    mem_successorsOf_iff := hmem
    nodup_successorsOf := fun d => by rw [hsucc]; exact hids.nodup.filter _
    nodup_dependencies := nodup_dependencies_tables hids
    mem_ids := fun ht =>
      have hneeds := (mem_dependencies_tables hids).1 (hmem.1 ht)
      have ⟨j, hj, hd⟩ := hneeds
      ⟨hknown _ hj _ hd, mem_ids_of_needs hneeds⟩ }

/-- Needs that come more than once, and a job that is needed before it is listed. -/
theorem tells_of_ofPipeline_repeated_needs :
    let needing : List String → Job := fun ids => { Job.empty with needs := some (.several ids) }
    let p : Pipeline := ⟨"", .empty,
      [("d", needing ["b", "a", "b"]), ("a", .empty), ("b", needing ["a", "a"])]⟩
    ∃ g, ofPipeline p = .ok g ∧ g.Tells p ∧ g.dependencies "d" = ["b", "a"] ∧
      g.successorsOf "a" = ["d", "b"] ∧ g.successorsOf "b" = ["d"] ∧ g.successorsOf "d" = [] := by
  intro needing p
  have h : ofPipeline p = .ok (tables p) := by rfl
  exact ⟨tables p, h, tells_of_ofPipeline h, by decide, by decide, by decide, by decide⟩

end JobGraph

end JobLoom
