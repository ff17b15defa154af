import JobLoom.Proofs.Graph.Search

/-!
# Which pipelines are valid

`JobGraph.validated` accepts exactly the pipelines with proper ids, known needs and no cycle, and
refuses any other one for the fault of the first stage that finds one: the ids, then the needs, then
the cycles.
-/

namespace JobLoom

namespace Pipeline

/-- A pipeline that can be run: its ids are proper, its needs are known, and no job waits for
itself. -/
structure IsValid (p : Pipeline) : Prop where
  /-- no id is reserved or comes twice -/
  properIds : p.HasProperIds
  /-- every needed job is there -/
  needsKnown : p.NeedsKnown
  /-- no job needs itself -/
  acyclic : ¬ p.IsCyclic

/-- What is wrong with a pipeline, at the first stage where something is. -/
inductive FirstFault (p : Pipeline) : ConvertError → Prop where
  /-- an id is improper -/
  | improperId {e : ConvertError} (fault : p.FirstImproperId e) : FirstFault p e
  /-- all ids are proper, and a job needs an unknown one -/
  | unknownNeed {id needed : String} (ids : p.HasProperIds) (fault : p.FirstUnknown id needed) :
      FirstFault p (.unknownDependency id needed)
  /-- all ids are proper and all needs known, and some jobs need each other -/
  | cycle {walk : List String} (ids : p.HasProperIds) (needs : p.NeedsKnown)
      (fault : p.IsCyclic) : FirstFault p (.cycleDetected walk)

end Pipeline

namespace JobGraph

variable {p : Pipeline}

/-- A graph in which no cycle is found is accepted. -/
theorem validated_of_findCycle_eq_none {g : JobGraph} (h : ofPipeline p = .ok g)
    (hf : g.findCycle = none) : validated p = .ok g := by
  have hcheck : g.checkAcyclic = .ok () := by simp only [checkAcyclic, hf]
  rw [validated, h]
  show (g.checkAcyclic >>= fun _ => return g) = .ok g
  rw [hcheck]
  rfl

/-- A graph in which a cycle is found is refused for it. -/
theorem validated_of_findCycle_eq_some {g : JobGraph} {walk : List String}
    (h : ofPipeline p = .ok g) (hf : g.findCycle = some walk) :
    validated p = .error (.cycleDetected walk) := by
  have hcheck : g.checkAcyclic = .error (.cycleDetected walk) := by simp only [checkAcyclic, hf]
  rw [validated, h]
  show (g.checkAcyclic >>= fun _ => return g) = .error (.cycleDetected walk)
  rw [hcheck]
  rfl

theorem validated_of_ofPipeline_eq_error {e : ConvertError} (h : ofPipeline p = .error e) :
    validated p = .error e := by
  rw [validated, h]
  rfl

/-- A graph without cycles is accepted as it is. -/
theorem validated_eq_ok_iff {g : JobGraph} :
    validated p = .ok g ↔ p.IsValid ∧ g = tables p := by
  cases hp : ofPipeline p with
  | error e =>
    rw [validated_of_ofPipeline_eq_error hp]
    refine ⟨fun h => (by cases h), fun h => ?_⟩
    have hok := ofPipeline_eq_ok_iff.2 ⟨h.1.properIds, h.1.needsKnown, rfl⟩
    rw [hp] at hok
    cases hok
  | ok g' =>
    obtain ⟨hids, hknown, rfl⟩ := ofPipeline_eq_ok_iff.1 hp
    have hcycle := (exists_findCycle_iff (isClosed_tables hids)).trans
      (exists_transGen_edge_iff hknown)
    cases hf : (tables p).findCycle with
    | some walk =>
      rw [validated_of_findCycle_eq_some hp hf]
      refine ⟨fun h => (by cases h), fun h => ?_⟩
      exact absurd (hcycle.1 ⟨walk, hf⟩) h.1.acyclic
    | none =>
      rw [validated_of_findCycle_eq_none hp hf]
      have hno : ¬ p.IsCyclic := by
        intro hc
        obtain ⟨walk, hw⟩ := hcycle.2 hc
        rw [hf] at hw
        cases hw
      constructor
      · intro h
        cases h
        exact ⟨⟨hids, hknown, hno⟩, rfl⟩
      · rintro ⟨-, rfl⟩
        rfl

/-- A refused pipeline is refused by the building of its graph, or for the cycle that is found in
it. -/
theorem validated_eq_error {e : ConvertError} (h : validated p = .error e) :
    ofPipeline p = .error e ∨
      p.HasProperIds ∧ p.NeedsKnown ∧
        ∃ walk, (tables p).findCycle = some walk ∧ e = .cycleDetected walk := by
  cases hp : ofPipeline p with
  | error e' =>
    rw [validated_of_ofPipeline_eq_error hp] at h
    cases h
    exact .inl rfl
  | ok g =>
    obtain ⟨hids, hknown, rfl⟩ := ofPipeline_eq_ok_iff.1 hp
    cases hf : (tables p).findCycle with
    | none =>
      rw [validated_of_findCycle_eq_none hp hf] at h
      cases h
    | some walk =>
      rw [validated_of_findCycle_eq_some hp hf] at h
      cases h
      exact .inr ⟨hids, hknown, walk, rfl, rfl⟩

/-- **Which pipelines are valid, and what is wrong with the others.** A pipeline is accepted exactly
when it is valid, and a refused one has, at the first stage where it has one, the fault that is
reported. -/
theorem validated_decides (p : Pipeline) :
    ((∃ g, validated p = .ok g) ↔ p.IsValid) ∧
      ∀ e, validated p = .error e → p.FirstFault e := by
  refine ⟨⟨fun ⟨g, h⟩ => (validated_eq_ok_iff.1 h).1,
    fun h => ⟨tables p, validated_eq_ok_iff.2 ⟨h, rfl⟩⟩⟩, fun e h => ?_⟩
  rcases validated_eq_error h with hp | ⟨hids, hknown, walk, hw, rfl⟩
  · rcases ofPipeline_eq_error hp with hid | ⟨hids, id, n, hu, rfl⟩
    · exact .improperId hid
    · exact .unknownNeed hids hu
  · refine .cycle hids hknown ?_
    exact (exists_transGen_edge_iff hknown).1
      ((exists_findCycle_iff (isClosed_tables hids)).1 ⟨walk, hw⟩)

/-- A cycle behind a job that is settled already. -/
theorem validated_decides_behind_settled :
    let needing : List String → Job := fun ids => { Job.empty with needs := some (.several ids) }
    let p : Pipeline := ⟨"", .empty,
      [("a", .empty), ("b", needing ["a", "d"]), ("c", needing ["b"]), ("d", needing ["c"])]⟩
    validated p = .error (.cycleDetected ["b", "c", "d", "b"]) ∧
      p.FirstFault (.cycleDetected ["b", "c", "d", "b"]) :=
  have h : validated ⟨"", .empty, [("a", .empty),
      ("b", { Job.empty with needs := some (.several ["a", "d"]) }),
      ("c", { Job.empty with needs := some (.several ["b"]) }),
      ("d", { Job.empty with needs := some (.several ["c"]) })]⟩ =
      .error (.cycleDetected ["b", "c", "d", "b"]) := by rfl
  ⟨h, (validated_decides _).2 _ h⟩

end JobGraph

end JobLoom
