import Mathlib.Algebra.Ring.Nat
import JobLoom.Proofs.Conversion.Build

/-!
# Manifests that realize a pipeline

The manifest that a conversion makes is well formed and has the shape of the job graph.

* **Templates.** The root template comes first, and a container for each job follows it, in the
  order of the jobs. No two templates have one name, so that a task finds its own one by its name.
* **Tasks.** The root template has one task for each job, in the order of the jobs, with the needs
  of the job as its dependencies.
* **Order.** Every dependency is another task, and no task waits for itself, also not through
  others.
-/

namespace JobLoom

open Relation (TransGen)

theorem find?_of_nodup_map {α : Type} {name : α → String} {l : List α} {a : α}
    (hnames : (l.map name).Nodup) (ha : a ∈ l) : l.find? (fun b => name b = name a) = some a := by
  induction l with
  | nil => cases ha
  | cons first rest ih =>
    rw [List.map_cons, List.nodup_cons] at hnames
    rcases List.mem_cons.1 ha with rfl | hrest
    · simp
    · -- the first one has another name, so the search goes on
      have hne : name first ≠ name a := fun h => hnames.1 (h ▸ List.mem_map_of_mem hrest)
      rw [List.find?_cons_of_neg (by simpa using hne)]
      exact ih hnames.2 hrest

/-- The task that stands for a job. -/
def Job.task (id : String) (j : Job) : DagTask where
  name := id
  template := id
  dependencies := j.needsList.eraseDups
  condition := j.guard
  continueOn := if j.continueOnError then some ⟨true⟩ else none

/-- The seconds after which a job is stopped. -/
def Job.deadline (j : Job) : Option Nat := j.timeoutMinutes.map fun n => min (60 * n) (2 ^ 64 - 1)

/-- A template that is either a container or a graph, not both. -/
def Template.IsProper (t : Template) : Prop := t.container.isSome ≠ t.dag.isSome

namespace Manifest

/-- A task of the root template waits for another name. -/
def DependsOn (m : Manifest) (a b : String) : Prop :=
  ∃ t ∈ m.rootTasks, t.name = a ∧ b ∈ t.dependencies

/-- A manifest is well formed and runs the jobs of a pipeline, each in the container that its label
leads to. -/
structure Realizes (m : Manifest) (c : Converter) (store : Store) (p : Pipeline) : Prop where
  /-- it starts with the root template -/
  entrypoint_eq : m.entrypoint = rootTemplate
  /-- the root template joins the tasks, and only containers follow it -/
  templates_eq : ∃ containers, m.templates = .ofDag rootTemplate m.rootTasks :: containers ∧
    ∀ t ∈ containers, t.container.isSome ∧ t.dag = none
  /-- the containers are named after the jobs -/
  names_eq : m.templates.map Template.name = rootTemplate :: p.ids
  /-- no name comes twice -/
  names_nodup : (m.templates.map Template.name).Nodup
  /-- every template is a container or a graph -/
  isProper : ∀ t ∈ m.templates, t.IsProper
  /-- each job has its task -/
  rootTasks_eq : m.rootTasks = p.jobs.map fun e => e.2.task e.1
  /-- each task leads to the template of its job -/
  template_of_job : ∀ i id j, p.jobs[i]? = some (id, j) →
    ∃ task t r, m.rootTasks[i]? = some task ∧ m.template? task.template = some t ∧
      m.templates[i + 1]? = some t ∧ c.Resolves store id j r ∧
      t = ⟨id, some (r.descriptor.forJob j p.env c.defaults), none, j.deadline⟩
  /-- every dependency is another task -/
  dependency_known : ∀ a b, m.DependsOn a b → b ≠ a ∧ ∃ t ∈ m.rootTasks, t.name = b
  /-- no task waits for itself -/
  acyclic : ∀ a, ¬ TransGen m.DependsOn a a

theorem template?_of_mem {m : Manifest} {t : Template}
    (hnames : (m.templates.map Template.name).Nodup) (ht : t ∈ m.templates) :
    m.template? t.name = some t :=
  find?_of_nodup_map hnames ht

end Manifest

/-! ## The parts of an assembled manifest -/

/-- The task that the graph gives a job is its own. -/
theorem DagTask.ofJob_tables {p : Pipeline} (h : p.HasProperIds) {id : String} {j : Job}
    (hj : (id, j) ∈ p.jobs) : DagTask.ofJob (JobGraph.tables p) id = j.task id := by
  unfold DagTask.ofJob
  rw [JobGraph.edges?_tables h hj]
  simp only [Option.getD_some, Job.taskEdges, normalizeNeeds_eq_eraseDups]
  rfl

namespace Converter

variable {c : Converter} {store : Store} {p : Pipeline} {rs : List Resolution}

/-- The templates of the jobs. -/
def containers (c : Converter) (p : Pipeline) (rs : List Resolution) : List Template :=
  p.jobs.zipWith (fun e r => Template.ofJob c.defaults p.env e.1 e.2 r) rs

/-- The container that follows at the place of a job is made from what its label leads to. -/
theorem containers_getElem? (h : List.Forall₂ (fun e r => c.Resolves store e.1 e.2 r) p.jobs rs)
    {i : Nat} {id : String} {j : Job} (hj : p.jobs[i]? = some (id, j)) :
    ∃ r, c.Resolves store id j r ∧
      (c.containers p rs)[i]? = some (Template.ofJob c.defaults p.env id j r) := by
  obtain ⟨hlength, hall⟩ := List.forall₂_iff_get.1 h
  obtain ⟨hi, hget⟩ := List.getElem?_eq_some_iff.1 hj
  have hr := hall i hi (hlength ▸ hi)
  rw [List.get_eq_getElem, List.get_eq_getElem, hget] at hr
  refine ⟨_, hr, ?_⟩
  unfold containers
  rw [List.getElem?_zipWith, hj, List.getElem?_eq_getElem (hlength ▸ hi)]

theorem names_containers (h : List.Forall₂ (fun e r => c.Resolves store e.1 e.2 r) p.jobs rs) :
    (c.containers p rs).map Template.name = p.ids := by
  unfold containers Pipeline.ids
  generalize p.jobs = jobs at h
  induction h with
  | nil => rfl
  | cons _ _ ih => rw [List.zipWith_cons_cons, List.map_cons, List.map_cons, ih]; rfl

theorem exists_of_mem_containers {t : Template} (ht : t ∈ c.containers p rs) :
    ∃ id j r, (id, j) ∈ p.jobs ∧ t = Template.ofJob c.defaults p.env id j r := by
  unfold containers at ht
  rw [← List.map_uncurry_zip_eq_zipWith] at ht
  obtain ⟨⟨⟨id, j⟩, r⟩, hmem, rfl⟩ := List.mem_map.1 ht
  exact ⟨id, j, r, (List.of_mem_zip hmem).1, rfl⟩

theorem isContainer_of_mem {t : Template} (ht : t ∈ c.containers p rs) :
    t.container.isSome ∧ t.dag = none := by
  obtain ⟨_, _, _, -, rfl⟩ := exists_of_mem_containers ht
  exact ⟨rfl, rfl⟩

theorem rootTasks_assembled (h : p.HasProperIds) :
    (c.assembled p rs).manifest.rootTasks = p.jobs.map fun e => e.2.task e.1 := by
  have hfirst : (c.assembled p rs).manifest.rootTasks =
      p.jobs.map fun e => DagTask.ofJob (JobGraph.tables p) e.1 := by
    simp [assembled, Manifest.rootTasks, Manifest.template?, Manifest.named, Template.ofDag]
  rw [hfirst]
  exact List.map_congr_left fun e he => DagTask.ofJob_tables h he

/-- The tasks wait for each other as the jobs need each other. -/
theorem dependsOn_assembled (h : p.HasProperIds) {a b : String} :
    (c.assembled p rs).manifest.DependsOn a b ↔ p.Needs a b := by
  unfold Manifest.DependsOn Pipeline.Needs
  rw [rootTasks_assembled h]
  constructor
  · rintro ⟨t, ht, rfl, hb⟩
    obtain ⟨e, he, rfl⟩ := List.mem_map.1 ht
    exact ⟨e.2, he, List.mem_eraseDups.1 hb⟩
  · rintro ⟨j, hj, hb⟩
    exact ⟨j.task a, List.mem_map.2 ⟨(a, j), hj, rfl⟩, rfl, List.mem_eraseDups.2 hb⟩

/-- The root template comes first, and the containers follow it. -/
theorem templates_assembled (h : p.HasProperIds) : (c.assembled p rs).manifest.templates =
    .ofDag rootTemplate (c.assembled p rs).manifest.rootTasks :: c.containers p rs := by
  rw [rootTasks_assembled h, ← List.map_congr_left fun e he => DagTask.ofJob_tables h he]
  rfl

/-- Every template of an assembled manifest is a container or a graph. -/
theorem isProper_of_mem (h : p.HasProperIds) {t : Template}
    (ht : t ∈ (c.assembled p rs).manifest.templates) : t.IsProper := by
  rw [templates_assembled h] at ht
  rcases List.mem_cons.1 ht with rfl | ht
  · simp [Template.IsProper, Template.ofDag]
  · obtain ⟨hcontainer, hdag⟩ := isContainer_of_mem ht
    simp [Template.IsProper, hcontainer, hdag]

theorem names_assembled (h : p.HasProperIds)
    (hrs : List.Forall₂ (fun e r => c.Resolves store e.1 e.2 r) p.jobs rs) :
    (c.assembled p rs).manifest.templates.map Template.name = rootTemplate :: p.ids := by
  rw [templates_assembled h, List.map_cons, names_containers hrs]
  rfl

/-- No two templates have one name, as the ids are proper. -/
theorem nodup_names_assembled (h : p.HasProperIds)
    (hrs : List.Forall₂ (fun e r => c.Resolves store e.1 e.2 r) p.jobs rs) :
    ((c.assembled p rs).manifest.templates.map Template.name).Nodup := by
  rw [names_assembled h hrs]
  exact List.nodup_cons.2 ⟨h.root_not_mem, h.nodup⟩

/-- The task in the place of a job finds the container that is made for this job. -/
theorem exists_template_of_job (h : p.HasProperIds)
    (hrs : List.Forall₂ (fun e r => c.Resolves store e.1 e.2 r) p.jobs rs) {i : Nat} {id : String}
    {j : Job} (hj : p.jobs[i]? = some (id, j)) :
    ∃ task t r, (c.assembled p rs).manifest.rootTasks[i]? = some task ∧
      (c.assembled p rs).manifest.template? task.template = some t ∧
      (c.assembled p rs).manifest.templates[i + 1]? = some t ∧ c.Resolves store id j r ∧
      t = ⟨id, some (r.descriptor.forJob j p.env c.defaults), none, j.deadline⟩ := by
  obtain ⟨r, hr, hi⟩ := containers_getElem? hrs hj
  have hplace : (c.assembled p rs).manifest.templates[i + 1]? =
      some (Template.ofJob c.defaults p.env id j r) := by
    rw [templates_assembled h, List.getElem?_cons_succ, hi]
  refine ⟨j.task id, _, r, ?_, ?_, hplace, hr, rfl⟩
  · rw [rootTasks_assembled h, List.getElem?_map, hj]
    rfl
  · exact Manifest.template?_of_mem (nodup_names_assembled h hrs) (List.mem_of_getElem? hplace)

/-- A task waits only for other tasks. -/
theorem known_of_dependsOn (h : p.IsValid) {a b : String}
    (hab : (c.assembled p rs).manifest.DependsOn a b) :
    b ≠ a ∧ ∃ t ∈ (c.assembled p rs).manifest.rootTasks, t.name = b := by
  rw [dependsOn_assembled h.properIds] at hab
  refine ⟨?_, ?_⟩
  · rintro rfl
    exact h.acyclic ⟨b, .single hab⟩
  · obtain ⟨j, hj, hb⟩ := hab
    obtain ⟨e, he, rfl⟩ := List.mem_map.1 (h.needsKnown _ hj b hb)
    rw [rootTasks_assembled h.properIds]
    exact ⟨e.2.task e.1, List.mem_map.2 ⟨e, he, rfl⟩, rfl⟩

/-- No task of a valid pipeline waits for itself. -/
theorem acyclic_assembled (h : p.IsValid) (a : String) :
    ¬ TransGen (c.assembled p rs).manifest.DependsOn a a := by
  intro ha
  have hle : (c.assembled p rs).manifest.DependsOn ≤ p.Needs :=
    fun x y hxy => (dependsOn_assembled h.properIds).1 hxy
  exact h.acyclic ⟨a, TransGen.mono hle _ _ ha⟩

/-- **What is built is well formed.** Whatever the store answers, a manifest that comes out realizes
the pipeline. -/
theorem realizes_of_build {x : Conversion} (h : c.build store p = .done x) :
    x.manifest.Realizes c store p := by
  obtain ⟨hp, rs, hrs, rfl⟩ := build_eq_done_iff.1 h
  have hids := hp.properIds
  exact {
    entrypoint_eq := rfl
    templates_eq := ⟨_, templates_assembled hids, fun t ht => isContainer_of_mem ht⟩
    names_eq := names_assembled hids hrs
    names_nodup := nodup_names_assembled hids hrs
    isProper := fun t ht => isProper_of_mem hids ht
    rootTasks_eq := rootTasks_assembled hids
    template_of_job := fun i id j hj => exists_template_of_job hids hrs hj
    dependency_known := fun a b hab => known_of_dependsOn hp hab
    acyclic := acyclic_assembled hp }

/-- A job that names its need twice, with a label that leads to an image. -/
theorem realizes_of_build_repeated_need :
    let deploy : Job := { Job.empty with
      needs := some (.several ["build", "build"]), runsOn := some (.label "linux")
      timeoutMinutes := some 5 }
    let p : Pipeline := ⟨"ci", .empty, [("deploy", deploy), ("build", .empty)]⟩
    let store : Store := fun _ _ => .answer (.found "image: alpine".toUTF8.toList)
    ∃ x, standard.build store p = .done x ∧ x.manifest.Realizes standard store p :=
  ⟨_, rfl, realizes_of_build rfl⟩

end Converter

end JobLoom
