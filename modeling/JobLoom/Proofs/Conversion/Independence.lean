import JobLoom.Proofs.Conversion.Order
import JobLoom.Proofs.Manifest.Realization

/-!
# Jobs that do not depend on each other

What a job adds to a conversion is decided by the job, the variables that all jobs share and the
answer for its own key: not by the other jobs and their order, nor by the rest of the store.

* **Parts.** A job adds one task, one template and at most one warning. A conversion has the parts
  of its jobs in the order of the jobs, and nothing else but the root template.
* **Frames.** The store has no say in the root template, the scripts and the deadlines.
-/

namespace JobLoom

/-! ## What a job adds -/

/-- What a job adds to a conversion. -/
structure JobPart where
  /-- its task -/
  task : DagTask
  /-- its template -/
  template : Template
  /-- the warning about it, if there is one -/
  warning : Option Warning

/-- A part bears the id of a job throughout. -/
structure JobPart.IsAbout (part : JobPart) (id : String) : Prop where
  /-- the task does -/
  task_name : part.task.name = id
  /-- the template does -/
  template_name : part.template.name = id
  /-- a warning does -/
  warning_job : ∀ w, part.warning = some w → w.job = id

/-- The answer, unless the store broke down. -/
def Reply.answer? : Reply → Option Answer
  | .answer a => some a
  | .crash _ => none

/-- A warning that comes of a label is about the job with this label. -/
theorem Resolution.job_of_warning {id : String} {label : Option String} {a : Option Answer}
    {w : Warning} (h : (Resolution.of id label a).warning = some w) : w.job = id := by
  cases label with
  | none => cases h; rfl
  | some l =>
    cases a with
    | none => cases h; rfl
    | some a =>
      cases a with
      | missing => cases h; rfl
      | failed e => cases h; rfl
      | found payload =>
        change (Resolution.ofPayload id (storeKey l) payload).warning = some w at h
        unfold Resolution.ofPayload at h
        split at h
        · cases h
        · cases h
          rfl

namespace Converter

/-- What the label of a job leads to, with a store that does not crash. -/
def resolution (c : Converter) (store : Store) (id : String) (j : Job) : Resolution :=
  Resolution.of id j.label? (j.label?.bind fun label => (store c.space (storeKey label)).answer?)

/-- What a job adds, with a store that does not crash. -/
def part (c : Converter) (store : Store) (env : Dictionary String) (e : String × Job) : JobPart :=
  let r := c.resolution store e.1 e.2
  ⟨e.2.task e.1, Template.ofJob c.defaults env e.1 e.2 r, r.warning⟩

variable {c : Converter} {store store' : Store} {env : Dictionary String} {id : String} {j : Job}

theorem eq_resolution {r : Resolution} (h : c.Resolves store id j r) :
    r = c.resolution store id j := by
  obtain ⟨a, ha, rfl⟩ := h
  unfold resolution
  cases hlabel : j.label? with
  | none => rfl
  | some label =>
    rw [hlabel] at ha
    obtain ⟨x, hx, rfl⟩ := ha
    rw [Option.bind_some, hx]
    rfl

/-- Stores that agree on the key of a job lead to the same. -/
theorem resolution_congr (h : ∀ label, j.label? = some label →
    store c.space (storeKey label) = store' c.space (storeKey label)) :
    c.resolution store id j = c.resolution store' id j := by
  unfold resolution
  cases hlabel : j.label? with
  | none => rfl
  | some label => rw [Option.bind_some, Option.bind_some, h label hlabel]

theorem isAbout_part (e : String × Job) : (c.part store env e).IsAbout e.1 where
  task_name := rfl
  template_name := rfl
  warning_job _ hw := Resolution.job_of_warning hw

end Converter

/-! ## What a conversion is made of -/

namespace Conversion

/-- The task of a job. -/
def task? (x : Conversion) (id : String) : Option DagTask :=
  x.manifest.rootTasks.find? fun t => t.name = id

/-- The warnings about a job. -/
def warningsOf (x : Conversion) (id : String) : List Warning :=
  x.warnings.filter fun w => w.job = id

/-- A conversion has the parts of these jobs in their order, and nothing else. -/
structure IsMadeOf (x : Conversion) (jobs : List (String × Job)) (part : String × Job → JobPart) :
    Prop where
  /-- the tasks are joined by the root template, and the other templates follow it -/
  templates_eq : x.manifest.templates =
    .ofDag rootTemplate (jobs.map fun e => (part e).task) :: jobs.map fun e => (part e).template
  /-- the warnings stand in the same order -/
  warnings_eq : x.warnings = jobs.filterMap fun e => (part e).warning
  /-- each part is about its own job -/
  isAbout : ∀ e ∈ jobs, (part e).IsAbout e.1

/-- A conversion has a part for a job: its task and its template are found by the id, and there is
no warning about it but the one of the part. -/
structure Holds (x : Conversion) (id : String) (part : JobPart) : Prop where
  /-- the task -/
  task?_eq : x.task? id = some part.task
  /-- the template -/
  template?_eq : x.manifest.template? id = some part.template
  /-- the warning -/
  warningsOf_eq : x.warningsOf id = part.warning.toList

variable {x : Conversion} {p : Pipeline} {part : String × Job → JobPart} {id : String} {j : Job}

namespace IsMadeOf

theorem rootTasks_eq {jobs : List (String × Job)} (h : x.IsMadeOf jobs part) :
    x.manifest.rootTasks = jobs.map fun e => (part e).task := by
  unfold Manifest.rootTasks Manifest.template?
  rw [h.templates_eq, List.find?_cons_of_pos (by simp [Template.ofDag])]
  rfl

theorem task?_eq (h : x.IsMadeOf p.jobs part) (hids : p.HasProperIds) (hj : (id, j) ∈ p.jobs) :
    x.task? id = some (part (id, j)).task := by
  have hnames : (p.jobs.map fun e => (part e).task).map DagTask.name = p.ids := by
    rw [List.map_map]
    exact List.map_congr_left fun e he => (h.isAbout e he).task_name
  have hfound := find?_of_nodup_map (hnames ▸ hids.nodup) (List.mem_map.2 ⟨_, hj, rfl⟩)
  rw [(h.isAbout _ hj).task_name] at hfound
  unfold task?
  rw [h.rootTasks_eq]
  exact hfound

theorem template?_eq (h : x.IsMadeOf p.jobs part) (hids : p.HasProperIds)
    (hj : (id, j) ∈ p.jobs) : x.manifest.template? id = some (part (id, j)).template := by
  have hnames : x.manifest.templates.map Template.name = rootTemplate :: p.ids := by
    rw [h.templates_eq, List.map_cons, List.map_map]
    exact congrArg _ (List.map_congr_left fun e he => (h.isAbout e he).template_name)
  have hmem : (part (id, j)).template ∈ x.manifest.templates := by
    rw [h.templates_eq]
    exact List.mem_cons_of_mem _ (List.mem_map.2 ⟨_, hj, rfl⟩)
  have hfound := Manifest.template?_of_mem
    (hnames ▸ List.nodup_cons.2 ⟨hids.root_not_mem, hids.nodup⟩) hmem
  rwa [(h.isAbout _ hj).template_name] at hfound

/-- Jobs with other ids have no warnings about this one. -/
theorem filterMap_eq_nil {jobs : List (String × Job)} (h : ∀ e ∈ jobs, (part e).IsAbout e.1)
    (hid : id ∉ jobs.map Prod.fst) :
    jobs.filterMap (fun e => (part e).warning.filter fun w => w.job = id) = [] := by
  refine List.filterMap_eq_nil_iff.2 fun e he => Option.filter_eq_none_iff.2 fun w hw => ?_
  have hne : e.1 ≠ id := fun heq => hid (heq ▸ List.mem_map_of_mem he)
  rw [(h e he).warning_job w hw]
  simpa using hne

/-- A job has the warning that it adds, and no other. -/
theorem warningsOf_eq (h : x.IsMadeOf p.jobs part) (hids : p.HasProperIds)
    (hj : (id, j) ∈ p.jobs) : x.warningsOf id = (part (id, j)).warning.toList := by
  obtain ⟨before, after, hsplit⟩ := List.append_of_mem hj
  have hnodup := hids.nodup
  rw [Pipeline.ids, hsplit, List.map_append, List.map_cons] at hnodup
  have hbefore : id ∉ before.map Prod.fst := fun hmem =>
    (List.nodup_append.1 hnodup).2.2 id hmem id List.mem_cons_self rfl
  have hafter : id ∉ after.map Prod.fst :=
    (List.nodup_cons.1 (List.nodup_append.1 hnodup).2.1).1
  have hisAbout := h.isAbout
  rw [hsplit] at hisAbout
  have hown : (part (id, j)).warning.filter (fun w => w.job = id) = (part (id, j)).warning := by
    cases hw : (part (id, j)).warning with
    | none => rfl
    | some w =>
      rw [Option.filter_some, (h.isAbout _ hj).warning_job w hw]
      simp
  unfold warningsOf
  rw [h.warnings_eq, hsplit, List.filter_filterMap, List.filterMap_append,
    filterMap_eq_nil (fun e he => hisAbout e (List.mem_append_left _ he)) hbefore,
    List.nil_append, List.filterMap_cons, hown,
    filterMap_eq_nil (fun e he => hisAbout e (List.mem_append_right _ (List.mem_cons_of_mem _ he)))
      hafter]
  cases (part (id, j)).warning <;> rfl

/-- A job finds what it adds. -/
theorem holds (h : x.IsMadeOf p.jobs part) (hids : p.HasProperIds) (hj : (id, j) ∈ p.jobs) :
    x.Holds id (part (id, j)) where
  task?_eq := h.task?_eq hids hj
  template?_eq := h.template?_eq hids hj
  warningsOf_eq := h.warningsOf_eq hids hj

end IsMadeOf

end Conversion

namespace Converter

variable {c : Converter} {store store' : Store} {p q : Pipeline}

/-- What the labels of some jobs lead to is had job by job. -/
theorem eq_map_resolution {jobs : List (String × Job)} {rs : List Resolution}
    (h : List.Forall₂ (fun e r => c.Resolves store e.1 e.2 r) jobs rs) :
    rs = jobs.map fun e => c.resolution store e.1 e.2 := by
  refine (List.forall₂_eq_eq_eq ▸ List.forall₂_map_left_iff.2 ?_ :
    jobs.map (fun e => c.resolution store e.1 e.2) = rs).symm
  exact h.imp fun e r hr => (eq_resolution hr).symm

/-- A conversion that is built has the parts of the jobs. -/
theorem isMadeOf_of_build {x : Conversion} (h : c.build store p = .done x) :
    x.IsMadeOf p.jobs (c.part store p.env) := by
  obtain ⟨hp, rs, hrs, rfl⟩ := build_eq_done_iff.1 h
  have hresolution := eq_map_resolution hrs
  refine ⟨?_, ?_, fun e _ => isAbout_part e⟩
  · rw [templates_assembled hp.properIds, rootTasks_assembled hp.properIds, containers,
      hresolution, List.zipWith_map_right, List.zipWith_self]
    rfl
  · rw [assembled, hresolution, List.filterMap_map]
    rfl

end Converter

/-! ## Other orders of the jobs -/

namespace Pipeline

variable {p q : Pipeline}

/-- The checks accept a pipeline. -/
def IsAccepted (p : Pipeline) : Prop := ∃ g, JobGraph.validated p = .ok g

theorem isAccepted_iff : p.IsAccepted ↔ p.IsValid :=
  ⟨fun ⟨_, h⟩ => (JobGraph.validated_eq_ok_iff.1 h).1,
    fun h => ⟨JobGraph.tables p, JobGraph.validated_eq_ok_iff.2 ⟨h, rfl⟩⟩⟩

/-- The order of the jobs does not matter for what they need. -/
theorem needs_of_perm (h : p.jobs.Perm q.jobs) : p.Needs = q.Needs := by
  funext a b
  unfold Needs
  simp only [h.mem_iff]

/-- A valid pipeline is valid in every order of its jobs. -/
theorem IsValid.of_perm (hp : p.IsValid) (h : p.jobs.Perm q.jobs) : q.IsValid := by
  have hids : p.ids.Perm q.ids := h.map Prod.fst
  refine ⟨⟨?_, ?_⟩, ?_, ?_⟩
  · exact fun hmem => hp.properIds.root_not_mem (hids.mem_iff.2 hmem)
  · exact hids.nodup_iff.1 hp.properIds.nodup
  · intro e he n hn
    exact hids.mem_iff.1 (hp.needsKnown e (h.mem_iff.2 he) n hn)
  · unfold IsCyclic
    rw [← needs_of_perm h]
    exact hp.acyclic

/-- The order of the jobs does not matter for whether a pipeline is accepted. -/
theorem isAccepted_iff_of_perm (h : p.jobs.Perm q.jobs) : p.IsAccepted ↔ q.IsAccepted := by
  rw [isAccepted_iff, isAccepted_iff]
  exact ⟨fun hp => hp.of_perm h, fun hq => hq.of_perm h.symm⟩

end Pipeline

/-! ## Other stores -/

/-- A template without what a store has a say in: of its container the command is left. -/
def Template.frame (t : Template) : Template :=
  { t with container := t.container.map fun d =>
      { ContainerDescriptor.empty with command := d.command, args := d.args } }

namespace Conversion.IsMadeOf

variable {x y : Conversion} {c : Converter} {store store' : Store} {p : Pipeline}

/-- With any two stores, the templates of a pipeline have the same frames. -/
theorem frames_eq (hx : x.IsMadeOf p.jobs (c.part store p.env))
    (hy : y.IsMadeOf p.jobs (c.part store' p.env)) :
    x.manifest.templates.map Template.frame = y.manifest.templates.map Template.frame := by
  rw [hx.templates_eq, hy.templates_eq, List.map_cons, List.map_cons, List.map_map, List.map_map]
  rfl

/-- With any two stores, a pipeline has the same root template. -/
theorem root_eq (hx : x.IsMadeOf p.jobs (c.part store p.env))
    (hy : y.IsMadeOf p.jobs (c.part store' p.env)) :
    x.manifest.template? rootTemplate = y.manifest.template? rootTemplate := by
  unfold Manifest.template?
  rw [hx.templates_eq, hy.templates_eq, List.find?_cons_of_pos (by simp [Template.ofDag]),
    List.find?_cons_of_pos (by simp [Template.ofDag])]
  rfl

end Conversion.IsMadeOf

/-! ## Independence -/

namespace Service

variable {s t : Service}

/-- The lookups for a pipeline can be made, and lead to this conversion in every order. -/
def BuildsOnly (s : Service) (p : Pipeline) (x : Conversion) : Prop := ∀ y, s.Builds p y ↔ y = x

/-- Two services have the same answer to the key of a job, if it has one. -/
def AgreesFor (s t : Service) (j : Job) : Prop := ∀ label, j.label? = some label →
  s.store s.converter.space (storeKey label) = t.store s.converter.space (storeKey label)

/-- With a store that does not crash, an accepted pipeline is made of the parts of its jobs. -/
theorem exists_buildsOnly {p : Pipeline} (h : s.store.IsSteady) (hp : p.IsAccepted) :
    ∃ x, s.BuildsOnly p x ∧ x.IsMadeOf p.jobs (s.converter.part s.store p.env) := by
  have hplan := Converter.plan_eq_ok_iff.2 ⟨Pipeline.isAccepted_iff.1 hp, rfl⟩
  obtain ⟨answers, ha⟩ := s.converter.exists_ask_eq_ok h (Plan.keys ⟨p, JobGraph.tables p⟩)
  have hbuild := Converter.build_of_answers hplan ha
  refine ⟨_, fun y => ?_, Converter.isMadeOf_of_build hbuild⟩
  rw [builds_iff, hbuild]
  exact ⟨fun hy => (by cases hy; rfl), fun hy => hy ▸ rfl⟩

/-- **Jobs do not depend on each other.** In any two accepted pipelines with the same shared
variables, with any two services that agree on its key, and in every order of the lookups, a job
gets the same task, the same template and the same warning. Hence another order of the jobs is
accepted just as well and gets the same parts in that order, and another store leaves the root
template, the scripts and the deadlines as they are. -/
theorem jobs_independent (hc : s.converter = t.converter) (hs : s.store.IsSteady)
    (ht : t.store.IsSteady) :
    (∀ (p q : Pipeline) (id : String) (j : Job), p.IsAccepted → q.IsAccepted → p.env = q.env →
      (id, j) ∈ p.jobs → (id, j) ∈ q.jobs → s.AgreesFor t j →
      ∃ x y part, s.BuildsOnly p x ∧ t.BuildsOnly q y ∧ x.Holds id part ∧ y.Holds id part) ∧
    (∀ p q : Pipeline, p.env = q.env → p.jobs.Perm q.jobs →
      (p.IsAccepted ↔ q.IsAccepted) ∧ (p.IsAccepted →
        ∃ x y part, s.BuildsOnly p x ∧ s.BuildsOnly q y ∧
          x.IsMadeOf p.jobs part ∧ y.IsMadeOf q.jobs part)) ∧
    ∀ p : Pipeline, p.IsAccepted →
      ∃ x y, s.BuildsOnly p x ∧ t.BuildsOnly p y ∧
        x.manifest.template? rootTemplate = y.manifest.template? rootTemplate ∧
        x.manifest.templates.map Template.frame = y.manifest.templates.map Template.frame := by
  refine ⟨fun p q id j hp hq henv hpj hqj hagree => ?_, fun p q henv hperm => ?_, fun p hp => ?_⟩
  · obtain ⟨x, hx, hxparts⟩ := exists_buildsOnly hs hp
    obtain ⟨y, hy, hyparts⟩ := exists_buildsOnly ht hq
    have hpart : s.converter.part s.store p.env (id, j) = t.converter.part t.store q.env (id, j) := by
      unfold Converter.part
      rw [henv, Converter.resolution_congr hagree, hc]
    have hxholds := hxparts.holds (Pipeline.isAccepted_iff.1 hp).properIds hpj
    rw [hpart] at hxholds
    exact ⟨x, y, _, hx, hy, hxholds, hyparts.holds (Pipeline.isAccepted_iff.1 hq).properIds hqj⟩
  · refine ⟨Pipeline.isAccepted_iff_of_perm hperm, fun hp => ?_⟩
    obtain ⟨x, hx, hxparts⟩ := exists_buildsOnly hs hp
    obtain ⟨y, hy, hyparts⟩ := exists_buildsOnly hs ((Pipeline.isAccepted_iff_of_perm hperm).1 hp)
    rw [← henv] at hyparts
    exact ⟨x, y, _, hx, hy, hxparts, hyparts⟩
  · obtain ⟨x, hx, hxparts⟩ := exists_buildsOnly hs hp
    obtain ⟨y, hy, hyparts⟩ := exists_buildsOnly ht hp
    rw [← hc] at hyparts
    exact ⟨x, y, hx, hy, hxparts.root_eq hyparts, hxparts.frames_eq hyparts⟩

/-- A job in two pipelines, with a store that has one entry and one that fails elsewhere. -/
theorem jobs_independent_shared_job :
    let deploy : Job := { Job.empty with
      needs := some (.one "build"), runsOn := some (.label "linux"), timeoutMinutes := some 5 }
    let p : Pipeline := ⟨"ci", .empty, [("deploy", deploy), ("build", .empty)]⟩
    let q : Pipeline := ⟨"", .empty, [("test", .empty), ("build", .empty), ("deploy", deploy)]⟩
    let entry : Reply := .answer (.found "image: alpine".toUTF8.toList)
    let s : Service := ⟨.standard, fun _ key => if key = "linux.yaml" then entry else
      .answer .missing, fun _ _ => false⟩
    let t : Service := ⟨.standard, fun space key => if key = "linux.yaml" then entry else
      .answer (.failed (.store space key "refused")), fun _ _ => true⟩
    s.store.IsSteady ∧ t.store.IsSteady ∧ p.IsAccepted ∧ q.IsAccepted ∧
      ("deploy", deploy) ∈ p.jobs ∧ ("deploy", deploy) ∈ q.jobs ∧ s.AgreesFor t deploy ∧
      (∃ x y part, s.BuildsOnly p x ∧ t.BuildsOnly q y ∧ x.Holds "deploy" part ∧
        y.Holds "deploy" part) ∧
      ∃ x y part, s.BuildsOnly p x ∧ s.BuildsOnly ⟨"ci", .empty, p.jobs.reverse⟩ y ∧
        x.IsMadeOf p.jobs part ∧ y.IsMadeOf p.jobs.reverse part := by
  intro deploy p q entry s t
  have hs : s.store.IsSteady := fun _ key => by
    by_cases h : key = "linux.yaml" <;> simp [s, entry, h]
  have ht : t.store.IsSteady := fun _ key => by
    by_cases h : key = "linux.yaml" <;> simp [t, entry, h]
  have hp : p.IsAccepted := ⟨_, rfl⟩
  have hq : q.IsAccepted := ⟨_, rfl⟩
  have hagree : s.AgreesFor t deploy := fun label h => by
    obtain rfl : "linux" = label := by
      have hlabel : deploy.label? = some "linux" := by decide
      rw [hlabel] at h
      exact Option.some.inj h
    rfl
  obtain ⟨hjob, horder, -⟩ := jobs_independent (s := s) (t := t) rfl hs ht
  exact ⟨hs, ht, hp, hq, by decide, by decide, hagree,
    hjob p q "deploy" deploy hp hq rfl (by decide) (by decide) hagree,
    (horder p ⟨"ci", .empty, p.jobs.reverse⟩ rfl (List.reverse_perm _).symm).2 hp⟩

end Service

end JobLoom
