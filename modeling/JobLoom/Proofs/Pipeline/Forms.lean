import JobLoom.Pipeline.Reading
import JobLoom.Proofs.Yaml.Records

/-!
# Pipelines as records

Steps, jobs and pipelines are read as records of independent slots, and agree where nodes
correspond.

* **Forms.** Each of the three kinds of records has a form with one slot a field. The readers are
  those of the forms.
* **Agreement** goes from the fields up: a step is read alike because its fields are, a job because
  its steps are, a pipeline because its jobs are.
-/

namespace JobLoom

open Yaml

/-! ## Forms -/

/-- The slots of a step. -/
inductive StepSlot where
  /-- the field `name` -/
  | name
  /-- the field `run` -/
  | run
  /-- the field `uses` -/
  | uses

/-- The keys that a step knows. -/
def Step.fieldNames : List String := ["name", "run", "uses"]

/-- How a step is read. -/
def stepForm : RecordForm StepFields where
  Slot := StepSlot
  Content _ := Option String
  names := Step.fieldNames
  slot?
    | "name" => some .name
    | "run" => some .run
    | "uses" => some .uses
    | _ => none
  filled s
    | .name => s.name.isSome
    | .run => s.run.isSome
    | .uses => s.uses.isSome
  set s
    | .name, x => { s with name := some x }
    | .run, x => { s with run := some x }
    | .uses, x => { s with uses := some x }
  read c _ _ path n := readOptionalText c path n
  slot?_eq_none name h := by
    simp only [Step.fieldNames, List.mem_cons, not_or] at h
    split
    · exact absurd rfl h.1
    · exact absurd rfl h.2.1
    · exact absurd rfl h.2.2.1
    · rfl
  filled_set_self s i x := by cases i <;> rfl
  filled_set_of_ne s i j x h := by cases i <;> cases j <;> first | rfl | exact absurd rfl h
  set_comm s i j x y h := by cases i <;> cases j <;> first | rfl | exact absurd rfl h

theorem StepFields.reader_eq (c : Context) : StepFields.reader c = stepForm.reader c := by
  funext s name
  unfold StepFields.reader
  split
  · rfl
  · rfl
  · rfl
  · next hname hrun huses =>
    have hunknown : name ∉ Step.fieldNames := by
      simpa [Step.fieldNames] using ⟨hname, hrun, huses⟩
    rw [RecordForm.reader, stepForm.slot?_eq_none name hunknown]
    rfl

/-- The slots of a job. -/
inductive JobSlot where
  /-- the field `name` -/
  | name
  /-- the field `steps` -/
  | steps
  /-- the field `needs` -/
  | needs
  /-- the field `if` -/
  | condition
  /-- the field `runs-on` -/
  | runsOn
  /-- the field `container` -/
  | container
  /-- the field `env` -/
  | env
  /-- the field `timeout-minutes` -/
  | timeoutMinutes
  /-- the field `continue-on-error` -/
  | continueOnError

/-- What a slot of a job may hold. -/
def JobSlot.Content : JobSlot → Type
  | .name => Option String
  | .steps => List Step
  | .needs => Option Needs
  | .condition => Option String
  | .runsOn => Option RunsOn
  | .container => Option InlineContainer
  | .env => Dictionary String
  | .timeoutMinutes => Option Nat
  | .continueOnError => Bool

/-- The keys that a job knows. -/
def Job.fieldNames : List String :=
  ["name", "steps", "needs", "if", "runs-on", "container", "env", "timeout-minutes",
    "continue-on-error"]

/-- How a job is read. -/
def jobForm : RecordForm JobFields where
  Slot := JobSlot
  Content := JobSlot.Content
  names := Job.fieldNames
  slot?
    | "name" => some .name
    | "steps" => some .steps
    | "needs" => some .needs
    | "if" => some .condition
    | "runs-on" => some .runsOn
    | "container" => some .container
    | "env" => some .env
    | "timeout-minutes" => some .timeoutMinutes
    | "continue-on-error" => some .continueOnError
    | _ => none
  filled s
    | .name => s.name.isSome
    | .steps => s.steps.isSome
    | .needs => s.needs.isSome
    | .condition => s.condition.isSome
    | .runsOn => s.runsOn.isSome
    | .container => s.container.isSome
    | .env => s.env.isSome
    | .timeoutMinutes => s.timeoutMinutes.isSome
    | .continueOnError => s.continueOnError.isSome
  set s
    | .name, x => { s with name := some x }
    | .steps, x => { s with steps := some x }
    | .needs, x => { s with needs := some x }
    | .condition, x => { s with condition := some x }
    | .runsOn, x => { s with runsOn := some x }
    | .container, x => { s with container := some x }
    | .env, x => { s with env := some x }
    | .timeoutMinutes, x => { s with timeoutMinutes := some x }
    | .continueOnError, x => { s with continueOnError := some x }
  read c
    | .name, _, path, n => readOptionalText c path n
    | .steps, d, path, n => readSequence c d path "a sequence" (readStep c) n
    | .needs, d, path, n => readForms "Needs" Needs.ofValue? c d path n
    | .condition, d, path, n => readScalarText c d path n
    | .runsOn, d, path, n => readForms "RunsOn" RunsOn.ofValue? c d path n
    | .container, d, path, n => readForms "InlineContainer" InlineContainer.ofValue? c d path n
    | .env, d, path, n => readVariables c d path n
    | .timeoutMinutes, d, path, n => readCount c d path n
    | .continueOnError, d, path, n => readFlag c d path n
  slot?_eq_none name h := by
    simp only [Job.fieldNames, List.mem_cons, not_or] at h
    obtain ⟨h1, h2, h3, h4, h5, h6, h7, h8, h9, -⟩ := h
    split
    · exact absurd rfl h1
    · exact absurd rfl h2
    · exact absurd rfl h3
    · exact absurd rfl h4
    · exact absurd rfl h5
    · exact absurd rfl h6
    · exact absurd rfl h7
    · exact absurd rfl h8
    · exact absurd rfl h9
    · rfl
  filled_set_self s i x := by cases i <;> rfl
  filled_set_of_ne s i j x h := by cases i <;> cases j <;> first | rfl | exact absurd rfl h
  set_comm s i j x y h := by cases i <;> cases j <;> first | rfl | exact absurd rfl h

theorem JobFields.reader_eq (c : Context) : JobFields.reader c = jobForm.reader c := by
  funext s name
  unfold JobFields.reader
  split
  · rfl
  · rfl
  · rfl
  · rfl
  · rfl
  · rfl
  · rfl
  · rfl
  · rfl
  · next h1 h2 h3 h4 h5 h6 h7 h8 h9 =>
    have hunknown : name ∉ Job.fieldNames := by
      simpa [Job.fieldNames] using ⟨h1, h2, h3, h4, h5, h6, h7, h8, h9⟩
    rw [RecordForm.reader, jobForm.slot?_eq_none name hunknown]
    rfl

/-- The slots of a pipeline. -/
inductive PipelineSlot where
  /-- the field `name` -/
  | name
  /-- the field `env` -/
  | env
  /-- the field `jobs` -/
  | jobs

/-- What a slot of a pipeline may hold. -/
def PipelineSlot.Content : PipelineSlot → Type
  | .name => Option String
  | .env => Dictionary String
  | .jobs => List (String × Job)

/-- The keys that a pipeline knows. -/
def Pipeline.fieldNames : List String := ["name", "env", "jobs"]

/-- How a pipeline is read. -/
def pipelineForm : RecordForm PipelineFields where
  Slot := PipelineSlot
  Content := PipelineSlot.Content
  names := Pipeline.fieldNames
  slot?
    | "name" => some .name
    | "env" => some .env
    | "jobs" => some .jobs
    | _ => none
  filled s
    | .name => s.name.isSome
    | .env => s.env.isSome
    | .jobs => s.jobs.isSome
  set s
    | .name, x => { s with name := some x }
    | .env, x => { s with env := some x }
    | .jobs, x => { s with jobs := some x }
  read c
    | .name, _, path, n => readOptionalText c path n
    | .env, d, path, n => readVariables c d path n
    | .jobs, d, path, n => readJobs c d path n
  slot?_eq_none name h := by
    simp only [Pipeline.fieldNames, List.mem_cons, not_or] at h
    split
    · exact absurd rfl h.1
    · exact absurd rfl h.2.1
    · exact absurd rfl h.2.2.1
    · rfl
  filled_set_self s i x := by cases i <;> rfl
  filled_set_of_ne s i j x h := by cases i <;> cases j <;> first | rfl | exact absurd rfl h
  set_comm s i j x y h := by cases i <;> cases j <;> first | rfl | exact absurd rfl h

theorem PipelineFields.reader_eq (c : Context) : PipelineFields.reader c = pipelineForm.reader c := by
  funext s name
  unfold PipelineFields.reader
  split
  · rfl
  · rfl
  · rfl
  · next hname henv hjobs =>
    have hunknown : name ∉ Pipeline.fieldNames := by
      simpa [Pipeline.fieldNames] using ⟨hname, henv, hjobs⟩
    rw [RecordForm.reader, pipelineForm.slot?_eq_none name hunknown]
    rfl

/-! ## Agreement -/

variable {limited : Prop} {T : Node → Node → Prop} {c c' : Context} {n t : Node}

theorem agrees_readAny (hc : Corresponds c c' limited T) (depth : Nat) (path path' : Yaml.Path)
    (h : T n t) : Agrees limited Eq (readAny c depth path n) (readAny c' depth path' t) :=
  agrees_readOption hc (fun _ _ => agrees_readValue .any hc depth path path') h

theorem agrees_readOptionalText (hc : Corresponds c c' limited T) (path path' : Yaml.Path)
    (h : T n t) :
    Agrees limited Eq (readOptionalText c path n) (readOptionalText c' path' t) :=
  agrees_readOption hc (fun _ _ => agrees_readText hc path path' _ _) h

/-- What is made of values that are read alike is the same. -/
theorem agrees_ofAny {α : Type} (hc : Corresponds c c' limited T) (depth : Nat)
    (path path' : Yaml.Path) (f : Option Value → α) (h : T n t) :
    Agrees limited Eq (do return f (← readAny c depth path n))
      (do return f (← readAny c' depth path' t)) :=
  (agrees_readAny hc depth path path' h).bind fun _ _ hv => .pure (congrArg f hv)

theorem agrees_readVariables (hc : Corresponds c c' limited T) (depth : Nat)
    (path path' : Yaml.Path) (h : T n t) :
    Agrees limited Eq (readVariables c depth path n) (readVariables c' depth path' t) := by
  have hentry (d : Nat) (done : List (String × Value)) (e e' : Node × Node)
      (he : OnEntry T e e') : Agrees limited Eq (readAnyEntry c path d done e.1 e.2)
        (readAnyEntry c' path' d done e'.1 e'.2) := by
    refine (agrees_readText hc path path' _ _ he.1).bind fun k k' hk => ?_
    refine (agrees_readValue .any hc d _ _ he.2).bind fun v v' hv => ?_
    exact .pure (by rw [hk, hv])
  refine (agrees_readOption hc (fun n t hn =>
    agrees_readMapping hc hentry depth path path' _ _ hn) h).bind fun es es' hes => ?_
  exact .pure (by rw [hes])

theorem agrees_readForms {α : Type} (type : String) (f : Value → Option α)
    (hc : Corresponds c c' limited T) (depth : Nat) (path path' : Yaml.Path) (h : T n t) :
    Agrees limited Eq (readForms type f c depth path n) (readForms type f c' depth path' t) := by
  refine agrees_readOption hc (fun n t hn => ?_) h
  refine (agrees_readValue .buffered hc depth path path' hn).bind fun v v' hv => ?_
  subst hv
  cases f v with
  | none => exact .flawed _ _
  | some x => exact .pure rfl

/-! ### Steps -/

theorem readsAlike_stepForm (hc : Corresponds c c' limited T) :
    stepForm.ReadsAlike c c' limited T :=
  fun _ _ p p' _ _ => agrees_readOptionalText hc p p'

theorem agrees_readStep (hc : Corresponds c c' limited T) (depth : Nat) (path path' : Yaml.Path)
    (h : T n t) : Agrees limited Eq (readStep c depth path n) (readStep c' depth path' t) := by
  unfold readStep
  rw [StepFields.reader_eq, StepFields.reader_eq]
  exact ((readsAlike_stepForm hc).readRecord hc depth path path' _ _ h).bind fun _ _ hs =>
    .pure (congrArg StepFields.finish hs)

/-! ### Jobs -/

theorem readsAlike_jobForm (hc : Corresponds c c' limited T) :
    jobForm.ReadsAlike c c' limited T := by
  intro i d p p' n t h
  cases i with
  | name => exact agrees_readOptionalText hc p p' h
  | steps => exact agrees_readSequence hc (fun d p p' _ _ => agrees_readStep hc d p p') d p p' _ h
  | needs => exact agrees_readForms _ _ hc d p p' h
  | condition => exact agrees_ofAny hc d p p' (·.bind Value.scalarText?) h
  | runsOn => exact agrees_readForms _ _ hc d p p' h
  | container => exact agrees_readForms _ _ hc d p p' h
  | env => exact agrees_readVariables hc d p p' h
  | timeoutMinutes => exact agrees_ofAny hc d p p' (·.bind countOf) h
  | continueOnError => exact agrees_ofAny hc d p p' (fun v => (v.map flagOf).getD false) h

theorem agrees_readJob (hc : Corresponds c c' limited T) (depth : Nat) (path path' : Yaml.Path)
    (h : T n t) : Agrees limited Eq (readJob c depth path n) (readJob c' depth path' t) := by
  unfold readJob
  rw [JobFields.reader_eq, JobFields.reader_eq]
  exact ((readsAlike_jobForm hc).readRecord hc depth path path' _ _ h).bind fun _ _ hs =>
    .pure (congrArg JobFields.finish hs)

theorem agrees_readJobEntry (hc : Corresponds c c' limited T) (path path' : Yaml.Path)
    (depth : Nat) (done : List (String × Job)) {e e' : Node × Node} (he : OnEntry T e e') :
    Agrees limited Eq (readJobEntry c path depth done e.1 e.2)
      (readJobEntry c' path' depth done e'.1 e'.2) := by
  refine (agrees_readText hc path path' _ _ he.1).bind fun id id' hid => ?_
  refine (agrees_readOption hc (fun _ _ => agrees_readJob hc depth _ _) he.2).bind
    fun job job' hjob => ?_
  exact .pure (by rw [hid, hjob])

theorem agrees_readJobs (hc : Corresponds c c' limited T) (depth : Nat) (path path' : Yaml.Path)
    (h : T n t) : Agrees limited Eq (readJobs c depth path n) (readJobs c' depth path' t) := by
  refine .located path path' ((hc.follow _ _ h).bind fun m u hm => ?_)
  have htag : tagOf m = tagOf u := by
    cases hm.2 <;> rfl
  dsimp only
  rw [htag]
  split
  · exact .flawed _ _
  · cases hm.2 with
    | mapping tag hentries =>
      exact (Agrees.deeper depth fun d => .foldlM hentries
        (fun done _ _ he => agrees_readJobEntry hc path path' d done he) []).bind
          fun _ _ hdone => .pure (congrArg List.reverse hdone)
    | scalar tag plain text =>
      dsimp only
      split
      · exact .pure rfl
      · exact .wrongKind _ _ _ _ _ _
    | lost => exact .wrongKind _ _ _ _ _ _
    | absent => exact .wrongKind _ _ _ _ _ _
    | sequence tag hitems => exact .wrongKind _ _ _ _ _ _

/-! ### Pipelines -/

theorem readsAlike_pipelineForm (hc : Corresponds c c' limited T) :
    pipelineForm.ReadsAlike c c' limited T := by
  intro i d p p' n t h
  cases i with
  | name => exact agrees_readOptionalText hc p p' h
  | env => exact agrees_readVariables hc d p p' h
  | jobs => exact agrees_readJobs hc d p p' h

theorem agrees_readPipeline (hc : Corresponds c c' limited T) (h : T n t) :
    Agrees limited Eq (readPipeline c n) (readPipeline c' t) := by
  unfold readPipeline
  rw [PipelineFields.reader_eq, PipelineFields.reader_eq]
  exact ((readsAlike_pipelineForm hc).readRecord hc depthLimit [] [] _ _ h).bind fun _ _ hs =>
    .pure (congrArg PipelineFields.finish hs)

end JobLoom
