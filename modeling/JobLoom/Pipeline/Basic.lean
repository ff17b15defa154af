import JobLoom.Dictionary
import JobLoom.Text.Blank

/-!
# Pipelines

A pipeline is what a workflow file describes: jobs in the order of the file, each with shell steps,
the jobs it needs and the runner it asks for. Job ids may repeat here; the job graph refuses that.

* **Runner label.** Of several labels only the first one counts; a group stands in where a runner
  has no labels. A label is trimmed, and a blank one is none.
* **Inline image.** A job may name its image itself; a blank one is none.
-/

namespace JobLoom

/-- One step of a job. A step without commands of its own is an action from elsewhere. -/
structure Step where
  /-- what the step is called -/
  name : Option String
  /-- its shell commands -/
  run : Option String
  /-- the action that it uses -/
  uses : Option String
  deriving DecidableEq, Repr

/-- A step with nothing in it. -/
def Step.empty : Step := ⟨none, none, none⟩

/-- A step that runs commands. -/
def Step.shell (name : Option String) (run : String) : Step := ⟨name, some run, none⟩

/-- The jobs that a job needs, or other texts that may come alone or as a list. -/
inductive Needs where
  /-- one, without a list -/
  | one (id : String)
  /-- a list -/
  | several (ids : List String)
  deriving DecidableEq, Repr

/-- The texts as a list. -/
def Needs.toList : Needs → List String
  | .one id => [id]
  | .several ids => ids

/-- The runner that a job asks for. -/
inductive RunsOn where
  /-- a label -/
  | label (label : String)
  /-- a list of labels -/
  | labels (labels : List String)
  /-- a group and labels within it -/
  | group (group : Option String) (labels : Option Needs)
  deriving DecidableEq, Repr

/-- The first label as it is written; the group counts where there are no labels. -/
def RunsOn.first? : RunsOn → Option String
  | .label l => some l
  | .labels ls => ls.head?
  | .group g ls =>
    match ls.bind fun ls => ls.toList.head? with
    | some l => some l
    | none => g

/-- The label that is looked up. -/
def RunsOn.label? (r : RunsOn) : Option String :=
  (r.first?.map Text.trimmed).filter (· ≠ "")

/-- The container that a job describes itself. -/
inductive InlineContainer where
  /-- an image -/
  | image (image : String)
  /-- an image and environment variables -/
  | spec (image : Option String) (env : Dictionary String)
  deriving DecidableEq

/-- The image, unless it is blank. -/
def InlineContainer.image? (c : InlineContainer) : Option String :=
  let image := match c with
    | .image i => some i
    | .spec i _ => i
  image.filter fun i => !Text.isBlankText i

/-- The environment variables, if the container can have any. -/
def InlineContainer.env? : InlineContainer → Option (Dictionary String)
  | .image _ => none
  | .spec _ env => some env

/-- A job of a pipeline. -/
structure Job where
  /-- what the job is called; this is not its id -/
  name : Option String
  /-- its steps, in order -/
  steps : List Step
  /-- the jobs that have to end before it -/
  needs : Option Needs
  /-- the expression that decides whether it runs -/
  condition : Option String
  /-- the runner that it asks for -/
  runsOn : Option RunsOn
  /-- the container that it describes itself -/
  container : Option InlineContainer
  /-- its environment variables -/
  env : Dictionary String
  /-- how many minutes it may take -/
  timeoutMinutes : Option Nat
  /-- whether the jobs after it run even if it fails -/
  continueOnError : Bool
  deriving DecidableEq

namespace Job

/-- A job with nothing in it. -/
def empty : Job := ⟨none, [], none, none, none, none, .empty, none, false⟩

/-- The ids of the jobs that it needs, as they are written. -/
def needsList (j : Job) : List String :=
  match j.needs with
  | some n => n.toList
  | none => []

/-- The guard expression; without one it is empty. -/
def guard (j : Job) : String := j.condition.getD ""

/-- The label of the runner that it asks for. -/
def label? (j : Job) : Option String := j.runsOn.bind RunsOn.label?

/-- The image that it names itself. -/
def inlineImage? (j : Job) : Option String := j.container.bind InlineContainer.image?

end Job

/-- What a workflow file describes. -/
structure Pipeline where
  /-- its name; it may be empty -/
  name : String
  /-- the environment variables of all its jobs -/
  env : Dictionary String
  /-- the jobs with their ids, in the order of the file -/
  jobs : List (String × Job)
  deriving DecidableEq

namespace Pipeline

/-- The job ids, in the order of the file. -/
def ids (p : Pipeline) : List String := p.jobs.map Prod.fst

/-- The first job with this id. -/
def job? (p : Pipeline) (id : String) : Option Job := p.jobs.lookup id

end Pipeline

end JobLoom
