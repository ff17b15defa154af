import JobLoom.Pipeline.Basic
import JobLoom.Yaml.Document

/-!
# Reading pipelines

From a document to a pipeline. Keys that name no known field are skipped wherever they stand.

* **Jobs** are kept in the order of the document, repeated ids included. A job without content is
  an empty job.
* **Lenient fields.** Environment variables and conditions take any scalar and show it as text;
  other values count as absent. A timeout is a number or its digits, and a truth value may be the
  text `true`; anything else counts as absent.
* **Fields with several forms** are looked at as a whole first. Their texts have to be texts and not
  scalars that stand for something else.
-/

namespace JobLoom

open Yaml

/-! ## Lenient fields -/

/-- Read a value of any kind that may be missing. -/
def readAny (c : Context) (depth : Nat) (path : Path) (n : Node) : Reading (Option Value) :=
  readOption c (readValue .any c depth path) n

/-- Read a text that may be missing. -/
def readOptionalText (c : Context) (path : Path) (n : Node) : Reading (Option String) :=
  readOption c (readText c path "a string") n

/-- Read a scalar of any kind as the text that it is shown as. -/
def readScalarText (c : Context) (depth : Nat) (path : Path) (n : Node) :
    Reading (Option String) := do
  return (← readAny c depth path n).bind Value.scalarText?

/-- Read one entry of a mapping to values of any kind; entries are kept in reverse. -/
def readAnyEntry (c : Context) (path : Path) (depth : Nat) (done : List (String × Value))
    (key value : Node) : Reading (List (String × Value)) := do
  let k ← readText c path "a string" key
  let v ← readValue .any c depth (.ofKey key :: path) value
  return (k, v) :: done

/-- The variables among some entries: of two with one name the last stands, and only scalars
stay. -/
def environment (entries : List (String × Value)) : Dictionary String :=
  (Dictionary.ofList entries).filterMap Value.scalarText?

/-- Read environment variables, or none if they are missing. -/
def readVariables (c : Context) (depth : Nat) (path : Path) (n : Node) :
    Reading (Dictionary String) := do
  let entries ← readOption c (readMapping c depth path "a map" (readAnyEntry c path) []) n
  return environment (entries.getD []).reverse

/-- The count that a value gives, as a number or in digits. -/
def countOf : Value → Option Nat
  | .integer n => if 0 ≤ n then some n.toNat else none
  | .text s => Decimal.readCount (Text.trim s.toList)
  | _ => none

/-- Read a count. -/
def readCount (c : Context) (depth : Nat) (path : Path) (n : Node) : Reading (Option Nat) := do
  return (← readAny c depth path n).bind countOf

/-- The truth value that a value gives, as such or in letters. -/
def flagOf : Value → Bool
  | .boolean b => b
  | .text s => Text.trimmed s = "true"
  | _ => false

/-- Read a truth value. -/
def readFlag (c : Context) (depth : Nat) (path : Path) (n : Node) : Reading Bool := do
  return ((← readAny c depth path n).map flagOf).getD false

/-! ## Fields with several forms -/

/-- The text of a value that is one. -/
def strictText? : Value → Option String
  | .text s => some s
  | _ => none

/-- The texts of a value that is a list of them. -/
def strictTexts? : Value → Option (List String)
  | .sequence items => items.mapM strictText?
  | _ => none

/-- A value that may be missing. -/
def optional? {α : Type} (f : Value → Option α) : Value → Option (Option α)
  | .null => some none
  | v => (f v).map some

/-- The needs that a value gives. -/
def Needs.ofValue? (v : Value) : Option Needs :=
  match strictText? v with
  | some s => some (.one s)
  | none => (strictTexts? v).map .several

/-- The field that a key names among the given ones: by its name, or by its position. Other numbers
and names are skipped, and other keys are refused. -/
def fieldOf? (names : List String) : Value → Option (Option String)
  | .text s => some (if names.contains s then some s else none)
  | .integer n => if 0 ≤ n then some names[n.toNat]? else none
  | _ => none

/-- The values of the named fields; a field that is there twice, or a key that names none, is
refused. -/
def fieldsOf? (names : List String) (entries : List (Value × Value)) :
    Option (List (String × Value)) :=
  entries.foldlM (fun done e =>
    match fieldOf? names e.1 with
    | none => none
    | some none => some done
    | some (some name) => if done.any (·.1 = name) then none else some ((name, e.2) :: done)) []

/-- Read a field out of the given ones; a missing field is like an empty value. -/
def field? {α : Type} (fields : List (String × Value)) (name : String)
    (f : Value → Option (Option α)) : Option (Option α) :=
  match fields.lookup name with
  | some v => f v
  | none => some none

/-- The runner group that a value gives. -/
def RunsOn.groupOf? : Value → Option RunsOn
  | .mapping entries => do
    let fields ← fieldsOf? ["group", "labels"] entries
    let g ← field? fields "group" (optional? strictText?)
    let labels ← field? fields "labels" (optional? Needs.ofValue?)
    some (.group g labels)
  | _ => none

/-- The runner that a value gives. -/
def RunsOn.ofValue? (v : Value) : Option RunsOn :=
  match strictText? v, strictTexts? v with
  | some s, _ => some (.label s)
  | none, some ss => some (.labels ss)
  | none, none => RunsOn.groupOf? v

mutual

/-- No mapping in the value has a key twice. -/
def hasUniqueKeys : Value → Bool
  | .sequence items => haveUniqueKeys items
  | .mapping entries => entriesHaveUniqueKeys entries []
  | .tagged _ v => hasUniqueKeys v
  | _ => true

/-- No mapping in the values has a key twice. -/
def haveUniqueKeys : List Value → Bool
  | [] => true
  | v :: rest => hasUniqueKeys v && haveUniqueKeys rest

/-- No mapping in the entries has a key twice, and no key is among those before. -/
def entriesHaveUniqueKeys : List (Value × Value) → List Value → Bool
  | [], _ => true
  | e :: rest, before => entryHasUniqueKeys e before && entriesHaveUniqueKeys rest (e.1 :: before)

/-- No mapping in the entry has a key twice, and its key is not among those before. -/
def entryHasUniqueKeys : Value × Value → List Value → Bool
  | (k, v), before => hasUniqueKeys k && !before.any k.same && hasUniqueKeys v

end

/-- The variables that a value gives. -/
def variablesOf? : Value → Option (Option (Dictionary String))
  | .null => some none
  | .mapping entries => do
    let es ← entries.mapM fun e => do
      let k ← strictText? e.1
      if hasUniqueKeys e.2 then some (k, e.2) else none
    some (some (environment es))
  | _ => none

/-- The container description that a value gives. -/
def InlineContainer.specOf? : Value → Option InlineContainer
  | .mapping entries => do
    let fields ← fieldsOf? ["image", "env"] entries
    let i ← field? fields "image" (optional? strictText?)
    let env ← field? fields "env" variablesOf?
    some (.spec i (env.getD .empty))
  | _ => none

/-- The container that a value gives. -/
def InlineContainer.ofValue? (v : Value) : Option InlineContainer :=
  match strictText? v with
  | some s => some (.image s)
  | none => InlineContainer.specOf? v

/-- Read a field of several forms that may be missing. -/
def readForms {α : Type} (type : String) (f : Value → Option α) (c : Context) (depth : Nat)
    (path : Path) (n : Node) : Reading (Option α) :=
  readOption c (fun n => do
    match f (← readValue .buffered c depth path n) with
    | some x => pure x
    | none => mismatched (.noForm type)) n

/-! ## Records -/

/-- The fields of a step that have been read. -/
structure StepFields where
  /-- the field `name` -/
  name : Option (Option String)
  /-- the field `run` -/
  run : Option (Option String)
  /-- the field `uses` -/
  uses : Option (Option String)

namespace StepFields

/-- No field yet. -/
def start : StepFields := ⟨none, none, none⟩

/-- How a field of a step is read. -/
def reader (c : Context) (s : StepFields) : String → Option (FieldReader StepFields)
  | "name" => some ⟨s.name.isSome, fun _ path n => do
      return { s with name := some (← readOptionalText c path n) }⟩
  | "run" => some ⟨s.run.isSome, fun _ path n => do
      return { s with run := some (← readOptionalText c path n) }⟩
  | "uses" => some ⟨s.uses.isSome, fun _ path n => do
      return { s with uses := some (← readOptionalText c path n) }⟩
  | _ => none

/-- The step; a field that is not there counts as missing. -/
def finish (s : StepFields) : Step := ⟨s.name.join, s.run.join, s.uses.join⟩

end StepFields

/-- Read a step. -/
def readStep (c : Context) (depth : Nat) (path : Path) (n : Node) : Reading Step := do
  return (← readRecord c depth path "struct Step" (StepFields.reader c) .start n).finish

/-- The fields of a job that have been read. -/
structure JobFields where
  /-- the field `name` -/
  name : Option (Option String)
  /-- the field `steps` -/
  steps : Option (List Step)
  /-- the field `needs` -/
  needs : Option (Option Needs)
  /-- the field `if` -/
  condition : Option (Option String)
  /-- the field `runs-on` -/
  runsOn : Option (Option RunsOn)
  /-- the field `container` -/
  container : Option (Option InlineContainer)
  /-- the field `env` -/
  env : Option (Dictionary String)
  /-- the field `timeout-minutes` -/
  timeoutMinutes : Option (Option Nat)
  /-- the field `continue-on-error` -/
  continueOnError : Option Bool

namespace JobFields

/-- No field yet. -/
def start : JobFields := ⟨none, none, none, none, none, none, none, none, none⟩

/-- How a field of a job is read. -/
def reader (c : Context) (s : JobFields) : String → Option (FieldReader JobFields)
  | "name" => some ⟨s.name.isSome, fun _ path n => do
      return { s with name := some (← readOptionalText c path n) }⟩
  | "steps" => some ⟨s.steps.isSome, fun d path n => do
      return { s with steps := some (← readSequence c d path "a sequence" (readStep c) n) }⟩
  | "needs" => some ⟨s.needs.isSome, fun d path n => do
      return { s with needs := some (← readForms "Needs" Needs.ofValue? c d path n) }⟩
  | "if" => some ⟨s.condition.isSome, fun d path n => do
      return { s with condition := some (← readScalarText c d path n) }⟩
  | "runs-on" => some ⟨s.runsOn.isSome, fun d path n => do
      return { s with runsOn := some (← readForms "RunsOn" RunsOn.ofValue? c d path n) }⟩
  | "container" => some ⟨s.container.isSome, fun d path n => do
      let x ← readForms "InlineContainer" InlineContainer.ofValue? c d path n
      return { s with container := some x }⟩
  | "env" => some ⟨s.env.isSome, fun d path n => do
      return { s with env := some (← readVariables c d path n) }⟩
  | "timeout-minutes" => some ⟨s.timeoutMinutes.isSome, fun d path n => do
      return { s with timeoutMinutes := some (← readCount c d path n) }⟩
  | "continue-on-error" => some ⟨s.continueOnError.isSome, fun d path n => do
      return { s with continueOnError := some (← readFlag c d path n) }⟩
  | _ => none

/-- The job; a field that is not there counts as missing. -/
def finish (s : JobFields) : Job where
  name := s.name.join
  steps := s.steps.getD []
  needs := s.needs.join
  condition := s.condition.join
  runsOn := s.runsOn.join
  container := s.container.join
  env := s.env.getD .empty
  timeoutMinutes := s.timeoutMinutes.join
  continueOnError := s.continueOnError.getD false

end JobFields

/-- Read a job. -/
def readJob (c : Context) (depth : Nat) (path : Path) (n : Node) : Reading Job := do
  return (← readRecord c depth path "struct Job" (JobFields.reader c) .start n).finish

/-- Read one job with its id; jobs are kept in reverse. -/
def readJobEntry (c : Context) (path : Path) (depth : Nat) (done : List (String × Job))
    (key value : Node) : Reading (List (String × Job)) := do
  let id ← readText c path "a string" key
  let job ← readOption c (readJob c depth (.ofKey key :: path)) value
  return (id, job.getD .empty) :: done

/-- What a message says is expected where the jobs stand. -/
def jobsExpected : String := "a mapping of job id to job"

/-- The tag of a node, if it has one. -/
def tagOf : Node → Option String
  | .scalar tag .. => tag
  | .sequence tag _ => tag
  | .mapping tag _ => tag
  | _ => none

/-- Read the jobs. Nothing at all, or a scalar for no value, stands for no jobs. -/
def readJobs (c : Context) (depth : Nat) (path : Path) (n : Node) :
    Reading (List (String × Job)) :=
  located path do
    let n ← follow c n
    if (ownTag (tagOf n)).isSome then mismatched (.kind .tagged jobsExpected)
    match n with
    | .mapping _ entries =>
      let done ← deeper depth fun d =>
        entries.foldlM (fun done e => readJobEntry c path d done e.1 e.2) []
      return done.reverse
    | .scalar tag plain text =>
      match scalarMeaning false tag plain text with
      | .ok .null => return []
      | _ => wrongKind c jobsExpected n
    | n => wrongKind c jobsExpected n

/-- The fields of a pipeline that have been read. -/
structure PipelineFields where
  /-- the field `name` -/
  name : Option (Option String)
  /-- the field `env` -/
  env : Option (Dictionary String)
  /-- the field `jobs` -/
  jobs : Option (List (String × Job))

namespace PipelineFields

/-- No field yet. -/
def start : PipelineFields := ⟨none, none, none⟩

/-- How a field of a pipeline is read. -/
def reader (c : Context) (s : PipelineFields) : String → Option (FieldReader PipelineFields)
  | "name" => some ⟨s.name.isSome, fun _ path n => do
      return { s with name := some (← readOptionalText c path n) }⟩
  | "env" => some ⟨s.env.isSome, fun d path n => do
      return { s with env := some (← readVariables c d path n) }⟩
  | "jobs" => some ⟨s.jobs.isSome, fun d path n => do
      return { s with jobs := some (← readJobs c d path n) }⟩
  | _ => none

/-- The pipeline; a field that is not there counts as missing. -/
def finish (s : PipelineFields) : Pipeline :=
  ⟨s.name.join.getD "", s.env.getD .empty, s.jobs.getD []⟩

end PipelineFields

/-- Read a pipeline from a document tree. -/
def readPipeline (c : Context) (n : Node) : Reading Pipeline := do
  let s ← readRecord c depthLimit [] "struct WorkflowRaw" (PipelineFields.reader c) .start n
  return s.finish

/-- The pipeline in a document. -/
def Pipeline.ofDocument (d : Document) : Except Flaw Pipeline := readDocument readPipeline d

end JobLoom
