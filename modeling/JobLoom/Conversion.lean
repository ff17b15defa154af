import JobLoom.Container.Merge
import JobLoom.Environment.Resolve
import JobLoom.Graph.Cycle
import JobLoom.Manifest.Tree
import JobLoom.Pipeline.Reading
import JobLoom.Tree.Json
import JobLoom.Tree.Yaml

/-!
# Conversion

From the text of a workflow file to the text of a manifest.

* **Reading and checking** come first; what fails, fails here, before the store is asked.
* **Lookups.** Every job with a runner label asks the store for one entry; the lookups do not depend
  on each other.
* **Composing** puts the manifest together from the answers, and cannot fail. Each job yields one
  task and one template; the root template with the tasks comes first.
-/

namespace JobLoom

/-! ## Formats -/

/-- The formats that a manifest is written in. -/
inductive OutputFormat where
  /-- block form -/
  | yaml
  /-- indented form -/
  | json
  deriving DecidableEq, Repr

namespace OutputFormat

/-- The extension of files in the format. -/
def extension : OutputFormat → String
  | .yaml => "yaml"
  | .json => "json"

/-- A letter in lower case. -/
def lower (c : Char) : Char := if 'A' ≤ c && c ≤ 'Z' then Char.ofNat (c.toNat + 32) else c

/-- The format with a name; letter case and blanks around it do not count. -/
def parse (s : String) : Except ConvertError OutputFormat :=
  let name := String.ofList ((Text.trim s.toList).map lower)
  if name = "yaml" || name = "yml" then .ok .yaml
  else if name = "json" then .ok .json
  else .error (.config ("unknown output format '" ++ name ++ "' (expected yaml or json)"))

end OutputFormat

/-! ## Reading and checking -/

/-- The pipeline in the bytes of a workflow file. -/
def Pipeline.ofBytes (bytes : List UInt8) : Except ConvertError Pipeline :=
  if bytes.all Text.isBlankByte then .error .emptySource
  else match Pipeline.ofDocument (Yaml.Document.ofBytes bytes) with
    | .ok p => .ok p
    | .error f => .error (.parse f.message)

/-- A pipeline that has passed all checks, with its graph. -/
structure Plan where
  /-- the pipeline -/
  pipeline : Pipeline
  /-- its graph -/
  graph : JobGraph

namespace Plan

/-- Check a pipeline. -/
def ofPipeline (p : Pipeline) : Except ConvertError Plan := do
  let g ← JobGraph.validated p
  return ⟨p, g⟩

/-- Read and check a workflow file. -/
def ofBytes (bytes : List UInt8) : Except ConvertError Plan := do
  ofPipeline (← Pipeline.ofBytes bytes)

/-- The key that each job looks up, if it looks one up. -/
def keys (p : Plan) : List (Option String) := p.pipeline.jobs.map fun e => e.2.label?.map storeKey

end Plan

/-! ## Composing -/

/-- A manifest and the warnings that came up. -/
structure Conversion where
  /-- the manifest -/
  manifest : Manifest
  /-- the warnings, in the order of the jobs -/
  warnings : List Warning
  deriving DecidableEq

/-- A manifest as text. -/
structure Output where
  /-- the text -/
  payload : String
  /-- its format -/
  format : OutputFormat
  /-- the warnings -/
  warnings : List Warning
  deriving DecidableEq

/-- A manifest in a format. -/
def Manifest.render (m : Manifest) : OutputFormat → String
  | .yaml => m.toTree.toYaml
  | .json => m.toTree.toJson

/-- A conversion in a format. -/
def Conversion.render (c : Conversion) (format : OutputFormat) : Output :=
  ⟨c.manifest.render format, format, c.warnings⟩

/-- The longest deadline, in seconds. -/
def longestDeadline : Nat := Nat.pow 2 64 - 1

/-- The task of a job. -/
def DagTask.ofJob (g : JobGraph) (id : String) : DagTask :=
  let e := (g.edges? id).getD .empty
  ⟨id, id, e.dependencies, e.guard, if e.continueOnFailed then some ⟨true⟩ else none⟩

/-- The template of a job, given what its label leads to. -/
def Template.ofJob (defaults : ContainerDefaults) (shared : Dictionary String) (id : String)
    (j : Job) (r : Resolution) : Template :=
  .ofContainer id (r.descriptor.forJob j shared defaults)
    (j.timeoutMinutes.map fun m => min (60 * m) longestDeadline)

/-- What the labels of the jobs lead to, given the answers for them. -/
def Plan.resolutions (p : Plan) (answers : List (Option Answer)) : List Resolution :=
  p.pipeline.jobs.zipWith (fun e a => Resolution.of e.1 e.2.label? a) answers

/-- Put the manifest together. -/
def Plan.compose (p : Plan) (defaults : ContainerDefaults) (answers : List (Option Answer)) :
    Conversion :=
  let rs := p.resolutions answers
  let tasks := p.pipeline.jobs.map fun e => DagTask.ofJob p.graph e.1
  let templates := p.pipeline.jobs.zipWith
    (fun e r => Template.ofJob defaults p.pipeline.env e.1 e.2 r) rs
  { manifest := .named p.pipeline.name (.ofDag rootTemplate tasks :: templates)
    warnings := rs.filterMap Resolution.warning }

/-! ## Converters -/

/-- What all conversions of a service have in common, the store aside. -/
structure Converter where
  /-- the namespace of the entries in the store -/
  space : String
  /-- what all containers have in common -/
  defaults : ContainerDefaults
  /-- the format of the manifests -/
  format : OutputFormat
  deriving DecidableEq, Repr

namespace Converter

/-- A converter with the usual settings. -/
def standard : Converter := ⟨"argo", ⟨"ubuntu:22.04", "/bin/sh"⟩, .yaml⟩

/-- How a conversion that gets past its checks comes out. -/
inductive Outcome (α : Type) where
  /-- with a result -/
  | done (x : α)
  /-- with an error -/
  | failed (e : ConvertError)
  /-- with a crash of the store -/
  | crashed (text : String)

/-- Ask the store for the keys, one after the other, up to the first crash. -/
def ask (c : Converter) (store : Store) (keys : List (Option String)) :
    Except String (List (Option Answer)) :=
  keys.mapM fun key =>
    match key with
    | none => .ok none
    | some key =>
      match store c.space key with
      | .answer a => .ok (some a)
      | .crash text => .error text

/-- Convert a pipeline. -/
def build (c : Converter) (store : Store) (p : Pipeline) : Outcome Conversion :=
  match Plan.ofPipeline p with
  | .error e => .failed e
  | .ok plan =>
    match c.ask store plan.keys with
    | .error text => .crashed text
    | .ok answers => .done (plan.compose c.defaults answers)

/-- Convert a workflow file. -/
def convert (c : Converter) (store : Store) (bytes : List UInt8) : Outcome Output :=
  match Pipeline.ofBytes bytes with
  | .error e => .failed e
  | .ok p =>
    match c.build store p with
    | .failed e => .failed e
    | .crashed text => .crashed text
    | .done x => .done (x.render c.format)

end Converter

end JobLoom
