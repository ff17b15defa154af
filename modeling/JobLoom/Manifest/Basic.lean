import JobLoom.Container.Descriptor
import JobLoom.Graph.Basic
import JobLoom.Manifest.Name

/-!
# Manifests

A manifest is the resource that runs a pipeline on a cluster: one template for each job and a root
template that joins them to a graph of tasks. A template is a container or a graph.
-/

namespace JobLoom

/-- What happens after a task has failed. -/
structure ContinueOn where
  /-- the tasks after it go on -/
  failed : Bool
  deriving DecidableEq, Repr

/-- A task of a graph. -/
structure DagTask where
  /-- its name -/
  name : String
  /-- the template that it runs -/
  template : String
  /-- the tasks that have to end before it -/
  dependencies : List String
  /-- the expression that decides whether it runs; it may be empty -/
  condition : String
  /-- what happens after it has failed -/
  continueOn : Option ContinueOn
  deriving DecidableEq, Repr

/-- A template of a manifest. -/
structure Template where
  /-- its name -/
  name : String
  /-- the container that it runs -/
  container : Option ContainerDescriptor
  /-- the tasks that it joins -/
  dag : Option (List DagTask)
  /-- after how many seconds it is stopped -/
  deadline : Option Nat
  deriving DecidableEq

/-- A template that runs a container. -/
def Template.ofContainer (name : String) (c : ContainerDescriptor) (deadline : Option Nat) :
    Template := ⟨name, some c, none, deadline⟩

/-- A template that joins tasks. -/
def Template.ofDag (name : String) (tasks : List DagTask) : Template :=
  ⟨name, none, some tasks, none⟩

/-- A resource that runs a pipeline. -/
structure Manifest where
  /-- the version of the resource format -/
  apiVersion : String
  /-- the kind of the resource -/
  kind : String
  /-- the stem of its name -/
  generateName : String
  /-- the template that it starts with -/
  entrypoint : String
  /-- its templates -/
  templates : List Template
  deriving DecidableEq

namespace Manifest

/-- The manifest with these templates, for a pipeline of this name. -/
def named (name : String) (templates : List Template) : Manifest where
  apiVersion := "argoproj.io/v1alpha1"
  kind := "Workflow"
  generateName := JobLoom.generateName name
  entrypoint := rootTemplate
  templates := templates

/-- The first template with this name. -/
def template? (m : Manifest) (name : String) : Option Template :=
  m.templates.find? fun t => t.name = name

/-- The tasks of the root template. -/
def rootTasks (m : Manifest) : List DagTask :=
  ((m.template? rootTemplate).bind Template.dag).getD []

end Manifest

end JobLoom
