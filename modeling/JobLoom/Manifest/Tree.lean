import JobLoom.Manifest.Basic
import JobLoom.Tree.Basic

/-!
# The document of a manifest

The tree that a manifest is written as. Names of several words are joined by capitals, and parts
that say nothing are left out.
-/

namespace JobLoom

open JobLoom.Tree

/-- The tree of an environment variable. -/
def EnvVar.toTree (v : EnvVar) : Tree := .record [("name", .text v.name), ("value", .text v.value)]

/-- The tree of some quantities. -/
def quantityTree (d : Dictionary Quantity) : Tree :=
  .record (d.entries.map fun e => (e.1, .text e.2.text))

/-- The tree of resources. -/
def Resources.toTree (r : Resources) : Tree :=
  .record <|
    fieldIf "limits" (!r.limits.isEmpty) (quantityTree r.limits) ++
    fieldIf "requests" (!r.requests.isEmpty) (quantityTree r.requests)

/-- The tree of a mount. -/
def VolumeMount.toTree (m : VolumeMount) : Tree :=
  .record <|
    field "name" (.text m.name) ++ field "mountPath" (.text m.mountPath) ++
    fieldIf "readOnly" m.readOnly (.flag true)

/-- The tree of a handler. -/
def Handler.toTree (h : Handler) : Tree :=
  .record [("exec", .record [("command", texts h.command)])]

/-- The tree of a lifecycle. -/
def Lifecycle.toTree (l : Lifecycle) : Tree :=
  .record <|
    optionalField "postStart" Handler.toTree l.postStart ++
    optionalField "preStop" Handler.toTree l.preStop

/-- The tree of a descriptor. -/
def ContainerDescriptor.toTree (d : ContainerDescriptor) : Tree :=
  .record <|
    optionalField "name" .text d.name ++
    optionalField "image" .text d.image ++
    optionalField "imagePullPolicy" .text d.imagePullPolicy ++
    fieldIf "command" (!d.command.isEmpty) (texts d.command) ++
    fieldIf "args" (!d.args.isEmpty) (texts d.args) ++
    fieldIf "env" (!d.env.isEmpty) (.list (d.env.map EnvVar.toTree)) ++
    fieldIf "resources" (!d.resources.isEmpty) d.resources.toTree ++
    fieldIf "volumeMounts" (!d.volumeMounts.isEmpty)
      (.list (d.volumeMounts.map VolumeMount.toTree)) ++
    fieldIf "lifecycle" (!d.lifecycle.isEmpty) d.lifecycle.toTree

/-- The tree of a task. -/
def DagTask.toTree (t : DagTask) : Tree :=
  .record <|
    field "name" (.text t.name) ++ field "template" (.text t.template) ++
    fieldIf "dependencies" (!t.dependencies.isEmpty) (texts t.dependencies) ++
    fieldIf "when" (t.condition ≠ "") (.text t.condition) ++
    optionalField "continueOn" (fun c => .record [("failed", .flag c.failed)]) t.continueOn

/-- The tree of a template. -/
def Template.toTree (t : Template) : Tree :=
  .record <|
    field "name" (.text t.name) ++
    optionalField "container" ContainerDescriptor.toTree t.container ++
    optionalField "dag" (fun ts => .record [("tasks", .list (ts.map DagTask.toTree))]) t.dag ++
    optionalField "activeDeadlineSeconds" .number t.deadline

/-- The tree of a manifest. -/
def Manifest.toTree (m : Manifest) : Tree :=
  .record [
    ("apiVersion", .text m.apiVersion),
    ("kind", .text m.kind),
    ("metadata", .record [("generateName", .text m.generateName)]),
    ("spec", .record [
      ("entrypoint", .text m.entrypoint),
      ("templates", .list (m.templates.map Template.toTree))])]

end JobLoom
