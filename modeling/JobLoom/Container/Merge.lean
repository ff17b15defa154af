import JobLoom.Container.Descriptor
import JobLoom.Script

/-!
# The container of a job

A descriptor from the store and the job's own settings make the container that runs the job.

* **Image.** The descriptor's image, else the job's own, else the default one; blank ones do not
  count.
* **Environment.** The job's own container wins over the job, the job over the pipeline, and all of
  them over the descriptor. Of several variables with one name in the descriptor the first one is
  changed; new variables come last, in the order of their names.
* **Command.** The shell runs the script of the job, whatever the descriptor says.
-/

namespace JobLoom

/-- Give a variable a value: change the first one with its name, or add it at the end. -/
def setVariable (env : List EnvVar) (name value : String) : List EnvVar :=
  match env with
  | [] => [⟨name, value⟩]
  | v :: rest =>
    if v.name = name then ⟨name, value⟩ :: rest else v :: setVariable rest name value

/-- The variables that win over those of the descriptor. -/
def Job.overrides (j : Job) (shared : Dictionary String) : Dictionary String :=
  let own := shared.merge j.env
  match j.container.bind InlineContainer.env? with
  | some env => own.merge env
  | none => own

/-- The settings that all containers share. -/
structure ContainerDefaults where
  /-- the image for jobs without one -/
  image : String
  /-- the shell that runs the scripts -/
  shell : String
  deriving DecidableEq, Repr

namespace ContainerDescriptor

/-- The descriptor with an image in any case. -/
def withImage (d : ContainerDescriptor) (j : Job) (defaults : ContainerDefaults) :
    ContainerDescriptor :=
  if d.hasImage then d else { d with image := some (j.inlineImage?.getD defaults.image) }

/-- The descriptor with the given variables. -/
def withVariables (d : ContainerDescriptor) (vars : Dictionary String) : ContainerDescriptor :=
  { d with env := vars.entries.foldl (fun env e => setVariable env e.1 e.2) d.env }

/-- The descriptor with the command that runs the job. -/
def withScript (d : ContainerDescriptor) (j : Job) (defaults : ContainerDefaults) :
    ContainerDescriptor :=
  { d with command := [defaults.shell, "-c"], args := [Script.assemble j.steps] }

/-- The container that runs a job. -/
def forJob (d : ContainerDescriptor) (j : Job) (shared : Dictionary String)
    (defaults : ContainerDefaults) : ContainerDescriptor :=
  ((d.withImage j defaults).withVariables (j.overrides shared)).withScript j defaults

end ContainerDescriptor

end JobLoom
