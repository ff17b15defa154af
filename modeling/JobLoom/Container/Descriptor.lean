import JobLoom.Dictionary
import JobLoom.Container.Quantity

/-!
# Container descriptors

What a container needs to run: image, command, environment, resources, mounts and what happens when
it starts and stops. Every part may be missing; an empty list or an empty part is the same as a
missing one.
-/

namespace JobLoom

/-- An environment variable. -/
structure EnvVar where
  /-- its name -/
  name : String
  /-- its value -/
  value : String
  deriving DecidableEq, Repr

/-- The resources that a container may use at most, and those that it asks for. -/
structure Resources where
  /-- at most -/
  limits : Dictionary Quantity
  /-- at least -/
  requests : Dictionary Quantity
  deriving DecidableEq

/-- No resources are named. -/
def Resources.empty : Resources := ⟨.empty, .empty⟩

/-- Nothing is said about resources. -/
def Resources.isEmpty (r : Resources) : Bool := r.limits.isEmpty && r.requests.isEmpty

/-- A volume that is mounted into a container. -/
structure VolumeMount where
  /-- the name of the volume -/
  name : String
  /-- where it is mounted -/
  mountPath : String
  /-- nothing may be written to it -/
  readOnly : Bool
  deriving DecidableEq, Repr

/-- A command that is run at some point of the life of a container. -/
structure Handler where
  /-- the words of the command -/
  command : List String
  deriving DecidableEq, Repr

/-- What is run when a container starts and before it stops. -/
structure Lifecycle where
  /-- after the start -/
  postStart : Option Handler
  /-- before the stop -/
  preStop : Option Handler
  deriving DecidableEq, Repr

/-- Nothing is run. -/
def Lifecycle.empty : Lifecycle := ⟨none, none⟩

/-- Nothing is run. -/
def Lifecycle.isEmpty (l : Lifecycle) : Bool := l.postStart.isNone && l.preStop.isNone

/-- What a container needs to run. -/
structure ContainerDescriptor where
  /-- its name -/
  name : Option String
  /-- its image -/
  image : Option String
  /-- when the image is fetched -/
  imagePullPolicy : Option String
  /-- the words of the command that it runs -/
  command : List String
  /-- further words of that command -/
  args : List String
  /-- its environment variables -/
  env : List EnvVar
  /-- its resources -/
  resources : Resources
  /-- its mounts -/
  volumeMounts : List VolumeMount
  /-- what is run when it starts and stops -/
  lifecycle : Lifecycle
  deriving DecidableEq

namespace ContainerDescriptor

/-- A descriptor that says nothing. -/
def empty : ContainerDescriptor := ⟨none, none, none, [], [], [], .empty, [], .empty⟩

/-- There is an image that is not blank. -/
def hasImage (d : ContainerDescriptor) : Bool :=
  match d.image with
  | some i => !Text.isBlankText i
  | none => false

end ContainerDescriptor

end JobLoom
