import JobLoom.Decimal.Notation
import JobLoom.Files.Path
import JobLoom.Settings.Basic

/-!
# Layers of settings

Above the file lie the environment and then the command line. A layer replaces the settings that it
gives, each on its own, and leaves the others alone; only the shell comes from the file alone.
-/

namespace JobLoom

/-- A layer of settings. -/
structure Overrides where
  /-- how many conversions are in progress at most -/
  workers : Option Nat
  /-- how many requests wait at most -/
  capacity : Option Nat
  /-- the namespace of the entries in the store -/
  space : Option String
  /-- the directory of the store -/
  storeDir : Option String
  /-- the image of containers without one -/
  image : Option String
  deriving DecidableEq, Repr

namespace Overrides

/-- A layer that gives nothing. -/
def empty : Overrides := ⟨none, none, none, none, none⟩

/-- The variables that count. -/
def names : List String :=
  ["ARGUS_WORKERS", "ARGUS_QUEUE_CAPACITY", "ARGUS_NAMESPACE", "ARGUS_STORE_DIR",
    "ARGUS_DEFAULT_IMAGE"]

/-- The value of a variable, unless it is blank. -/
def visible? (env : String → Option String) (name : String) : Option String :=
  (env name).filter fun v => !Text.isBlankText v

/-- The value of a variable that is a number of things. -/
def count? (env : String → Option String) (name : String) : Except ConvertError (Option Nat) :=
  match visible? env name with
  | none => .ok none
  | some v =>
    match Decimal.readCount (Text.trim v.toList) with
    | some n => .ok (some n)
    | none =>
      .error (.config (name ++ " must be a non-negative integer, got '" ++ v ++ "'"))

/-- The layer that an environment gives. -/
def ofEnvironment (env : String → Option String) : Except ConvertError Overrides := do
  let workers ← count? env "ARGUS_WORKERS"
  let capacity ← count? env "ARGUS_QUEUE_CAPACITY"
  return ⟨workers, capacity, visible? env "ARGUS_NAMESPACE", visible? env "ARGUS_STORE_DIR",
    visible? env "ARGUS_DEFAULT_IMAGE"⟩

end Overrides

namespace Settings

/-- Put a layer on top of settings. -/
def apply (s : Settings) (o : Overrides) : Settings :=
  { pool := ⟨o.workers.getD s.pool.workers, o.capacity.getD s.pool.capacity⟩
    space := o.space.getD s.space
    storeDir := o.storeDir.or s.storeDir
    defaults := { s.defaults with image := o.image.getD s.defaults.image } }

/-- The path of the usual settings file, given where settings are kept and the home directory. -/
def usualPath (configHome home : Option String) : String :=
  let directory := match configHome.filter Path.isAbsolute with
    | some d => d
    | none => ((home.filter fun h => !h.isEmpty).map (Path.join · ".config")).getD "."
  Path.joinAll directory ["argus", "config.toml"]

/-- Settings with the layer of an environment on top. -/
def withEnvironment (s : Settings) (env : String → Option String) :
    Except ConvertError Settings := do
  return s.apply (← Overrides.ofEnvironment env)

/-- The settings of a service: what a file says, the environment and the command line, checked. -/
def ofLayers (file : Settings) (env : String → Option String) (line : Overrides) :
    Except ConvertError Settings := do
  let s := (← file.withEnvironment env).apply line
  s.check
  return s

end Settings

end JobLoom
