import JobLoom.Settings.Basic
import JobLoom.Toml.Document

/-!
# Settings in a file

A settings file has the sections `dispatcher`, `store` and `converter`. Every section and every
setting may be left out and then has its usual value; what the file says beyond that is not looked
at. A section may also be written as an array, with its settings in order.
-/

namespace JobLoom

open Toml (Value Fault)

/-- The settings of one section, by name and place. -/
structure Section where
  /-- the value of the setting with a name and a place -/
  value? : String → Nat → Option Value

namespace Section

/-- A section without settings. -/
def empty : Section := ⟨fun _ _ => none⟩

/-- The section with a name, among the entries of a file. -/
def ofEntries (entries : List (String × Value)) (name : String) : Except Fault Section :=
  match entries.lookup name with
  | none => .ok .empty
  | some (.table inner) => .ok ⟨fun key _ => inner.lookup key⟩
  | some (.array items) => .ok ⟨fun _ place => items[place]?⟩
  | some .moment => .ok .empty
  | some _ => .error (.wrongKind name)

/-- A setting that is a number of things. -/
def count (s : Section) (key : String) (place usual : Nat) : Except Fault Nat :=
  match s.value? key place with
  | none => .ok usual
  | some (.integer (.ofNat n)) => .ok n
  | some _ => .error (.wrongKind key)

/-- A setting that is a text, if it is there. -/
def text? (s : Section) (key : String) (place : Nat) : Except Fault (Option String) :=
  match s.value? key place with
  | none => .ok none
  | some (.text t) => .ok (some t)
  | some _ => .error (.wrongKind key)

/-- A setting that is a text. -/
def text (s : Section) (key : String) (place : Nat) (usual : String) : Except Fault String :=
  (s.text? key place).map (·.getD usual)

end Section

namespace Settings

/-- The settings among the entries of a file. -/
def ofEntries (entries : List (String × Value)) : Except Fault Settings := do
  let usual := standard
  let pool ← Section.ofEntries entries "dispatcher"
  let workers ← pool.count "workers" 0 usual.pool.workers
  let capacity ← pool.count "queue_capacity" 1 usual.pool.capacity
  let store ← Section.ofEntries entries "store"
  let space ← store.text "namespace" 0 usual.space
  let dir ← store.text? "dir" 1
  let converter ← Section.ofEntries entries "converter"
  let image ← converter.text "default_image" 0 usual.defaults.image
  let shell ← converter.text "shell" 1 usual.defaults.shell
  return ⟨⟨workers, capacity⟩, space, dir, ⟨image, shell⟩⟩

/-- The settings that a file writes. -/
def ofText (s : String) : Except ConvertError Settings :=
  match Toml.read s >>= ofEntries with
  | .ok settings => .ok settings
  | .error f => .error (.config ("Failed to parse config file: " ++ f.message))

end Settings

end JobLoom
