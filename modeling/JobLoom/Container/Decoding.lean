import JobLoom.Container.Descriptor
import JobLoom.Yaml.Document

/-!
# Decoding container descriptors

A descriptor is decoded field by field, so that an entry with strange or unknown parts still yields
all that is usable in it.

* **Unknown fields** are skipped.
* **Fields of the wrong kind** are left out, and so are list items and map entries.
* **Texts** may carry tags, scalars that are shown as text may not.
* Only a document that is neither a mapping nor empty is refused.
-/

namespace JobLoom

open Yaml

/-- The texts of a list of scalars, or of one scalar. -/
def textList (v : Value) : List String :=
  match v with
  | .sequence items => items.filterMap Value.scalarText?
  | v => v.scalarText?.toList

/-- The environment variable that an item describes: it needs a name, and a value that is no scalar
counts as empty. -/
def EnvVar.ofValue? (v : Value) : Option EnvVar := do
  let name ← (← v.get? "name").asText?
  some ⟨name, ((v.get? "value").bind Value.scalarText?).getD ""⟩

/-- The environment variables of a list. -/
def envOf (v : Value) : List EnvVar :=
  match v.asSequence? with
  | some items => items.filterMap EnvVar.ofValue?
  | none => []

/-- The quantity that an entry gives to a name. -/
def quantityEntry? (e : Value × Value) : Option (String × Quantity) := do
  let name ← e.1.asText?
  let q ← Quantity.parse? (← e.2.scalarText?)
  some (name, q)

/-- The quantities of a mapping. -/
def quantitiesOf (v : Option Value) : Dictionary Quantity :=
  match v.bind Value.asMapping? with
  | some entries => .ofList (entries.filterMap quantityEntry?)
  | none => .empty

/-- The resources that a mapping describes. -/
def Resources.ofMapping (entries : List (Value × Value)) : Resources :=
  ⟨quantitiesOf (Value.lookup "limits" entries), quantitiesOf (Value.lookup "requests" entries)⟩

/-- The text of a field, empty where it is missing. -/
def textField (entries : List (Value × Value)) (name : String) : String :=
  ((Value.lookup name entries).bind Value.asText?).getD ""

/-- The mount that a mapping describes. -/
def VolumeMount.ofMapping (entries : List (Value × Value)) : VolumeMount where
  name := textField entries "name"
  mountPath := textField entries "mountPath"
  readOnly := ((Value.lookup "readOnly" entries).bind Value.asBool?).getD false

/-- The handler that a value describes. -/
def Handler.ofValue? (v : Value) : Option Handler := do
  let command ← (← v.get? "exec").get? "command"
  some ⟨textList command⟩

/-- The lifecycle that a mapping describes. -/
def Lifecycle.ofMapping (entries : List (Value × Value)) : Lifecycle :=
  ⟨(Value.lookup "postStart" entries).bind Handler.ofValue?,
    (Value.lookup "preStop" entries).bind Handler.ofValue?⟩

namespace ContainerDescriptor

/-- Take over one field. -/
def setField (d : ContainerDescriptor) (name : String) (v : Value) : ContainerDescriptor :=
  match name with
  | "name" => { d with name := v.asText? }
  | "image" => { d with image := v.asText? }
  | "imagePullPolicy" => { d with imagePullPolicy := v.asText? }
  | "command" => { d with command := textList v }
  | "args" => { d with args := textList v }
  | "env" => { d with env := envOf v }
  | "resources" =>
    match v.asMapping? with
    | some entries => { d with resources := .ofMapping entries }
    | none => d
  | "volumeMounts" =>
    match v.asSequence? with
    | some items =>
      { d with volumeMounts := (items.filterMap Value.asMapping?).map VolumeMount.ofMapping }
    | none => d
  | "lifecycle" =>
    match v.asMapping? with
    | some entries => { d with lifecycle := .ofMapping entries }
    | none => d
  | _ => d

/-- Take over one entry; keys that are no texts are skipped. -/
def setEntry (d : ContainerDescriptor) (e : Value × Value) : ContainerDescriptor :=
  match e.1.asText? with
  | some name => d.setField name e.2
  | none => d

/-- The descriptor that a mapping describes. -/
def ofMapping (entries : List (Value × Value)) : ContainerDescriptor :=
  entries.foldl setEntry .empty

/-- Why a payload is no descriptor. -/
inductive Refusal where
  /-- the document has a flaw -/
  | flaw (f : Flaw)
  /-- the document is something else than a mapping -/
  | notMapping (v : Value)

/-- The wording for the kind of a value. -/
def kindText : Value → String
  | .null => "null"
  | .boolean _ => "a boolean"
  | .integer _ => "a number"
  | .float _ => "a number"
  | .text _ => "a string"
  | .sequence _ => "a sequence"
  | .mapping _ => "a mapping"
  | .tagged .. => "a tagged value"

/-- The wording of a refusal. -/
def Refusal.message : Refusal → String
  | .flaw f => f.message
  | .notMapping v => "container descriptor must be a mapping, got " ++ kindText v

/-- The descriptor that a value describes. -/
def ofValue (v : Value) : Except Refusal ContainerDescriptor :=
  match v with
  | .mapping entries => .ok (ofMapping entries)
  | .null => .ok .empty
  | v => .error (.notMapping v)

/-- The descriptor that a payload describes; a blank payload describes an empty one. -/
def ofPayload (bytes : List UInt8) : Except Refusal ContainerDescriptor :=
  if bytes.all Text.isBlankByte then .ok .empty
  else match Value.ofBytes bytes with
    | .ok v => ofValue v
    | .error f => .error (.flaw f)

end ContainerDescriptor

end JobLoom
