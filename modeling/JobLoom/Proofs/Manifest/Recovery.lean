import JobLoom.Proofs.Container.Quantity
import JobLoom.Proofs.Conversion.Build
import JobLoom.Proofs.Dictionary
import JobLoom.Proofs.Text.ByteOrder

/-!
# Manifests that are had back

The tree of a manifest leaves out what says nothing, and still tells the manifest in full: a field
that is missing stands for the one value that is left out for it.

* **Fields.** Reading a record asks for its fields by name. A field has to be there, or has an empty
  value that it may be left out for, or none at all.
* **Records.** For each kind of record there is one function that reads it, and one lemma that it
  reads back what was written. A record is read field by field, so the lemmas follow the fields.
* **Texts.** What is written is the tree, in both formats, and nothing can go wrong after the
  manifest has been built. Whoever can read the tree in a text has the manifest.
-/

namespace JobLoom

open JobLoom.Tree

/-! ## Reading trees -/

theorem bind_eq_some_of {α β : Type} {x : Option α} {f : α → Option β} {a : α} {b : β}
    (hx : x = some a) (hf : f a = some b) : x >>= f = some b :=
  Option.bind_eq_some_iff.2 ⟨a, hx, hf⟩

theorem mapM_map_eq_some {α β : Type} {encode : α → β} {decode : β → Option α}
    (h : ∀ a, decode (encode a) = some a) (as : List α) :
    (as.map encode).mapM decode = some as := by
  have hpure : decode ∘ encode = fun a => pure (id a) := funext h
  rw [List.mapM_map, hpure, List.mapM_pure, List.map_id]
  rfl

namespace Tree

variable {α : Type}

/-- The text that a tree is. -/
def text? : Tree → Option String
  | .text s => some s
  | _ => none

/-- The number that a tree is. -/
def number? : Tree → Option Nat
  | .number n => some n
  | _ => none

/-- The truth value that a tree is. -/
def flag? : Tree → Option Bool
  | .flag b => some b
  | _ => none

/-- The items of a list. -/
def items? (decode : Tree → Option α) : Tree → Option (List α)
  | .list ts => ts.mapM decode
  | _ => none

/-- The fields of a record. -/
def fields? : Tree → Option (List (String × Tree))
  | .record fs => some fs
  | _ => none

/-- Read a field that has to be there. -/
def need (decode : Tree → Option α) (name : String) (fs : List (String × Tree)) : Option α :=
  (fs.lookup name).bind decode

/-- Read a field that may be left out for an empty value. -/
def orElse (empty : α) (decode : Tree → Option α) (name : String) (fs : List (String × Tree)) :
    Option α :=
  match fs.lookup name with
  | some t => decode t
  | none => some empty

/-- Read a field that may have no value. -/
def optional (decode : Tree → Option α) (name : String) (fs : List (String × Tree)) :
    Option (Option α) := orElse none (fun t => (decode t).map some) name fs

/-! ## Fields that were written -/

@[simp]
theorem lookup_field (name : String) (t : Tree) (key : String) :
    (field name t).lookup key = if key = name then some t else none :=
  lookup_cons_eq_ite (name, t) [] key

@[simp]
theorem lookup_optionalField (name : String) (encode : α → Tree) (x : Option α) (key : String) :
    (optionalField name encode x).lookup key = if key = name then x.map encode else none := by
  cases x with
  | none => exact (ite_self none).symm
  | some a => exact lookup_cons_eq_ite (name, encode a) [] key

@[simp]
theorem lookup_fieldIf (name : String) (present : Bool) (t : Tree) (key : String) :
    (fieldIf name present t).lookup key =
      if key = name then (if present then some t else none) else none := by
  cases present with
  | false => exact (ite_self none).symm
  | true => exact lookup_cons_eq_ite (name, t) [] key

variable {decode : Tree → Option α} {name : String} {fs : List (String × Tree)}

theorem need_eq_some {t : Tree} {a : α} (h : fs.lookup name = some t) (ht : decode t = some a) :
    need decode name fs = some a := by
  rw [need, h]
  exact ht

/-- A field that is left out for its empty value only is read. -/
theorem orElse_eq_some (present : Bool) (a : α) {t : Tree} {empty : α}
    (h : fs.lookup name = if present then some t else none)
    (ht : present = true → decode t = some a) (hempty : present = false → a = empty) :
    orElse empty decode name fs = some a := by
  cases present with
  | false =>
    rw [orElse, h, hempty rfl]
    rfl
  | true =>
    rw [orElse, h]
    exact ht rfl

theorem optional_eq_some (x : Option α) {encode : α → Tree}
    (h : fs.lookup name = x.map encode) (hencode : ∀ a, decode (encode a) = some a) :
    optional decode name fs = some x := by
  rw [optional, orElse, h]
  cases x with
  | none => rfl
  | some a => exact congrArg (Option.map some) (hencode a)

theorem need_text (s : String) (h : fs.lookup name = some (.text s)) :
    need text? name fs = some s := need_eq_some h rfl

theorem optional_text (x : Option String) (h : fs.lookup name = x.map .text) :
    optional text? name fs = some x := optional_eq_some x h fun _ => rfl

theorem orElse_text (s : String)
    (h : fs.lookup name = if s ≠ "" then some (.text s) else none) :
    orElse "" text? name fs = some s := by
  unfold orElse
  rw [h]
  by_cases hs : s = ""
  · rw [if_neg (not_not_intro hs), hs]
  · rw [if_pos hs]
    rfl

theorem orElse_items (as : List α) {encode : α → Tree}
    (h : fs.lookup name = if !as.isEmpty then some (.list (as.map encode)) else none)
    (hencode : ∀ a, decode (encode a) = some a) :
    orElse [] (items? decode) name fs = some as := by
  refine orElse_eq_some (!as.isEmpty) as h (fun _ => mapM_map_eq_some hencode as) fun habsent => ?_
  simpa using habsent

theorem items?_texts (ss : List String) : items? text? (texts ss) = some ss := by
  have htext (s : String) : text? (.text s) = some s := rfl
  exact mapM_map_eq_some htext ss

theorem orElse_texts (ss : List String)
    (h : fs.lookup name = if !ss.isEmpty then some (texts ss) else none) :
    orElse [] (items? text?) name fs = some ss := by
  have htext (s : String) : text? (.text s) = some s := rfl
  exact orElse_items ss h htext

end Tree

/-! ## Reading the parts of a container -/

/-- Read an environment variable. -/
def EnvVar.ofTree? (t : Tree) : Option EnvVar := do
  let fs ← t.fields?
  let name ← need text? "name" fs
  let value ← need text? "value" fs
  return ⟨name, value⟩

theorem EnvVar.ofTree?_toTree (v : EnvVar) : EnvVar.ofTree? v.toTree = some v := rfl

/-- Read a quantity under its name. -/
def Quantity.ofField? (field : String × Tree) : Option (String × Quantity) := do
  let s ← field.2.text?
  let q ← Quantity.parse? s
  return (field.1, q)

/-- Read some quantities. -/
def quantitiesOfTree? (t : Tree) : Option (Dictionary Quantity) := do
  let fs ← t.fields?
  let es ← fs.mapM Quantity.ofField?
  return .ofList es

theorem quantitiesOfTree?_quantityTree (d : Dictionary Quantity) :
    quantitiesOfTree? (quantityTree d) = some d := by
  have hfield (e : String × Quantity) :
      Quantity.ofField? (e.1, .text e.2.text) = some e :=
    bind_eq_some_of rfl (bind_eq_some_of e.2.parse?_text rfl)
  refine bind_eq_some_of rfl (bind_eq_some_of (mapM_map_eq_some hfield d.entries) ?_)
  exact congrArg some d.ofList_entries

/-- Read resources. -/
def Resources.ofTree? (t : Tree) : Option Resources := do
  let fs ← t.fields?
  let limits ← orElse .empty quantitiesOfTree? "limits" fs
  let requests ← orElse .empty quantitiesOfTree? "requests" fs
  return ⟨limits, requests⟩

theorem orElse_quantities {name : String} {fs : List (String × Tree)} (d : Dictionary Quantity)
    (h : fs.lookup name = if !d.isEmpty then some (quantityTree d) else none) :
    orElse .empty quantitiesOfTree? name fs = some d := by
  refine orElse_eq_some (!d.isEmpty) d h (fun _ => quantitiesOfTree?_quantityTree d) fun habsent =>
    Dictionary.ext ?_
  simpa [Dictionary.isEmpty, Dictionary.empty] using habsent

theorem Resources.ofTree?_toTree (r : Resources) : Resources.ofTree? r.toTree = some r := by
  refine bind_eq_some_of rfl ?_
  refine bind_eq_some_of (orElse_quantities r.limits (by simp [List.lookup_append])) ?_
  refine bind_eq_some_of (orElse_quantities r.requests (by simp [List.lookup_append])) ?_
  rfl

/-- Read a mount. -/
def VolumeMount.ofTree? (t : Tree) : Option VolumeMount := do
  let fs ← t.fields?
  let name ← need text? "name" fs
  let mountPath ← need text? "mountPath" fs
  let readOnly ← orElse false flag? "readOnly" fs
  return ⟨name, mountPath, readOnly⟩

theorem VolumeMount.ofTree?_toTree (m : VolumeMount) : VolumeMount.ofTree? m.toTree = some m := by
  have hflag : m.readOnly = true → flag? (.flag true) = some m.readOnly :=
    fun h => congrArg some h.symm
  refine bind_eq_some_of rfl ?_
  refine bind_eq_some_of (need_text m.name (by simp [List.lookup_append])) ?_
  refine bind_eq_some_of (need_text m.mountPath (by simp [List.lookup_append])) ?_
  refine bind_eq_some_of (orElse_eq_some m.readOnly m.readOnly (by simp [List.lookup_append])
    hflag id) ?_
  rfl

/-- Read a handler. -/
def Handler.ofTree? (t : Tree) : Option Handler := do
  let fs ← t.fields?
  let exec ← need fields? "exec" fs
  let command ← need (items? text?) "command" exec
  return ⟨command⟩

theorem Handler.ofTree?_toTree (h : Handler) : Handler.ofTree? h.toTree = some h :=
  bind_eq_some_of rfl <| bind_eq_some_of rfl <|
    bind_eq_some_of (need_eq_some rfl (items?_texts h.command)) rfl

/-- Read a lifecycle. -/
def Lifecycle.ofTree? (t : Tree) : Option Lifecycle := do
  let fs ← t.fields?
  let postStart ← optional Handler.ofTree? "postStart" fs
  let preStop ← optional Handler.ofTree? "preStop" fs
  return ⟨postStart, preStop⟩

theorem Lifecycle.ofTree?_toTree (l : Lifecycle) : Lifecycle.ofTree? l.toTree = some l := by
  refine bind_eq_some_of rfl ?_
  refine bind_eq_some_of (optional_eq_some l.postStart (by simp [List.lookup_append])
    Handler.ofTree?_toTree) ?_
  refine bind_eq_some_of (optional_eq_some l.preStop (by simp [List.lookup_append])
    Handler.ofTree?_toTree) ?_
  rfl

/-- Resources that are left out are empty. -/
theorem Resources.eq_empty_of_absent {r : Resources} (h : (!r.isEmpty) = false) : r = .empty := by
  obtain ⟨hlimits, hrequests⟩ := Bool.and_eq_true_iff.1 (Bool.not_eq_eq_eq_not.1 h)
  cases r with
  | mk limits requests =>
    rw [Resources.empty, Resources.mk.injEq]
    exact ⟨Dictionary.ext (List.isEmpty_iff.1 hlimits), Dictionary.ext (List.isEmpty_iff.1 hrequests)⟩

theorem Lifecycle.eq_empty_of_absent {l : Lifecycle} (h : (!l.isEmpty) = false) : l = .empty := by
  obtain ⟨hstart, hstop⟩ := Bool.and_eq_true_iff.1 (Bool.not_eq_eq_eq_not.1 h)
  cases l with
  | mk postStart preStop =>
    rw [Lifecycle.empty, Lifecycle.mk.injEq]
    exact ⟨Option.isNone_iff_eq_none.1 hstart, Option.isNone_iff_eq_none.1 hstop⟩

/-- Read a descriptor. -/
def ContainerDescriptor.ofTree? (t : Tree) : Option ContainerDescriptor := do
  let fs ← t.fields?
  let name ← optional text? "name" fs
  let image ← optional text? "image" fs
  let imagePullPolicy ← optional text? "imagePullPolicy" fs
  let command ← orElse [] (items? text?) "command" fs
  let args ← orElse [] (items? text?) "args" fs
  let env ← orElse [] (items? EnvVar.ofTree?) "env" fs
  let resources ← orElse .empty Resources.ofTree? "resources" fs
  let volumeMounts ← orElse [] (items? VolumeMount.ofTree?) "volumeMounts" fs
  let lifecycle ← orElse .empty Lifecycle.ofTree? "lifecycle" fs
  return ⟨name, image, imagePullPolicy, command, args, env, resources, volumeMounts, lifecycle⟩

theorem ContainerDescriptor.ofTree?_toTree (d : ContainerDescriptor) :
    ContainerDescriptor.ofTree? d.toTree = some d := by
  refine bind_eq_some_of rfl ?_
  refine bind_eq_some_of (optional_text d.name (by simp [List.lookup_append])) ?_
  refine bind_eq_some_of (optional_text d.image (by simp [List.lookup_append])) ?_
  refine bind_eq_some_of (optional_text d.imagePullPolicy (by simp [List.lookup_append])) ?_
  refine bind_eq_some_of (orElse_texts d.command (by simp [List.lookup_append])) ?_
  refine bind_eq_some_of (orElse_texts d.args (by simp [List.lookup_append])) ?_
  refine bind_eq_some_of (orElse_items d.env (by simp [List.lookup_append])
    EnvVar.ofTree?_toTree) ?_
  refine bind_eq_some_of (orElse_eq_some (!d.resources.isEmpty) d.resources
    (by simp [List.lookup_append]) (fun _ => d.resources.ofTree?_toTree)
    Resources.eq_empty_of_absent) ?_
  refine bind_eq_some_of (orElse_items d.volumeMounts (by simp [List.lookup_append])
    VolumeMount.ofTree?_toTree) ?_
  refine bind_eq_some_of (orElse_eq_some (!d.lifecycle.isEmpty) d.lifecycle
    (by simp [List.lookup_append]) (fun _ => d.lifecycle.ofTree?_toTree)
    Lifecycle.eq_empty_of_absent) ?_
  rfl

/-! ## Reading manifests -/

/-- Read what happens after a failure. -/
def ContinueOn.ofTree? (t : Tree) : Option ContinueOn := do
  let fs ← t.fields?
  let failed ← need flag? "failed" fs
  return ⟨failed⟩

/-- Read a task. -/
def DagTask.ofTree? (t : Tree) : Option DagTask := do
  let fs ← t.fields?
  let name ← need text? "name" fs
  let template ← need text? "template" fs
  let dependencies ← orElse [] (items? text?) "dependencies" fs
  let condition ← orElse "" text? "when" fs
  let continueOn ← optional ContinueOn.ofTree? "continueOn" fs
  return ⟨name, template, dependencies, condition, continueOn⟩

theorem DagTask.ofTree?_toTree (t : DagTask) : DagTask.ofTree? t.toTree = some t := by
  have hcontinueOn (c : ContinueOn) :
      ContinueOn.ofTree? (.record [("failed", .flag c.failed)]) = some c := rfl
  refine bind_eq_some_of rfl ?_
  refine bind_eq_some_of (need_text t.name (by simp [List.lookup_append])) ?_
  refine bind_eq_some_of (need_text t.template (by simp [List.lookup_append])) ?_
  refine bind_eq_some_of (orElse_texts t.dependencies (by simp [List.lookup_append])) ?_
  refine bind_eq_some_of (orElse_text t.condition (by simp [List.lookup_append])) ?_
  refine bind_eq_some_of (optional_eq_some t.continueOn (by simp [List.lookup_append])
    hcontinueOn) ?_
  rfl

/-- Read the tasks that a template joins. -/
def tasksOfTree? (t : Tree) : Option (List DagTask) := do
  let fs ← t.fields?
  need (items? DagTask.ofTree?) "tasks" fs

/-- Read a template. -/
def Template.ofTree? (t : Tree) : Option Template := do
  let fs ← t.fields?
  let name ← need text? "name" fs
  let container ← optional ContainerDescriptor.ofTree? "container" fs
  let dag ← optional tasksOfTree? "dag" fs
  let deadline ← optional number? "activeDeadlineSeconds" fs
  return ⟨name, container, dag, deadline⟩

theorem Template.ofTree?_toTree (t : Template) : Template.ofTree? t.toTree = some t := by
  have htasks (ts : List DagTask) :
      tasksOfTree? (.record [("tasks", .list (ts.map DagTask.toTree))]) = some ts :=
    bind_eq_some_of rfl (need_eq_some rfl (mapM_map_eq_some DagTask.ofTree?_toTree ts))
  have hnumber (n : Nat) : number? (.number n) = some n := rfl
  refine bind_eq_some_of rfl ?_
  refine bind_eq_some_of (need_text t.name (by simp [List.lookup_append])) ?_
  refine bind_eq_some_of (optional_eq_some t.container (by simp [List.lookup_append])
    ContainerDescriptor.ofTree?_toTree) ?_
  refine bind_eq_some_of (optional_eq_some t.dag (by simp [List.lookup_append]) htasks) ?_
  refine bind_eq_some_of (optional_eq_some t.deadline (by simp [List.lookup_append]) hnumber) ?_
  rfl

namespace Manifest

/-- Read a manifest. -/
def ofTree? (t : Tree) : Option Manifest := do
  let fs ← t.fields?
  let apiVersion ← need text? "apiVersion" fs
  let kind ← need text? "kind" fs
  let metadata ← need fields? "metadata" fs
  let generateName ← need text? "generateName" metadata
  let spec ← need fields? "spec" fs
  let entrypoint ← need text? "entrypoint" spec
  let templates ← need (items? Template.ofTree?) "templates" spec
  return ⟨apiVersion, kind, generateName, entrypoint, templates⟩

theorem ofTree?_toTree (m : Manifest) : ofTree? m.toTree = some m := by
  have htemplates := mapM_map_eq_some Template.ofTree?_toTree m.templates
  refine bind_eq_some_of rfl ?_
  refine bind_eq_some_of (need_eq_some rfl rfl) ?_
  refine bind_eq_some_of (need_eq_some rfl rfl) ?_
  refine bind_eq_some_of (need_eq_some rfl rfl) ?_
  refine bind_eq_some_of (need_eq_some rfl rfl) ?_
  refine bind_eq_some_of (need_eq_some rfl rfl) ?_
  refine bind_eq_some_of (need_eq_some rfl rfl) ?_
  exact bind_eq_some_of (need_eq_some rfl htemplates) rfl

/-- Different manifests have different trees. -/
theorem toTree_injective : Function.Injective toTree := by
  intro m m' h
  have hread := ofTree?_toTree m
  rw [h, ofTree?_toTree] at hread
  exact (Option.some.inj hread).symm

end Manifest

/-! ## Reading documents -/

namespace Tree

mutual

/-- The tree in a document value. -/
def ofValue? : Yaml.Value → Option Tree
  | .boolean b => some (.flag b)
  | .integer n => n.toNat?.map number
  | .text s => some (.text s)
  | .sequence items => (itemsOfValues? items).map list
  | .mapping entries => (fieldsOfEntries? entries).map record
  | _ => none

/-- The trees in document values. -/
def itemsOfValues? : List Yaml.Value → Option (List Tree)
  | [] => some []
  | v :: rest => do return (← ofValue? v) :: (← itemsOfValues? rest)

/-- The fields in the entries of a mapping. -/
def fieldsOfEntries? : List (Yaml.Value × Yaml.Value) → Option (List (String × Tree))
  | [] => some []
  | (.text name, v) :: rest => do return (name, ← ofValue? v) :: (← fieldsOfEntries? rest)
  | _ => none

end

/-- The tree in a document. A document of the other format is one of these, too. -/
def ofDocument? (s : String) : Option Tree :=
  (Yaml.Value.ofBytes (Text.Utf8.encode s)).toOption.bind ofValue?

mutual

/-- The two trees are the same. -/
def same : Tree → Tree → Bool
  | .text s, .text t => s == t
  | .number n, .number k => n == k
  | .flag b, .flag c => b == c
  | .list as, .list bs => sameItems as bs
  | .record as, .record bs => sameFields as bs
  | _, _ => false

/-- The items are the same, one by one. -/
def sameItems : List Tree → List Tree → Bool
  | [], [] => true
  | a :: as, b :: bs => a.same b && sameItems as bs
  | _, _ => false

/-- The fields are the same, one by one. -/
def sameFields : List (String × Tree) → List (String × Tree) → Bool
  | [], [] => true
  | (name, a) :: as, (name', b) :: bs => name == name' && a.same b && sameFields as bs
  | _, _ => false

end

mutual

theorem eq_of_same {a b : Tree} (h : a.same b = true) : a = b := by
  cases a with
  | text s => cases b <;> simp_all [same]
  | number n => cases b <;> simp_all [same]
  | flag c => cases b <;> simp_all [same]
  | list as =>
    cases b with
    | list bs => exact congrArg list (eq_of_sameItems (by simpa only [same] using h))
    | _ => cases h
  | record as =>
    cases b with
    | record bs => exact congrArg record (eq_of_sameFields (by simpa only [same] using h))
    | _ => cases h

theorem eq_of_sameItems {as bs : List Tree} (h : sameItems as bs = true) : as = bs := by
  cases as with
  | nil => cases bs <;> simp_all [sameItems]
  | cons a as =>
    cases bs with
    | nil => cases h
    | cons b bs =>
      obtain ⟨hhead, htail⟩ := Bool.and_eq_true_iff.1 h
      rw [eq_of_same hhead, eq_of_sameItems htail]

theorem eq_of_sameFields {as bs : List (String × Tree)} (h : sameFields as bs = true) :
    as = bs := by
  cases as with
  | nil => cases bs <;> simp_all [sameFields]
  | cons e as =>
    cases bs with
    | nil => cases h
    | cons f bs =>
      obtain ⟨name, a⟩ := e
      obtain ⟨name', b⟩ := f
      obtain ⟨hhead, htail⟩ := Bool.and_eq_true_iff.1 h
      obtain ⟨hname, htree⟩ := Bool.and_eq_true_iff.1 hhead
      rw [eq_of_beq hname, eq_of_same htree, eq_of_sameFields htail]

end

end Tree

/-! ## Writing -/

namespace OutputFormat

/-- The text that a tree is written as. -/
def write : OutputFormat → Tree → String
  | .yaml => Tree.toYaml
  | .json => Tree.toJson

/-- Someone finds this tree in the text that is written for it. -/
def ReadsBack (format : OutputFormat) (read : String → Option Tree) (t : Tree) : Prop :=
  read (format.write t) = some t

end OutputFormat

/-- A pipeline that can be built is converted: writing the manifest does not fail. -/
theorem Converter.convert_of_build {c : Converter} {store : Store} {bytes : List UInt8}
    {p : Pipeline} {x : Conversion} (hp : Pipeline.ofBytes bytes = .ok p)
    (hx : c.build store p = .done x) : c.convert store bytes = .done (x.render c.format) := by
  simp only [convert, hp, hx]

namespace Manifest

/-- What is written for a manifest is its tree, whatever the format. -/
theorem render_eq_write (m : Manifest) (format : OutputFormat) :
    m.render format = format.write m.toTree := by
  cases format <;> rfl

/-- Whoever can read the tree of a manifest has the manifest. -/
theorem bind_render_eq_some {m : Manifest} {format : OutputFormat} {read : String → Option Tree}
    (h : format.ReadsBack read m.toTree) : (read (m.render format)).bind ofTree? = some m := by
  rw [render_eq_write, h]
  exact ofTree?_toTree m

/-- **Writing loses nothing.** Every manifest is had back from its tree by a function that takes a
missing field for its empty value, so no two manifests have the same tree. In both formats it is this
tree that is written; whoever can read it has the manifest, and two manifests whose trees can be read
do not have the same text. A pipeline that can be built is converted, to the text of this tree. -/
theorem writing_loses_nothing :
    (∀ m : Manifest, ofTree? m.toTree = some m) ∧
      (∀ m m' : Manifest, m.toTree = m'.toTree → m = m') ∧
      (∀ (m : Manifest) (format : OutputFormat), m.render format = format.write m.toTree) ∧
      (∀ (m : Manifest) (format : OutputFormat) (read : String → Option Tree),
        format.ReadsBack read m.toTree → (read (m.render format)).bind ofTree? = some m) ∧
      (∀ (m m' : Manifest) (format : OutputFormat) (read : String → Option Tree),
        format.ReadsBack read m.toTree → format.ReadsBack read m'.toTree →
          m.render format = m'.render format → m = m') ∧
      ∀ (c : Converter) (store : Store) (bytes : List UInt8) (p : Pipeline) (x : Conversion),
        Pipeline.ofBytes bytes = .ok p → c.build store p = .done x →
          c.convert store bytes =
            .done ⟨c.format.write x.manifest.toTree, c.format, x.warnings⟩ := by
  refine ⟨ofTree?_toTree, fun m m' h => toTree_injective h, render_eq_write,
    fun m format read h => bind_render_eq_some h, fun m m' format read h h' heq => ?_,
    fun c store bytes p x hp hx => ?_⟩
  · have hread := bind_render_eq_some h
    rw [heq, bind_render_eq_some h'] at hread
    exact (Option.some.inj hread).symm
  · rw [Converter.convert_of_build hp hx, Conversion.render, render_eq_write]

/-- What is found in the characters that are written can be read back. -/
theorem readsBack_of_same {m : Manifest} {format : OutputFormat} {s : List Char}
    (hs : format.write m.toTree = String.ofList s)
    (h : ((Yaml.Value.ofBytes (s.flatMap String.utf8EncodeChar)).toOption.bind Tree.ofValue?).any
      (·.same m.toTree) = true) : format.ReadsBack Tree.ofDocument? m.toTree := by
  unfold OutputFormat.ReadsBack Tree.ofDocument?
  rw [hs, Text.Utf8.encode_eq_flatMap, String.toList_ofList]
  cases hread : (Yaml.Value.ofBytes (s.flatMap String.utf8EncodeChar)).toOption.bind
      Tree.ofValue? with
  | none =>
    rw [hread] at h
    cases h
  | some t =>
    rw [hread] at h
    rw [Tree.eq_of_same h]

/-- A manifest with something in every field, but for texts and lists in it that are empty. Both of
its documents are read back. -/
theorem writing_loses_nothing_full :
    let quantity : Quantity := ⟨"500m", by decide⟩
    let container : ContainerDescriptor := ⟨some "", some "alpine", none, ["sh"], [""],
      [⟨"A", "1"⟩, ⟨"A", ""⟩], ⟨.ofList [("cpu", quantity)], .empty⟩, [⟨"src", "", true⟩],
      ⟨some ⟨[]⟩, none⟩⟩
    let m : Manifest := ⟨"argoproj.io/v1alpha1", "Workflow", "ci-", "main",
      [.ofDag "main" [⟨"a", "a", [], "x == '1'", some ⟨false⟩⟩, ⟨"b", "b", ["a"], "", none⟩],
        .ofContainer "a" container (some 0), .ofContainer "b" .empty none]⟩
    let source := "jobs: {a: {runs-on: gpu}}".toUTF8.toList
    let store : Store := fun _ _ => .answer (.found "image: alpine".toUTF8.toList)
    (∀ format : OutputFormat, format.ReadsBack Tree.ofDocument? m.toTree ∧
        (Tree.ofDocument? (m.render format)).bind ofTree? = some m) ∧
      ∃ p x, Pipeline.ofBytes source = .ok p ∧ Converter.standard.build store p = .done x ∧
        Converter.standard.convert store source =
          .done ⟨x.manifest.toTree.toYaml, .yaml, x.warnings⟩ := by
  intro quantity container m source store
  obtain ⟨-, -, -, hread, -, hconvert⟩ := writing_loses_nothing
  have hyaml : OutputFormat.yaml.ReadsBack Tree.ofDocument? m.toTree :=
    readsBack_of_same rfl (by decide +kernel)
  have hjson : OutputFormat.json.ReadsBack Tree.ofDocument? m.toTree :=
    readsBack_of_same rfl (by decide +kernel)
  have hback (format : OutputFormat) : format.ReadsBack Tree.ofDocument? m.toTree := by
    cases format with
    | yaml => exact hyaml
    | json => exact hjson
  have hchecks : (Plan.ofBytes source).toOption.isSome := by decide +kernel
  refine ⟨fun format => ⟨hback format, hread m format _ (hback format)⟩, ?_⟩
  cases hplan : Plan.ofBytes source with
  | error e =>
    rw [hplan] at hchecks
    cases hchecks
  | ok plan =>
    obtain ⟨p, hp, hplan⟩ := Converter.exists_pipeline_of_plan hplan
    have hsteady : store.IsSteady := fun _ _ => ⟨_, rfl⟩
    obtain ⟨answers, ha⟩ := Converter.standard.exists_ask_eq_ok hsteady plan.keys
    have hx := Converter.build_of_answers hplan ha
    exact ⟨p, _, hp, hx, hconvert Converter.standard store source p _ hp hx⟩

end Manifest

end JobLoom
