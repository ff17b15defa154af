import JobLoom.Proofs.Container.Fields
import JobLoom.Proofs.Manifest.Recovery

/-!
# Descriptors that are had back

The document of a descriptor is decoded to the descriptor itself, although it leaves out what says
nothing and the decoder skips what it does not understand.

* **Values.** A tree stands for a document value in which all keys are texts.
* **Fields.** Under a key stands what the field with that name holds, and nothing where the field is
  left out. The decoder then takes the one value that the field is left out for.
* **Parts** are had back one after the other, the outer ones from the inner ones.
-/

namespace JobLoom

open Yaml JobLoom.Tree

/-! ## The value of a tree -/

namespace Tree

mutual

/-- The document value that a tree stands for. -/
def toValue : Tree → Value
  | .text s => .text s
  | .number n => .integer n
  | .flag b => .boolean b
  | .list items => .sequence (itemValues items)
  | .record fields => .mapping (fieldEntries fields)

/-- The values of the items of a list. -/
def itemValues : List Tree → List Value
  | [] => []
  | t :: rest => t.toValue :: itemValues rest

/-- The entries for the fields of a record. -/
def fieldEntries : List (String × Tree) → List (Value × Value)
  | [] => []
  | f :: rest => fieldEntry f :: fieldEntries rest

/-- The entry for a field. -/
def fieldEntry : String × Tree → Value × Value
  | (name, t) => (.text name, t.toValue)

end

theorem itemValues_eq_map (items : List Tree) : itemValues items = items.map toValue := by
  induction items with
  | nil => rfl
  | cons t rest ih => rw [itemValues, ih, List.map_cons]

theorem fieldEntries_eq_map (fields : List (String × Tree)) :
    fieldEntries fields = fields.map fieldEntry := by
  induction fields with
  | nil => rfl
  | cons f rest ih => rw [fieldEntries, ih, List.map_cons]

@[simp]
theorem filter_field (name : String) (t : Tree) (key : String) :
    (field name t).filter (fun f => f.1 = key) = if name = key then field name t else [] := by
  by_cases h : name = key <;> simp [field, h]

@[simp]
theorem filter_optionalField {α : Type} (name : String) (encode : α → Tree) (x : Option α)
    (key : String) : (optionalField name encode x).filter (fun f => f.1 = key) =
      if name = key then optionalField name encode x else [] := by
  cases x with
  | none => exact (ite_self []).symm
  | some a => exact filter_field name (encode a) key

@[simp]
theorem filter_fieldIf (name : String) (present : Bool) (t : Tree) (key : String) :
    (fieldIf name present t).filter (fun f => f.1 = key) =
      if name = key then fieldIf name present t else [] := by
  cases present with
  | false => exact (ite_self []).symm
  | true => exact filter_field name t key

end Tree

/-- Under a key are the values of the fields with that name. -/
theorem valuesUnder_fieldEntries {keyText? : Value → Option String}
    (hkey : ∀ s, keyText? (.text s) = some s) (key : String) (fs : List (String × Tree)) :
    valuesUnder keyText? key (fieldEntries fs) =
      (fs.filter fun f => f.1 = key).map fun f => f.2.toValue := by
  induction fs with
  | nil => rfl
  | cons f rest ih =>
    obtain ⟨name, t⟩ := f
    rw [fieldEntries]
    by_cases h : name = key
    · have heq : keyText? (fieldEntry (name, t)).1 = some key := (hkey name).trans (congrArg some h)
      rw [valuesUnder_cons_of_eq heq, List.filter_cons_of_pos (by simpa using h), List.map_cons, ih]
      rfl
    · have hne : keyText? (fieldEntry (name, t)).1 ≠ some key := fun heq =>
        h (Option.some.inj ((hkey name).symm.trans heq))
      rw [valuesUnder_cons_of_ne hne, List.filter_cons_of_neg (by simpa using h), ih]

/-- What an inner mapping has under a key is the value of the field with that name. -/
theorem lookup_fieldEntries (key : String) (fs : List (String × Tree)) :
    Value.lookup key (fieldEntries fs) =
      ((fs.filter fun f => f.1 = key).head?).map fun f => f.2.toValue := by
  rw [lookup_eq_head?, valuesUnder_fieldEntries (fun _ => rfl), List.head?_map]

/-! ## The parts of a container -/

theorem EnvVar.ofValue?_toTree (v : EnvVar) : EnvVar.ofValue? v.toTree.toValue = some v := rfl

theorem filterMap_itemValues {α : Type} {encode : α → Tree} {decode : Value → Option α}
    (h : ∀ a, decode (encode a).toValue = some a) (as : List α) :
    (itemValues (as.map encode)).filterMap decode = as := by
  have hcomp : decode ∘ toValue ∘ encode = some := funext h
  rw [itemValues_eq_map, List.map_map, List.filterMap_map, hcomp, List.filterMap_some]

theorem textList_texts (ss : List String) : textList (texts ss).toValue = ss := by
  have hscalar (s : String) : (Tree.text s).toValue.scalarText? = some s := rfl
  exact filterMap_itemValues hscalar ss

theorem quantityEntry?_fieldEntry (e : String × Quantity) :
    quantityEntry? (fieldEntry (e.1, .text e.2.text)) = some e := by
  have hparse := e.2.parse?_text
  rw [fieldEntry, toValue, quantityEntry?]
  simp [Value.asText?, Value.untagged, Value.scalarText?, hparse]

theorem quantitiesOf_quantityTree (d : Dictionary Quantity) :
    quantitiesOf (some (quantityTree d).toValue) = d := by
  have hcomp : Function.comp (Function.comp quantityEntry? fieldEntry)
      (fun e : String × Quantity => (e.1, Tree.text e.2.text)) = some :=
    funext quantityEntry?_fieldEntry
  have hentries : (fieldEntries (d.entries.map fun e => (e.1, .text e.2.text))).filterMap
      quantityEntry? = d.entries := by
    rw [fieldEntries_eq_map, List.filterMap_map, List.filterMap_map, hcomp, List.filterMap_some]
  rw [quantityTree, toValue, quantitiesOf, Option.bind_some, Value.asMapping?, Value.untagged]
  · exact (congrArg Dictionary.ofList hentries).trans d.ofList_entries
  · exact nofun

/-- Quantities that are left out if there are none are had back. -/
theorem quantitiesOf_lookup (name : String) {fs : List (String × Tree)} (d : Dictionary Quantity)
    (h : fs.filter (fun f => f.1 = name) = fieldIf name (!d.isEmpty) (quantityTree d)) :
    quantitiesOf (Value.lookup name (fieldEntries fs)) = d := by
  rw [lookup_fieldEntries, h]
  cases hempty : d.isEmpty with
  | false => exact quantitiesOf_quantityTree d
  | true => exact (Dictionary.ext (List.isEmpty_iff.1 hempty)).symm

theorem Resources.ofMapping_toTree (r : Resources) :
    r.toTree.toValue.asMapping?.map Resources.ofMapping = some r := by
  rw [Resources.toTree, toValue]
  refine congrArg some (congrArg₂ Resources.mk ?_ ?_)
  · exact quantitiesOf_lookup "limits" r.limits (by simp)
  · exact quantitiesOf_lookup "requests" r.requests (by simp)

theorem VolumeMount.ofMapping_toTree (m : VolumeMount) :
    m.toTree.toValue.asMapping?.map VolumeMount.ofMapping = some m := by
  cases m with
  | mk name mountPath readOnly => cases readOnly <;> rfl

theorem mounts_itemValues (ms : List VolumeMount) :
    ((itemValues (ms.map VolumeMount.toTree)).filterMap Value.asMapping?).map
      VolumeMount.ofMapping = ms := by
  rw [List.map_filterMap]
  exact filterMap_itemValues VolumeMount.ofMapping_toTree ms

theorem Handler.ofValue?_toTree (h : Handler) : Handler.ofValue? h.toTree.toValue = some h := by
  have hcommand := textList_texts h.command
  exact congrArg (fun words => some (Handler.mk words)) hcommand

/-- A handler that is left out only if there is none is had back. -/
theorem bind_lookup_handler (name : String) {fs : List (String × Tree)} (x : Option Handler)
    (h : fs.filter (fun f => f.1 = name) = optionalField name Handler.toTree x) :
    (Value.lookup name (fieldEntries fs)).bind Handler.ofValue? = x := by
  rw [lookup_fieldEntries, h]
  cases x with
  | none => rfl
  | some handler => exact handler.ofValue?_toTree

theorem Lifecycle.ofMapping_toTree (l : Lifecycle) :
    l.toTree.toValue.asMapping?.map Lifecycle.ofMapping = some l := by
  rw [Lifecycle.toTree, toValue]
  refine congrArg some (congrArg₂ Lifecycle.mk ?_ ?_)
  · exact bind_lookup_handler "postStart" l.postStart (by simp)
  · exact bind_lookup_handler "preStop" l.preStop (by simp)

namespace ContainerDescriptor

section

variable {d : ContainerDescriptor} {name : String} {fs : List (String × Tree)}

/-- A field has what the last field of a record with its name says. -/
theorem get_ofMapping_fieldEntries (f : Field) (hname : f.key = name) :
    f.get (ofMapping (fieldEntries fs)) =
      ((fs.filter fun g => g.1 = name).filterMap fun g => f.read? g.2.toValue).getLast?.getD
        (f.get .empty) := by
  rw [Field.get_ofMapping, hname, valuesUnder_fieldEntries fun _ => rfl, List.filterMap_map]
  rfl

/-- A field that is left out only if it is missing is had back. -/
theorem get_eq_of_fieldIf (f : Field) (name : String) (hname : f.key = name) (present : Bool)
    (t : Tree) (h : fs.filter (fun g => g.1 = name) = fieldIf name present t)
    (hread : f.read? t.toValue = some (f.get d))
    (habsent : present = false → f.get d = f.get .empty) :
    f.get (ofMapping (fieldEntries fs)) = f.get d := by
  rw [get_ofMapping_fieldEntries f hname, h]
  cases present with
  | false => exact (habsent rfl).symm
  | true => simp [fieldIf, hread]

/-- A field that is left out only if it has no value is had back. -/
theorem get_eq_of_optionalField (f : Field) (name : String) (hname : f.key = name)
    (x : Option String) (h : fs.filter (fun g => g.1 = name) = optionalField name Tree.text x)
    (hread : ∀ s, x = some s → f.read? (.text s) = some (f.get d))
    (habsent : x = none → f.get d = f.get .empty) :
    f.get (ofMapping (fieldEntries fs)) = f.get d := by
  rw [get_ofMapping_fieldEntries f hname, h]
  cases x with
  | none => exact (habsent rfl).symm
  | some s => simp [optionalField, toValue, hread s rfl]

end

theorem eq_nil_of_absent {α : Type} {l : List α} (h : (!l.isEmpty) = false) : l = [] := by
  simpa using h

theorem ofMapping_toTree (d : ContainerDescriptor) :
    d.toTree.toValue.asMapping?.map ofMapping = some d := by
  rw [ContainerDescriptor.toTree, toValue]
  refine congrArg some (Field.ext_get fun f => ?_)
  cases f with
  | name =>
    exact get_eq_of_optionalField .name "name" rfl d.name (by simp)
      (fun _ h => congrArg some h.symm) id
  | image =>
    exact get_eq_of_optionalField .image "image" rfl d.image (by simp)
      (fun _ h => congrArg some h.symm) id
  | imagePullPolicy =>
    exact get_eq_of_optionalField .imagePullPolicy "imagePullPolicy" rfl d.imagePullPolicy (by simp)
      (fun _ h => congrArg some h.symm) id
  | command =>
    exact get_eq_of_fieldIf .command "command" rfl (!d.command.isEmpty) (texts d.command) (by simp)
      (congrArg some (textList_texts d.command)) eq_nil_of_absent
  | args =>
    exact get_eq_of_fieldIf .args "args" rfl (!d.args.isEmpty) (texts d.args) (by simp)
      (congrArg some (textList_texts d.args)) eq_nil_of_absent
  | env =>
    exact get_eq_of_fieldIf .env "env" rfl (!d.env.isEmpty) (.list (d.env.map EnvVar.toTree))
      (by simp) (congrArg some (filterMap_itemValues EnvVar.ofValue?_toTree d.env)) eq_nil_of_absent
  | resources =>
    exact get_eq_of_fieldIf .resources "resources" rfl (!d.resources.isEmpty) d.resources.toTree
      (by simp) d.resources.ofMapping_toTree Resources.eq_empty_of_absent
  | volumeMounts =>
    exact get_eq_of_fieldIf .volumeMounts "volumeMounts" rfl (!d.volumeMounts.isEmpty)
      (.list (d.volumeMounts.map VolumeMount.toTree)) (by simp)
      (congrArg some (mounts_itemValues d.volumeMounts)) eq_nil_of_absent
  | lifecycle =>
    exact get_eq_of_fieldIf .lifecycle "lifecycle" rfl (!d.lifecycle.isEmpty) d.lifecycle.toTree
      (by simp) d.lifecycle.ofMapping_toTree Lifecycle.eq_empty_of_absent

end ContainerDescriptor

end JobLoom
