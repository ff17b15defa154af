import Mathlib.Logic.Relation
import JobLoom.Proofs.Container.Fields

/-!
# Edits of a descriptor that mean nothing

A descriptor document is read at certain places only. What stands elsewhere, and the order in which
things stand in a mapping, has no say in the descriptor.

* **Places** are where a value is read: the document, the values of its known keys, the items and
  entries in them. Each place knows some keys and reads a value for what it says there.
* **Edits** put in or take out an entry with an unknown key, or reorder the entries, at any place.
* **One step.** At every place, what an edit leaves is read as the same, if no known key comes
  twice; and then none does after the edit.
-/

namespace JobLoom

open Yaml

/-! ## Documents whose keys differ -/

/-- The value has no values in it. -/
def Yaml.Value.IsScalar : Value → Prop
  | .sequence _ | .mapping _ | .tagged .. => False
  | _ => True

/-- In no mapping of a value do two keys have the same text, whatever their tags. -/
inductive Yaml.Value.KeysDiffer : Value → Prop where
  /-- there is no mapping in it -/
  | scalar {v : Value} (h : v.IsScalar) : v.KeysDiffer
  /-- the mappings are in the items -/
  | sequence {items : List Value} (h : ∀ v ∈ items, v.KeysDiffer) : (Value.sequence items).KeysDiffer
  /-- this is a mapping, and there are those in its values -/
  | mapping {entries : List (Value × Value)}
    (hkeys : (entries.filterMap fun e => e.1.asText?).Nodup) (h : ∀ e ∈ entries, e.2.KeysDiffer) :
    (Value.mapping entries).KeysDiffer
  /-- the mappings are in what is tagged -/
  | tagged (tag : String) {v : Value} (h : v.KeysDiffer) : (Value.tagged tag v).KeysDiffer

namespace Yaml.Value.KeysDiffer

variable {entries : List (Value × Value)}

theorem mapping_iff : (Value.mapping entries).KeysDiffer ↔
    (entries.filterMap fun e => e.1.asText?).Nodup ∧ ∀ e ∈ entries, e.2.KeysDiffer := by
  refine ⟨fun h => ?_, fun h => .mapping h.1 h.2⟩
  cases h with
  | scalar h => exact h.elim
  | mapping hkeys h => exact ⟨hkeys, h⟩

theorem nodup_keys (h : (Value.mapping entries).KeysDiffer) :
    (entries.filterMap fun e => e.1.asText?).Nodup := (mapping_iff.1 h).1

theorem of_mem (h : (Value.mapping entries).KeysDiffer) {e : Value × Value} (he : e ∈ entries) :
    e.2.KeysDiffer := (mapping_iff.1 h).2 e he

/-- The mapping under some tags is one of the mappings. -/
theorem of_asMapping? {v : Value} (h : v.KeysDiffer) (hv : v.asMapping? = some entries) :
    (Value.mapping entries).KeysDiffer := by
  induction h with
  | @scalar v h => cases v <;> first | exact h.elim | cases hv
  | sequence h ih => cases hv
  | mapping hkeys h ih =>
    cases hv
    exact .mapping hkeys h
  | tagged tag h ih => exact ih hv

end Yaml.Value.KeysDiffer

namespace ContainerDescriptor

/-! ## Places -/

/-- The places of a document at which a value is read. -/
inductive Place where
  /-- the document itself -/
  | descriptor
  /-- the resources -/
  | resources
  /-- the limits or the requests -/
  | quantities
  /-- the environment variables -/
  | env
  /-- an environment variable -/
  | envVar
  /-- the mounts -/
  | volumeMounts
  /-- a mount -/
  | volumeMount
  /-- the lifecycle -/
  | lifecycle
  /-- what is run at the start or before the stop -/
  | handler
  /-- how it is run -/
  | exec
  /-- texts, numbers and truth values, or a list of them -/
  | leaf

/-- The place of the values of a field. -/
def Field.place : Field → Place
  | .name | .image | .imagePullPolicy | .command | .args => .leaf
  | .env => .env
  | .resources => .resources
  | .volumeMounts => .volumeMounts
  | .lifecycle => .lifecycle

namespace Place

/-- The place of the value of a key, if the key is known. -/
def part? : Place → String → Option Place
  | .descriptor, name =>
    match name with
    | "name" | "image" | "imagePullPolicy" | "command" | "args" => some .leaf
    | "env" => some .env
    | "resources" => some .resources
    | "volumeMounts" => some .volumeMounts
    | "lifecycle" => some .lifecycle
    | _ => none
  | .resources, "limits" | .resources, "requests" => some .quantities
  | .quantities, _ => some .leaf
  | .envVar, "name" | .envVar, "value" => some .leaf
  | .volumeMount, "name" | .volumeMount, "mountPath" | .volumeMount, "readOnly" => some .leaf
  | .lifecycle, "postStart" | .lifecycle, "preStop" => some .handler
  | .handler, "exec" => some .exec
  | .exec, "command" => some .leaf
  | _, _ => none

/-- The place of the items of a sequence. -/
def item : Place → Place
  | .env => .envVar
  | .volumeMounts => .volumeMount
  | _ => .leaf

/-- How the keys are read: a tag counts in the inner mappings only, where a key with one is none. -/
def keyText? : Place → Value → Option String
  | .descriptor | .quantities => Value.asText?
  | _ => Value.plainText?

/-- The values that a place has under a key. -/
def valuesAt (p : Place) (name : String) (entries : List (Value × Value)) : List Value :=
  valuesUnder p.keyText? name entries

/-- Two values say the same at a place. -/
def Alike : Place → Value → Value → Prop
  | .descriptor, v, v' => v.asMapping?.map ofMapping = v'.asMapping?.map ofMapping
  | .resources, v, v' =>
    v.asMapping?.map Resources.ofMapping = v'.asMapping?.map Resources.ofMapping
  | .quantities, v, v' => quantitiesOf (some v) = quantitiesOf (some v')
  | .env, v, v' => envOf v = envOf v'
  | .envVar, v, v' => EnvVar.ofValue? v = EnvVar.ofValue? v'
  | .volumeMounts, v, v' =>
    v.asSequence?.map (fun items => (items.filterMap Value.asMapping?).map VolumeMount.ofMapping) =
      v'.asSequence?.map fun items => (items.filterMap Value.asMapping?).map VolumeMount.ofMapping
  | .volumeMount, v, v' =>
    v.asMapping?.map VolumeMount.ofMapping = v'.asMapping?.map VolumeMount.ofMapping
  | .lifecycle, v, v' =>
    v.asMapping?.map Lifecycle.ofMapping = v'.asMapping?.map Lifecycle.ofMapping
  | .handler, v, v' => Handler.ofValue? v = Handler.ofValue? v'
  | .exec, v, v' => (v.get? "command").map textList = (v'.get? "command").map textList
  | .leaf, v, v' => v.asText? = v'.asText? ∧ v.asBool? = v'.asBool? ∧
    v.scalarText? = v'.scalarText? ∧ textList v = textList v'

variable {p q : Place} {name : String} {entries entries' : List (Value × Value)}

theorem asText?_of_keyText? {key : Value} (h : p.keyText? key = some name) :
    key.asText? = some name := by
  have hplain (h : key.plainText? = some name) : key.asText? = some name := by
    rw [Value.plainText?_eq_some_iff.1 h]
    rfl
  cases p <;> first | exact h | exact hplain h

theorem part?_descriptor (f : Field) : Place.descriptor.part? f.key = some f.place := by
  cases f <;> rfl

theorem Alike.refl (p : Place) (v : Value) : p.Alike v v := by
  cases p with
  | leaf => exact ⟨rfl, rfl, rfl, rfl⟩
  | _ => rfl

theorem Alike.trans {v v' v'' : Value} (h : p.Alike v v') (h' : p.Alike v' v'') :
    p.Alike v v'' := by
  cases p with
  | leaf => exact ⟨h.1.trans h'.1, h.2.1.trans h'.2.1, h.2.2.1.trans h'.2.2.1,
      h.2.2.2.trans h'.2.2.2⟩
  | _ => exact Eq.trans h h'

/-- Values that say the same say the same for a field. -/
theorem Alike.read?_eq {f : Field} {v v' : Value} (h : f.place.Alike v v') :
    f.read? v = f.read? v' := by
  cases f with
  | name | image | imagePullPolicy => exact congrArg some h.1
  | command | args => exact congrArg some h.2.2.2
  | env => exact congrArg some h
  | resources | volumeMounts | lifecycle => exact h

theorem filterMap_congr {α : Type} {f : Value → Option α}
    (hf : ∀ v v', q.Alike v v' → f v = f v') {values values' : List Value}
    (h : List.Forall₂ q.Alike values values') : values.filterMap f = values'.filterMap f := by
  induction h with
  | nil => rfl
  | cons h _ ih => rw [List.filterMap_cons, List.filterMap_cons, hf _ _ h, ih]

/-- An inner mapping in which the values under a key say the same is the same for that key. -/
theorem lookup_congr {α : Type} {g : Option Value → α} (hg : ∀ v v', q.Alike v v' →
    g (some v) = g (some v')) (h : List.Forall₂ q.Alike (valuesUnder Value.plainText? name entries)
      (valuesUnder Value.plainText? name entries')) :
    g (Value.lookup name entries) = g (Value.lookup name entries') := by
  rw [lookup_eq_head?, lookup_eq_head?]
  generalize valuesUnder Value.plainText? name entries = values at h ⊢
  generalize valuesUnder Value.plainText? name entries' = values' at h ⊢
  cases h with
  | nil => rfl
  | cons h _ => exact hg _ _ h

/-- Mappings in which the values under all known keys say the same say the same. -/
theorem alike_mapping (h : ∀ name q, p.part? name = some q →
    List.Forall₂ q.Alike (p.valuesAt name entries) (p.valuesAt name entries')) :
    p.Alike (.mapping entries) (.mapping entries') := by
  cases p with
  | descriptor =>
    have hget (f : Field) : f.get (ofMapping entries) = f.get (ofMapping entries') := by
      have hvalues : (valuesUnder Value.asText? f.key entries).filterMap f.read? =
          (valuesUnder Value.asText? f.key entries').filterMap f.read? :=
        filterMap_congr (q := f.place) (fun _ _ hv => hv.read?_eq)
          (h f.key f.place (part?_descriptor f))
      rw [Field.get_ofMapping, Field.get_ofMapping, hvalues]
    exact congrArg some (Field.ext_get hget)
  | resources =>
    have hpart (name : String) (hname : Place.resources.part? name = some .quantities) :
        quantitiesOf (Value.lookup name entries) = quantitiesOf (Value.lookup name entries') :=
      lookup_congr (q := .quantities) (fun _ _ hv => hv) (h name .quantities hname)
    exact congrArg some (congrArg₂ Resources.mk (hpart "limits" rfl) (hpart "requests" rfl))
  | quantities =>
    have hvalues (name : String) :=
      filterMap_congr (q := .leaf) (f := fun v => v.scalarText?.bind Quantity.parse?)
        (fun _ _ hv => congrArg (Option.bind · Quantity.parse?) hv.2.2.1) (h name .leaf rfl)
    refine Dictionary.ext_get? fun name => ?_
    exact get?_ofList_quantities.trans ((congrArg List.getLast? (hvalues name)).trans
      get?_ofList_quantities.symm)
  | env => rfl
  | envVar =>
    have hname := lookup_congr (q := .leaf) (g := (·.bind Value.asText?)) (fun _ _ hv => hv.1)
      (h "name" .leaf rfl)
    have hvalue := lookup_congr (q := .leaf) (g := (·.bind Value.scalarText?))
      (fun _ _ hv => hv.2.2.1) (h "value" .leaf rfl)
    change EnvVar.ofValue? (.mapping entries) = EnvVar.ofValue? (.mapping entries')
    rw [EnvVar.ofValue?_eq, EnvVar.ofValue?_eq]
    exact congrArg₂ (fun x y => Option.map (fun name => EnvVar.mk name (Option.getD y "")) x)
      hname hvalue
  | volumeMounts => rfl
  | volumeMount =>
    have htext (name : String) (hname : Place.volumeMount.part? name = some .leaf) :
        textField entries name = textField entries' name :=
      congrArg (Option.getD · "") (lookup_congr (q := .leaf) (g := (·.bind Value.asText?))
        (fun _ _ hv => hv.1) (h name .leaf hname))
    have hflag := lookup_congr (q := .leaf) (g := (·.bind Value.asBool?)) (fun _ _ hv => hv.2.1)
      (h "readOnly" .leaf rfl)
    change some (VolumeMount.mk _ _ _) = some (VolumeMount.mk _ _ _)
    rw [htext "name" rfl, htext "mountPath" rfl, hflag]
  | lifecycle =>
    have hhandler (name : String) (hname : Place.lifecycle.part? name = some .handler) :
        (Value.lookup name entries).bind Handler.ofValue? =
          (Value.lookup name entries').bind Handler.ofValue? :=
      lookup_congr (q := .handler) (g := (·.bind Handler.ofValue?)) (fun _ _ hv => hv)
        (h name .handler hname)
    exact congrArg some (congrArg₂ Lifecycle.mk (hhandler "postStart" rfl) (hhandler "preStop" rfl))
  | handler =>
    change Handler.ofValue? (.mapping entries) = Handler.ofValue? (.mapping entries')
    rw [Handler.ofValue?_eq, Handler.ofValue?_eq]
    exact lookup_congr (q := .exec)
      (g := (·.bind fun v => ((v.get? "command").map textList).map Handler.mk))
      (fun _ _ hv => congrArg (Option.map Handler.mk) hv) (h "exec" .exec rfl)
  | exec =>
    exact lookup_congr (q := .leaf) (g := (·.map textList)) (fun _ _ hv => congrArg some hv.2.2.2)
      (h "command" .leaf rfl)
  | leaf => exact ⟨rfl, rfl, rfl, rfl⟩

/-- Sequences in which one item has changed for one that says the same say the same. -/
theorem Alike.sequence {v v' : Value} (h : p.item.Alike v v') (before after : List Value) :
    p.Alike (.sequence (before ++ v :: after)) (.sequence (before ++ v' :: after)) := by
  have hitems {α : Type} {f : Value → Option α} (hf : f v = f v') :
      (before ++ v :: after).filterMap f = (before ++ v' :: after).filterMap f := by
    rw [List.filterMap_append, List.filterMap_append, List.filterMap_cons, List.filterMap_cons, hf]
  cases p with
  | env => exact hitems h
  | volumeMounts =>
    refine congrArg some ?_
    change List.map _ _ = List.map _ _
    rw [List.map_filterMap, List.map_filterMap]
    exact hitems h
  | leaf => exact ⟨rfl, rfl, rfl, hitems h.2.2.1⟩
  | _ => rfl

theorem Alike.tagged {v v' : Value} (h : p.Alike v v') (tag : String) :
    p.Alike (.tagged tag v) (.tagged tag v') := by
  cases p with
  | leaf => exact ⟨h.1, h.2.1, rfl, rfl⟩
  | _ => exact h

end Place

/-! ## Edits -/

/-- Edits at a place that mean nothing. -/
inductive Edit : Place → Value → Value → Prop where
  /-- put in an entry whose key is unknown or no text -/
  | insert {p : Place} (before after : List (Value × Value)) {key : Value} (v : Value)
    (h : ∀ name, key.asText? = some name → p.part? name = none) :
    Edit p (.mapping (before ++ after)) (.mapping (before ++ (key, v) :: after))
  /-- take out such an entry -/
  | delete {p : Place} (before after : List (Value × Value)) {key : Value} (v : Value)
    (h : ∀ name, key.asText? = some name → p.part? name = none) :
    Edit p (.mapping (before ++ (key, v) :: after)) (.mapping (before ++ after))
  /-- reorder the entries -/
  | reorder {p : Place} {entries entries' : List (Value × Value)} (h : entries.Perm entries') :
    Edit p (.mapping entries) (.mapping entries')
  /-- in the value of a known key -/
  | entry {p q : Place} (before after : List (Value × Value)) {key : Value} {name : String}
    (hkey : key.asText? = some name) (hpart : p.part? name = some q) {v v' : Value}
    (h : Edit q v v') :
    Edit p (.mapping (before ++ (key, v) :: after)) (.mapping (before ++ (key, v') :: after))
  /-- in an item of a sequence -/
  | item {p : Place} (before after : List Value) {v v' : Value} (h : Edit p.item v v') :
    Edit p (.sequence (before ++ v :: after)) (.sequence (before ++ v' :: after))
  /-- in what is tagged -/
  | tagged {p : Place} (tag : String) {v v' : Value} (h : Edit p v v') :
    Edit p (.tagged tag v) (.tagged tag v')

/-- No known key comes twice at a place, or at the places within it. -/
inductive IsClear : Place → Value → Prop where
  /-- there are no keys -/
  | scalar {p : Place} {v : Value} (h : v.IsScalar) : IsClear p v
  /-- the keys are in the items -/
  | sequence {p : Place} {items : List Value} (h : ∀ v ∈ items, IsClear p.item v) :
    IsClear p (.sequence items)
  /-- there are keys here and in the values of known ones -/
  | mapping {p : Place} {entries : List (Value × Value)}
    (hone : ∀ name q, p.part? name = some q → (p.valuesAt name entries).length ≤ 1)
    (h : ∀ name q, p.part? name = some q → ∀ v ∈ p.valuesAt name entries, IsClear q v) :
    IsClear p (.mapping entries)
  /-- the keys are in what is tagged -/
  | tagged {p : Place} (tag : String) {v : Value} (h : IsClear p v) : IsClear p (.tagged tag v)

variable {p q : Place} {v v' : Value} {entries entries' : List (Value × Value)}

/-- Where keys differ, no known key comes twice. -/
theorem isClear_of_keysDiffer (h : v.KeysDiffer) (p : Place) : IsClear p v := by
  induction h generalizing p with
  | scalar h => exact .scalar h
  | sequence h ih => exact .sequence fun v hv => ih v hv p.item
  | mapping hkeys h ih =>
    refine .mapping (fun name q hq => length_valuesUnder_le_one name
      (fun _ => Place.asText?_of_keyText?) hkeys) fun name q hq v hv => ?_
    obtain ⟨key, hmem, -⟩ := mem_valuesUnder_iff.1 hv
    exact ih _ hmem q
  | tagged tag h ih => exact .tagged tag (ih p)

/-- What an edit leaves is clear and says the same. -/
def Keeps (p : Place) (v v' : Value) : Prop := IsClear p v → IsClear p v' ∧ p.Alike v v'

theorem Keeps.refl (p : Place) (v : Value) : Keeps p v v := fun h => ⟨h, .refl p v⟩

theorem forall₂_keeps_of_eq {values values' : List Value} (h : values = values') :
    List.Forall₂ (Keeps p) values values' :=
  h ▸ List.forall₂_same.2 fun v _ => .refl p v

/-- It is enough to look at the values under the known keys. -/
theorem keeps_mapping (h : IsClear p (.mapping entries) → ∀ name q, p.part? name = some q →
    List.Forall₂ (Keeps q) (p.valuesAt name entries) (p.valuesAt name entries')) :
    Keeps p (.mapping entries) (.mapping entries') := by
  intro hclear
  cases hclear with
  | scalar h => exact h.elim
  | mapping hone hvalues =>
    have hstep (name : String) (q : Place) (hq : p.part? name = some q) :
        List.Forall₂ (fun v v' => IsClear q v' ∧ q.Alike v v') (p.valuesAt name entries)
          (p.valuesAt name entries') :=
      ((List.forall₂_and_left _ _).2 ⟨hvalues name q hq, h (.mapping hone hvalues) name q hq⟩).imp
        fun _ _ hv => hv.2 hv.1
    refine ⟨.mapping (fun name q hq => ?_) fun name q hq v' hv' => ?_,
      Place.alike_mapping fun name q hq => (hstep name q hq).imp fun _ _ hv => hv.2⟩
    · exact (hstep name q hq).length_eq ▸ hone name q hq
    · exact ((List.forall₂_and_left _ _).1 (hstep name q hq).flip).1 v' hv'

/-- An entry whose key is unknown gives no values. -/
theorem valuesAt_middle_of_unknown {key : Value}
    (h : ∀ name, key.asText? = some name → p.part? name = none) {name : String}
    (hq : p.part? name = some q) (v : Value) (before after : List (Value × Value)) :
    p.valuesAt name (before ++ (key, v) :: after) = p.valuesAt name (before ++ after) := by
  have hkey : p.keyText? key ≠ some name := fun heq => by
    rw [h name (Place.asText?_of_keyText? heq)] at hq
    cases hq
  rw [Place.valuesAt, Place.valuesAt, valuesUnder_append, valuesUnder_append,
    valuesUnder_cons_of_ne hkey]

/-- There is one order only for one value at most. -/
theorem eq_of_perm_of_length_le_one {values values' : List Value} (h : values.Perm values')
    (hone : values.length ≤ 1) : values = values' := by
  match values, hone with
  | [], _ => exact h.nil_eq
  | [v], _ => exact List.singleton_perm.1 h

theorem Edit.keeps (h : Edit p v v') : Keeps p v v' := by
  induction h with
  | insert before after v h =>
    exact keeps_mapping fun _ name q hq =>
      forall₂_keeps_of_eq (valuesAt_middle_of_unknown h hq v before after).symm
  | delete before after v h =>
    exact keeps_mapping fun _ name q hq =>
      forall₂_keeps_of_eq (valuesAt_middle_of_unknown h hq v before after)
  | @reorder p entries entries' h =>
    refine keeps_mapping fun hclear name q hq => ?_
    cases hclear with
    | scalar h => exact h.elim
    | mapping hone hvalues =>
      have hperm : (p.valuesAt name entries).Perm (p.valuesAt name entries') :=
        (h.filter _).map _
      exact forall₂_keeps_of_eq (eq_of_perm_of_length_le_one hperm (hone name q hq))
  | @entry p q before after key name hkey hpart v v' h ih =>
    refine keeps_mapping fun _ name' q' hq' => ?_
    have hsame (es : List (Value × Value)) :
        List.Forall₂ (Keeps q') (p.valuesAt name' es) (p.valuesAt name' es) :=
      forall₂_keeps_of_eq rfl
    rw [Place.valuesAt, Place.valuesAt, valuesUnder_append, valuesUnder_append]
    refine List.rel_append (hsame before) ?_
    by_cases hname : p.keyText? key = some name'
    · -- this is the key that is asked for
      have heq : some name = some name' := hkey.symm.trans (Place.asText?_of_keyText? hname)
      cases heq
      cases hpart.symm.trans hq'
      rw [valuesUnder_cons_of_eq hname, valuesUnder_cons_of_eq hname]
      exact .cons ih (hsame after)
    · rw [valuesUnder_cons_of_ne hname, valuesUnder_cons_of_ne hname]
      exact hsame after
  | @item p before after v v' h ih =>
    intro hclear
    cases hclear with
    | scalar h => exact h.elim
    | sequence hitems =>
      obtain ⟨hv', halike⟩ := ih (hitems v (List.mem_append_right _ List.mem_cons_self))
      refine ⟨.sequence fun w hw => ?_, halike.sequence before after⟩
      rcases List.mem_append.1 hw with hw | hw
      · exact hitems w (List.mem_append_left _ hw)
      · rcases List.mem_cons.1 hw with rfl | hw
        · exact hv'
        · exact hitems w (List.mem_append_right _ (List.mem_cons_of_mem _ hw))
  | tagged tag h ih =>
    intro hclear
    cases hclear with
    | scalar h => exact h.elim
    | tagged _ hv =>
      obtain ⟨hv', halike⟩ := ih hv
      exact ⟨.tagged tag hv', halike.tagged tag⟩

end ContainerDescriptor

end JobLoom
