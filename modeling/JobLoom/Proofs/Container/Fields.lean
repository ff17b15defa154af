import Mathlib.Data.List.Forall2
import JobLoom.Container.Decoding
import JobLoom.Proofs.Dictionary

/-!
# The fields of a container descriptor

A descriptor is decoded from the entries of a mapping. What is decoded is told by the values that
the entries give to each key, and the entries count for nothing else.

* **Values under a key** are those of the entries with that key, in their order. The inner mappings
  take the first one, quantities and fields the last one that is of use to them.
* **Fields** have a key each. What a field comes to depends on the values under its own key only,
  and the fields together are the descriptor.
-/

namespace JobLoom

open Yaml

/-! ## Values under a key -/

/-- The text of a key without a tag. -/
def Yaml.Value.plainText? : Value → Option String
  | .text s => some s
  | _ => none

theorem Yaml.Value.plainText?_eq_some_iff {v : Value} {s : String} :
    v.plainText? = some s ↔ v = .text s := by
  cases v <;> simp [plainText?]

/-- The values of the entries with a key, where the keys are told by some reading of them. -/
def valuesUnder (keyText? : Value → Option String) (name : String)
    (entries : List (Value × Value)) : List Value :=
  (entries.filter fun e => keyText? e.1 = some name).map Prod.snd

section

variable {keyText? : Value → Option String} {name : String} {entries : List (Value × Value)}

theorem mem_valuesUnder_iff {v : Value} :
    v ∈ valuesUnder keyText? name entries ↔
      ∃ key, (key, v) ∈ entries ∧ keyText? key = some name := by
  simp [valuesUnder]

@[simp]
theorem valuesUnder_nil : valuesUnder keyText? name [] = [] := rfl

@[simp]
theorem valuesUnder_append (es es' : List (Value × Value)) :
    valuesUnder keyText? name (es ++ es') =
      valuesUnder keyText? name es ++ valuesUnder keyText? name es' := by
  simp [valuesUnder]

theorem valuesUnder_cons_of_eq {e : Value × Value} (h : keyText? e.1 = some name) :
    valuesUnder keyText? name (e :: entries) = e.2 :: valuesUnder keyText? name entries := by
  simp [valuesUnder, h]

theorem valuesUnder_cons_of_ne {e : Value × Value} (h : keyText? e.1 ≠ some name) :
    valuesUnder keyText? name (e :: entries) = valuesUnder keyText? name entries := by
  simp [valuesUnder, h]

theorem length_valuesUnder_le_one (name : String)
    (hkey : ∀ key, keyText? key = some name → key.asText? = some name)
    (h : (entries.filterMap fun e => e.1.asText?).Nodup) :
    (valuesUnder keyText? name entries).length ≤ 1 := by
  have hcount := List.nodup_iff_count_le_one.1 h name
  rw [List.count_filterMap] at hcount
  rw [valuesUnder, List.length_map, ← List.countP_eq_length_filter]
  refine Nat.le_trans (List.countP_mono_left fun e _ he => ?_) hcount
  exact beq_iff_eq.2 (hkey e.1 (of_decide_eq_true he))

/-- Of several values under a key an inner mapping has the first one. -/
theorem lookup_eq_head? :
    Value.lookup name entries = (valuesUnder Value.plainText? name entries).head? := by
  induction entries with
  | nil => rfl
  | cons e rest ih =>
    obtain ⟨k, v⟩ := e
    cases k with
    | text s =>
      rw [Value.lookup]
      by_cases h : s = name
      · rw [if_pos h, valuesUnder_cons_of_eq (congrArg some h), List.head?_cons]
      · rw [if_neg h, valuesUnder_cons_of_ne (by simpa [Value.plainText?] using h), ih]
    | _ => exact ih.trans (congrArg _ (valuesUnder_cons_of_ne (by simp [Value.plainText?])).symm)

/-- An entry with a name gives that name the quantity that its value is. -/
theorem quantityEntry?_of_key {e : Value × Value} (h : e.1.asText? = some name) :
    quantityEntry? e = (e.2.scalarText?.bind Quantity.parse?).map fun q => (name, q) := by
  unfold quantityEntry?
  rw [h]
  cases e.2.scalarText? with
  | none => rfl
  | some text => cases hq : Quantity.parse? text <;> simp [hq]

theorem key_of_quantityEntry? {e : Value × Value} {x : String × Quantity}
    (h : quantityEntry? e = some x) : e.1.asText? = some x.1 := by
  obtain ⟨s, hs, hrest⟩ := Option.bind_eq_some_iff.1 h
  obtain ⟨text, -, hrest⟩ := Option.bind_eq_some_iff.1 hrest
  obtain ⟨q, -, hx⟩ := Option.bind_eq_some_iff.1 hrest
  cases hx
  exact hs

/-- Of several values under a name the quantities have the last one that is a quantity. -/
theorem get?_ofList_quantities :
    (Dictionary.ofList (entries.filterMap quantityEntry?)).get? name =
      ((valuesUnder Value.asText? name entries).filterMap fun v =>
        v.scalarText?.bind Quantity.parse?).getLast? := by
  rw [Dictionary.get?_ofList]
  refine congrArg _ ?_
  induction entries with
  | nil => rfl
  | cons e rest ih =>
    by_cases h : e.1.asText? = some name
    · rw [valuesUnder_cons_of_eq h, List.filterMap_cons, List.filterMap_cons, ← ih,
        quantityEntry?_of_key h]
      cases e.2.scalarText?.bind Quantity.parse? with
      | none => rfl
      | some q => simp
    · rw [valuesUnder_cons_of_ne h, List.filterMap_cons, ← ih]
      cases hentry : quantityEntry? e with
      | none => rfl
      | some x =>
        have hne : x.1 ≠ name := fun heq => h (heq ▸ key_of_quantityEntry? hentry)
        simp [hne]

end

/-! ## Inner records -/

theorem EnvVar.ofValue?_eq (v : Value) : EnvVar.ofValue? v =
    ((v.get? "name").bind Value.asText?).map fun name =>
      ⟨name, ((v.get? "value").bind Value.scalarText?).getD ""⟩ := by
  unfold EnvVar.ofValue?
  cases v.get? "name" with
  | none => rfl
  | some w => cases hw : w.asText? <;> simp [hw]

theorem Handler.ofValue?_eq (v : Value) : Handler.ofValue? v =
    (v.get? "exec").bind fun exec => ((exec.get? "command").map textList).map Handler.mk := by
  unfold Handler.ofValue?
  cases v.get? "exec" with
  | none => rfl
  | some exec => cases hexec : exec.get? "command" <;> simp [hexec]

/-! ## Fields -/

namespace ContainerDescriptor

/-- The fields of a descriptor. -/
inductive Field where
  | name
  | image
  | imagePullPolicy
  | command
  | args
  | env
  | resources
  | volumeMounts
  | lifecycle
  deriving DecidableEq

namespace Field

/-- The key of a field. -/
def key : Field → String
  | name => "name"
  | image => "image"
  | imagePullPolicy => "imagePullPolicy"
  | command => "command"
  | args => "args"
  | env => "env"
  | resources => "resources"
  | volumeMounts => "volumeMounts"
  | lifecycle => "lifecycle"

/-- What a field holds. -/
def Content : Field → Type
  | name | image | imagePullPolicy => Option String
  | command | args => List String
  | env => List EnvVar
  | resources => Resources
  | volumeMounts => List VolumeMount
  | lifecycle => Lifecycle

/-- The field of a descriptor. -/
def get : (f : Field) → ContainerDescriptor → f.Content
  | name => ContainerDescriptor.name
  | image => ContainerDescriptor.image
  | imagePullPolicy => ContainerDescriptor.imagePullPolicy
  | command => ContainerDescriptor.command
  | args => ContainerDescriptor.args
  | env => ContainerDescriptor.env
  | resources => ContainerDescriptor.resources
  | volumeMounts => ContainerDescriptor.volumeMounts
  | lifecycle => ContainerDescriptor.lifecycle

/-- What a value says for a field. A value of the wrong kind says nothing, or that the field is
missing. -/
def read? : (f : Field) → Value → Option f.Content
  | name, v | image, v | imagePullPolicy, v => some v.asText?
  | command, v | args, v => some (textList v)
  | env, v => some (envOf v)
  | resources, v => v.asMapping?.map .ofMapping
  | volumeMounts, v => v.asSequence?.map fun items =>
    (items.filterMap Value.asMapping?).map VolumeMount.ofMapping
  | lifecycle, v => v.asMapping?.map .ofMapping

theorem key_injective {f g : Field} (h : f.key = g.key) : f = g := by
  cases f <;> cases g <;> first | rfl | exact absurd h (by decide)

/-- The fields together are the descriptor. -/
theorem ext_get {d d' : ContainerDescriptor} (h : ∀ f : Field, f.get d = f.get d') : d = d' := by
  cases d
  cases d'
  have hname := h name
  have himage := h image
  have hpolicy := h imagePullPolicy
  have hcommand := h command
  have hargs := h args
  have henv := h env
  have hresources := h resources
  have hmounts := h volumeMounts
  have hlifecycle := h lifecycle
  simp only [get] at *
  simp only [*]

/-- An entry is for the field with its key only. -/
theorem get_setField (f : Field) (d : ContainerDescriptor) (key : String) (v : Value) :
    f.get (d.setField key v) = if key = f.key then (f.read? v).getD (f.get d) else f.get d := by
  by_cases h : key = f.key
  · rw [if_pos h, h]
    cases f with
    | resources =>
      cases hv : v.asMapping? <;> simp only [setField, Field.key, get, read?, hv] <;> rfl
    | volumeMounts =>
      cases hv : v.asSequence? <;> simp only [setField, Field.key, get, read?, hv] <;> rfl
    | lifecycle =>
      cases hv : v.asMapping? <;> simp only [setField, Field.key, get, read?, hv] <;> rfl
    | _ => rfl
  · rw [if_neg h]
    unfold setField
    split
    case h_7 | h_8 | h_9 =>
      -- a value of the wrong kind changes nothing at all
      split <;> cases f <;> first | rfl | exact absurd rfl h
    all_goals cases f <;> first | rfl | exact absurd rfl h

theorem get_setEntry (f : Field) (d : ContainerDescriptor) (e : Value × Value) :
    f.get (d.setEntry e) =
      if e.1.asText? = some f.key then (f.read? e.2).getD (f.get d) else f.get d := by
  unfold setEntry
  cases e.1.asText? with
  | none => rfl
  | some key =>
    rw [get_setField]
    simp only [Option.some.injEq]

/-- Of the values under its key a field has the last one that says something for it. -/
theorem get_ofMapping (f : Field) (entries : List (Value × Value)) :
    f.get (ofMapping entries) =
      ((valuesUnder Value.asText? f.key entries).filterMap f.read?).getLast?.getD
        (f.get .empty) := by
  unfold ofMapping
  induction entries using List.reverseRecOn with
  | nil => rfl
  | append_singleton es e ih =>
    rw [List.foldl_append, List.foldl_cons, List.foldl_nil, get_setEntry, ih, valuesUnder_append,
      List.filterMap_append]
    by_cases h : e.1.asText? = some f.key
    · rw [if_pos h, valuesUnder_cons_of_eq h]
      cases hread : f.read? e.2 <;> simp [hread]
    · rw [if_neg h, valuesUnder_cons_of_ne h]
      simp

end Field

end ContainerDescriptor

end JobLoom
