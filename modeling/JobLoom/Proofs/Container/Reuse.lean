import JobLoom.Environment.Resolve
import JobLoom.Proofs.Container.Encoding
import JobLoom.Proofs.Container.Variables

/-!
# Containers that are used as descriptors

The container of a job is a descriptor, too. With its document in the store it is had back as it is,
and the job gets it once more.

* **Again.** A job changes nothing in its own container: the image is there, or is set to the same
  one, the winning values are in their places, and the command is the job's.
* **In the store.** A payload with the document of a descriptor leads to that descriptor, without a
  warning.
-/

namespace JobLoom

open Yaml

/-! ## The container of a job once more -/

theorem setVariable_of_find? {env : List EnvVar} {name value : String}
    (h : env.find? (fun v => v.name = name) = some ⟨name, value⟩) :
    setVariable env name value = env := by
  induction env with
  | nil => cases h
  | cons v rest ih =>
    rw [setVariable]
    by_cases hname : v.name = name
    · rw [List.find?_cons_of_pos (by simpa using hname)] at h
      rw [if_pos hname, Option.some.inj h]
    · rw [List.find?_cons_of_neg (by simpa using hname)] at h
      rw [if_neg hname, ih h]

namespace ContainerDescriptor

variable (d : ContainerDescriptor) (j : Job) (shared : Dictionary String)
  (defaults : ContainerDefaults)

/-- An image that is there is left alone, and so is the one of the job. -/
theorem withImage_eq_self {c : ContainerDescriptor}
    (h : c.hasImage = true ∨ c.image = some (j.inlineImage?.getD defaults.image)) :
    c.withImage j defaults = c := by
  unfold withImage
  split
  · rfl
  · next hnone => rw [← h.resolve_left hnone]

theorem withImage_forJob : (d.forJob j shared defaults).withImage j defaults =
    d.forJob j shared defaults := by
  -- neither the variables nor the command touch the image
  have himage : (d.forJob j shared defaults).image = (d.withImage j defaults).image := rfl
  have hhas : (d.forJob j shared defaults).hasImage = (d.withImage j defaults).hasImage := rfl
  refine withImage_eq_self j defaults ?_
  rw [himage, hhas]
  unfold withImage
  split
  · next hd => exact .inl hd
  · exact .inr rfl

theorem withVariables_eq_self {c : ContainerDescriptor} {vars : Dictionary String}
    (h : ∀ e ∈ vars.entries, c.env.find? (fun v => v.name = e.1) = some ⟨e.1, e.2⟩) :
    c.withVariables vars = c := by
  have henv : vars.entries.foldl (fun env e => setVariable env e.1 e.2) c.env = c.env := by
    generalize vars.entries = es at h ⊢
    induction es with
    | nil => rfl
    | cons e rest ih =>
      rw [List.foldl_cons, setVariable_of_find? (h e List.mem_cons_self)]
      exact ih fun e he => h e (List.mem_cons_of_mem _ he)
  rw [withVariables, henv]

/-- The winning values are in the container of the job. -/
theorem withVariables_forJob :
    (d.forJob j shared defaults).withVariables (j.overrides shared) =
      d.forJob j shared defaults := by
  refine withVariables_eq_self fun e he => find?_env_forJob d j shared defaults ?_
  rw [← Job.get?_overrides]
  exact Dictionary.get?_eq_some_iff.2 he

/-- A job gets its own container once more. -/
theorem forJob_forJob :
    (d.forJob j shared defaults).forJob j shared defaults = d.forJob j shared defaults := by
  rw [forJob, withImage_forJob, withVariables_forJob]
  rfl

/-! ## Back in the store -/

/-- The document of a descriptor is as good as the descriptor. -/
structure ComesBack (d : ContainerDescriptor) : Prop where
  /-- it is a mapping, which describes just this descriptor -/
  decoded : ∃ entries, d.toTree.toValue = .mapping entries ∧ ofMapping entries = d
  /-- a payload with it leads to the descriptor, and there is no warning -/
  stored : ∀ payload, payload.all Text.isBlankByte = false →
    Value.ofBytes payload = .ok d.toTree.toValue → ∀ job key,
      Resolution.ofAnswer job key (.found payload) = ⟨d, none⟩

theorem ofValue_toTree : ofValue d.toTree.toValue = .ok d := by
  have hread := ofMapping_toTree d
  rw [toTree, Tree.toValue] at hread ⊢
  exact congrArg Except.ok (Option.some.inj hread)

/-- Every document is as good as its descriptor. -/
theorem comesBack : d.ComesBack := by
  refine ⟨⟨_, rfl, Option.some.inj (ofMapping_toTree d)⟩, fun payload hfull hread job key => ?_⟩
  have hpayload : ofPayload payload = .ok d := by
    rw [ofPayload, if_neg (by simpa using hfull), hread]
    exact ofValue_toTree d
  rw [Resolution.ofAnswer, Resolution.ofPayload, hpayload]

/-- **Documents come back.** What a mapping describes, and the container of a job that is made of
it, are had back from their documents, also through the store, and the job gets its container once
more. A payload that is decoded, encoded and decoded again comes to what it comes to at once. -/
theorem documents_come_back :
    (∀ entries, (ofMapping entries).ComesBack) ∧
      (∀ entries j shared defaults, ((ofMapping entries).forJob j shared defaults).ComesBack ∧
        ((ofMapping entries).forJob j shared defaults).forJob j shared defaults =
          (ofMapping entries).forJob j shared defaults) ∧
      ∀ payload, ((ofPayload payload).bind fun d => ofValue d.toTree.toValue) =
        ofPayload payload := by
  refine ⟨fun entries => comesBack _, fun entries j shared defaults =>
    ⟨comesBack _, forJob_forJob _ j shared defaults⟩, fun payload => ?_⟩
  cases ofPayload payload with
  | error r => rfl
  | ok d => exact ofValue_toTree d

/-- An entry with a tagged key, a number as a key and a quantity that is none is had back from one
line. The text of a container with an empty name, a variable without a value, a quantity with blanks
around it and a handler without words leads to that container. -/
theorem documents_come_back_odd_parts :
    let entries : List (Value × Value) := [(.tagged "!k" (.text "image"), .text "cuda"),
      (.integer 7, .null), (.text "resources", .mapping [(.text "limits", .mapping
        [(.text "disk", .text "lots")])])]
    let odd : List (Value × Value) := [(.text "name", .text ""),
      (.text "env", .sequence [.mapping [(.text "name", .text "A")], .null]),
      (.text "resources", .mapping [(.text "limits", .mapping [(.text "cpu", .text " 46 ")])]),
      (.text "lifecycle", .mapping [(.text "preStop", .mapping [(.text "exec",
        .mapping [(.text "command", .sequence [])])])])]
    let c := (ofMapping odd).forJob .empty .empty ⟨"ubuntu", "sh"⟩
    Resolution.ofAnswer "train" "gpu.yaml" (.found "image: cuda".toUTF8.toList) =
        ⟨ofMapping entries, none⟩ ∧
      (ofPayload c.toTree.toYaml.toUTF8.toList).toOption = some c ∧
      c.forJob .empty .empty ⟨"ubuntu", "sh"⟩ = c := by
  intro entries odd c
  obtain ⟨hdecoded, hbuilt, -⟩ := documents_come_back
  have hd : ofMapping entries = { empty with image := some "cuda" } := by decide +kernel
  have hvalue : Value.ofBytes "image: cuda".toUTF8.toList =
      .ok (.mapping [(.text "image", .text "cuda")]) := by
    have hkind : (Value.ofBytes "image: cuda".toUTF8.toList).toOption.map kindText =
        some "a mapping" := by decide +kernel
    have htexts : (Value.ofBytes "image: cuda".toUTF8.toList).toOption.bind (fun v =>
        v.asMapping?.map fun es => es.map fun e => (e.1.plainText?, e.2.plainText?)) =
          some [(some "image", some "cuda")] := by decide +kernel
    generalize Value.ofBytes "image: cuda".toUTF8.toList = read at hkind htexts ⊢
    cases read with
    | error f => cases hkind
    | ok v =>
      cases v with
      | mapping es =>
        obtain ⟨⟨key, w⟩, rfl, he⟩ := List.map_eq_singleton_iff.1 (Option.some.inj htexts)
        have hkey : key = .text "image" := Value.plainText?_eq_some_iff.1 (Prod.mk.inj he).1
        have hw : w = .text "cuda" := Value.plainText?_eq_some_iff.1 (Prod.mk.inj he).2
        rw [hkey, hw]
      | _ => simp [Except.toOption, kindText] at hkind
  refine ⟨?_, by decide +kernel, (hbuilt odd .empty .empty ⟨"ubuntu", "sh"⟩).2⟩
  refine (hdecoded entries).stored _ (by decide +kernel) ?_ "train" "gpu.yaml"
  rw [hd]
  exact hvalue

end ContainerDescriptor

end JobLoom
