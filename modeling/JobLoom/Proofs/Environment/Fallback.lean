import JobLoom.Proofs.Container.Places
import JobLoom.Proofs.Conversion.Independence

/-!
# Jobs without a descriptor

A job whose runner label leads to no descriptor runs in a container of its own, and there is a
warning about it; every other job runs in the container that the store describes for it.

* **Reasons.** A job has no label, or the entry for its label is missing, cannot be looked up or is
  no descriptor. Each of them has its warning, which names the job and the key that was looked up.
* **Warnings** stand in the order of the jobs, at most one for a job.
* **Containers.** Where there is a warning, nothing of the store gets into the container, not even
  the part of an entry that could be read.
-/

namespace JobLoom

/-! ## Labels -/

/-- How a runner is called first: by a label, by the first one of several, or by its group where
there are no labels. -/
inductive RunsOn.IsCalled : RunsOn → String → Prop where
  /-- one label -/
  | label (l : String) : IsCalled (.label l) l
  /-- the first label of a list -/
  | labels (l : String) (rest : List String) : IsCalled (.labels (l :: rest)) l
  /-- the one label of a group -/
  | ofGroup (g : Option String) (l : String) : IsCalled (.group g (some (.one l))) l
  /-- the first label in a list of a group -/
  | firstOfGroup (g : Option String) (l : String) (rest : List String) :
    IsCalled (.group g (some (.several (l :: rest)))) l
  /-- a group without labels -/
  | group (g : String) : IsCalled (.group (some g) none) g
  /-- a group with an empty list of labels -/
  | emptyGroup (g : String) : IsCalled (.group (some g) (some (.several []))) g

theorem RunsOn.first?_eq_some_iff {r : RunsOn} {l : String} : r.first? = some l ↔ r.IsCalled l := by
  constructor
  · intro h
    cases r with
    | label l' => cases h; exact .label l
    | labels ls =>
      cases ls with
      | nil => cases h
      | cons l' rest => cases h; exact .labels l rest
    | group g ls =>
      cases ls with
      | none => cases h; exact .group l
      | some ls =>
        cases ls with
        | one l' => cases h; exact .ofGroup g l
        | several ls =>
          cases ls with
          | nil => cases h; exact .emptyGroup l
          | cons l' rest => cases h; exact .firstOfGroup g l rest
  · intro h
    cases h <;> rfl

/-- A job asks for a label: what its runner is called first, unless this is blank. -/
def Job.AsksFor (j : Job) (label : String) : Prop :=
  ∃ r first, j.runsOn = some r ∧ r.IsCalled first ∧ Text.trimmed first = label ∧ label ≠ ""

theorem Job.label?_eq_some_iff {j : Job} {label : String} :
    j.label? = some label ↔ j.AsksFor label := by
  unfold Job.label? RunsOn.label? AsksFor
  simp only [Option.bind_eq_some_iff, Option.filter_eq_some_iff, Option.map_eq_some_iff,
    RunsOn.first?_eq_some_iff, decide_eq_true_eq]
  constructor
  · rintro ⟨r, hr, ⟨first, hfirst, hlabel⟩, hne⟩
    exact ⟨r, first, hr, hfirst, hlabel, hne⟩
  · rintro ⟨r, first, hr, hfirst, hlabel, hne⟩
    exact ⟨r, hr, ⟨first, hfirst, hlabel⟩, hne⟩

/-! ## Payloads -/

namespace ContainerDescriptor

/-- A payload that describes a container: a blank one, or a document that is a mapping or has no
value. -/
def IsPayload (bytes : List UInt8) : Prop :=
  bytes.all Text.isBlankByte = true ∨
    ∃ v, Yaml.Value.ofBytes bytes = .ok v ∧ (v = .null ∨ ∃ entries, v = .mapping entries)

/-- These payloads and no others have a descriptor. -/
theorem exists_ofPayload_iff {bytes : List UInt8} :
    (∃ d, ofPayload bytes = .ok d) ↔ IsPayload bytes := by
  unfold ofPayload IsPayload
  split
  · next hblank => exact ⟨fun _ => .inl hblank, fun _ => ⟨_, rfl⟩⟩
  · next hblank =>
    rw [or_iff_right hblank]
    cases Yaml.Value.ofBytes bytes with
    | error f => exact ⟨nofun, nofun⟩
    | ok v =>
      cases v with
      | null => exact ⟨fun _ => ⟨_, rfl, .inl rfl⟩, fun _ => ⟨_, rfl⟩⟩
      | mapping entries => exact ⟨fun _ => ⟨_, rfl, .inr ⟨entries, rfl⟩⟩, fun _ => ⟨_, rfl⟩⟩
      | _ =>
        refine ⟨nofun, ?_⟩
        rintro ⟨_, hv, rfl | ⟨entries, rfl⟩⟩ <;> cases hv

end ContainerDescriptor

/-! ## Reasons -/

namespace Converter

/-- Why a job has no descriptor, with the warning that says so. -/
inductive Lacks (c : Converter) (store : Store) (id : String) (j : Job) : Warning → Prop where
  /-- it asks for no label -/
  | noLabel (h : ∀ label, ¬ j.AsksFor label) : Lacks c store id j (.noLabel id)
  /-- there is no entry for its label -/
  | missing {label : String} (hlabel : j.AsksFor label)
    (h : store c.space (label ++ ".yaml") = .answer .missing) :
    Lacks c store id j (.missing id (label ++ ".yaml"))
  /-- the entry cannot be looked up -/
  | failed {label : String} {e : ConvertError} (hlabel : j.AsksFor label)
    (h : store c.space (label ++ ".yaml") = .answer (.failed e)) :
    Lacks c store id j (.lookupFailed id (label ++ ".yaml") e.message)
  /-- the entry describes no container -/
  | malformed {label : String} {payload : List UInt8} {r : ContainerDescriptor.Refusal}
    (hlabel : j.AsksFor label)
    (h : store c.space (label ++ ".yaml") = .answer (.found payload))
    (hpayload : ¬ ContainerDescriptor.IsPayload payload)
    (hr : ContainerDescriptor.ofPayload payload = .error r) :
    Lacks c store id j (.malformed id (label ++ ".yaml") (ConvertError.parse r.message).message)

/-- A job has a descriptor: the entry for its label describes it. -/
def Has (c : Converter) (store : Store) (j : Job) (d : ContainerDescriptor) : Prop :=
  ∃ label payload, j.AsksFor label ∧ store c.space (label ++ ".yaml") = .answer (.found payload) ∧
    ContainerDescriptor.ofPayload payload = .ok d

variable {c : Converter} {store : Store} {id : String} {j : Job}

/-- A label leads to a descriptor and no warning, or to nothing but a warning. -/
theorem has_or_lacks {r : Resolution} (h : c.Resolves store id j r) :
    (∃ d, c.Has store j d ∧ r = ⟨d, none⟩) ∨ ∃ w, c.Lacks store id j w ∧ r = .fallback w := by
  obtain ⟨a, ha, rfl⟩ := h
  cases hlabel : j.label? with
  | none =>
    refine .inr ⟨_, .noLabel fun label hasks => ?_, rfl⟩
    rw [Job.label?_eq_some_iff.2 hasks] at hlabel
    cases hlabel
  | some label =>
    have hasks := Job.label?_eq_some_iff.1 hlabel
    rw [hlabel] at ha
    obtain ⟨answer, hanswer, rfl⟩ := ha
    cases answer with
    | missing => exact .inr ⟨_, .missing hasks hanswer, rfl⟩
    | failed e => exact .inr ⟨_, .failed hasks hanswer, rfl⟩
    | found payload =>
      change (∃ d, c.Has store j d ∧ Resolution.ofPayload id (storeKey label) payload = ⟨d, none⟩) ∨
        ∃ w, c.Lacks store id j w ∧
          Resolution.ofPayload id (storeKey label) payload = .fallback w
      unfold Resolution.ofPayload
      cases hpayload : ContainerDescriptor.ofPayload payload with
      | ok d => exact .inl ⟨d, ⟨label, payload, hasks, hanswer, hpayload⟩, rfl⟩
      | error r =>
        refine .inr ⟨_, .malformed hasks hanswer (fun hsound => ?_) hpayload, rfl⟩
        obtain ⟨d, hd⟩ := ContainerDescriptor.exists_ofPayload_iff.2 hsound
        rw [hpayload] at hd
        cases hd

/-- Without a descriptor a label leads to the warning. -/
theorem Lacks.resolves {w : Warning} (h : c.Lacks store id j w) :
    c.Resolves store id j (.fallback w) := by
  cases h with
  | noLabel h =>
    have hlabel : j.label? = none :=
      Option.eq_none_iff_forall_ne_some.2 fun label hl => h label (Job.label?_eq_some_iff.1 hl)
    refine ⟨none, ?_, ?_⟩ <;> rw [hlabel]
    · rfl
    · rfl
  | missing hlabel h =>
    rw [← Job.label?_eq_some_iff] at hlabel
    refine ⟨some .missing, ?_, ?_⟩ <;> rw [hlabel]
    · exact ⟨_, h, rfl⟩
    · rfl
  | @failed label e hlabel h =>
    rw [← Job.label?_eq_some_iff] at hlabel
    refine ⟨some (.failed e), ?_, ?_⟩ <;> rw [hlabel]
    · exact ⟨_, h, rfl⟩
    · rfl
  | @malformed label payload r hlabel h _ hr =>
    rw [← Job.label?_eq_some_iff] at hlabel
    refine ⟨some (.found payload), ?_, ?_⟩ <;> rw [hlabel]
    · exact ⟨_, h, rfl⟩
    · simp only [Resolution.of, Resolution.ofAnswer, Resolution.ofPayload, hr]
      rfl

/-- A label leads to a warning exactly if it leads to no descriptor. -/
theorem warning_eq_some_iff {r : Resolution} (h : c.Resolves store id j r) {w : Warning} :
    r.warning = some w ↔ c.Lacks store id j w := by
  constructor
  · intro hw
    rcases has_or_lacks h with ⟨d, -, rfl⟩ | ⟨w', hlacks, rfl⟩
    · cases hw
    · obtain rfl := Option.some.inj hw
      exact hlacks
  · intro hlacks
    rw [eq_resolution h, ← eq_resolution hlacks.resolves]
    rfl

/-- A warning names the job, and the key of its label if it asks for one. -/
theorem Lacks.names {w : Warning} (h : c.Lacks store id j w) :
    w.job = id ∧ ∀ key, w.key? = some key ↔ ∃ label, j.AsksFor label ∧ key = label ++ ".yaml" := by
  have hone {label key : String} (hlabel : j.AsksFor label) :
      some (label ++ ".yaml") = some key ↔ ∃ label, j.AsksFor label ∧ key = label ++ ".yaml" := by
    constructor
    · exact fun hkey => ⟨label, hlabel, (Option.some.inj hkey).symm⟩
    · rintro ⟨label', hlabel', rfl⟩
      rw [← Job.label?_eq_some_iff] at hlabel hlabel'
      rw [Option.some.inj (hlabel.symm.trans hlabel')]
  cases h with
  | noLabel h =>
    refine ⟨rfl, fun key => ⟨nofun, ?_⟩⟩
    rintro ⟨label, hlabel, -⟩
    exact absurd hlabel (h label)
  | missing hlabel _ => exact ⟨rfl, fun key => hone hlabel⟩
  | failed hlabel _ => exact ⟨rfl, fun key => hone hlabel⟩
  | malformed hlabel _ _ _ => exact ⟨rfl, fun key => hone hlabel⟩

end Converter

/-! ## Containers -/

/-- A job names an image itself, and it is not blank. -/
def Job.NamesImage (j : Job) (image : String) : Prop :=
  (j.container = some (.image image) ∨ ∃ env, j.container = some (.spec (some image) env)) ∧
    Text.isBlankText image = false

theorem Job.inlineImage?_eq_some_iff {j : Job} {image : String} :
    j.inlineImage? = some image ↔ j.NamesImage image := by
  unfold Job.inlineImage? NamesImage InlineContainer.image?
  cases j.container with
  | none => simp
  | some container =>
    cases container with
    | image i => simp [Option.filter_eq_some_iff]
    | spec i env => simp [Option.filter_eq_some_iff]

namespace ContainerDescriptor

/-- A container with nothing in it but what a job, its pipeline and the converter say. -/
structure IsOwn (d : ContainerDescriptor) (j : Job) (shared : Dictionary String)
    (defaults : ContainerDefaults) : Prop where
  /-- the image of the job -/
  image_of_names : ∀ image, j.NamesImage image → d.image = some image
  /-- the default image, if the job has none -/
  image_of_not_names : (∀ image, ¬ j.NamesImage image) → d.image = some defaults.image
  /-- the variables that the job and its pipeline set -/
  mem_env_iff : ∀ v, v ∈ d.env ↔ j.winning? shared v.name = some v.value
  /-- no variable comes twice -/
  nodup_names : (d.env.map EnvVar.name).Nodup
  /-- the shell -/
  command_eq : d.command = [defaults.shell, "-c"]
  /-- the script of the job -/
  args_eq : d.args = [Script.assemble j.steps]
  /-- no name -/
  name_eq : d.name = none
  /-- no word on when the image is fetched -/
  imagePullPolicy_eq : d.imagePullPolicy = none
  /-- no resources -/
  resources_eq : d.resources = .empty
  /-- no mounts -/
  volumeMounts_eq : d.volumeMounts = []
  /-- no handlers -/
  lifecycle_eq : d.lifecycle = .empty

/-- An empty descriptor adds nothing to the container of a job. -/
theorem isOwn_forJob_empty (j : Job) (shared : Dictionary String) (defaults : ContainerDefaults) :
    (empty.forJob j shared defaults).IsOwn j shared defaults := by
  have hmerged := empty.isMerged_winning j shared defaults
  refine ⟨fun image himage => ?_, fun hnone => ?_, fun v => ?_, hmerged.nodup_names List.nodup_nil,
    rfl, rfl, rfl, rfl, rfl, rfl, rfl⟩
  · change some (j.inlineImage?.getD defaults.image) = some image
    rw [Job.inlineImage?_eq_some_iff.2 himage]
    rfl
  · change some (j.inlineImage?.getD defaults.image) = some defaults.image
    rw [Option.eq_none_iff_forall_ne_some.2 fun image himage =>
      hnone image (Job.inlineImage?_eq_some_iff.1 himage)]
    rfl
  · exact (hmerged.mem_drop_iff v).trans (and_iff_right List.not_mem_nil)

end ContainerDescriptor

/-! ## Conversions -/

namespace Conversion

/-- A conversion accounts for its jobs: the warnings tell which of them have no descriptor, and
these run in containers of their own. -/
structure Accounts (x : Conversion) (c : Converter) (store : Store) (p : Pipeline) : Prop where
  /-- the warnings are in the order of the jobs -/
  sublist_ids : (x.warnings.map Warning.job).Sublist p.ids
  /-- no job has two -/
  nodup_jobs : (x.warnings.map Warning.job).Nodup
  /-- a job has a warning exactly if it has no descriptor, and the one that says why -/
  warning_iff : ∀ id j, (id, j) ∈ p.jobs → ∀ w,
    w ∈ x.warnings ∧ w.job = id ↔ c.Lacks store id j w
  /-- a warning names the key of the label, if there is one -/
  key?_eq_some_iff : ∀ w ∈ x.warnings, ∀ j, (w.job, j) ∈ p.jobs → ∀ key,
    w.key? = some key ↔ ∃ label, j.AsksFor label ∧ key = label ++ ".yaml"
  /-- with a warning, a job runs in a container of its own -/
  own : ∀ w ∈ x.warnings, ∀ j, (w.job, j) ∈ p.jobs → ∃ t d,
    x.manifest.template? w.job = some t ∧ t.container = some d ∧ d.IsOwn j p.env c.defaults
  /-- without one, it runs in the container that the entry for its label describes -/
  described : ∀ id j, (id, j) ∈ p.jobs → (∀ w ∈ x.warnings, w.job ≠ id) → ∃ t d,
    x.manifest.template? id = some t ∧ c.Has store j d ∧
      t.container = some (d.forJob j p.env c.defaults)

variable {x : Conversion} {c : Converter} {store : Store} {p : Pipeline} {id : String} {j : Job}

theorem sublist_map_filterMap {α β : Type} {f : α → Option β} {name : β → String}
    {key : α → String} (h : ∀ a b, f a = some b → name b = key a) (l : List α) :
    ((l.filterMap f).map name).Sublist (l.map key) := by
  induction l with
  | nil => exact .refl _
  | cons a rest ih =>
    rw [List.filterMap_cons, List.map_cons]
    cases hb : f a with
    | none => exact .cons _ ih
    | some b =>
      dsimp only
      rw [List.map_cons, h a b hb]
      exact .cons_cons _ ih

/-- The warnings about a job are that of its part. -/
theorem IsMadeOf.mem_warnings_iff {part : String × Job → JobPart} (h : x.IsMadeOf p.jobs part)
    (hids : p.HasProperIds) (hj : (id, j) ∈ p.jobs) {w : Warning} :
    w ∈ x.warnings ∧ w.job = id ↔ (part (id, j)).warning = some w := by
  rw [← Option.mem_toList, ← h.warningsOf_eq hids hj, warningsOf, List.mem_filter,
    decide_eq_true_iff]

/-- What is built accounts for its jobs. -/
theorem accounts_of_build (h : c.build store p = .done x) : x.Accounts c store p := by
  have hparts := Converter.isMadeOf_of_build h
  obtain ⟨hp, rs, hrs, -⟩ := Converter.build_eq_done_iff.1 h
  have hids := hp.properIds
  -- the store has answered for every job, as it did not crash
  have hresolves (id : String) (j : Job) (hj : (id, j) ∈ p.jobs) :
      c.Resolves store id j (c.resolution store id j) := by
    rw [Converter.eq_map_resolution hrs, List.forall₂_map_right_iff, List.forall₂_same] at hrs
    exact hrs (id, j) hj
  have hwarning (id : String) (j : Job) (hj : (id, j) ∈ p.jobs) (w : Warning) :
      w ∈ x.warnings ∧ w.job = id ↔ c.Lacks store id j w :=
    (hparts.mem_warnings_iff hids hj).trans
      (Converter.warning_eq_some_iff (hresolves id j hj))
  have hsublist : (x.warnings.map Warning.job).Sublist p.ids := by
    rw [hparts.warnings_eq]
    exact sublist_map_filterMap (fun e w hw => (Converter.isAbout_part e).warning_job w hw) p.jobs
  refine ⟨hsublist, hids.nodup.sublist hsublist, hwarning, fun w hw j hj => ?_,
    fun w hw j hj => ?_, fun id j hj hnone => ?_⟩
  · exact ((hwarning w.job j hj w).1 ⟨hw, rfl⟩).names.2
  · have hlacks := (hwarning w.job j hj w).1 ⟨hw, rfl⟩
    refine ⟨_, _, hparts.template?_eq hids hj, rfl, ?_⟩
    rw [← Converter.eq_resolution hlacks.resolves]
    exact ContainerDescriptor.isOwn_forJob_empty j p.env c.defaults
  · rcases Converter.has_or_lacks (hresolves id j hj) with ⟨d, hd, hr⟩ | ⟨w, hlacks, -⟩
    · refine ⟨_, d, hparts.template?_eq hids hj, hd, ?_⟩
      change some ((c.resolution store id j).descriptor.forJob j p.env c.defaults) = _
      rw [hr]
    · obtain ⟨hw, hjob⟩ := (hwarning id j hj w).2 hlacks
      exact absurd hjob (hnone w hw)

end Conversion

namespace Service

/-- **Every fallback is accounted for.** An accepted pipeline is converted, if the store does not
crash; and whatever the store answers and in whatever order, there is one warning for each job
without a descriptor, in the order of the jobs, and none for the others. It names the job and the
key that was looked up, and nothing of the store is in the container of that job. -/
theorem accounts_of_builds (s : Service) (p : Pipeline) :
    (p.IsAccepted → s.store.IsSteady → ∃ x, s.BuildsOnly p x) ∧
      ∀ x, s.Builds p x → x.Accounts s.converter s.store p := by
  refine ⟨fun hp hs => ?_, fun x hx => Conversion.accounts_of_build (builds_iff.1 hx)⟩
  obtain ⟨x, hx, -⟩ := exists_buildsOnly hs hp
  exact ⟨x, hx⟩

/-- A blank label, a sound entry, one that breaks off after its image, a group that the store does
not know and an entry that cannot be looked up. -/
theorem accounts_of_builds_each_reason :
    let lint : Job := { Job.empty with runsOn := some (.labels [" ", "gpu"]) }
    let train : Job := { Job.empty with runsOn := some (.labels [" gpu ", "cpu"]) }
    let test : Job := { Job.empty with runsOn := some (.label "broken"), needs := some (.one "train") }
    let pack : Job := { Job.empty with runsOn := some (.group (some "pool") (some (.several []))) }
    let ship : Job := { Job.empty with runsOn := some (.group none (some (.one "down"))) }
    let p : Pipeline := ⟨"ci", .empty,
      [("lint", lint), ("train", train), ("test", test), ("pack", pack), ("ship", ship)]⟩
    let broken := "image: cuda\nenv: [\x7bname: A".toUTF8.toList
    let s : Service := ⟨.standard, fun space key =>
      if key = "gpu.yaml" then .answer (.found "image: cuda".toUTF8.toList)
      else if key = "broken.yaml" then .answer (.found broken)
      else if key = "down.yaml" then .answer (.failed (.store space key "refused"))
      else .answer .missing, fun _ _ => false⟩
    p.IsAccepted ∧ s.store.IsSteady ∧ ∃ x, s.Builds p x ∧ x.Accounts s.converter s.store p ∧
      (∃ w ∈ x.warnings, w.job = "lint" ∧ w.key? = none) ∧
      (∀ w ∈ x.warnings, w.job ≠ "train") ∧
      (∃ w ∈ x.warnings, w.job = "test" ∧ w.key? = some "broken.yaml") ∧
      (∃ w ∈ x.warnings, w.job = "pack" ∧ w.key? = some "pool.yaml") ∧
      ∃ w ∈ x.warnings, w.job = "ship" ∧ w.key? = some "down.yaml" := by
  intro lint train test pack ship p broken s
  have hp : p.IsAccepted := ⟨_, rfl⟩
  have hs : s.store.IsSteady := fun space key => by
    simp only [s]
    split_ifs <;> exact ⟨_, rfl⟩
  obtain ⟨hbuild, haccounts⟩ := s.accounts_of_builds p
  obtain ⟨x, hx⟩ := hbuild hp hs
  have hbuilds := (hx x).2 rfl
  have hx := haccounts x hbuilds
  -- a reason that is given here leads to its warning
  have hgiven (id : String) (j : Job) {w : Warning} (hj : (id, j) ∈ p.jobs)
      (h : s.converter.Lacks s.store id j w) : ∃ w' ∈ x.warnings, w'.job = id ∧ w'.key? = w.key? :=
    ⟨w, ((hx.warning_iff id j hj w).2 h).1, h.names.1, rfl⟩
  have htest : test.AsksFor "broken" := ⟨_, _, rfl, .label _, by decide, by decide⟩
  have hpack : pack.AsksFor "pool" := ⟨_, _, rfl, .emptyGroup _, by decide, by decide⟩
  have hship : ship.AsksFor "down" := ⟨_, _, rfl, .ofGroup _ _, by decide, by decide⟩
  refine ⟨hp, hs, x, hbuilds, hx, ?_, ?_, ?_, ?_, ?_⟩
  · refine hgiven "lint" lint (by decide) (.noLabel fun label hasks => ?_)
    have hlabel : lint.label? = none := by decide
    rw [Job.label?_eq_some_iff.2 hasks] at hlabel
    cases hlabel
  · intro w hw hjob
    have hlacks := (hx.warning_iff "train" train (by decide) w).1 ⟨hw, hjob⟩
    have hnone : (s.converter.resolution s.store "train" train).warning = none := by decide +kernel
    rw [← Converter.eq_resolution hlacks.resolves] at hnone
    cases hnone
  · have hrefused : (ContainerDescriptor.ofPayload broken).toOption = none := by decide +kernel
    cases hr : ContainerDescriptor.ofPayload broken with
    | ok d =>
      rw [hr] at hrefused
      cases hrefused
    | error r =>
      refine hgiven "test" test (by decide) (.malformed htest rfl (fun hsound => ?_) hr)
      obtain ⟨d, hd⟩ := ContainerDescriptor.exists_ofPayload_iff.2 hsound
      rw [hr] at hd
      cases hd
  · exact hgiven "pack" pack (by decide) (.missing hpack rfl)
  · exact hgiven "ship" ship (by decide) (.failed hship rfl)

end Service

end JobLoom
