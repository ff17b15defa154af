import JobLoom.Proofs.Manifest.Realization
import JobLoom.Proofs.Settings.Layers
import JobLoom.Settings.Reading

/-!
# Containers that can be started

Every container of a manifest has an image and hands the script of its job to a shell. Blank texts
may come from the settings file, the environment, the store and the workflow file.

* **The image** is never blank: a blank one in a descriptor or in a workflow file counts as missing,
  and a blank default image is refused with the settings.
* **The shell** is that of the settings file, blank or not, as nothing else gives one and nothing
  checks it.
-/

namespace JobLoom

/-! ## Images -/

/-- The image that a job names itself is not blank. -/
theorem Job.isBlankText_of_inlineImage {j : Job} {image : String} (h : j.inlineImage? = some image) :
    Text.isBlankText image = false := by
  obtain ⟨container, -, himage⟩ := Option.bind_eq_some_iff.1 h
  have hvisible := (Option.filter_eq_some_iff.1 himage).2
  simpa using hvisible

namespace ContainerDescriptor

variable {d : ContainerDescriptor} {j : Job} {shared : Dictionary String}
  {defaults : ContainerDefaults}

/-- A container with this image that hands a script to a shell. -/
structure Hands (d : ContainerDescriptor) (shell script : String) : Prop where
  /-- the image is not blank -/
  hasImage : d.hasImage = true
  /-- the command begins with the shell -/
  command_eq : d.command = [shell, "-c"]
  /-- the script is all that the shell is given -/
  args_eq : d.args = [script]

/-- No blank image gets through, if the default one is not blank. -/
theorem hasImage_withImage (d : ContainerDescriptor) (j : Job)
    (himage : Text.isBlankText defaults.image = false) : (d.withImage j defaults).hasImage = true := by
  unfold withImage
  split
  · next h => exact h
  · have hchosen : Text.isBlankText (j.inlineImage?.getD defaults.image) = false := by
      cases hinline : j.inlineImage? with
      | none => exact himage
      | some image => exact Job.isBlankText_of_inlineImage hinline
    simp only [hasImage, hchosen, Bool.not_false]

/-- The container of a job has an image, and the shell runs the script of the job. -/
theorem hands_forJob (d : ContainerDescriptor) (j : Job) (shared : Dictionary String)
    (himage : Text.isBlankText defaults.image = false) :
    (d.forJob j shared defaults).Hands defaults.shell (Script.assemble j.steps) where
  hasImage := d.hasImage_withImage j himage
  command_eq := rfl
  args_eq := rfl

end ContainerDescriptor

/-! ## Manifests -/

/-- The containers of a manifest can be started and run the scripts of the jobs. -/
def Manifest.IsRunnable (m : Manifest) (p : Pipeline) : Prop :=
  ∀ t ∈ m.templates, ∀ d, t.container = some d →
    ∃ j shell, (t.name, j) ∈ p.jobs ∧ Text.isBlankText shell = false ∧
      d.Hands shell (Script.assemble j.steps)

namespace Converter

variable {c : Converter} {store : Store} {p : Pipeline} {rs : List Resolution}

/-- Every container of an assembled manifest runs the script of its job in the shell of the
converter. -/
theorem exists_hands_of_assembled (hids : p.HasProperIds)
    (himage : Text.isBlankText c.defaults.image = false) {t : Template} {d : ContainerDescriptor}
    (ht : t ∈ (c.assembled p rs).manifest.templates) (hd : t.container = some d) :
    ∃ j, (t.name, j) ∈ p.jobs ∧ d.Hands c.defaults.shell (Script.assemble j.steps) := by
  rw [templates_assembled hids] at ht
  rcases List.mem_cons.1 ht with rfl | ht
  · cases hd
  · obtain ⟨id, j, r, hj, rfl⟩ := exists_of_mem_containers ht
    cases hd
    exact ⟨j, hj, r.descriptor.hands_forJob j p.env himage⟩

theorem exists_container_of_assembled (hids : p.HasProperIds)
    (hrs : List.Forall₂ (fun e r => c.Resolves store e.1 e.2 r) p.jobs rs) (hjobs : p.jobs ≠ []) :
    ∃ t ∈ (c.assembled p rs).manifest.templates, ∃ d, t.container = some d := by
  obtain ⟨⟨id, j⟩, rest, hcons⟩ := List.exists_cons_of_ne_nil hjobs
  have hfirst : p.jobs[0]? = some (id, j) := by rw [hcons]; rfl
  obtain ⟨r, -, hget⟩ := containers_getElem? hrs hfirst
  refine ⟨Template.ofJob c.defaults p.env id j r, ?_, _, rfl⟩
  rw [templates_assembled hids]
  exact List.mem_cons_of_mem _ (List.mem_of_getElem? hget)

/-- With a store that does not crash, a valid pipeline has a manifest. -/
theorem exists_build_eq_done (c : Converter) (hs : store.IsSteady) (hp : p.IsValid) :
    ∃ x, c.build store p = .done x := by
  have hplan := plan_eq_ok_iff.2 ⟨hp, rfl⟩
  obtain ⟨answers, ha⟩ := c.exists_ask_eq_ok hs (Plan.keys ⟨p, JobGraph.tables p⟩)
  exact ⟨_, build_of_answers hplan ha⟩

end Converter

/-- **Containers can be started exactly if the settings file has a shell.** With settings that pass
their checks, whatever the store answers, every container of a manifest has an image that is not
blank and runs the script of its job. The shell that it hands the script to is that of the settings
file; so if there are jobs at all, all is well exactly if this one is not blank. -/
theorem Settings.isRunnable_iff_of_ofLayers {file st : Settings} {env : String → Option String}
    {line : Overrides} (hst : ofLayers file env line = .ok st) {p : Pipeline} {g : JobGraph}
    (hg : JobGraph.validated p = .ok g) (store : Store) (format : OutputFormat) :
    (store.IsSteady → ∃ x, (st.converter format).build store p = .done x) ∧
      ∀ x, (st.converter format).build store p = .done x →
        (∀ t ∈ x.manifest.templates, ∀ d, t.container = some d →
          ∃ j, (t.name, j) ∈ p.jobs ∧ d.Hands file.defaults.shell (Script.assemble j.steps)) ∧
        (x.manifest.IsRunnable p ↔
          p.jobs = [] ∨ Text.isBlankText file.defaults.shell = false) := by
  have himage := (check_eq_ok_iff.1 (check_of_ofLayers hst)).2.2
  have hp := (JobGraph.validated_eq_ok_iff.1 hg).1
  have hids := hp.properIds
  refine ⟨fun hs => Converter.exists_build_eq_done _ hs hp, fun x hx => ?_⟩
  obtain ⟨-, rs, hrs, rfl⟩ := Converter.build_eq_done_iff.1 hx
  have hhands : ∀ t ∈ ((st.converter format).assembled p rs).manifest.templates, ∀ d,
      t.container = some d →
      ∃ j, (t.name, j) ∈ p.jobs ∧ d.Hands file.defaults.shell (Script.assemble j.steps) := by
    intro t ht d hd
    rw [← shell_of_ofLayers hst]
    exact Converter.exists_hands_of_assembled hids himage ht hd
  refine ⟨hhands, fun hrunnable => ?_, fun h t ht d hd => ?_⟩
  · -- any container tells what the shell is
    refine or_iff_not_imp_left.2 fun hjobs => ?_
    obtain ⟨t, ht, d, hd⟩ := Converter.exists_container_of_assembled hids hrs hjobs
    obtain ⟨_, -, hfile⟩ := hhands t ht d hd
    obtain ⟨_, shell, -, hshell, hgiven⟩ := hrunnable t ht d hd
    have heq := hfile.command_eq.symm.trans hgiven.command_eq
    rw [List.cons.injEq] at heq
    rw [heq.1]
    exact hshell
  · obtain ⟨j, hj, hd⟩ := hhands t ht d hd
    rcases h with hnone | hshell
    · rw [hnone] at hj
      cases hj
    · exact ⟨j, _, hj, hshell, hd⟩

/-- Blank images come from everywhere, and still every container can be started. -/
theorem Settings.isRunnable_iff_of_ofLayers_blank_images :
    let file : Settings := { standard with defaults := ⟨" ", "/bin/bash"⟩ }
    let env : String → Option String := fun name =>
      if name = "ARGUS_DEFAULT_IMAGE" then some "\t" else none
    let line : Overrides := { Overrides.empty with image := some "alpine" }
    let st : Settings := { standard with defaults := ⟨"alpine", "/bin/bash"⟩ }
    let build : Job := { Job.empty with runsOn := some (.label "linux"), container := some (.image "") }
    let deploy : Job := { Job.empty with needs := some (.several ["build"]) }
    let p : Pipeline := ⟨"ci", .empty, [("build", build), ("deploy", deploy)]⟩
    let store : Store := fun _ _ => .answer (.found "image: ' '".toUTF8.toList)
    ofLayers file env line = .ok st ∧ (∃ g, JobGraph.validated p = .ok g) ∧
      ∃ x, (st.converter .yaml).build store p = .done x ∧ x.manifest.IsRunnable p := by
  intro file env line st build deploy p store
  have hst : ofLayers file env line = .ok st := by decide +kernel
  obtain ⟨hbuild, hrunnable⟩ :=
    isRunnable_iff_of_ofLayers hst (p := p) (g := JobGraph.tables p) rfl store .yaml
  obtain ⟨x, hx⟩ := hbuild fun _ _ => ⟨_, rfl⟩
  exact ⟨hst, ⟨_, rfl⟩, x, hx, (hrunnable x hx).2.2 (.inr (by decide +kernel))⟩

/-- A blank shell passes the checks, and a container hands its script to it. -/
theorem Settings.blank_shell_is_accepted :
    let file : Settings := { standard with defaults := { standard.defaults with shell := " " } }
    let p : Pipeline := ⟨"", .empty, [("a", .empty)]⟩
    ofText "[converter]\nshell = \" \"\n" = .ok file ∧
      ofLayers file (fun _ => none) .empty = .ok file ∧
      (∃ g, JobGraph.validated p = .ok g) ∧
      ∃ x, (file.converter .yaml).build (fun _ _ => .answer .missing) p = .done x ∧
        ¬ x.manifest.IsRunnable p := by
  intro file p
  refine ⟨by decide +kernel, by decide +kernel, ⟨_, rfl⟩, _, rfl, fun hrunnable => ?_⟩
  obtain ⟨_, shell, -, hshell, hgiven⟩ := hrunnable _ (List.mem_cons_of_mem _ List.mem_cons_self) _ rfl
  have heq : [" ", "-c"] = [shell, "-c"] := hgiven.command_eq
  cases heq
  exact absurd hshell (by decide)

end JobLoom
