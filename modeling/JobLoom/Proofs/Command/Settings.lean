import JobLoom.Proofs.Command.Session
import JobLoom.Proofs.Settings.Effective

/-!
# The settings of a command

A command puts its settings together from a file, the environment and the command line. What it
reads is told first: a file that decodes, or no file at the usual place. With that, a command fails
for its settings exactly if these layers are refused, and otherwise each setting is decided by the
highest layer that gives it.
-/

namespace JobLoom.Command.Session

variable {s : Session} {i : Invocation} {entries : List (String × Toml.Value)}

/-- The settings file of a command has these entries. -/
inductive HasFile (s : Session) (i : Invocation) : List (String × Toml.Value) → Prop where
  /-- The file that is asked for, or else the one at the usual place, decodes. -/
  | written {bytes : List UInt8} {text : List Char} {entries : List (String × Toml.Value)}
    {file : Settings} (hread : s.disk.read (i.config.getD s.settingsPath) = .ok bytes)
    (htext : Text.Utf8.decode? bytes = some text)
    (hentries : Toml.read (String.ofList text) = .ok entries)
    (hfile : Settings.ofEntries entries = .ok file) : HasFile s i entries
  /-- No file is asked for, and at the usual place is none. -/
  | absent (hconfig : i.config = none) (habsent : s.disk.holds s.settingsPath = false) :
    HasFile s i []

/-- What the settings of a command are put together from. -/
def layers (s : Session) (i : Invocation) (entries : List (String × Toml.Value)) : Layers :=
  ⟨entries, s.environment, i.overrides⟩

/-! ## The file -/

section

variable {path : String} {bytes : List UInt8} {text : List Char} {file : Settings}

/-- Looking for the usual place changes nothing. -/
theorem run_settingsPath (s : Session) : host.settingsPath.run s = (s.settingsPath, s) := rfl

/-- A file that decodes is read. -/
theorem run_settingsAt_of_read (hread : s.disk.read path = .ok bytes)
    (htext : Text.Utf8.decode? bytes = some text)
    (hfile : Settings.ofText (String.ofList text) = .ok file) :
    (host.settingsAt path).run.run s = (.ok file, s) := by
  unfold Host.settingsAt
  rw [run_bind_of_ok (run_lift (s.run_holds path)), Disk.holds_of_read hread, if_neg (by decide),
    run_bind_of_ok (run_lift (s.run_read path)), hread]
  dsimp only
  rw [htext]
  dsimp only
  rw [hfile]
  rfl

/-- Without a file everything is as usual. -/
theorem run_settingsAt_of_not_holds (h : s.disk.holds path = false) :
    (host.settingsAt path).run.run s = (.ok .standard, s) := by
  unfold Host.settingsAt
  rw [run_bind_of_ok (run_lift (s.run_holds path)), h]
  rfl

end

/-! ## All layers -/

/-- Once the settings in the file are read, the other layers are put on top of them. -/
theorem run_settings_of_settingsAt {file : Settings}
    (hgiven : ∀ path, i.config = some path → s.disk.holds path = true)
    (hat : (host.settingsAt (i.config.getD s.settingsPath)).run.run s = (.ok file, s)) :
    (host.settings i).run.run s =
      (Host.accept (Settings.ofLayers file s.environment i.overrides) :
        ExceptT Failure (StateM Session) Settings).run.run s := by
  have hseen : Settings.ofLayers file
      (fun name => if name ∈ Overrides.names then s.environment name else none) i.overrides =
        Settings.ofLayers file s.environment i.overrides :=
    Settings.ofLayers_congr fun name hname => if_pos hname
  have hlast : (do
      let file ← host.settingsAt (i.config.getD s.settingsPath)
      Host.accept (Settings.ofLayers file (← host.environment) i.overrides) :
        ExceptT Failure (StateM Session) Settings).run.run s =
      (Host.accept (Settings.ofLayers file s.environment i.overrides) :
        ExceptT Failure (StateM Session) Settings).run.run s := by
    rw [run_bind_of_ok hat, run_bind_of_ok (run_lift s.run_environment), hseen]
  unfold Host.settings
  cases hconfig : i.config with
  | none =>
    rw [hconfig] at hlast
    dsimp only
    rw [run_bind_of_ok (run_lift s.run_settingsPath)]
    exact hlast
  | some path =>
    rw [hconfig] at hlast
    dsimp only
    rw [run_bind_of_ok (run_lift (s.run_holds path)), hgiven path hconfig]
    exact hlast

/-- The environment and the command line are put on top of the file. -/
theorem HasFile.exists_run_settings (h : s.HasFile i entries) :
    ∃ file, Settings.ofEntries entries = .ok file ∧ (host.settings i).run.run s =
      (Host.accept (Settings.ofLayers file s.environment i.overrides) :
        ExceptT Failure (StateM Session) Settings).run.run s := by
  cases h with
  | written hread htext hentries hfile =>
    refine ⟨_, hfile, run_settings_of_settingsAt (fun path hpath => ?_)
      (run_settingsAt_of_read hread htext (Settings.ofText_eq_ok_iff.2 ⟨_, hentries, hfile⟩))⟩
    rw [hpath] at hread
    exact Disk.holds_of_read hread
  | absent hconfig habsent =>
    refine ⟨_, rfl, run_settings_of_settingsAt (fun path hpath => ?_) ?_⟩
    · cases hconfig.symm.trans hpath
    · rw [hconfig]
      exact run_settingsAt_of_not_holds habsent

namespace HasFile

/-- Layers that are refused make a command fail, and it says why. -/
theorem exists_run_settings_eq_error (h : s.HasFile i entries)
    (hrefused : (s.layers i entries).IsRefused) : ∃ reason,
      (host.settings i).run.run s = (.error (.conversion (.config reason)), s) := by
  obtain ⟨file, hfile, hrun⟩ := h.exists_run_settings
  obtain ⟨reason, hreason⟩ := hrefused.exists_ofLayers_eq hfile
  refine ⟨reason, hrun.trans ?_⟩
  dsimp only [layers] at hreason
  rw [hreason]
  rfl

/-- With other layers a command goes on, and the highest layer decides each setting. -/
theorem exists_run_settings_eq_ok (h : s.HasFile i entries)
    (hgood : ¬(s.layers i entries).IsRefused) : ∃ st, (host.settings i).run.run s = (.ok st, s) ∧
      ∀ k, st.get? k = (s.layers i entries).effective? k := by
  obtain ⟨file, hfile, hrun⟩ := h.exists_run_settings
  obtain ⟨st, hst, heffective⟩ := Layers.exists_ofLayers_eq_ok hfile hgood
  refine ⟨st, hrun.trans ?_, heffective⟩
  dsimp only [layers] at hst
  rw [hst]
  rfl

/-- Settings that a command goes on with are decided by the highest layer. -/
theorem get?_eq_effective? {st : Settings} (h : s.HasFile i entries)
    (hst : (host.settings i).run.run s = (.ok st, s)) (k : Setting) :
    st.get? k = (s.layers i entries).effective? k := by
  by_cases hrefused : (s.layers i entries).IsRefused
  · obtain ⟨_, herror⟩ := h.exists_run_settings_eq_error hrefused
    cases hst.symm.trans herror
  · obtain ⟨_, hok, heffective⟩ := h.exists_run_settings_eq_ok hrefused
    cases hst.symm.trans hok
    exact heffective k

end HasFile

/-- **Settings come from their layers, each on its own.** Whatever a command reads, it fails for its
settings exactly if a variable that should be a count is misread, a count comes out as zero, or the
namespace or the image comes out blank, and it says why. Otherwise every setting is that of the
command line, else of the environment, else of the file, else the usual one. What is changed about
one setting in one layer changes no other setting. -/
theorem settings_come_from_layers (h : s.HasFile i entries) :
    ((s.layers i entries).IsRefused → ∃ reason,
      (host.settings i).run.run s = (.error (.conversion (.config reason)), s)) ∧
    (¬(s.layers i entries).IsRefused → ∃ st, (host.settings i).run.run s = (.ok st, s) ∧
      ∀ k, st.get? k = (s.layers i entries).effective? k) ∧
    ∀ (s' : Session) (i' : Invocation) (entries' : List (String × Toml.Value)) (k : Setting)
      (st st' : Settings), s'.HasFile i' entries' →
      Layers.Change k (s.layers i entries) (s'.layers i' entries') →
      (host.settings i).run.run s = (.ok st, s) → (host.settings i').run.run s' = (.ok st', s') →
      ∀ k' ≠ k, st'.get? k' = st.get? k' := by
  refine ⟨h.exists_run_settings_eq_error, h.exists_run_settings_eq_ok, ?_⟩
  intro s' i' entries' k st st' h' hchange hst hst' k' hk
  rw [h.get?_eq_effective? hst, h'.get?_eq_effective? hst', hchange.effective?_eq hk]

/-- A file with a count that is zero and a blank namespace does no harm below the other layers; a
variable that is misread does, even below the command line. A change of one variable keeps all other
settings. -/
theorem settings_come_from_layers_mended :
    let text := "[dispatcher]\nworkers = 0\nqueue_capacity = 9\n" ++
      "[store]\nnamespace = ' '\n[converter]\nshell = 'sh'\n"
    let disk : Disk := ⟨[(["argus.toml"], .file text.toUTF8.toList)], []⟩
    let s (workers capacity : String) : Session :=
      ⟨disk, fun name =>
        if name = "ARGUS_WORKERS" then some workers
        else if name = "ARGUS_QUEUE_CAPACITY" then some capacity
        else if name = "ARGUS_NAMESPACE" then some "team" else none, "settings.toml", "", ""⟩
    let i : Invocation :=
      ⟨.validate "ci.yml", some "argus.toml", { Overrides.empty with workers := some 3 }⟩
    let st (capacity : Nat) : Settings := ⟨⟨3, capacity⟩, "team", none, ⟨"ubuntu:22.04", "sh"⟩⟩
    ∃ entries,
      ((s "\t" " +7 ").HasFile i entries ∧ ¬((s "\t" " +7 ").layers i entries).IsRefused ∧
        ∀ k, (st 7).get? k = ((s "\t" " +7 ").layers i entries).effective? k) ∧
      (∃ reason, (host.settings i).run.run (s "many" "7") =
        (.error (.conversion (.config reason)), s "many" "7")) ∧
      ∀ k ≠ .capacity, (st 8).get? k = (st 7).get? k := by
  intro text disk s i st
  have hread : disk.read "argus.toml" = .ok text.toUTF8.toList := by decide +kernel
  have htext : Text.Utf8.decode? text.toUTF8.toList = some text.toList := by decide +kernel
  have hof : Settings.ofText (String.ofList text.toList) =
    .ok ⟨⟨0, 9⟩, " ", none, ⟨"ubuntu:22.04", "sh"⟩⟩ := by decide +kernel
  obtain ⟨entries, hentries, hfile⟩ := Settings.ofText_eq_ok_iff.1 hof
  have hhas (workers capacity : String) : (s workers capacity).HasFile i entries :=
    .written hread htext hentries hfile
  have hseven : (host.settings i).run.run (s "\t" " +7 ") = (.ok (st 7), s "\t" " +7 ") :=
    run_settings_of_toOption (by decide +kernel)
  have height : (host.settings i).run.run (s "\t" "8") = (.ok (st 8), s "\t" "8") :=
    run_settings_of_toOption (by decide +kernel)
  have hgood : ¬((s "\t" " +7 ").layers i entries).IsRefused := fun hrefused => by
    obtain ⟨_, herror⟩ := (settings_come_from_layers (hhas "\t" " +7 ")).1 hrefused
    cases hseven.symm.trans herror
  have hmany : ((s "many" "7").layers i entries).IsRefused :=
    .misread (k := .workers) ⟨.inl rfl, "ARGUS_WORKERS", "many", rfl, rfl, by decide, by decide⟩
  have hchange : Layers.Change .capacity ((s "\t" " +7 ").layers i entries)
      ((s "\t" "8").layers i entries) := by
    refine .environment fun name hname => ?_
    have hne : name ≠ "ARGUS_QUEUE_CAPACITY" := fun heq => hname (heq ▸ rfl)
    simp only [s, if_neg hne]
  refine ⟨entries, ⟨hhas _ _, hgood, fun k => ?_⟩,
    (settings_come_from_layers (hhas "many" "7")).1 hmany, ?_⟩
  · obtain ⟨_, hst, heffective⟩ := (settings_come_from_layers (hhas "\t" " +7 ")).2.1 hgood
    cases hseven.symm.trans hst
    exact heffective k
  · exact (settings_come_from_layers (hhas "\t" " +7 ")).2.2 _ _ _ _ _ _ (hhas _ _) hchange hseven
      height

end JobLoom.Command.Session
