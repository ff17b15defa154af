import JobLoom.Proofs.Decimal.Count
import JobLoom.Proofs.Settings.Layers
import JobLoom.Settings.Reading

/-!
# Effective settings

Every setting on its own is decided by the highest layer that gives it: the command line, the
environment, the file, and what is usual.

* **Blank variables** give nothing. A variable that should be a count and is none is refused, even
  if the command line gives that setting.
* **Checks** look at the settings that come out, so a bad value in a lower layer does no harm when a
  higher one replaces it.
* **Other settings** have no part in it: what is changed about one of them changes that one alone.
-/

namespace JobLoom

/-- The settings, one by one. -/
inductive Setting where
  /-- how many conversions are in progress at most -/
  | workers
  /-- how many requests wait at most -/
  | capacity
  /-- the namespace of the entries in the store -/
  | space
  /-- the directory of the store -/
  | storeDir
  /-- the image of containers without one -/
  | image
  /-- the shell that scripts are handed to -/
  | shell
  deriving DecidableEq

namespace Setting

/-- The value of a setting. -/
inductive Value where
  /-- a number of things -/
  | count (n : Nat)
  /-- a text -/
  | text (t : String)
  deriving DecidableEq

/-- The environment variable that gives the setting. -/
def envName? : Setting → Option String
  | .workers => some "ARGUS_WORKERS"
  | .capacity => some "ARGUS_QUEUE_CAPACITY"
  | .space => some "ARGUS_NAMESPACE"
  | .storeDir => some "ARGUS_STORE_DIR"
  | .image => some "ARGUS_DEFAULT_IMAGE"
  | .shell => none

/-- Where the setting stands in a file: its section, its name and its place in that section. -/
def address : Setting → String × String × Nat
  | .workers => ("dispatcher", "workers", 0)
  | .capacity => ("dispatcher", "queue_capacity", 1)
  | .space => ("store", "namespace", 0)
  | .storeDir => ("store", "dir", 1)
  | .image => ("converter", "default_image", 0)
  | .shell => ("converter", "shell", 1)

/-- The setting is a number of things. -/
def IsCount (k : Setting) : Prop := k = .workers ∨ k = .capacity

instance (k : Setting) : Decidable k.IsCount := inferInstanceAs (Decidable (_ ∨ _))

end Setting

/-! ## What the layers give -/

/-- The value that settings have for a setting. -/
def Settings.get? (s : Settings) : Setting → Option Setting.Value
  | .workers => some (.count s.pool.workers)
  | .capacity => some (.count s.pool.capacity)
  | .space => some (.text s.space)
  | .storeDir => s.storeDir.map .text
  | .image => some (.text s.defaults.image)
  | .shell => some (.text s.defaults.shell)

/-- The value that a layer gives to a setting. -/
def Overrides.get? (o : Overrides) : Setting → Option Setting.Value
  | .workers => o.workers.map .count
  | .capacity => o.capacity.map .count
  | .space => o.space.map .text
  | .storeDir => o.storeDir.map .text
  | .image => o.image.map .text
  | .shell => none

namespace Setting

/-- The value that a variable says, if it is not blank and not a count where it should be one. -/
def read? (k : Setting) (text : String) : Option Value :=
  if Text.isBlankText text then none
  else if k.IsCount then (Decimal.countOf? (Text.trim text.toList)).map .count
  else some (.text text)

/-- The value that an environment gives to a setting. -/
def inEnvironment? (k : Setting) (env : String → Option String) : Option Value :=
  (k.envName?.bind env).bind k.read?

/-- The variable of the setting should be a count, and it is neither blank nor one. -/
def IsMisread (k : Setting) (env : String → Option String) : Prop :=
  k.IsCount ∧ ∃ name text, k.envName? = some name ∧ env name = some text ∧
    Text.isBlankText text = false ∧ ¬Decimal.IsCount (Text.trim text.toList)

/-- What a file has at the address of a setting. A section may be a table or an array. -/
def entry? (k : Setting) (entries : List (String × Toml.Value)) : Option Toml.Value :=
  match entries.lookup k.address.1 with
  | some (.table inner) => inner.lookup k.address.2.1
  | some (.array items) => items[k.address.2.2]?
  | _ => none

/-- The value that an entry of a file says. -/
def Value.ofEntry? : Toml.Value → Option Value
  | .integer (.ofNat n) => some (.count n)
  | .text t => some (.text t)
  | _ => none

/-- The value that a file gives to a setting. -/
def inFile? (k : Setting) (entries : List (String × Toml.Value)) : Option Value :=
  (k.entry? entries).bind Value.ofEntry?

end Setting

/-- What the settings of a service are put together from. -/
structure Layers where
  /-- the entries of the settings file -/
  entries : List (String × Toml.Value)
  /-- the environment -/
  env : String → Option String
  /-- the command line -/
  line : Overrides

namespace Layers

/-- The value that a setting should have: that of the highest layer that gives one. -/
def effective? (l : Layers) (k : Setting) : Option Setting.Value :=
  (l.line.get? k).or ((k.inEnvironment? l.env).or ((k.inFile? l.entries).or
    (Settings.standard.get? k)))

/-- Why no service could run with these layers. -/
inductive IsRefused (l : Layers) : Prop where
  /-- a variable should be a count and is none -/
  | misread {k : Setting} (h : k.IsMisread l.env)
  /-- a count is zero -/
  | zero {k : Setting} (hk : k.IsCount) (hzero : l.effective? k = some (.count 0))
  /-- the namespace or the image is blank -/
  | blank {k : Setting} {text : String} (hk : k = .space ∨ k = .image)
    (htext : l.effective? k = some (.text text)) (hblank : Text.isBlankText text = true)

/-- One layer gives another value to one setting, or none any more. -/
inductive Change (k : Setting) : Layers → Layers → Prop where
  /-- the file -/
  | file {entries entries' : List (String × Toml.Value)} {env : String → Option String}
    {line : Overrides} (h : ∀ k' ≠ k, k'.entry? entries = k'.entry? entries') :
    Change k ⟨entries, env, line⟩ ⟨entries', env, line⟩
  /-- the environment -/
  | environment {entries : List (String × Toml.Value)} {env env' : String → Option String}
    {line : Overrides} (h : ∀ name, k.envName? ≠ some name → env name = env' name) :
    Change k ⟨entries, env, line⟩ ⟨entries, env', line⟩
  /-- the command line -/
  | line {entries : List (String × Toml.Value)} {env : String → Option String}
    {line line' : Overrides} (h : ∀ k' ≠ k, line.get? k' = line'.get? k') :
    Change k ⟨entries, env, line⟩ ⟨entries, env, line'⟩

end Layers

variable {file st : Settings} {env : String → Option String} {line o : Overrides}
  {entries : List (String × Toml.Value)} {k k' : Setting} {name : String}

/-! ## The environment -/

namespace Setting

theorem inEnvironment?_eq (hname : k.envName? = some name) :
    k.inEnvironment? env = (env name).bind k.read? := by
  rw [inEnvironment?, hname, Option.bind_some]

/-- Different settings have different variables. -/
theorem envName?_ne (hk : k' ≠ k) (hname : k'.envName? = some name) : k.envName? ≠ some name := by
  intro h
  have heq : k'.envName? = k.envName? := hname.trans h.symm
  cases k <;> cases k' <;> first | exact hk rfl | simp [envName?] at heq

end Setting

namespace Overrides

open Setting (IsMisread)

/-- A variable without a value, or with a blank one, gives nothing. -/
theorem visible?_eq_none (h : ∀ text, env name = some text → Text.isBlankText text = true) :
    visible? env name = none :=
  Option.filter_eq_none_iff.2 fun text htext => by simp [h text htext]

theorem visible?_eq_some {text : String} (htext : env name = some text)
    (h : Text.isBlankText text = false) : visible? env name = some text := by
  rw [visible?, htext]
  exact Option.filter_some_pos (by simp [h])

theorem map_visible? (hk : ¬k.IsCount) (hname : k.envName? = some name) :
    (visible? env name).map .text = k.inEnvironment? env := by
  rw [Setting.inEnvironment?_eq hname, visible?]
  cases env name with
  | none => rfl
  | some text => cases htext : Text.isBlankText text <;> simp [Setting.read?, htext, hk]

/-- A variable that is misread is refused. -/
theorem exists_count?_eq_error (h : k.IsMisread env) (hname : k.envName? = some name) :
    ∃ reason, count? env name = .error (.config reason) := by
  obtain ⟨-, name', text, hname', htext, hvisible, hbad⟩ := h
  cases hname.symm.trans hname'
  have hread : Decimal.readCount (Text.trim text.toList) = none := by
    rw [Decimal.readCount_eq, Decimal.countOf?, if_neg hbad]
  simp only [count?, visible?_eq_some htext hvisible, hread]
  exact ⟨_, rfl⟩

theorem exists_count?_eq_ok (hk : k.IsCount) (hname : k.envName? = some name)
    (h : ¬k.IsMisread env) :
    ∃ c, count? env name = .ok c ∧ c.map .count = k.inEnvironment? env := by
  rw [Setting.inEnvironment?_eq hname]
  by_cases hgiven : ∃ text, env name = some text ∧ Text.isBlankText text = false
  · obtain ⟨text, htext, hvisible⟩ := hgiven
    have hcount : Decimal.IsCount (Text.trim text.toList) :=
      not_not.1 fun hbad => h ⟨hk, name, text, hname, htext, hvisible, hbad⟩
    have hread := Decimal.readCount_eq (Text.trim text.toList)
    rw [Decimal.countOf?, if_pos hcount] at hread
    refine ⟨some (Nat.ofDigitChars 10 (Decimal.countDigits (Text.trim text.toList)) 0), ?_, ?_⟩
    · simp only [count?, visible?_eq_some htext hvisible, hread]
    · simp [htext, Setting.read?, hvisible, hk, Decimal.countOf?, hcount]
  · have hblank : ∀ text, env name = some text → Text.isBlankText text = true := fun text htext =>
      Bool.not_eq_false _ ▸ fun hvisible => hgiven ⟨text, htext, hvisible⟩
    refine ⟨none, by simp only [count?, visible?_eq_none hblank], ?_⟩
    cases henv : env name with
    | none => rfl
    | some text => simp [Setting.read?, hblank text henv]

/-- An environment with a variable that is misread gives no layer. -/
theorem exists_ofEnvironment_eq_error (h : k.IsMisread env) :
    ∃ reason, ofEnvironment env = .error (.config reason) := by
  by_cases hworkers : Setting.workers.IsMisread env
  · obtain ⟨reason, hreason⟩ := exists_count?_eq_error hworkers rfl
    exact ⟨reason, bind_eq_error_iff.2 (.inl hreason)⟩
  · obtain rfl : k = .capacity := h.1.resolve_left fun hk => hworkers (hk ▸ h)
    obtain ⟨workers, hcount, -⟩ := exists_count?_eq_ok (.inl rfl) rfl hworkers
    obtain ⟨reason, hreason⟩ := exists_count?_eq_error h rfl
    exact ⟨reason, bind_eq_error_iff.2
      (.inr ⟨workers, hcount, bind_eq_error_iff.2 (.inl hreason)⟩)⟩

/-- Any other environment gives what its variables say. -/
theorem exists_ofEnvironment_eq_ok (h : ∀ k : Setting, ¬k.IsMisread env) :
    ∃ o, ofEnvironment env = .ok o ∧ ∀ k, o.get? k = k.inEnvironment? env := by
  obtain ⟨workers, hworkers, hw⟩ := exists_count?_eq_ok (.inl rfl) rfl (h .workers)
  obtain ⟨capacity, hcapacity, hc⟩ := exists_count?_eq_ok (.inr rfl) rfl (h .capacity)
  refine ⟨_, bind_eq_ok_iff.2 ⟨_, hworkers, bind_eq_ok_iff.2 ⟨_, hcapacity, rfl⟩⟩, fun k => ?_⟩
  cases k with
  | workers => exact hw
  | capacity => exact hc
  | space => exact map_visible? (by decide) rfl
  | storeDir => exact map_visible? (by decide) rfl
  | image => exact map_visible? (by decide) rfl
  | shell => rfl

end Overrides

/-! ## The file -/

namespace Section

variable {sec : Section} {key : String} {place : Nat}

/-- A section has what the file has at its address. -/
theorem value?_of_ofEntries (h : ofEntries entries k.address.1 = .ok sec) :
    sec.value? k.address.2.1 k.address.2.2 = k.entry? entries := by
  unfold ofEntries at h
  unfold Setting.entry?
  split at h <;> cases h <;> simp only [*] <;> rfl

theorem of_count_eq_ok {n usual : Nat} (h : sec.count key place usual = .ok n) :
    some (Setting.Value.count n) =
      ((sec.value? key place).bind Setting.Value.ofEntry?).or (some (.count usual)) := by
  unfold count at h
  split at h <;> cases h <;> simp only [*] <;> rfl

theorem of_text?_eq_ok {t : Option String} (h : sec.text? key place = .ok t) :
    t.map .text = (sec.value? key place).bind Setting.Value.ofEntry? := by
  unfold text? at h
  split at h <;> cases h <;> simp only [*] <;> rfl

theorem of_text_eq_ok {t usual : String} (h : sec.text key place usual = .ok t) :
    some (Setting.Value.text t) =
      ((sec.value? key place).bind Setting.Value.ofEntry?).or (some (.text usual)) := by
  unfold text at h
  cases ht : sec.text? key place with
  | error e =>
    rw [ht] at h
    cases h
  | ok t' =>
    rw [ht] at h
    cases h
    rw [← of_text?_eq_ok ht]
    cases t' <;> rfl

end Section

namespace Settings

/-- A setting of a file is what the file has at its address; without that it is as usual. -/
theorem get?_ofEntries (h : ofEntries entries = .ok file) (k : Setting) :
    file.get? k = (k.inFile? entries).or (standard.get? k) := by
  simp only [ofEntries, bind_eq_ok_iff] at h
  obtain ⟨pool, hpool, workers, hworkers, capacity, hcapacity, store, hstore, space, hspace, dir,
    hdir, converter, hconverter, image, himage, shell, hshell, hfile⟩ := h
  cases hfile
  unfold Setting.inFile?
  cases k with
  | workers => rw [← Section.value?_of_ofEntries hpool]; exact Section.of_count_eq_ok hworkers
  | capacity => rw [← Section.value?_of_ofEntries hpool]; exact Section.of_count_eq_ok hcapacity
  | space => rw [← Section.value?_of_ofEntries hstore]; exact Section.of_text_eq_ok hspace
  | storeDir =>
    rw [← Section.value?_of_ofEntries hstore]
    exact (Section.of_text?_eq_ok hdir).trans (Option.or_none).symm
  | image => rw [← Section.value?_of_ofEntries hconverter]; exact Section.of_text_eq_ok himage
  | shell => rw [← Section.value?_of_ofEntries hconverter]; exact Section.of_text_eq_ok hshell

/-- A text gives settings exactly if it has entries and they say what the settings are. -/
theorem ofText_eq_ok_iff {text : String} : ofText text = .ok file ↔
    ∃ entries, Toml.read text = .ok entries ∧ ofEntries entries = .ok file := by
  rw [← bind_eq_ok_iff]
  unfold ofText
  split <;> simp_all

/-! ## All layers -/

/-- A layer on top decides the settings that it gives. -/
theorem get?_apply (s : Settings) (o : Overrides) (k : Setting) :
    (s.apply o).get? k = (o.get? k).or (s.get? k) := by
  obtain ⟨workers, capacity, space, storeDir, image⟩ := o
  cases k with
  | workers => cases workers <;> rfl
  | capacity => cases capacity <;> rfl
  | space => cases space <;> rfl
  | storeDir => exact Option.map_or
  | image => cases image <;> rfl
  | shell => rfl

/-- Of the environment only the variables that count are looked at. -/
theorem ofLayers_congr {env' : String → Option String} (h : ∀ name ∈ Overrides.names,
    env name = env' name) : ofLayers file env line = ofLayers file env' line := by
  have hlayer : Overrides.ofEnvironment env = Overrides.ofEnvironment env' := by
    simp only [Overrides.names, List.forall_mem_cons] at h
    obtain ⟨hworkers, hcapacity, hspace, hdir, himage, -⟩ := h
    simp only [Overrides.ofEnvironment, Overrides.count?, Overrides.visible?, hworkers, hcapacity,
      hspace, hdir, himage]
  simp only [ofLayers, withEnvironment, hlayer]

/-- Checks refuse with a reason. -/
theorem exists_config_of_check {e : ConvertError} (h : st.check = .error e) :
    ∃ reason, e = .config reason := by
  unfold check PoolSize.check at h
  rcases bind_eq_error_iff.1 h with h | ⟨-, -, h⟩
  · split at h
    · cases h
      exact ⟨_, rfl⟩
    · split at h <;> cases h
      exact ⟨_, rfl⟩
  · dsimp only at h
    split at h
    · cases h
      exact ⟨_, rfl⟩
    · split at h <;> cases h
      exact ⟨_, rfl⟩

theorem pool_check_eq_ok_iff : st.pool.check = .ok () ↔
    ∀ k : Setting, k.IsCount → st.get? k ≠ some (.count 0) := by
  unfold PoolSize.check
  constructor
  · intro h k hk
    split at h
    · cases h
    · split at h
      · cases h
      · next hworkers hcapacity => rcases hk with rfl | rfl <;> simpa [get?]
  · intro h
    rw [if_neg (by simpa [get?] using h .workers (.inl rfl)),
      if_neg (by simpa [get?] using h .capacity (.inr rfl))]

/-- Settings pass their checks exactly if no count is zero and no text that is looked at is
blank. -/
theorem check_eq_ok_iff_get? : st.check = .ok () ↔
    (∀ k : Setting, k.IsCount → st.get? k ≠ some (.count 0)) ∧
      ∀ (k : Setting) (text : String), k = .space ∨ k = .image → st.get? k = some (.text text) →
        Text.isBlankText text = false := by
  rw [check_eq_ok_iff, pool_check_eq_ok_iff]
  refine and_congr_right fun _ =>
    ⟨?_, fun h => ⟨h .space _ (.inl rfl) rfl, h .image _ (.inr rfl) rfl⟩⟩
  rintro ⟨hspace, himage⟩ k text (rfl | rfl) htext
  · cases htext
    exact hspace
  · cases htext
    exact himage

end Settings

namespace Layers

variable {l l' : Layers}

/-- If no variable is misread, the layers come together as they should. -/
theorem exists_apply_eq (hfile : Settings.ofEntries l.entries = .ok file)
    (h : ∀ k : Setting, ¬k.IsMisread l.env) : ∃ o, Overrides.ofEnvironment l.env = .ok o ∧
      ∀ k, ((file.apply o).apply l.line).get? k = l.effective? k := by
  obtain ⟨o, ho, henv⟩ := Overrides.exists_ofEnvironment_eq_ok h
  refine ⟨o, ho, fun k => ?_⟩
  rw [Settings.get?_apply, Settings.get?_apply, henv, Settings.get?_ofEntries hfile, effective?]

/-- Layers that are refused come to nothing, for a reason. -/
theorem IsRefused.exists_ofLayers_eq (h : l.IsRefused)
    (hfile : Settings.ofEntries l.entries = .ok file) :
    ∃ reason, Settings.ofLayers file l.env l.line = .error (.config reason) := by
  unfold Settings.ofLayers Settings.withEnvironment
  by_cases hread : ∃ k : Setting, k.IsMisread l.env
  · obtain ⟨k, hk⟩ := hread
    obtain ⟨reason, hreason⟩ := Overrides.exists_ofEnvironment_eq_error hk
    exact ⟨reason, by rw [hreason]; rfl⟩
  · obtain ⟨o, ho, heffective⟩ := exists_apply_eq hfile (not_exists.1 hread)
    cases hcheck : ((file.apply o).apply l.line).check with
    | error e =>
      obtain ⟨reason, rfl⟩ := Settings.exists_config_of_check hcheck
      exact ⟨reason, bind_eq_error_iff.2 (.inr ⟨file.apply o, by rw [ho]; rfl,
        bind_eq_error_iff.2 (.inl hcheck)⟩)⟩
    | ok _ =>
      obtain ⟨hcounts, htexts⟩ := Settings.check_eq_ok_iff_get?.1 hcheck
      cases h with
      | misread hk => exact absurd ⟨_, hk⟩ hread
      | zero hk hzero => exact absurd ((heffective _).trans hzero) (hcounts _ hk)
      | blank hk htext hblank =>
        cases hblank.symm.trans (htexts _ _ hk ((heffective _).trans htext))

/-- Other layers come to settings, each decided by the highest layer that gives it. -/
theorem exists_ofLayers_eq_ok (hfile : Settings.ofEntries l.entries = .ok file)
    (h : ¬l.IsRefused) : ∃ st, Settings.ofLayers file l.env l.line = .ok st ∧
      ∀ k, st.get? k = l.effective? k := by
  obtain ⟨o, ho, heffective⟩ := exists_apply_eq hfile fun k hk => h (.misread hk)
  refine ⟨_, Settings.ofLayers_eq_ok_iff.2 ⟨o, ho, rfl, Settings.check_eq_ok_iff_get?.2 ⟨?_, ?_⟩⟩,
    heffective⟩
  · intro k hk hzero
    exact h (.zero hk (heffective k ▸ hzero))
  · intro k text hk htext
    exact Bool.not_eq_true _ ▸ fun hblank => h (.blank hk (heffective k ▸ htext) hblank)

/-- What is changed about a setting in one layer changes no other setting. -/
theorem Change.effective?_eq (h : Change k l l') (hk : k' ≠ k) :
    l'.effective? k' = l.effective? k' := by
  cases h with
  | file h => simp only [effective?, Setting.inFile?, h k' hk]
  | line h => simp only [effective?, h k' hk]
  | @environment entries env env' line h =>
    have henv : k'.inEnvironment? env' = k'.inEnvironment? env := by
      cases hname : k'.envName? with
      | none => simp only [Setting.inEnvironment?, hname, Option.bind_none]
      | some name =>
        rw [Setting.inEnvironment?_eq hname, Setting.inEnvironment?_eq hname,
          h name (Setting.envName?_ne hk hname)]
    simp only [effective?, henv]

end Layers

end JobLoom
