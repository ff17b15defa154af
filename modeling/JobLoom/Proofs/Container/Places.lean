import Mathlib.Data.List.Sort
import JobLoom.Proofs.Container.Variables
import JobLoom.Proofs.Text.ByteOrder

/-!
# Where the variables of a container stand

The variables of a container are those of its descriptor with the winning values put in, told place
by place.

* **Old places.** Every variable of the descriptor keeps its place and its name. The first one of a
  name takes the winning value, if there is one; what stands elsewhere keeps its value.
* **New places.** The names that only the job and its pipeline set come after them, each once, in
  the order of their bytes.
-/

namespace JobLoom

/-- Some variables, and what has become of them after the winning values have been put in. -/
structure IsMerged (win : String → Option String) (old env : List EnvVar) : Prop where
  /-- the names stand where they stood -/
  names_take : (env.take old.length).map EnvVar.name = old.map EnvVar.name
  /-- a variable without a winning value stays as it is -/
  untouched : ∀ (i : Nat) (v : EnvVar), old[i]? = some v → win v.name = none → env[i]? = some v
  /-- the first variable of a name takes the winning value -/
  first : ∀ (i : Nat) (v : EnvVar) (value : String), old[i]? = some v →
    v.name ∉ (old.take i).map EnvVar.name → win v.name = some value →
      env[i]? = some ⟨v.name, value⟩
  /-- a later variable of a name stays as it is -/
  later : ∀ (i : Nat) (v : EnvVar), old[i]? = some v →
    v.name ∈ (old.take i).map EnvVar.name → env[i]? = some v
  /-- the new variables are the winning ones that were not there -/
  mem_drop_iff : ∀ v, v ∈ env.drop old.length ↔
    v.name ∉ old.map EnvVar.name ∧ win v.name = some v.value
  /-- the new variables are in the order of the bytes of their names -/
  ascending_drop : (env.drop old.length).Pairwise fun a b =>
    Text.Utf8.encode a.name < Text.Utf8.encode b.name

/-! ## Old places -/

/-- A variable that is put in stands where the old one of its name stood. -/
theorem getElem?_overridden (win : String → Option String) (seen : List String)
    {env : List EnvVar} {i : Nat} {v : EnvVar} (h : env[i]? = some v) :
    (overridden win seen env)[i]? = some
      (if v.name ∈ seen ∨ v.name ∈ (env.take i).map EnvVar.name then v
        else ⟨v.name, (win v.name).getD v.value⟩) := by
  induction env generalizing seen i with
  | nil => cases h
  | cons u rest ih =>
    rw [overridden]
    cases i with
    | zero =>
      obtain rfl := Option.some.inj h
      simp only [List.getElem?_cons_zero, List.take_zero, List.map_nil, List.not_mem_nil, or_false]
    | succ i =>
      rw [List.getElem?_cons_succ] at h ⊢
      rw [ih (u.name :: seen) h, List.take_succ_cons, List.map_cons]
      have hseen : (v.name ∈ u.name :: seen ∨ v.name ∈ (rest.take i).map EnvVar.name) ↔
          (v.name ∈ seen ∨ v.name ∈ u.name :: (rest.take i).map EnvVar.name) := by
        simp only [List.mem_cons]
        tauto
      simp only [hseen]

theorem length_overridden (win : String → Option String) (seen : List String)
    (env : List EnvVar) : (overridden win seen env).length = env.length := by
  have hnames := congrArg List.length (names_overridden win seen env)
  rwa [List.length_map, List.length_map] at hnames

/-! ## New places -/

/-- The new variables are those of the dictionary that are not there yet. -/
theorem mem_added_iff {old : List EnvVar} {vars : Dictionary String} {v : EnvVar} :
    v ∈ added old vars.entries ↔
      v.name ∉ old.map EnvVar.name ∧ vars.get? v.name = some v.value := by
  unfold added
  rw [List.mem_map]
  constructor
  · rintro ⟨e, he, rfl⟩
    obtain ⟨hmem, hnew⟩ := List.mem_filter.1 he
    exact ⟨by simpa using hnew, lookup_eq_some_of_mem vars.nodup_keys hmem⟩
  · rintro ⟨hnew, hget⟩
    obtain ⟨before, after, hsplit, -⟩ := List.lookup_eq_some_iff.1 hget
    have hmem : (v.name, v.value) ∈ vars.entries :=
      hsplit ▸ List.mem_append_right _ List.mem_cons_self
    exact ⟨(v.name, v.value), List.mem_filter.2 ⟨hmem, by simpa using hnew⟩, rfl⟩

/-- The new variables come in the order of the bytes of their names. -/
theorem ascending_added (old : List EnvVar) (vars : Dictionary String) :
    (added old vars.entries).Pairwise fun a b =>
      Text.Utf8.encode a.name < Text.Utf8.encode b.name :=
  List.pairwise_map.2 ((vars.ascending.sublist List.filter_sublist).imp
    fun hlt => Text.Utf8.encode_lt_encode hlt)

/-! ## All places -/

/-- The variables of a dictionary are put in place by place. -/
theorem isMerged_overridden (old : List EnvVar) (vars : Dictionary String) :
    IsMerged vars.get? old (overridden vars.get? [] old ++ added old vars.entries) := by
  have hlength := length_overridden vars.get? [] old
  have hplace {i : Nat} {v : EnvVar} (h : old[i]? = some v) :
      (overridden vars.get? [] old ++ added old vars.entries)[i]? = some
        (if v.name ∈ (old.take i).map EnvVar.name then v
          else ⟨v.name, (vars.get? v.name).getD v.value⟩) := by
    have hi := (List.getElem?_eq_some_iff.1 h).1
    rw [List.getElem?_append_left (hlength ▸ hi), getElem?_overridden _ _ h]
    simp only [List.not_mem_nil, false_or]
  refine ⟨?_, fun i v h hnone => ?_, fun i v value h hfirst hwin => ?_, fun i v h hlater => ?_,
    fun v => ?_, ?_⟩
  · rw [← hlength, List.take_left, names_overridden]
  · rw [hplace h, hnone]
    split <;> rfl
  · rw [hplace h, if_neg hfirst, hwin]
    rfl
  · rw [hplace h, if_pos hlater]
  · rw [← hlength, List.drop_left]
    exact mem_added_iff
  · rw [← hlength, List.drop_left]
    exact ascending_added old vars

namespace IsMerged

variable {win : String → Option String} {old env env' : List EnvVar}

/-- The names are the old ones and those with a winning value. -/
theorem mem_names_iff (h : IsMerged win old env) {name : String} :
    name ∈ env.map EnvVar.name ↔ name ∈ old.map EnvVar.name ∨ (win name).isSome := by
  rw [← List.take_append_drop old.length env, List.map_append, h.names_take, List.mem_append]
  constructor
  · rintro (hold | hnew)
    · exact .inl hold
    · obtain ⟨v, hv, rfl⟩ := List.mem_map.1 hnew
      rw [((h.mem_drop_iff v).1 hv).2]
      exact .inr rfl
  · rintro (hold | hwin)
    · exact .inl hold
    · by_cases hold : name ∈ old.map EnvVar.name
      · exact .inl hold
      · obtain ⟨value, hvalue⟩ := Option.isSome_iff_exists.1 hwin
        exact .inr (List.mem_map.2 ⟨⟨name, value⟩, (h.mem_drop_iff _).2 ⟨hold, hvalue⟩, rfl⟩)

theorem nodup_names (h : IsMerged win old env) (hold : (old.map EnvVar.name).Nodup) :
    (env.map EnvVar.name).Nodup := by
  rw [← List.take_append_drop old.length env, List.map_append, h.names_take]
  refine List.nodup_append.2 ⟨hold, ?_, ?_⟩
  · refine List.pairwise_map.2 (h.ascending_drop.imp fun {a b} hlt heq => ?_)
    rw [heq] at hlt
    exact absurd hlt (List.lt_irrefl _)
  · rintro name hname _ hnew rfl
    obtain ⟨v, hv, rfl⟩ := List.mem_map.1 hnew
    exact ((h.mem_drop_iff v).1 hv).1 hname

theorem length_take (h : IsMerged win old env) : (env.take old.length).length = old.length := by
  have hnames := congrArg List.length h.names_take
  rwa [List.length_map, List.length_map] at hnames

/-- What stands in an old place is told by what stood there. -/
theorem getElem?_eq (h : IsMerged win old env) {i : Nat} {v : EnvVar} (hv : old[i]? = some v) :
    env[i]? = some (if v.name ∈ (old.take i).map EnvVar.name then v
      else ⟨v.name, (win v.name).getD v.value⟩) := by
  split
  · next hlater => exact h.later i v hv hlater
  · next hfirst =>
    cases hwin : win v.name with
    | none => exact h.untouched i v hv hwin
    | some value => exact h.first i v value hv hfirst hwin

/-- There is one way to put the winning values in. -/
theorem unique (h : IsMerged win old env) (h' : IsMerged win old env') : env = env' := by
  have htake : env.take old.length = env'.take old.length := by
    refine List.ext_getElem? fun i => ?_
    by_cases hi : i < old.length
    · have hv := List.getElem?_eq_getElem hi
      rw [List.getElem?_take_of_lt hi, List.getElem?_take_of_lt hi, h.getElem?_eq hv,
        h'.getElem?_eq hv]
    · have hout := Nat.not_lt.1 hi
      rw [List.getElem?_eq_none (h.length_take.trans_le hout),
        List.getElem?_eq_none (h'.length_take.trans_le hout)]
  have hdrop : env.drop old.length = env'.drop old.length := by
    have : Std.Asymm fun a b : EnvVar => Text.Utf8.encode a.name < Text.Utf8.encode b.name :=
      ⟨fun _ _ => List.lt_asymm⟩
    refine h.ascending_drop.eq_of_mem_iff h'.ascending_drop fun {v} => ?_
    rw [h.mem_drop_iff, h'.mem_drop_iff]
  rw [← List.take_append_drop old.length env, htake, hdrop, List.take_append_drop]

end IsMerged

namespace ContainerDescriptor

/-- The variables of the container of a job are those of the descriptor with the winning values put
in. -/
theorem isMerged_winning (d : ContainerDescriptor) (j : Job) (shared : Dictionary String)
    (defaults : ContainerDefaults) :
    IsMerged (j.winning? shared) d.env (d.forJob j shared defaults).env := by
  have hwin : j.winning? shared = (j.overrides shared).get? :=
    funext fun name => (j.get?_overrides shared name).symm
  rw [env_forJob, hwin]
  exact isMerged_overridden d.env (j.overrides shared)

/-- **Every variable in its place.** The variables of the container of a job are those of the
descriptor with the winning values put in, and there is no other way to put them in. No name of the
descriptor or of a winning value is lost, no other name comes up, and no name comes twice that does
not in the descriptor. -/
theorem isMerged_env_forJob (d : ContainerDescriptor) (j : Job) (shared : Dictionary String)
    (defaults : ContainerDefaults) :
    IsMerged (j.winning? shared) d.env (d.forJob j shared defaults).env ∧
      (∀ env, IsMerged (j.winning? shared) d.env env → env = (d.forJob j shared defaults).env) ∧
      (∀ name, name ∈ (d.forJob j shared defaults).env.map EnvVar.name ↔
        name ∈ d.env.map EnvVar.name ∨ (j.winning? shared name).isSome) ∧
      ((d.env.map EnvVar.name).Nodup →
        ((d.forJob j shared defaults).env.map EnvVar.name).Nodup) := by
  have hmerged := d.isMerged_winning j shared defaults
  exact ⟨hmerged, fun env henv => henv.unique hmerged, fun name => hmerged.mem_names_iff,
    hmerged.nodup_names⟩

/-- Three layers that overlap, over a descriptor with a name that none of them sets. -/
theorem isMerged_env_forJob_of_three_layers :
    let d : ContainerDescriptor :=
      { empty with env := [⟨"B", "store"⟩, ⟨"Z", "store"⟩, ⟨"A", "store"⟩] }
    let shared := Dictionary.ofList [("a", "pipeline"), ("B", "pipeline"), ("C", "pipeline")]
    let j : Job := { Job.empty with
      env := .ofList [("D", "job"), ("B", "job")]
      container := some (.spec none (.ofList [("C", "inline"), ("A", "inline")])) }
    let env : List EnvVar := [⟨"B", "job"⟩, ⟨"Z", "store"⟩, ⟨"A", "inline"⟩, ⟨"C", "inline"⟩,
      ⟨"D", "job"⟩, ⟨"a", "pipeline"⟩]
    IsMerged (j.winning? shared) d.env env ∧ env = (d.forJob j shared ⟨"ubuntu", "sh"⟩).env ∧
      (d.env.map EnvVar.name).Nodup ∧
      ((d.forJob j shared ⟨"ubuntu", "sh"⟩).env.map EnvVar.name).Nodup := by
  intro d shared j env
  have henv : (d.forJob j shared ⟨"ubuntu", "sh"⟩).env = env := by decide +kernel
  have hold : (d.env.map EnvVar.name).Nodup := by decide
  obtain ⟨hmerged, hunique, -, hnodup⟩ := isMerged_env_forJob d j shared ⟨"ubuntu", "sh"⟩
  rw [henv] at hmerged
  exact ⟨hmerged, hunique env hmerged, hold, hnodup hold⟩

end ContainerDescriptor

end JobLoom
