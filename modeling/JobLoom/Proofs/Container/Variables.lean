import JobLoom.Container.Decoding
import JobLoom.Container.Merge
import JobLoom.Proofs.Dictionary

/-!
# Which value of a variable wins

The variables of a job and of its pipeline are put into those of the descriptor one after the other.

* **In one pass.** All of them together change the first variable of each name, where there is one,
  and add the others at the end.
* **The first variable** of a name always carries the winning value.
* **Later variables** of that name keep the value of the descriptor. So every variable of the
  container carries the winning value only if the descriptor does not give a name twice, or gives it
  the winning value each time but the first.
-/

namespace JobLoom

/-- The value that wins for a name: that of the container which the job describes itself, else that
of the job, else that of the pipeline. -/
def Job.winning? (j : Job) (shared : Dictionary String) (name : String) : Option String :=
  ((j.container.bind InlineContainer.env?).bind fun env => env.get? name).or
    ((j.env.get? name).or (shared.get? name))

theorem Job.get?_overrides (j : Job) (shared : Dictionary String) (name : String) :
    (j.overrides shared).get? name = j.winning? shared name := by
  unfold Job.overrides Job.winning?
  cases j.container.bind InlineContainer.env? with
  | none => exact Dictionary.get?_merge shared j.env name
  | some env =>
    dsimp only
    rw [Dictionary.get?_merge, Dictionary.get?_merge]
    rfl

/-! ## Putting variables in -/

/-- The variables with the given values put in: the first one of each name is changed, unless the
name has been seen already. -/
def overridden (win : String → Option String) (seen : List String) : List EnvVar → List EnvVar
  | [] => []
  | v :: rest =>
    (if v.name ∈ seen then v else ⟨v.name, (win v.name).getD v.value⟩) ::
      overridden win (v.name :: seen) rest

/-- The variables for the names that are not there yet. -/
def added (env : List EnvVar) (es : List (String × String)) : List EnvVar :=
  (es.filter fun e => e.1 ∉ env.map EnvVar.name).map fun e => ⟨e.1, e.2⟩

@[simp] theorem names_overridden (win : String → Option String) (seen : List String)
    (env : List EnvVar) : (overridden win seen env).map EnvVar.name = env.map EnvVar.name := by
  induction env generalizing seen with
  | nil => rfl
  | cons v rest ih =>
    rw [overridden, List.map_cons, List.map_cons, ih]
    split <;> rfl

/-- Only the values for names that come up and have not been seen matter. -/
theorem overridden_congr {win win' : String → Option String} {seen : List String}
    {env : List EnvVar} (h : ∀ v ∈ env, v.name ∉ seen → win v.name = win' v.name) :
    overridden win seen env = overridden win' seen env := by
  induction env generalizing seen with
  | nil => rfl
  | cons v rest ih =>
    have hrest : overridden win (v.name :: seen) rest = overridden win' (v.name :: seen) rest :=
      ih fun u hu hs => h u (List.mem_cons_of_mem _ hu) fun hu' => hs (List.mem_cons_of_mem _ hu')
    rw [overridden, overridden, hrest]
    split
    · rfl
    · next hs => rw [h v List.mem_cons_self hs]

theorem overridden_none (seen : List String) (env : List EnvVar) :
    overridden (fun _ => none) seen env = env := by
  induction env generalizing seen with
  | nil => rfl
  | cons v rest ih =>
    rw [overridden, ih]
    split <;> rfl

/-- A variable at the end for which there is no value stays as it is. -/
theorem overridden_concat {win : String → Option String} {v : EnvVar} (h : win v.name = none)
    (seen : List String) (env : List EnvVar) :
    overridden win seen (env ++ [v]) = overridden win seen env ++ [v] := by
  induction env generalizing seen with
  | nil =>
    simp only [List.nil_append, overridden, h]
    split <;> rfl
  | cons u rest ih => rw [List.cons_append, overridden, overridden, ih, List.cons_append]

theorem setVariable_of_not_mem {env : List EnvVar} {name : String}
    (h : name ∉ env.map EnvVar.name) (value : String) :
    setVariable env name value = env ++ [⟨name, value⟩] := by
  induction env with
  | nil => rfl
  | cons v rest ih =>
    rw [List.map_cons, List.mem_cons, not_or] at h
    rw [setVariable, if_neg (Ne.symm h.1), ih h.2, List.cons_append]

theorem names_setVariable {env : List EnvVar} {name : String} (h : name ∈ env.map EnvVar.name)
    (value : String) : (setVariable env name value).map EnvVar.name = env.map EnvVar.name := by
  induction env with
  | nil => cases h
  | cons v rest ih =>
    rw [setVariable]
    split
    · next hv => rw [List.map_cons, List.map_cons, hv]
    · next hv =>
      rw [List.map_cons, List.mem_cons] at h
      rw [List.map_cons, List.map_cons, ih (h.resolve_left (Ne.symm hv))]

/-- Setting a variable that is there, and then others, is the same as setting all of them. -/
theorem overridden_setVariable {win : String → Option String} {seen : List String}
    {env : List EnvVar} {name : String} (hmem : name ∈ env.map EnvVar.name) (hseen : name ∉ seen)
    (hwin : win name = none) (value : String) :
    overridden win seen (setVariable env name value) =
      overridden (fun n => if n = name then some value else win n) seen env := by
  induction env generalizing seen with
  | nil => cases hmem
  | cons v rest ih =>
    rw [setVariable]
    split
    · next hv =>
      -- the variable is the first one of its name, and its name is seen from here on
      rw [overridden, overridden, if_neg hseen, if_neg (hv ▸ hseen), if_pos hv, hwin, hv]
      refine congrArg _ (overridden_congr fun u _ hu => ?_)
      rw [if_neg fun heq : u.name = name => hu (heq ▸ List.mem_cons_self)]
    · next hv =>
      rw [List.map_cons, List.mem_cons] at hmem
      have hseen' : name ∉ v.name :: seen := fun h =>
        (List.mem_cons.1 h).elim (fun heq => hv heq.symm) hseen
      have hrest := ih (hmem.resolve_left (Ne.symm hv)) hseen'
      rw [overridden, overridden, hrest, if_neg hv]

/-- **In one pass.** Setting variables under different names one after the other changes the first
variable of each name, and adds those that are not there. -/
theorem foldl_setVariable {es : List (String × String)} (h : (es.map Prod.fst).Nodup)
    (env : List EnvVar) :
    es.foldl (fun env e => setVariable env e.1 e.2) env =
      overridden (fun name => es.lookup name) [] env ++ added env es := by
  induction es generalizing env with
  | nil =>
    change env = overridden (fun _ => none) [] env ++ []
    rw [overridden_none, List.append_nil]
  | cons e rest ih =>
    rw [List.map_cons, List.nodup_cons] at h
    have hnone : rest.lookup e.1 = none := lookup_eq_none_of_not_mem h.1
    have hlookup : (fun name => (e :: rest).lookup name) =
        fun name => if name = e.1 then some e.2 else rest.lookup name :=
      funext fun name => lookup_cons_eq_ite e rest name
    rw [List.foldl_cons, ih h.2, hlookup]
    by_cases hmem : e.1 ∈ env.map EnvVar.name
    · rw [overridden_setVariable hmem List.not_mem_nil hnone, added, added, names_setVariable hmem,
        List.filter_cons_of_neg (by simpa using hmem)]
    · -- the new variable is the first one of its name, and none of the others has its name
      have hold : overridden (fun name => rest.lookup name) [] env =
          overridden (fun name => if name = e.1 then some e.2 else rest.lookup name) [] env := by
        refine overridden_congr fun v hv _ => ?_
        rw [if_neg fun heq : v.name = e.1 => hmem (heq ▸ List.mem_map_of_mem hv)]
      have hnew : added (env ++ [⟨e.1, e.2⟩]) rest = added env rest := by
        refine congrArg (List.map _) (List.filter_congr fun e' he' => ?_)
        have hne : e'.1 ≠ e.1 := fun heq => h.1 (heq ▸ List.mem_map_of_mem he')
        simp [hne]
      rw [setVariable_of_not_mem hmem, overridden_concat hnone, hold, hnew, added, added,
        List.filter_cons_of_pos (by simpa using hmem), List.map_cons, List.append_assoc]
      rfl

namespace ContainerDescriptor

/-- The variables of the container of a job: those of the descriptor with the winning values put in,
and then those that the descriptor does not have. -/
theorem env_forJob (d : ContainerDescriptor) (j : Job) (shared : Dictionary String)
    (defaults : ContainerDefaults) :
    (d.forJob j shared defaults).env =
      overridden (j.winning? shared) [] d.env ++ added d.env (j.overrides shared).entries := by
  have himage : (d.withImage j defaults).env = d.env := by
    unfold withImage
    split <;> rfl
  have hwin : (fun name => (j.overrides shared).entries.lookup name) = j.winning? shared :=
    funext fun name => j.get?_overrides shared name
  change (j.overrides shared).entries.foldl _ (d.withImage j defaults).env = _
  rw [himage, foldl_setVariable (j.overrides shared).nodup_keys, hwin]

end ContainerDescriptor

/-! ## Winning values -/

/-- A variable carries the winning value of its name, if there is one. -/
def EnvVar.Fits (win : String → Option String) (v : EnvVar) : Prop :=
  ∀ value, win v.name = some value → v.value = value

/-- No variable but the first one of its name carries another value than the winning one. -/
def IsUnshadowed (win : String → Option String) (env : List EnvVar) : Prop :=
  env.Pairwise fun first later => first.name = later.name → later.Fits win

/-- All variables carry the winning values exactly if those do that are not the first ones of their
names. -/
theorem forall_fits_overridden_iff {win : String → Option String} {seen : List String}
    {env : List EnvVar} :
    (∀ v ∈ overridden win seen env, v.Fits win) ↔
      (∀ v ∈ env, v.name ∈ seen → v.Fits win) ∧ IsUnshadowed win env := by
  unfold IsUnshadowed
  induction env generalizing seen with
  | nil => simp [overridden]
  | cons v rest ih =>
    have hfirst : EnvVar.Fits win
        (if v.name ∈ seen then v else ⟨v.name, (win v.name).getD v.value⟩) ↔
        (v.name ∈ seen → v.Fits win) := by
      split
      · next hs => exact ⟨fun h _ => h, fun h => h hs⟩
      · next hs =>
        refine ⟨fun _ h => absurd h hs, fun _ value hvalue => ?_⟩
        dsimp only at hvalue ⊢
        rw [hvalue, Option.getD_some]
    rw [overridden, List.forall_mem_cons, List.forall_mem_cons, ih, hfirst, List.pairwise_cons]
    constructor
    · rintro ⟨hv, hseen, hrest⟩
      exact ⟨⟨hv, fun u hu hus => hseen u hu (List.mem_cons_of_mem _ hus)⟩,
        fun u hu heq => hseen u hu (heq ▸ List.mem_cons_self), hrest⟩
    · rintro ⟨⟨hv, hseen⟩, hlater, hrest⟩
      refine ⟨hv, fun u hu hus => ?_, hrest⟩
      rcases List.mem_cons.1 hus with heq | hus
      · exact hlater u hu heq.symm
      · exact hseen u hu hus

/-- The first variable of a name that has not been seen carries the given value. -/
theorem find?_overridden {win : String → Option String} {seen : List String} {name : String}
    (h : name ∉ seen) (env : List EnvVar) :
    (overridden win seen env).find? (fun v => v.name = name) =
      (env.find? fun v => v.name = name).map fun v => ⟨v.name, (win v.name).getD v.value⟩ := by
  induction env generalizing seen with
  | nil => rfl
  | cons v rest ih =>
    rw [overridden]
    by_cases hv : v.name = name
    · rw [if_neg (hv ▸ h), List.find?_cons_of_pos (by simpa using hv),
        List.find?_cons_of_pos (by simpa using hv)]
      rfl
    · have hseen : name ∉ v.name :: seen := fun hmem =>
        (List.mem_cons.1 hmem).elim (fun heq => hv heq.symm) h
      rw [List.find?_cons_of_neg, List.find?_cons_of_neg (by simpa using hv), ih hseen]
      split <;> simpa using hv

/-- A name that is not there yet is added with its value. -/
theorem find?_added {env : List EnvVar} {name : String} (h : name ∉ env.map EnvVar.name)
    (es : List (String × String)) :
    (added env es).find? (fun v => v.name = name) = (es.lookup name).map fun x => ⟨name, x⟩ := by
  induction es with
  | nil => rfl
  | cons e rest ih =>
    rw [lookup_cons_eq_ite]
    by_cases hname : name = e.1
    · rw [if_pos hname, added, List.filter_cons_of_pos (by simpa [hname] using h), List.map_cons,
        List.find?_cons_of_pos (by simpa using hname.symm), Option.map_some, hname]
    · rw [if_neg hname, ← ih, added, List.filter_cons]
      split
      · rw [List.map_cons, List.find?_cons_of_neg (by simpa using Ne.symm hname), added]
      · rfl

namespace ContainerDescriptor

variable (d : ContainerDescriptor) (j : Job) (shared : Dictionary String)
  (defaults : ContainerDefaults)

/-- The variables that the descriptor does not have carry the winning values. -/
theorem fits_of_mem_added {v : EnvVar} (h : v ∈ added d.env (j.overrides shared).entries) :
    v.Fits (j.winning? shared) := by
  obtain ⟨e, he, rfl⟩ := List.mem_map.1 h
  intro value hvalue
  have hget : (j.overrides shared).entries.lookup e.1 = some e.2 :=
    lookup_eq_some_of_mem (j.overrides shared).nodup_keys (List.mem_filter.1 he).1
  rw [← Job.get?_overrides, Dictionary.get?, hget] at hvalue
  exact Option.some.inj hvalue

/-- The first variable of a name carries its winning value, if there is one. -/
theorem find?_env_forJob {name value : String} (h : j.winning? shared name = some value) :
    (d.forJob j shared defaults).env.find? (fun v => v.name = name) = some ⟨name, value⟩ := by
  rw [env_forJob, List.find?_append, find?_overridden List.not_mem_nil]
  cases hf : d.env.find? fun v => v.name = name with
  | some v =>
    have hv : v.name = name := by simpa using List.find?_some hf
    rw [Option.map_some, Option.some_or, hv, h, Option.getD_some]
  | none =>
    have hmem : name ∉ d.env.map EnvVar.name := by
      intro hmem
      obtain ⟨v, hv, rfl⟩ := List.mem_map.1 hmem
      simpa using List.find?_eq_none.1 hf v hv
    rw [Option.map_none, Option.none_or, find?_added hmem]
    change ((j.overrides shared).get? name).map _ = _
    rw [Job.get?_overrides, h]
    rfl

/-- **When overrides are in effect.** Every variable of the container carries the winning value of
its name exactly if none of the descriptor is shadowed by a later one of the same name. In any case
every name with a winning value is there, and the first variable of that name carries it. -/
theorem fits_forJob_iff :
    ((∀ v ∈ (d.forJob j shared defaults).env, v.Fits (j.winning? shared)) ↔
        IsUnshadowed (j.winning? shared) d.env) ∧
      ∀ name value, j.winning? shared name = some value →
        (d.forJob j shared defaults).env.find? (fun v => v.name = name) = some ⟨name, value⟩ := by
  refine ⟨?_, fun name value h => find?_env_forJob d j shared defaults h⟩
  rw [env_forJob, List.forall_mem_append, forall_fits_overridden_iff]
  constructor
  · rintro ⟨⟨-, h⟩, -⟩
    exact h
  · intro h
    exact ⟨⟨fun _ _ hseen => absurd hseen List.not_mem_nil, h⟩,
      fun v hv => fits_of_mem_added d j shared hv⟩

/-- The pipeline wins over the store, the job over the pipeline, and its own container over all. -/
theorem fits_forJob_of_three_layers :
    let d : ContainerDescriptor := { empty with env := [⟨"A", "store"⟩, ⟨"Z", "store"⟩] }
    let shared := Dictionary.ofList [("A", "pipeline"), ("B", "pipeline")]
    let j : Job := { Job.empty with
      env := .ofList [("B", "job"), ("C", "job")]
      container := some (.spec none (.ofList [("C", "inline")])) }
    IsUnshadowed (j.winning? shared) d.env ∧
      (∀ v ∈ (d.forJob j shared ⟨"ubuntu", "sh"⟩).env, v.Fits (j.winning? shared)) ∧
      j.winning? shared "C" = some "inline" ∧
      (d.forJob j shared ⟨"ubuntu", "sh"⟩).env.find? (fun v => v.name = "C") =
        some ⟨"C", "inline"⟩ := by
  intro d shared j
  have hunshadowed : IsUnshadowed (j.winning? shared) d.env := by simp [IsUnshadowed, d]
  have hwins : j.winning? shared "C" = some "inline" := rfl
  obtain ⟨hiff, hfirst⟩ := fits_forJob_iff d j shared ⟨"ubuntu", "sh"⟩
  exact ⟨hunshadowed, hiff.2 hunshadowed, hwins, hfirst "C" "inline" hwins⟩

/-- A descriptor that gives a name twice: the value of the pipeline comes first, and the second
value of the store after it. -/
theorem store_value_shadows_override :
    let payload := "env: [{name: A, value: first}, {name: A, value: second}]".toUTF8.toList
    let shared := Dictionary.ofList [("A", "pipeline")]
    ∃ d, (ofPayload payload).toOption = some d ∧
      Job.empty.winning? shared "A" = some "pipeline" ∧
      (d.forJob .empty shared ⟨"ubuntu", "sh"⟩).env = [⟨"A", "pipeline"⟩, ⟨"A", "second"⟩] ∧
      ¬ ∀ v ∈ (d.forJob .empty shared ⟨"ubuntu", "sh"⟩).env,
        v.Fits (Job.empty.winning? shared) := by
  refine ⟨{ empty with env := [⟨"A", "first"⟩, ⟨"A", "second"⟩] }, by decide +kernel, rfl, rfl,
    fun h => ?_⟩
  have hsecond := h ⟨"A", "second"⟩ (List.mem_cons_of_mem _ List.mem_cons_self) "pipeline" rfl
  exact absurd hsecond (by decide)

end ContainerDescriptor

end JobLoom
