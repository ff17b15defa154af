import JobLoom.Proofs.Conversion.Build

/-!
# Which workflow files are refused

A conversion fails where its workflow file cannot be read or does not pass the checks, and nowhere
else. What comes after the checks (lookups that miss or fail, payloads that are no descriptors, the
writing of the manifest) yields warnings at most, so that a store which does not crash has no say in
whether a conversion succeeds or how it fails.

* **Faults of the author.** What is refused is bad input: the fault lies in the text or in the job
  graph, never in the service.
-/

namespace JobLoom

/-! ## Faults of the author -/

theorem Pipeline.kind_of_ofBytes_eq_error {bytes : List UInt8} {e : ConvertError}
    (h : Pipeline.ofBytes bytes = .error e) : e.kind = .parse := by
  unfold Pipeline.ofBytes at h
  split at h
  · cases h
    rfl
  · split at h
    · cases h
    · cases h
      rfl

theorem JobGraph.kind_of_validated_eq_error {p : Pipeline} {e : ConvertError}
    (h : JobGraph.validated p = .error e) : e.kind = .validation := by
  rcases validated_eq_error h with hp | ⟨-, -, walk, -, rfl⟩
  · rcases ofPipeline_eq_error hp with hid | ⟨-, id, n, -, rfl⟩
    · cases hid <;> rfl
    · rfl
  · rfl

/-- Faults of the text and of the job graph are bad input. -/
theorem ConvertError.status_eq_badInput {e : ConvertError}
    (h : e.kind = .parse ∨ e.kind = .validation) : e.status = .badInput := by
  rcases h with h | h <;> rw [ConvertError.status, h]

/-! ## Plans -/

namespace Plan

variable {bytes : List UInt8}

theorem exists_ofPipeline_iff {p : Pipeline} :
    (∃ plan, Plan.ofPipeline p = .ok plan) ↔ ∃ g, JobGraph.validated p = .ok g := by
  simp only [Plan.ofPipeline, bind_eq_ok_iff]
  constructor
  · rintro ⟨_, g, hg, -⟩
    exact ⟨g, hg⟩
  · rintro ⟨g, hg⟩
    exact ⟨⟨p, g⟩, g, hg, rfl⟩

theorem ofPipeline_eq_error_iff {p : Pipeline} {e : ConvertError} :
    Plan.ofPipeline p = .error e ↔ JobGraph.validated p = .error e := by
  rw [Plan.ofPipeline, bind_eq_error_iff]
  refine or_iff_left ?_
  rintro ⟨g, -, h⟩
  cases h

/-- A workflow file has a plan exactly if it can be read and passes the checks. -/
theorem exists_ofBytes_iff : (∃ plan, Plan.ofBytes bytes = .ok plan) ↔
    ∃ p g, Pipeline.ofBytes bytes = .ok p ∧ JobGraph.validated p = .ok g := by
  constructor
  · rintro ⟨plan, h⟩
    obtain ⟨p, hp, hplan⟩ := bind_eq_ok_iff.1 h
    obtain ⟨g, hg⟩ := exists_ofPipeline_iff.1 ⟨plan, hplan⟩
    exact ⟨p, g, hp, hg⟩
  · rintro ⟨p, g, hp, hg⟩
    obtain ⟨plan, hplan⟩ := exists_ofPipeline_iff.2 ⟨g, hg⟩
    exact ⟨plan, bind_eq_ok_iff.2 ⟨p, hp, hplan⟩⟩

/-- A workflow file without a plan is refused by its reading or by the checks. -/
theorem ofBytes_eq_error_iff {e : ConvertError} : Plan.ofBytes bytes = .error e ↔
    Pipeline.ofBytes bytes = .error e ∨
      ∃ p, Pipeline.ofBytes bytes = .ok p ∧ JobGraph.validated p = .error e := by
  rw [Plan.ofBytes, bind_eq_error_iff]
  simp only [ofPipeline_eq_error_iff]

/-- A workflow file without a plan is bad input. -/
theorem status_of_ofBytes_eq_error {e : ConvertError} (h : Plan.ofBytes bytes = .error e) :
    e.status = .badInput := by
  refine ConvertError.status_eq_badInput ?_
  rcases ofBytes_eq_error_iff.1 h with hp | ⟨p, -, hg⟩
  · exact .inl (Pipeline.kind_of_ofBytes_eq_error hp)
  · exact .inr (JobGraph.kind_of_validated_eq_error hg)

end Plan

/-! ## Conversions -/

namespace Converter

variable {store : Store}

/-- With a store that does not crash, a conversion succeeds exactly if the workflow file has a
plan. -/
theorem exists_convert_eq_done_iff (c : Converter) (h : store.IsSteady) (bytes : List UInt8) :
    (∃ o, c.convert store bytes = .done o) ↔ ∃ plan, Plan.ofBytes bytes = .ok plan := by
  cases hplan : Plan.ofBytes bytes with
  | error e =>
    rw [convert_of_error hplan]
    exact ⟨fun ⟨o, h⟩ => (by cases h), fun ⟨plan, h⟩ => (by cases h)⟩
  | ok plan =>
    obtain ⟨answers, ha⟩ := c.exists_ask_eq_ok h plan.keys
    exact ⟨fun _ => ⟨plan, rfl⟩, fun _ => ⟨_, convert_of_answers hplan ha⟩⟩

/-- With a store that does not crash, a conversion fails exactly as the plan of the workflow file
does. -/
theorem convert_eq_failed_iff (c : Converter) (h : store.IsSteady) {bytes : List UInt8}
    {e : ConvertError} : c.convert store bytes = .failed e ↔ Plan.ofBytes bytes = .error e := by
  cases hplan : Plan.ofBytes bytes with
  | error e' =>
    rw [convert_of_error hplan]
    exact ⟨fun h => (by cases h; rfl), fun h => (by cases h; rfl)⟩
  | ok plan =>
    obtain ⟨answers, ha⟩ := c.exists_ask_eq_ok h plan.keys
    rw [convert_of_answers hplan ha]
    exact ⟨fun h => (by cases h), fun h => (by cases h)⟩

theorem convert_ne_crashed (c : Converter) (h : store.IsSteady) (bytes : List UInt8)
    (text : String) : c.convert store bytes ≠ .crashed text := by
  cases hplan : Plan.ofBytes bytes with
  | error e =>
    rw [convert_of_error hplan]
    exact nofun
  | ok plan =>
    obtain ⟨answers, ha⟩ := c.exists_ask_eq_ok h plan.keys
    rw [convert_of_answers hplan ha]
    exact nofun

/-- **Only reading and checking can fail.** With a store that does not crash, a conversion succeeds
exactly if the workflow file can be read and passes the checks, and fails otherwise with the very
error of that stage, which is bad input. With any other converter and any other store that does not
crash it succeeds just as well, or fails with the same error. -/
theorem convert_decided_by_checks (c : Converter) (h : store.IsSteady) (bytes : List UInt8) :
    ((∃ o, c.convert store bytes = .done o) ↔
        ∃ p g, Pipeline.ofBytes bytes = .ok p ∧ JobGraph.validated p = .ok g) ∧
      (∀ e, c.convert store bytes = .failed e ↔
        Pipeline.ofBytes bytes = .error e ∨
          ∃ p, Pipeline.ofBytes bytes = .ok p ∧ JobGraph.validated p = .error e) ∧
      (∀ e, c.convert store bytes = .failed e → e.status = .badInput) ∧
      (∀ text, c.convert store bytes ≠ .crashed text) ∧
      ∀ (c' : Converter) (store' : Store), store'.IsSteady →
        ((∃ o, c.convert store bytes = .done o) ↔ ∃ o, c'.convert store' bytes = .done o) ∧
          ∀ e, c.convert store bytes = .failed e ↔ c'.convert store' bytes = .failed e := by
  refine ⟨?_, fun e => ?_, fun e he => ?_, c.convert_ne_crashed h bytes, fun c' store' h' => ?_⟩
  · rw [c.exists_convert_eq_done_iff h, Plan.exists_ofBytes_iff]
  · rw [c.convert_eq_failed_iff h, Plan.ofBytes_eq_error_iff]
  · exact Plan.status_of_ofBytes_eq_error ((c.convert_eq_failed_iff h).1 he)
  · refine ⟨?_, fun e => ?_⟩
    · rw [c.exists_convert_eq_done_iff h, c'.exists_convert_eq_done_iff h']
    · rw [c.convert_eq_failed_iff h, c'.convert_eq_failed_iff h']

/-- An entry that is no descriptor and a store that is down do a sound workflow file no harm. -/
theorem convert_decided_by_checks_broken_entry :
    let source := "jobs: {a: {runs-on: gpu}, b: {needs: a}}".toUTF8.toList
    let broken : Store := fun _ _ => .answer (.found "- no descriptor".toUTF8.toList)
    let down : Store := fun space key => .answer (.failed (.store space key "refused"))
    broken.IsSteady ∧ down.IsSteady ∧ (∃ o, standard.convert broken source = .done o) ∧
      ∃ o, standard.convert down source = .done o := by
  intro source broken down
  have hbroken : broken.IsSteady := fun _ _ => ⟨_, rfl⟩
  have hdown : down.IsSteady := fun _ _ => ⟨_, rfl⟩
  have hchecks : (Plan.ofBytes source).toOption.isSome := by decide +kernel
  have hsound : ∃ p g, Pipeline.ofBytes source = .ok p ∧ JobGraph.validated p = .ok g := by
    refine Plan.exists_ofBytes_iff.1 ?_
    cases hplan : Plan.ofBytes source with
    | error e =>
      rw [hplan] at hchecks
      cases hchecks
    | ok plan => exact ⟨plan, rfl⟩
  obtain ⟨hdone, -, -, -, hsame⟩ := standard.convert_decided_by_checks hbroken source
  exact ⟨hbroken, hdown, hdone.2 hsound, (hsame standard down hdown).1.1 (hdone.2 hsound)⟩

end Converter

end JobLoom
