import Mathlib.Data.List.Forall2
import JobLoom.Conversion
import JobLoom.Proofs.Graph.Validation

/-!
# What a conversion is built from

`Converter.build` in one equation: a valid pipeline, what the label of each job leads to, and the
manifest that is put together from these. The lookups are told one by one, so nothing is said here
about the order in which they are made. `Converter.convert` is split in the same way into the plan
of a workflow file and the answers to its keys.
-/

namespace JobLoom

/-- Two steps succeed exactly when the second one does with the result of the first. -/
theorem bind_eq_ok_iff {ε α β : Type} {x : Except ε α} {f : α → Except ε β} {b : β} :
    x >>= f = .ok b ↔ ∃ a, x = .ok a ∧ f a = .ok b := by
  cases x <;> simp [bind, Except.bind]

/-- Two steps fail exactly when the first one does, or the second one with the result of the
first. -/
theorem bind_eq_error_iff {ε α β : Type} {x : Except ε α} {f : α → Except ε β} {e : ε} :
    x >>= f = .error e ↔ x = .error e ∨ ∃ a, x = .ok a ∧ f a = .error e := by
  cases x <;> simp [bind, Except.bind]

theorem mapM_eq_ok_iff {ε α β : Type} {f : α → Except ε β} {xs : List α} {ys : List β} :
    xs.mapM f = .ok ys ↔ List.Forall₂ (fun x y => f x = .ok y) xs ys := by
  induction xs generalizing ys with
  | nil =>
    rw [List.mapM_nil, List.forall₂_nil_left_iff]
    exact ⟨fun h => (by cases h; rfl), fun h => h ▸ rfl⟩
  | cons x rest ih =>
    rw [List.mapM_cons, List.forall₂_cons_left_iff]
    cases hx : f x with
    | error e =>
      refine ⟨fun h => (by cases h), ?_⟩
      rintro ⟨y, ys, hy, -, -⟩
      cases hy
    | ok y =>
      cases hr : rest.mapM f with
      | error e =>
        refine ⟨fun h => (by cases h), ?_⟩
        rintro ⟨y', ys', -, hys, -⟩
        rw [← ih, hr] at hys
        cases hys
      | ok ys' =>
        constructor
        · intro h
          cases h
          exact ⟨y, ys', rfl, ih.1 hr, rfl⟩
        · rintro ⟨y'', ys'', hy, hys, rfl⟩
          rw [← ih, hr] at hys
          cases hy
          cases hys
          rfl

namespace Converter

/-- What a key, if there is one, is answered with. -/
def Answers (c : Converter) (store : Store) : Option String → Option Answer → Prop
  | none, a => a = none
  | some key, a => ∃ x, store c.space key = .answer x ∧ a = some x

/-- What the label of a job leads to, as the store answers. -/
def Resolves (c : Converter) (store : Store) (id : String) (j : Job) (r : Resolution) : Prop :=
  ∃ a, c.Answers store (j.label?.map storeKey) a ∧ r = Resolution.of id j.label? a

variable {c : Converter} {store : Store}

/-- All keys are answered, each by the store, unless it crashes for one of them. -/
theorem ask_eq_ok_iff {keys : List (Option String)} {answers : List (Option Answer)} :
    c.ask store keys = .ok answers ↔ List.Forall₂ (c.Answers store) keys answers := by
  rw [ask, mapM_eq_ok_iff]
  constructor
  · refine List.Forall₂.imp fun key a h => ?_
    cases key with
    | none => cases h; rfl
    | some key =>
      dsimp only at h
      split at h
      · next x hx => cases h; exact ⟨x, hx, rfl⟩
      · cases h
  · refine List.Forall₂.imp fun key a h => ?_
    cases key with
    | none => cases h; rfl
    | some key =>
      obtain ⟨x, hx, rfl⟩ := h
      dsimp only
      rw [hx]

theorem exists_ask_eq_ok (c : Converter) (h : store.IsSteady) (keys : List (Option String)) :
    ∃ answers, c.ask store keys = .ok answers := by
  simp only [ask_eq_ok_iff]
  induction keys with
  | nil => exact ⟨[], .nil⟩
  | cons key rest ih =>
    obtain ⟨answers, hrest⟩ := ih
    cases key with
    | none => exact ⟨none :: answers, .cons rfl hrest⟩
    | some key =>
      obtain ⟨a, ha⟩ := h c.space key
      exact ⟨some a :: answers, .cons ⟨a, ha, rfl⟩ hrest⟩

/-- The manifest and the warnings for a pipeline, given what the labels of its jobs lead to. -/
def assembled (c : Converter) (p : Pipeline) (rs : List Resolution) : Conversion where
  manifest := .named p.name
    (.ofDag rootTemplate (p.jobs.map fun e => DagTask.ofJob (JobGraph.tables p) e.1) ::
      p.jobs.zipWith (fun e r => Template.ofJob c.defaults p.env e.1 e.2 r) rs)
  warnings := rs.filterMap Resolution.warning

/-- What the labels of some jobs lead to is told job by job. -/
theorem forall₂_resolves_iff {jobs : List (String × Job)} {rs : List Resolution} :
    List.Forall₂ (fun e r => c.Resolves store e.1 e.2 r) jobs rs ↔
      ∃ answers,
        List.Forall₂ (c.Answers store) (jobs.map fun e => e.2.label?.map storeKey) answers ∧
        rs = jobs.zipWith (fun e a => Resolution.of e.1 e.2.label? a) answers := by
  induction jobs generalizing rs with
  | nil => simp [List.forall₂_nil_left_iff]
  | cons e rest ih =>
    rw [List.forall₂_cons_left_iff]
    constructor
    · rintro ⟨r, rs', ⟨a, ha, rfl⟩, hrest, rfl⟩
      obtain ⟨answers, hanswers, rfl⟩ := ih.1 hrest
      exact ⟨a :: answers, .cons ha hanswers, rfl⟩
    · rintro ⟨answers, hanswers, rfl⟩
      rw [List.map_cons, List.forall₂_cons_left_iff] at hanswers
      obtain ⟨a, answers', ha, hrest, rfl⟩ := hanswers
      exact ⟨_, _, ⟨a, ha, rfl⟩, ih.2 ⟨answers', hrest, rfl⟩, rfl⟩

/-- A pipeline that passes its checks is valid, and has the tables as its graph. -/
theorem plan_eq_ok_iff {p : Pipeline} {plan : Plan} :
    Plan.ofPipeline p = .ok plan ↔ p.IsValid ∧ plan = ⟨p, JobGraph.tables p⟩ := by
  rw [Plan.ofPipeline]
  cases hv : JobGraph.validated p with
  | error e =>
    refine ⟨fun h => (by cases h), fun h => ?_⟩
    rw [JobGraph.validated_eq_ok_iff.2 ⟨h.1, rfl⟩] at hv
    cases hv
  | ok g =>
    obtain ⟨hp, rfl⟩ := JobGraph.validated_eq_ok_iff.1 hv
    constructor
    · intro h
      cases h
      exact ⟨hp, rfl⟩
    · rintro ⟨-, rfl⟩
      rfl

theorem build_of_error {p : Pipeline} {e : ConvertError} (h : Plan.ofPipeline p = .error e) :
    c.build store p = .failed e := by
  simp only [build, h]

theorem build_of_crash {p : Pipeline} {plan : Plan} {text : String}
    (h : Plan.ofPipeline p = .ok plan) (ha : c.ask store plan.keys = .error text) :
    c.build store p = .crashed text := by
  simp only [build, h, ha]

theorem build_of_answers {p : Pipeline} {plan : Plan} {answers : List (Option Answer)}
    (h : Plan.ofPipeline p = .ok plan) (ha : c.ask store plan.keys = .ok answers) :
    c.build store p = .done (plan.compose c.defaults answers) := by
  simp only [build, h, ha]

/-- **What is built.** A conversion comes out exactly when the pipeline is valid and the store does
not crash; it is assembled from what the labels of the jobs lead to. -/
theorem build_eq_done_iff {p : Pipeline} {x : Conversion} :
    c.build store p = .done x ↔ p.IsValid ∧
      ∃ rs, List.Forall₂ (fun e r => c.Resolves store e.1 e.2 r) p.jobs rs ∧
        x = c.assembled p rs := by
  cases hplan : Plan.ofPipeline p with
  | error e =>
    rw [build_of_error hplan]
    refine ⟨fun h => (by cases h), fun h => ?_⟩
    rw [plan_eq_ok_iff.2 ⟨h.1, rfl⟩] at hplan
    cases hplan
  | ok plan =>
    obtain ⟨hp, rfl⟩ := plan_eq_ok_iff.1 hplan
    cases ha : c.ask store (Plan.keys ⟨p, JobGraph.tables p⟩) with
    | error text =>
      rw [build_of_crash hplan ha]
      refine ⟨fun h => (by cases h), ?_⟩
      rintro ⟨-, rs, hrs, -⟩
      obtain ⟨answers, hanswers, -⟩ := forall₂_resolves_iff.1 hrs
      have hok : c.ask store (Plan.keys ⟨p, JobGraph.tables p⟩) = .ok answers :=
        ask_eq_ok_iff.2 hanswers
      rw [ha] at hok
      cases hok
    | ok answers =>
      -- the answers of the store are the only ones, so there is one way to resolve the labels
      rw [build_of_answers hplan ha]
      have hanswers := ask_eq_ok_iff.1 ha
      constructor
      · intro h
        cases h
        exact ⟨hp, _, forall₂_resolves_iff.2 ⟨answers, hanswers, rfl⟩, rfl⟩
      · rintro ⟨-, rs, hrs, rfl⟩
        obtain ⟨answers', hanswers', rfl⟩ := forall₂_resolves_iff.1 hrs
        have hok : c.ask store (Plan.keys ⟨p, JobGraph.tables p⟩) = .ok answers' :=
          ask_eq_ok_iff.2 hanswers'
        rw [ha] at hok
        cases hok
        rfl

/-! ## Whole conversions -/

theorem exists_ask_eq_error {keys : List (Option String)} {key text : String}
    (hkey : some key ∈ keys) (hcrash : store c.space key = .crash text) :
    ∃ text', c.ask store keys = .error text' := by
  cases ha : c.ask store keys with
  | error text' => exact ⟨text', rfl⟩
  | ok answers =>
    obtain ⟨hlength, hall⟩ := List.forall₂_iff_get.1 (ask_eq_ok_iff.1 ha)
    obtain ⟨i, hi⟩ := List.mem_iff_get.1 hkey
    have hi' := hall i i.2 (hlength ▸ i.2)
    rw [hi] at hi'
    obtain ⟨x, hx, -⟩ := hi'
    rw [hcrash] at hx
    cases hx

/-- A workflow file with a plan is read as a pipeline that passes its checks. -/
theorem exists_pipeline_of_plan {bytes : List UInt8} {plan : Plan}
    (h : Plan.ofBytes bytes = .ok plan) :
    ∃ p, Pipeline.ofBytes bytes = .ok p ∧ Plan.ofPipeline p = .ok plan :=
  bind_eq_ok_iff.1 h

theorem convert_of_error {bytes : List UInt8} {e : ConvertError}
    (h : Plan.ofBytes bytes = .error e) : c.convert store bytes = .failed e := by
  rcases bind_eq_error_iff.1 h with hp | ⟨p, hp, hplan⟩
  · simp only [convert, hp]
  · simp only [convert, hp, build_of_error hplan]

theorem convert_of_crash {bytes : List UInt8} {plan : Plan} {text : String}
    (h : Plan.ofBytes bytes = .ok plan) (ha : c.ask store plan.keys = .error text) :
    c.convert store bytes = .crashed text := by
  obtain ⟨p, hp, hplan⟩ := exists_pipeline_of_plan h
  simp only [convert, hp, build_of_crash hplan ha]

theorem convert_of_answers {bytes : List UInt8} {plan : Plan} {answers : List (Option Answer)}
    (h : Plan.ofBytes bytes = .ok plan) (ha : c.ask store plan.keys = .ok answers) :
    c.convert store bytes = .done ((plan.compose c.defaults answers).render c.format) := by
  obtain ⟨p, hp, hplan⟩ := exists_pipeline_of_plan h
  simp only [convert, hp, build_of_answers hplan ha]

end Converter

end JobLoom
