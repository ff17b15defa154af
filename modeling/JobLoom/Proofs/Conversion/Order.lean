import Mathlib.Logic.Relation
import JobLoom.Proofs.Pool.Answer

/-!
# Lookups in any order

The lookups of a conversion are under way side by side, and come to an end in any order. What is
built does not depend on it: whatever the order, it is what `Converter.build` makes of one lookup
after the other.
-/

namespace JobLoom

open Relation (ReflTransGen)

namespace Service

/-- One of the lookups for a plan gets on: it is asked for, gets in line or is answered. -/
def Asks (s : Service) (plan : Plan) (lookups lookups' : List Lookup) : Prop :=
  ∃ r, Phase.Goes s (.asking r plan lookups) (.asking r plan lookups')

/-- Some order of the lookups leads to this conversion of a pipeline. -/
def Builds (s : Service) (p : Pipeline) (x : Conversion) : Prop :=
  ∃ plan lookups answers, Plan.ofPipeline p = .ok plan ∧
    ReflTransGen (s.Asks plan) (plan.keys.map .unasked) lookups ∧
    lookups.mapM Lookup.answer? = some answers ∧
    x = plan.compose s.converter.defaults answers

variable {s : Service} {plan : Plan}

/-- However far the lookups have got, they are in the places of their keys. -/
theorem looksUpAll_of_asks {lookups : List Lookup}
    (h : ReflTransGen (s.Asks plan) (plan.keys.map .unasked) lookups) :
    s.LooksUpAll plan lookups := by
  induction h with
  | refl => exact .unasked plan
  | tail _ hstep ih =>
    obtain ⟨r, hgoes⟩ := hstep
    exact ih.goes hgoes

theorem asks_of_answers {before after : List Lookup} {key : Option String} {a : Option Answer}
    (h : s.converter.Answers s.store key a) :
    s.Asks plan (before ++ .unasked key :: after) (before ++ .answered a :: after) := by
  have hset : (before ++ Lookup.unasked key :: after).set before.length (.answered a) =
      before ++ .answered a :: after := by
    rw [List.set_append_right _ _ (Nat.le_refl _), Nat.sub_self, List.set_cons_zero]
  have hplace : (before ++ Lookup.unasked key :: after)[before.length]? = some (.unasked key) :=
    List.getElem?_append_right (Nat.le_refl _) |>.trans (by rw [Nat.sub_self]; rfl)
  rw [← hset]
  cases key with
  | none =>
    cases h
    exact ⟨⟨0, []⟩, .skip hplace⟩
  | some key =>
    obtain ⟨x, hx, rfl⟩ := h
    exact ⟨⟨0, []⟩, .hear hplace (.inl rfl) hx⟩

/-- The lookups can be answered one after the other. -/
theorem asks_of_forall₂ {keys : List (Option String)} {answers : List (Option Answer)}
    (h : List.Forall₂ (s.converter.Answers s.store) keys answers) (before : List Lookup) :
    ReflTransGen (s.Asks plan) (before ++ keys.map .unasked) (before ++ answers.map .answered) := by
  induction h generalizing before with
  | nil => exact .refl
  | @cons key a keys answers hfirst _ ih =>
    have hrest := ih (before ++ [.answered a])
    rw [List.append_assoc, List.append_assoc] at hrest
    exact .head (asks_of_answers hfirst) hrest

theorem mapM_answered (answers : List (Option Answer)) :
    (answers.map Lookup.answered).mapM Lookup.answer? = some answers := by
  induction answers with
  | nil => rfl
  | cons a rest ih =>
    rw [List.map_cons, List.mapM_cons, ih]
    rfl

/-- **The order of the lookups does not matter.** What some order of them leads to is what the
conversion builds. -/
theorem builds_iff {p : Pipeline} {x : Conversion} :
    s.Builds p x ↔ s.converter.build s.store p = .done x := by
  constructor
  · rintro ⟨plan, lookups, answers, hplan, hrun, hanswers, rfl⟩
    have hall := (looksUpAll_of_asks hrun).of_mapM_answer? hanswers
    exact Converter.build_of_answers hplan (Converter.ask_eq_ok_iff.2 hall)
  · intro h
    cases hplan : Plan.ofPipeline p with
    | error e =>
      rw [Converter.build_of_error hplan] at h
      cases h
    | ok plan =>
      cases ha : s.converter.ask s.store plan.keys with
      | error text =>
        rw [Converter.build_of_crash hplan ha] at h
        cases h
      | ok answers =>
        rw [Converter.build_of_answers hplan ha] at h
        cases h
        have hrun : ReflTransGen (s.Asks plan) ([] ++ plan.keys.map .unasked)
            ([] ++ answers.map .answered) :=
          asks_of_forall₂ (Converter.ask_eq_ok_iff.1 ha) []
        exact ⟨plan, _, answers, hplan, hrun, mapM_answered answers, rfl⟩

end Service

end JobLoom
