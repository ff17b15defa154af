import JobLoom.Proofs.Conversion.Build
import JobLoom.Settings.Layers

/-!
# Settings in place

What is known of settings when all layers are in place and have been checked.

* **Checks** come last, so it does not matter which layer a value comes from.
* **The shell** comes from the file alone, and the checks do not look at it.
-/

namespace JobLoom.Settings

variable {file st : Settings} {env : String → Option String} {line : Overrides}

/-- The checks look at the size of the pool, the namespace and the image, and at nothing else. -/
theorem check_eq_ok_iff : st.check = .ok () ↔ st.pool.check = .ok () ∧
    Text.isBlankText st.space = false ∧ Text.isBlankText st.defaults.image = false := by
  unfold check
  rw [bind_eq_ok_iff]
  constructor
  · rintro ⟨_, hpool, h⟩
    refine ⟨hpool, ?_⟩
    cases hspace : Text.isBlankText st.space with
    | true =>
      rw [hspace] at h
      cases h
    | false =>
      rw [hspace] at h
      cases himage : Text.isBlankText st.defaults.image with
      | true =>
        rw [himage] at h
        cases h
      | false => exact ⟨rfl, rfl⟩
  · rintro ⟨hpool, hspace, himage⟩
    refine ⟨(), hpool, ?_⟩
    rw [hspace, himage]
    rfl

/-- Settings are in place exactly when the environment gives a layer and the checks find no fault. -/
theorem ofLayers_eq_ok_iff : ofLayers file env line = .ok st ↔
    ∃ o, Overrides.ofEnvironment env = .ok o ∧ st = (file.apply o).apply line ∧
      st.check = .ok () := by
  unfold ofLayers withEnvironment
  simp only [bind_eq_ok_iff]
  constructor
  · rintro ⟨_, ⟨o, ho, happlied⟩, ⟨_, hcheck, h⟩⟩
    cases happlied
    cases h
    exact ⟨o, ho, rfl, hcheck⟩
  · rintro ⟨o, ho, rfl, hcheck⟩
    exact ⟨_, ⟨o, ho, rfl⟩, (), hcheck, rfl⟩

theorem check_of_ofLayers (h : ofLayers file env line = .ok st) : st.check = .ok () := by
  obtain ⟨_, -, -, hcheck⟩ := ofLayers_eq_ok_iff.1 h
  exact hcheck

/-- Settings that are checked give a pool a size that is checked. -/
theorem check_pool (h : st.check = .ok ()) : st.pool.check = .ok () := (check_eq_ok_iff.1 h).1

/-- The shell is the one of the file. -/
theorem shell_of_ofLayers (h : ofLayers file env line = .ok st) :
    st.defaults.shell = file.defaults.shell := by
  obtain ⟨_, -, rfl, -⟩ := ofLayers_eq_ok_iff.1 h
  rfl

end JobLoom.Settings
