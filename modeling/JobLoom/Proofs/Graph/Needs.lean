import Mathlib.Data.List.Basic
import JobLoom.Graph.Edges

/-!
# Needs without repetition

What becomes of the needs of a job when their repetitions are left out. `firstMentions` goes through
them once and remembers the ids that it passed; what it leaves is told here without that memory.

* **A listing** of some ids holds each of them once, in the order in which they are first mentioned.
  No ids have two listings, so whatever is a listing of the needs is what they are normalized to.
* **The laws** of `normalizeNeeds` are laws of listings: a listing lists itself, and a listing of more
  ids goes on with those of their listing that are new.
* **The first id with a property** is the same with repetitions and without. This is what finds the
  unknown need that a job is reported with.
-/

namespace JobLoom

/-! ## One id after the other -/

theorem firstMentions_of_mem {seen : List String} {id : String} (h : id ∈ seen)
    (rest : List String) : firstMentions seen (id :: rest) = firstMentions seen rest :=
  if_pos (List.contains_iff_mem.2 h)

/-- An id that is new is kept, and seen from there on. -/
theorem firstMentions_of_not_mem {seen : List String} {id : String} (h : id ∉ seen)
    (rest : List String) :
    firstMentions seen (id :: rest) = id :: firstMentions (id :: seen) rest :=
  if_neg (mt List.contains_iff_mem.1 h)

/-- Keeping first mentions is erasing later duplicates, once those already seen are left out. -/
theorem firstMentions_eq_eraseDups (seen ids : List String) :
    firstMentions seen ids = (ids.filter fun id => !seen.contains id).eraseDups := by
  induction ids generalizing seen with
  | nil => rfl
  | cons id rest ih =>
    by_cases h : id ∈ seen
    · rw [firstMentions_of_mem h, ih, List.filter_cons_of_neg (by simpa using h)]
    · rw [firstMentions_of_not_mem h, ih, List.filter_cons_of_pos (by simpa using h),
        List.eraseDups_cons, List.filter_filter]
      congr 3
      funext other
      simp only [List.contains_cons, Bool.not_or]

/-- Every id is kept that was not seen before, and no other. -/
theorem mem_firstMentions {seen ids : List String} {id : String} :
    id ∈ firstMentions seen ids ↔ id ∈ ids ∧ id ∉ seen := by
  rw [firstMentions_eq_eraseDups, List.mem_eraseDups, List.mem_filter]
  simp

/-- Behind an id that was seen, what is kept is first mentioned one place later than without it. -/
theorem idxOf_of_mem_firstMentions {seen rest : List String} {id a : String} (hid : id ∈ seen)
    (ha : a ∈ firstMentions seen rest) : (id :: rest).idxOf a = rest.idxOf a + 1 := by
  obtain ⟨-, hunseen⟩ := mem_firstMentions.1 ha
  exact List.idxOf_cons_ne rest fun heq => hunseen (heq ▸ hid)

/-- Ids are kept in the order in which they are first mentioned. -/
theorem pairwise_firstMentions (seen ids : List String) :
    (firstMentions seen ids).Pairwise fun a b => ids.idxOf a < ids.idxOf b := by
  induction ids generalizing seen with
  | nil => exact .nil
  | cons id rest ih =>
    -- Kept or left out, the head is seen by the ids behind it: their places all move up by one.
    have behind : ∀ {seen : List String}, id ∈ seen → (firstMentions seen rest).Pairwise
        fun a b => (id :: rest).idxOf a < (id :: rest).idxOf b := by
      intro seen hid
      refine (ih seen).imp_of_mem fun ha hb hab => ?_
      rw [idxOf_of_mem_firstMentions hid ha, idxOf_of_mem_firstMentions hid hb]
      exact Nat.succ_lt_succ hab
    by_cases h : id ∈ seen
    · rw [firstMentions_of_mem h]
      exact behind h
    · rw [firstMentions_of_not_mem h, List.pairwise_cons]
      refine ⟨fun b hb => ?_, behind List.mem_cons_self⟩
      rw [List.idxOf_cons_self, idxOf_of_mem_firstMentions List.mem_cons_self hb]
      exact Nat.succ_pos _

/-- The first id with a property is the same with and without repetitions, if those already seen do
not have it. -/
theorem find?_firstMentions {seen ids : List String} {q : String → Bool}
    (h : ∀ id ∈ seen, q id = false) : (firstMentions seen ids).find? q = ids.find? q := by
  induction ids generalizing seen with
  | nil => rfl
  | cons id rest ih =>
    by_cases hseen : id ∈ seen
    · rw [firstMentions_of_mem hseen, ih h, List.find?_cons_of_neg (by simp [h id hseen])]
    · rw [firstMentions_of_not_mem hseen]
      by_cases hq : q id
      · rw [List.find?_cons_of_pos hq, List.find?_cons_of_pos hq]
      · rw [List.find?_cons_of_neg hq, List.find?_cons_of_neg hq]
        refine ih fun x hx => ?_
        rcases List.mem_cons.1 hx with rfl | hx
        · simpa using hq
        · exact h x hx

/-! ## Listings -/

/-- A list that holds each of the ids once, in the order in which they are first mentioned. -/
structure IsListing (once ids : List String) : Prop where
  /-- no id comes twice -/
  nodup : once.Nodup
  /-- the ids are the same -/
  mem_iff : ∀ {id}, id ∈ once ↔ id ∈ ids
  /-- an id comes before those that are first mentioned after it -/
  ordered : once.Pairwise fun a b => ids.idxOf a < ids.idxOf b

namespace IsListing

variable {once ids : List String}

/-- Ids in the order of their first mention do not come twice. -/
theorem of_ordered (hmem : ∀ {id}, id ∈ once ↔ id ∈ ids)
    (hord : once.Pairwise fun a b => ids.idxOf a < ids.idxOf b) : IsListing once ids where
  nodup := hord.imp fun hlt heq => Nat.ne_of_lt hlt (congrArg ids.idxOf heq)
  mem_iff := hmem
  ordered := hord

/-- Ids have one listing. -/
theorem unique {other : List String} (h : IsListing once ids) (h' : IsListing other ids) :
    once = other := by
  have perm : once.Perm other :=
    (List.perm_ext_iff_of_nodup h.nodup h'.nodup).2 fun _ => h.mem_iff.trans h'.mem_iff.symm
  exact perm.eq_of_pairwise (fun _ _ _ _ hab hba => absurd hab (Nat.lt_asymm hba))
    h.ordered h'.ordered

theorem self (h : ids.Nodup) : IsListing ids ids := by
  refine of_ordered Iff.rfl (List.pairwise_iff_getElem.2 fun i j hi hj hij => ?_)
  rw [h.idxOf_getElem, h.idxOf_getElem]
  exact hij

/-- More ids are listed behind, but for those that are listed already. -/
theorem append {onceMore more : List String} (h : IsListing once ids)
    (hmore : IsListing onceMore more) :
    IsListing (once ++ onceMore.filter fun id => !ids.contains id) (ids ++ more) := by
  have hnew : ∀ {id}, id ∈ onceMore.filter (fun id => !ids.contains id) ↔
      id ∈ more ∧ id ∉ ids := by
    intro id
    rw [List.mem_filter, hmore.mem_iff]
    simp
  refine of_ordered (fun {id} => ?_) (List.pairwise_append.2 ⟨?_, ?_, ?_⟩)
  · rw [List.mem_append, h.mem_iff, hnew, List.mem_append, or_and_left]
    exact and_iff_left (Classical.em _)
  · -- both are mentioned before the further ids
    refine h.ordered.imp_of_mem fun ha hb hab => ?_
    rw [List.idxOf_append_of_mem (h.mem_iff.1 ha), List.idxOf_append_of_mem (h.mem_iff.1 hb)]
    exact hab
  · -- both are first mentioned among the further ids
    refine (hmore.ordered.filter _).imp_of_mem fun ha hb hab => ?_
    rw [List.idxOf_append_of_notMem (hnew.1 ha).2, List.idxOf_append_of_notMem (hnew.1 hb).2]
    exact Nat.add_lt_add_left hab _
  · intro a ha b hb
    rw [List.idxOf_append_of_mem (h.mem_iff.1 ha), List.idxOf_append_of_notMem (hnew.1 hb).2]
    exact Nat.lt_add_right _ (List.idxOf_lt_length_of_mem (h.mem_iff.1 ha))

end IsListing

/-! ## The needs of a job -/

/-- Normalizing needs lists them. -/
theorem isListing_normalizeNeeds (ids : List String) : IsListing (normalizeNeeds ids) ids :=
  .of_ordered (mem_firstMentions.trans (and_iff_left List.not_mem_nil))
    (pairwise_firstMentions [] ids)

/-- The needs without repetition are the needs with later duplicates erased. -/
theorem normalizeNeeds_eq_eraseDups (ids : List String) : normalizeNeeds ids = ids.eraseDups := by
  rw [normalizeNeeds, firstMentions_eq_eraseDups]
  congr 1
  exact List.filter_eq_self.2 fun _ _ => rfl

@[simp] theorem mem_normalizeNeeds {ids : List String} {id : String} :
    id ∈ normalizeNeeds ids ↔ id ∈ ids := (isListing_normalizeNeeds ids).mem_iff

theorem nodup_normalizeNeeds (ids : List String) : (normalizeNeeds ids).Nodup :=
  (isListing_normalizeNeeds ids).nodup

/-- What is a listing of the needs is what they are normalized to. -/
theorem IsListing.eq_normalizeNeeds {once ids : List String} (h : IsListing once ids) :
    normalizeNeeds ids = once := (isListing_normalizeNeeds ids).unique h

/-- **Needs are listed once, in the order of their first mention.** Normalized needs hold the ids of
the needs and no other, none of them twice, and one before another exactly as they are first
mentioned; no other list does. Normalizing once more changes nothing, and of further needs those are
added that are new. -/
theorem normalizeNeeds_lists_once (ids : List String) :
    (∀ once, IsListing once ids ↔ once = normalizeNeeds ids) ∧
      normalizeNeeds (normalizeNeeds ids) = normalizeNeeds ids ∧
      ∀ more, normalizeNeeds (ids ++ more) =
        normalizeNeeds ids ++ (normalizeNeeds more).filter fun id => !ids.contains id := by
  have listed := isListing_normalizeNeeds ids
  refine ⟨fun once => ⟨fun h => h.eq_normalizeNeeds.symm, fun h => h ▸ listed⟩, ?_, fun more => ?_⟩
  · exact (IsListing.self listed.nodup).eq_normalizeNeeds
  · exact (listed.append (isListing_normalizeNeeds more)).eq_normalizeNeeds

end JobLoom
