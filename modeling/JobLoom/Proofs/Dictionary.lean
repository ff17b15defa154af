import Mathlib.Data.List.Induction
import Mathlib.Data.List.Nodup
import JobLoom.Dictionary

/-!
# What is found in a dictionary

What the operations on dictionaries do, told by what is found for a key afterwards. In particular, a
merged dictionary has the value of the second one for a key, and that of the first one only where
the second one has none.
-/

namespace JobLoom

variable {α : Type}

/-- The first entry decides about its key only. -/
theorem lookup_cons_eq_ite (e : String × α) (l : List (String × α)) (key : String) :
    (e :: l).lookup key = if key = e.1 then some e.2 else l.lookup key := by
  rw [List.lookup_cons]
  by_cases h : key = e.1
  · rw [if_pos h, beq_iff_eq.2 h]
  · rw [if_neg h, beq_eq_false_iff_ne.2 h]

theorem lookup_eq_none_of_not_mem {l : List (String × α)} {key : String}
    (h : key ∉ l.map Prod.fst) : l.lookup key = none := by
  refine List.lookup_eq_none_iff.2 fun e he => ?_
  have hne : key ≠ e.1 := fun heq => h (heq ▸ List.mem_map_of_mem he)
  simpa using hne

theorem lookup_eq_some_of_mem {l : List (String × α)} {key : String} {value : α}
    (hn : (l.map Prod.fst).Nodup) (h : (key, value) ∈ l) : l.lookup key = some value := by
  obtain ⟨before, rest, rfl⟩ := List.append_of_mem h
  refine List.lookup_eq_some_iff.2 ⟨before, rest, rfl, fun e he => ?_⟩
  rw [List.map_append, List.map_cons] at hn
  have hne : e.1 ≠ key :=
    (List.nodup_append.1 hn).2.2 e.1 (List.mem_map_of_mem he) key List.mem_cons_self
  simpa using hne.symm

namespace Dictionary

/-- After an insertion the new value is found for its key, and for the other keys what was there
before. -/
theorem lookup_insertEntry (key : String) (value : α) (l : List (String × α)) (k : String) :
    (insertEntry key value l).lookup k = if k = key then some value else l.lookup k := by
  induction l with
  | nil => exact lookup_cons_eq_ite (key, value) [] k
  | cons e rest ih =>
    unfold insertEntry
    split
    · exact lookup_cons_eq_ite (key, value) (e :: rest) k
    · split
      · next heq =>
        -- the entry that is replaced had the same key
        rw [lookup_cons_eq_ite, lookup_cons_eq_ite, ← heq]
        split <;> rfl
      · next hne =>
        rw [lookup_cons_eq_ite, ih, lookup_cons_eq_ite]
        by_cases h : k = key
        · rw [if_pos h, if_pos h, if_neg (h ▸ hne)]
        · rw [if_neg h, if_neg h]

theorem get?_insert (d : Dictionary α) (key : String) (value : α) (k : String) :
    (d.insert key value).get? k = if k = key then some value else d.get? k :=
  lookup_insertEntry key value d.entries k

/-- Of several insertions under different keys each one counts. -/
theorem get?_insertMany {es : List (String × α)} (h : (es.map Prod.fst).Nodup) (d : Dictionary α)
    (k : String) : (d.insertMany es).get? k = (es.lookup k).or (d.get? k) := by
  unfold insertMany
  induction es generalizing d with
  | nil => rfl
  | cons e rest ih =>
    rw [List.map_cons, List.nodup_cons] at h
    rw [List.foldl_cons, ih h.2, get?_insert, lookup_cons_eq_ite]
    by_cases hk : k = e.1
    · -- the key does not come again
      rw [if_pos hk, if_pos hk, lookup_eq_none_of_not_mem (hk ▸ h.1), Option.none_or,
        Option.some_or]
    · rw [if_neg hk, if_neg hk]

/-- Of several insertions under one key the last one counts. -/
theorem get?_ofList (es : List (String × α)) (k : String) :
    (ofList es).get? k = ((es.filter fun e => e.1 = k).map Prod.snd).getLast? := by
  unfold ofList insertMany
  induction es using List.reverseRecOn with
  | nil => rfl
  | append_singleton es e ih =>
    rw [List.foldl_append, List.foldl_cons, List.foldl_nil, get?_insert, List.filter_append,
      List.map_append]
    by_cases h : k = e.1
    · rw [if_pos h, List.filter_cons_of_pos (by simp [h]), List.map_cons]
      exact List.getLast?_concat.symm
    · rw [if_neg h, List.filter_cons_of_neg (by simpa using Ne.symm h), ih]
      exact congrArg _ (List.append_nil _).symm

theorem nodup_keys (d : Dictionary α) : (d.entries.map Prod.fst).Nodup := by
  refine List.pairwise_map.2 (d.ascending.imp fun {a b} hlt heq => ?_)
  rw [heq] at hlt
  exact absurd hlt (String.lt_irrefl _)

theorem get?_eq_some_iff {d : Dictionary α} {k : String} {value : α} :
    d.get? k = some value ↔ (k, value) ∈ d.entries := by
  refine ⟨fun h => ?_, lookup_eq_some_of_mem d.nodup_keys⟩
  obtain ⟨before, rest, heq, -⟩ := List.lookup_eq_some_iff.1 h
  rw [heq]
  exact List.mem_append_right _ List.mem_cons_self

/-- Two dictionaries in which the same is found for every key are equal. -/
theorem ext_get? {d e : Dictionary α} (h : ∀ k, d.get? k = e.get? k) : d = e := by
  have hmem (x : String × α) : x ∈ d.entries ↔ x ∈ e.entries := by
    rw [← get?_eq_some_iff, ← get?_eq_some_iff, h]
  have hnodup (d : Dictionary α) : d.entries.Nodup := List.Nodup.of_map _ d.nodup_keys
  refine ext ((List.perm_ext_iff_of_nodup (hnodup d) (hnodup e)).2 hmem |>.eq_of_pairwise ?_
    d.ascending e.ascending)
  exact fun a b _ _ hab hba => absurd hba (String.lt_asymm hab)

/-- In a merged dictionary the second one wins. -/
theorem get?_merge (d e : Dictionary α) (k : String) :
    (d.merge e).get? k = (e.get? k).or (d.get? k) :=
  get?_insertMany e.nodup_keys d k

/-- A key that comes after all others is put at the end. -/
theorem insertEntry_of_forall_lt {key : String} {value : α} {l : List (String × α)}
    (h : ∀ e ∈ l, e.1 < key) : insertEntry key value l = l ++ [(key, value)] := by
  induction l with
  | nil => rfl
  | cons e rest ih =>
    have hlt := h e List.mem_cons_self
    have hne : key ≠ e.1 := fun heq => String.lt_irrefl _ (heq ▸ hlt)
    rw [insertEntry, if_neg (String.lt_asymm hlt), if_neg hne,
      ih fun e' he' => h e' (List.mem_cons_of_mem _ he')]
    rfl

/-- Entries that come in order after all others are put at the end. -/
theorem entries_insertMany {d : Dictionary α} {es : List (String × α)}
    (h : Ascending (d.entries ++ es)) : (d.insertMany es).entries = d.entries ++ es := by
  unfold insertMany
  induction es generalizing d with
  | nil => exact (List.append_nil _).symm
  | cons e rest ih =>
    have hentries : (d.insert e.1 e.2).entries = d.entries ++ [e] :=
      insertEntry_of_forall_lt fun e' he' =>
        (List.pairwise_append.1 h).2.2 e' he' e List.mem_cons_self
    rw [List.foldl_cons, ih (by rwa [hentries, List.append_assoc]), hentries, List.append_assoc]
    rfl

theorem ofList_entries (d : Dictionary α) : ofList d.entries = d :=
  ext (entries_insertMany (d := empty) d.ascending)

end Dictionary

end JobLoom
