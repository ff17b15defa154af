import Mathlib.Data.List.Forall2
import JobLoom.Manifest.Name

/-!
# Generated names

A generated name is made in one pass over the name of a pipeline, and it is what one gets by taking
the name in lower case apart into runs of letters and digits and joining these with dashes.

* **The pass.** A dash is owed once something has been left out, and it is paid in front of the next
  character that is kept, unless that one is the first of all. So every run but the first is
  attached with one dash, and pieces without characters are attached without trace.
* **Lower case.** Only characters that become letters of the basic alphabet matter. Any other
  character may become any text that separates, here one and there another.
* **Names again.** A generated name is in lower case already, and its runs are those that it was
  joined from.
-/

namespace JobLoom.Stem

variable {s p : List Char} {rs ps : List (List Char)} {c : Char}

/-! ## Taking a text apart -/

/-- The pieces of a text between the characters that no stem holds. -/
def pieces (s : List Char) : List (List Char) := s.splitOnP fun c => !isStemChar c

/-- The longest runs of letters and digits, in order. -/
def runs (s : List Char) : List (List Char) := (pieces s).filter fun p => !p.isEmpty

/-- Runs joined by dashes, with one more dash at the end. -/
def joined (rs : List (List Char)) : List Char := List.intercalate ['-'] rs ++ ['-']

/-- The generated name that has these runs. -/
def named (rs : List (List Char)) : String :=
  if rs = [] then "workflow-" else String.ofList (joined rs)

/-- A run of letters and digits. -/
def IsRun (r : List Char) : Prop := r ≠ [] ∧ ∀ c ∈ r, isStemChar c = true

/-- Some runs of letters and digits, joined by single dashes, and a dash at the end. -/
def IsStem (t : String) : Prop :=
  ∃ rs, rs ≠ [] ∧ (∀ r ∈ rs, IsRun r) ∧ t.toList = joined rs

theorem pieces_ne_nil (s : List Char) : pieces s ≠ [] := List.splitOnP_ne_nil _ s

/-- A character that is left out begins a new piece. -/
theorem pieces_cons_of_gap (hc : isStemChar c = false) (s : List Char) :
    pieces (c :: s) = [] :: pieces s := by
  rw [pieces, List.splitOnP_cons_eq_if_modifyHead, hc]
  rfl

/-- A character that is kept belongs to the first piece. -/
theorem pieces_cons_of_stem (hc : isStemChar c = true) (hs : pieces s = p :: ps) :
    pieces (c :: s) = (c :: p) :: ps := by
  rw [pieces, List.splitOnP_cons_eq_if_modifyHead, hc]
  exact congrArg (List.modifyHead (List.cons c)) hs

theorem isStemChar_of_mem_pieces (hp : p ∈ pieces s) : ∀ c ∈ p, isStemChar c = true := by
  induction s generalizing p with
  | nil =>
    obtain rfl : p = [] := List.mem_singleton.1 hp
    exact fun _ hc => nomatch hc
  | cons d rest ih =>
    cases hd : isStemChar d with
    | false =>
      rw [pieces_cons_of_gap hd] at hp
      rcases List.mem_cons.1 hp with rfl | hp
      · exact fun _ hc => nomatch hc
      · exact ih hp
    | true =>
      obtain ⟨q, qs, hq⟩ := List.exists_cons_of_ne_nil (pieces_ne_nil rest)
      rw [pieces_cons_of_stem hd hq] at hp
      rw [hq] at ih
      rcases List.mem_cons.1 hp with rfl | hp
      · exact List.forall_mem_cons.2 ⟨hd, ih List.mem_cons_self⟩
      · exact ih (List.mem_cons_of_mem _ hp)

theorem isRun_of_mem_runs {r : List Char} (hr : r ∈ runs s) : IsRun r := by
  obtain ⟨hpiece, hne⟩ := List.mem_filter.1 hr
  exact ⟨by simpa using hne, isStemChar_of_mem_pieces hpiece⟩

/-! ## The pass -/

/-- A stem with one more piece: a dash stands between the two, unless one of them is empty. -/
def attach (stem p : List Char) : List Char :=
  if p = [] then stem else if stem = [] then p else stem ++ '-' :: p

@[simp] theorem attach_nil (stem : List Char) : attach stem [] = stem := rfl

theorem nil_attach (p : List Char) : attach [] p = p := by
  unfold attach
  split
  · next h => exact h.symm
  · rfl

/-- **What the pass keeps.** The pieces are attached one after the other. The first one goes on with
the stem as it is, unless something was left out in front of it. -/
theorem foldl_addToStem (stem : List Char) (owed : Bool) (hs : pieces s = p :: ps) :
    (s.foldl addToStem (stem, owed)).1.reverse =
      ps.foldl attach (if owed then attach stem.reverse p else stem.reverse ++ p) := by
  induction s generalizing stem owed p ps with
  | nil =>
    obtain ⟨rfl, rfl⟩ := List.cons.inj hs
    cases owed <;> simp
  | cons c rest ih =>
    obtain ⟨q, qs, hq⟩ := List.exists_cons_of_ne_nil (pieces_ne_nil rest)
    cases hc : isStemChar c with
    | false =>
      rw [pieces_cons_of_gap hc, hq] at hs
      obtain ⟨rfl, rfl⟩ := List.cons.inj hs
      rw [List.foldl_cons, addToStem, hc, List.foldl_cons]
      refine (ih stem true hq).trans ?_
      cases owed <;> simp
    | true =>
      rw [pieces_cons_of_stem hc hq] at hs
      obtain ⟨rfl, rfl⟩ := List.cons.inj hs
      rw [List.foldl_cons, addToStem, hc]
      refine (ih _ false hq).trans (congrArg (List.foldl attach · qs) ?_)
      cases owed <;> cases stem <;> simp [attach]

/-- Pieces without characters are attached without trace. -/
theorem foldl_attach_filter (stem : List Char) (ps : List (List Char)) :
    (ps.filter fun p => !p.isEmpty).foldl attach stem = ps.foldl attach stem := by
  induction ps generalizing stem with
  | nil => rfl
  | cons p rest ih =>
    cases p with
    | nil => exact ih stem
    | cons c cs => exact ih (attach stem (c :: cs))

/-- Runs are attached to a stem by single dashes. -/
theorem foldl_attach {stem : List Char} (hstem : stem ≠ []) (hrs : ∀ r ∈ rs, r ≠ []) :
    rs.foldl attach stem = List.intercalate ['-'] (stem :: rs) := by
  induction rs generalizing stem with
  | nil => exact List.intercalate_singleton.symm
  | cons r rest ih =>
    obtain ⟨hr, hrest⟩ := List.forall_mem_cons.1 hrs
    have hattach : attach stem r = stem ++ '-' :: r := by rw [attach, if_neg hr, if_neg hstem]
    rw [List.foldl_cons, hattach, ih (by simp) hrest, List.intercalate_cons_cons]
    cases rest with
    | nil => simp
    | cons q qs => simp [List.intercalate_cons_cons]

/-- The pass gives the runs joined by dashes. -/
theorem foldl_addToStem_eq_intercalate (s : List Char) :
    (s.foldl addToStem ([], false)).1.reverse = List.intercalate ['-'] (runs s) := by
  obtain ⟨p, ps, hs⟩ := List.exists_cons_of_ne_nil (pieces_ne_nil s)
  have hattached : (s.foldl addToStem ([], false)).1.reverse = (runs s).foldl attach [] := by
    rw [foldl_addToStem [] false hs, runs, foldl_attach_filter, hs, List.foldl_cons, nil_attach]
    rfl
  rw [hattached]
  have hruns : ∀ r ∈ runs s, r ≠ [] := fun r hr => (isRun_of_mem_runs hr).1
  cases hrs : runs s with
  | nil => rfl
  | cons r rest =>
    rw [hrs] at hruns
    obtain ⟨hr, hrest⟩ := List.forall_mem_cons.1 hruns
    rw [List.foldl_cons, nil_attach, foldl_attach hr hrest]

/-! ## Lower case -/

/-- A text may be the lower case of a character, as far as letters and digits are concerned. Which
one it is may depend on what stands around the character. -/
inductive IsLowerCase : Char → List Char → Prop where
  /-- letters in lower case and digits stay as they are -/
  | stem {c : Char} (hc : isStemChar c = true) : IsLowerCase c [c]
  /-- capital letters become those in lower case -/
  | capital {c : Char} (hlow : 'A' ≤ c) (hhigh : c ≤ 'Z') :
    IsLowerCase c [Char.ofNat (c.toNat + 32)]
  /-- the Kelvin sign becomes a letter -/
  | kelvin : IsLowerCase '\u212A' ['k']
  /-- a capital `I` with a dot becomes a letter and a dot -/
  | dotted : IsLowerCase '\u0130' ['i', '\u0307']
  /-- nothing else leads to letters or digits -/
  | other {c : Char} {t : List Char} (hc : isStemChar c = false) (hcapital : ¬('A' ≤ c ∧ c ≤ 'Z'))
    (hkelvin : c ≠ '\u212A') (hdotted : c ≠ '\u0130') (hne : t ≠ [])
    (ht : ∀ d ∈ t, isStemChar d = false) : IsLowerCase c t

theorem lowerCase_of_not_capital (hcapital : ¬('A' ≤ c ∧ c ≤ 'Z')) (hkelvin : c ≠ '\u212A')
    (hdotted : c ≠ '\u0130') : lowerCase c = [c] := by
  rw [lowerCase, if_neg (by simpa using hcapital), if_neg hkelvin, if_neg hdotted]

theorem lowerCase_of_capital (hlow : 'A' ≤ c) (hhigh : c ≤ 'Z') :
    lowerCase c = [Char.ofNat (c.toNat + 32)] := by
  rw [lowerCase, if_pos (by simp [hlow, hhigh])]

theorem lowerCase_of_stem (hc : isStemChar c = true) : lowerCase c = [c] := by
  refine lowerCase_of_not_capital ?_ (fun h => absurd (h ▸ hc) (by decide))
    fun h => absurd (h ▸ hc) (by decide)
  rintro ⟨hlow, hhigh⟩
  have hstem : 'a' ≤ c ∧ c ≤ 'z' ∨ '0' ≤ c ∧ c ≤ '9' := by simpa [isStemChar] using hc
  rcases hstem with ⟨h, -⟩ | ⟨-, h⟩
  · exact absurd (Char.le_trans h hhigh) (by decide)
  · exact absurd (Char.le_trans hlow h) (by decide)

theorem isLowerCase_lowerCase (c : Char) : IsLowerCase c (lowerCase c) := by
  by_cases hstem : isStemChar c = true
  · rw [lowerCase_of_stem hstem]
    exact .stem hstem
  by_cases hcapital : 'A' ≤ c ∧ c ≤ 'Z'
  · rw [lowerCase_of_capital hcapital.1 hcapital.2]
    exact .capital hcapital.1 hcapital.2
  by_cases hkelvin : c = '\u212A'
  · rw [hkelvin]
    exact .kelvin
  by_cases hdotted : c = '\u0130'
  · rw [hdotted]
    exact .dotted
  have hgap := Bool.eq_false_iff.2 hstem
  rw [lowerCase_of_not_capital hcapital hkelvin hdotted]
  exact .other hgap hcapital hkelvin hdotted (List.cons_ne_nil c []) fun d hd =>
    List.mem_singleton.1 hd ▸ hgap

/-- After any text that separates, a dash is owed and no more. -/
theorem foldl_addToStem_of_gap (hne : s ≠ []) (hs : ∀ c ∈ s, isStemChar c = false)
    (state : List Char × Bool) : s.foldl addToStem state = (state.1, true) := by
  induction s generalizing state with
  | nil => exact absurd rfl hne
  | cons c rest ih =>
    obtain ⟨hc, hrest⟩ := List.forall_mem_cons.1 hs
    have hstep : addToStem state c = (state.1, true) := by
      rw [addToStem, hc]
      rfl
    rw [List.foldl_cons, hstep]
    by_cases hmore : rest = []
    · rw [hmore]
      rfl
    · exact ih hmore hrest _

/-- To the pass, all texts that may be the lower case of a character are the same. -/
theorem foldl_addToStem_of_isLowerCase {t : List Char} (h : IsLowerCase c t)
    (state : List Char × Bool) : t.foldl addToStem state = (lowerCase c).foldl addToStem state := by
  cases h with
  | stem hc => rw [lowerCase_of_stem hc]
  | capital hlow hhigh => rw [lowerCase_of_capital hlow hhigh]
  | kelvin => rfl
  | dotted => rfl
  | other hc hcapital hkelvin hdotted hne ht =>
    rw [lowerCase_of_not_capital hcapital hkelvin hdotted, foldl_addToStem_of_gap hne ht,
      foldl_addToStem_of_gap (List.cons_ne_nil c []) (List.forall_mem_singleton.2 hc)]

/-- The characters of a stem are the runs of the name in lower case, joined by dashes. -/
theorem stemChars_eq {name : List Char} {lowered : List (List Char)}
    (h : List.Forall₂ IsLowerCase name lowered) :
    stemChars name = List.intercalate ['-'] (runs lowered.flatten) := by
  have hpass (state : List Char × Bool) :
      (name.flatMap lowerCase).foldl addToStem state = lowered.flatten.foldl addToStem state := by
    induction h generalizing state with
    | nil => rfl
    | cons hc _ ih =>
      rw [List.flatMap_cons, List.flatten_cons, List.foldl_append, List.foldl_append,
        foldl_addToStem_of_isLowerCase hc, ih]
  rw [← foldl_addToStem_eq_intercalate, stemChars, hpass]

/-! ## Names -/

theorem intercalate_eq_nil_iff (hrs : ∀ r ∈ rs, IsRun r) :
    List.intercalate ['-'] rs = [] ↔ rs = [] := by
  refine ⟨fun h => ?_, fun h => h ▸ rfl⟩
  cases rs with
  | nil => rfl
  | cons r rest =>
    cases rest with
    | nil => exact absurd (List.intercalate_singleton.symm.trans h) (hrs r List.mem_cons_self).1
    | cons q qs =>
      rw [List.intercalate_cons_cons] at h
      simp at h

/-- A generated name is the one that has the runs of the name in lower case. -/
theorem generateName_eq {name : String} {lowered : List (List Char)}
    (h : List.Forall₂ IsLowerCase name.toList lowered) :
    generateName name = named (runs lowered.flatten) := by
  have hruns : ∀ r ∈ runs lowered.flatten, IsRun r := fun _ => isRun_of_mem_runs
  unfold generateName named
  dsimp only
  rw [stemChars_eq h]
  by_cases hnone : runs lowered.flatten = []
  · rw [hnone]
    rfl
  · rw [if_neg hnone, if_neg (by simpa using mt (intercalate_eq_nil_iff hruns).1 hnone)]
    rfl

/-- The lower case of a text, character by character. -/
theorem forall₂_isLowerCase (s : List Char) : List.Forall₂ IsLowerCase s (s.map lowerCase) := by
  rw [List.forall₂_map_right_iff]
  exact List.forall₂_same.2 fun c _ => isLowerCase_lowerCase c

/-- A generated name is a stem. -/
theorem isStem_named (hrs : ∀ r ∈ rs, IsRun r) : IsStem (named rs) := by
  unfold named
  split
  · refine ⟨["workflow".toList], List.cons_ne_nil _ _, ?_, by decide⟩
    exact List.forall_mem_singleton.2 ⟨by decide, List.all_eq_true.1 (by decide)⟩
  · next h => exact ⟨rs, h, hrs, String.toList_ofList⟩

/-! ## Names of names -/

/-- Runs with a dash behind each of them. -/
theorem joined_eq_flatMap (hrs : rs ≠ []) : joined rs = rs.flatMap fun r => r ++ ['-'] := by
  induction rs with
  | nil => exact absurd rfl hrs
  | cons r rest ih =>
    cases rest with
    | nil => simp [joined]
    | cons q qs =>
      rw [List.flatMap_cons, ← ih (List.cons_ne_nil q qs), joined, joined,
        List.intercalate_cons_cons]
      simp only [List.append_assoc]

theorem runs_joined (hne : rs ≠ []) (hrs : ∀ r ∈ rs, IsRun r) : runs (joined rs) = rs := by
  rw [joined_eq_flatMap hne]
  clear hne
  induction rs with
  | nil => rfl
  | cons r rest ih =>
    obtain ⟨⟨hne, hr⟩, hrest⟩ := List.forall_mem_cons.1 hrs
    have hdash : (!isStemChar '-') = true := by decide
    have hpieces (t : List Char) : pieces (r ++ '-' :: t) = r :: pieces t :=
      List.splitOnP_append_cons_of_forall_mem (fun c hc => by rw [hr c hc]; rfl) '-' hdash t
    rw [List.flatMap_cons, List.append_assoc, List.singleton_append, runs, hpieces,
      List.filter_cons_of_pos (by simpa using hne)]
    exact congrArg (List.cons r) (ih hrest)

theorem map_lowerCase_joined (hne : rs ≠ []) (hrs : ∀ r ∈ rs, IsRun r) :
    ((joined rs).map lowerCase).flatten = joined rs := by
  have hself : ∀ c ∈ joined rs, lowerCase c = [c] := by
    intro c hc
    rw [joined_eq_flatMap hne] at hc
    obtain ⟨r, hr, hc⟩ := List.mem_flatMap.1 hc
    rcases List.mem_append.1 hc with hc | hc
    · exact lowerCase_of_stem ((hrs r hr).2 c hc)
    · obtain rfl := List.mem_singleton.1 hc
      decide
  rw [← List.flatMap_def, List.flatMap_congr hself, List.flatMap_singleton']

theorem generateName_of_isStem {t : String} (h : IsStem t) : generateName t = t := by
  obtain ⟨rs, hne, hrs, ht⟩ := h
  rw [generateName_eq (forall₂_isLowerCase _), ht, map_lowerCase_joined hne hrs,
    runs_joined hne hrs, named, if_neg hne, ← ht, String.ofList_toList]

/-- **What a generated name is.** However the lower case of its characters is told, it is the runs of
letters and digits of the name in lower case, joined by single dashes and ended by one, or
`workflow-` if there are none. So it always looks like a stem, and it is its own generated name. -/
theorem generateName_joins_runs :
    (∀ c, IsLowerCase c (lowerCase c)) ∧ ∀ name : String,
      (∀ lowered, List.Forall₂ IsLowerCase name.toList lowered →
        generateName name = named (runs lowered.flatten)) ∧
      IsStem (generateName name) ∧ generateName (generateName name) = generateName name := by
  refine ⟨isLowerCase_lowerCase, fun name => ?_⟩
  have hstem : IsStem (generateName name) := by
    rw [generateName_eq (forall₂_isLowerCase _)]
    exact isStem_named fun _ => isRun_of_mem_runs
  exact ⟨fun _ => generateName_eq, hstem, generateName_of_isStem hstem⟩

/-- Letters beyond the basic alphabet separate, also when they have a lower case, be it another one
at the end of a word. -/
theorem generateName_joins_runs_accents :
    let name := " É--CaΣ İs"
    let lowered := [[' '], ['é'], ['-'], ['-'], ['c'], ['a'], ['ς'], [' '], ['i', '\u0307'], ['s']]
    List.Forall₂ IsLowerCase name.toList lowered ∧
      runs lowered.flatten = ["ca".toList, "i".toList, "s".toList] ∧
      generateName name = "ca-i-s-" ∧ generateName "ca-i-s-" = "ca-i-s-" := by
  intro name lowered
  have hgap {c : Char} (d : Char) (hc : isStemChar c = false) (hcapital : ¬('A' ≤ c ∧ c ≤ 'Z'))
      (hkelvin : c ≠ '\u212A') (hdotted : c ≠ '\u0130') (hd : isStemChar d = false) :
      IsLowerCase c [d] :=
    .other hc hcapital hkelvin hdotted (List.cons_ne_nil d []) (List.forall_mem_singleton.2 hd)
  have hlowered : List.Forall₂ IsLowerCase name.toList lowered := by
    have htext : name.toList = [' ', 'É', '-', '-', 'C', 'a', 'Σ', ' ', 'İ', 's'] := by decide
    rw [htext]
    refine .cons (hgap ' ' ?_ ?_ ?_ ?_ ?_) (.cons (hgap 'é' ?_ ?_ ?_ ?_ ?_)
      (.cons (hgap '-' ?_ ?_ ?_ ?_ ?_) (.cons (hgap '-' ?_ ?_ ?_ ?_ ?_)
      (.cons (.capital ?_ ?_) (.cons (.stem ?_) (.cons (hgap 'ς' ?_ ?_ ?_ ?_ ?_)
      (.cons (hgap ' ' ?_ ?_ ?_ ?_ ?_) (.cons .dotted (.cons (.stem ?_) .nil)))))))))
    all_goals decide
  have hruns : runs lowered.flatten = ["ca".toList, "i".toList, "s".toList] := by decide
  obtain ⟨hname, -, hagain⟩ := generateName_joins_runs.2 name
  have hgenerated : generateName name = "ca-i-s-" := by
    rw [hname lowered hlowered, hruns]
    decide
  refine ⟨hlowered, hruns, hgenerated, ?_⟩
  rw [← hgenerated]
  exact hagain

end JobLoom.Stem
