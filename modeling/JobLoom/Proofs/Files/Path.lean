import JobLoom.Proofs.Files.Disk

/-!
# Paths that are joined

What a path goes through once a plain name has been joined to a directory: all that the directory
goes through, and then the name.

* **Pieces.** A slash divides a path, so the pieces of two paths with a slash between them are those
  of the one and then those of the other.
* **File names** are the names that components may have: they are not empty, hold no slash and are
  neither a single point nor two. A plain text has one of them as its only component, though it may
  itself end in slashes and points.
-/

namespace JobLoom.Path

/-! ## Pieces -/

theorem pieces_cons (c : Char) (s : List Char) :
    pieces (c :: s) = if c = '/' then [] :: pieces s else
      match pieces s with
      | [] => [[c]]
      | p :: rest => (c :: p) :: rest := rfl

theorem pieces_ne_nil (s : List Char) : pieces s ≠ [] := by
  cases s with
  | nil => exact List.cons_ne_nil _ _
  | cons c rest =>
    rw [pieces_cons]
    split
    · exact List.cons_ne_nil _ _
    · split <;> exact List.cons_ne_nil _ _

theorem pieces_append (s t : List Char) : pieces (s ++ '/' :: t) = pieces s ++ pieces t := by
  induction s with
  | nil => rfl
  | cons c rest ih =>
    rw [List.cons_append, pieces_cons, pieces_cons, ih]
    split
    · rfl
    · cases h : pieces rest with
      | nil => exact absurd h (pieces_ne_nil rest)
      | cons p ps => rfl

theorem pieces_eq_singleton {s : List Char} (h : '/' ∉ s) : pieces s = [s] := by
  induction s with
  | nil => rfl
  | cons c rest ih =>
    obtain ⟨hc, hrest⟩ := not_or.1 (mt List.mem_cons.2 h)
    rw [pieces_cons, if_neg (Ne.symm hc), ih hrest]

theorem slash_not_mem_pieces {s p : List Char} (h : p ∈ pieces s) : '/' ∉ p := by
  induction s generalizing p with
  | nil =>
    obtain rfl : p = [] := List.mem_singleton.1 h
    exact List.not_mem_nil
  | cons c rest ih =>
    rw [pieces_cons] at h
    split at h
    · rcases List.mem_cons.1 h with rfl | h
      · exact List.not_mem_nil
      · exact ih h
    · next hc =>
      split at h
      · next hnil => exact absurd hnil (pieces_ne_nil rest)
      · next q more hq =>
        rw [hq] at ih
        rcases List.mem_cons.1 h with rfl | h
        · rw [List.mem_cons, not_or]
          exact ⟨Ne.symm hc, ih List.mem_cons_self⟩
        · exact ih (List.mem_cons_of_mem _ h)

/-- A text without a slash ends the last piece of a path that ends in it. -/
theorem exists_mem_pieces_append (s : List Char) {t : List Char} (h : '/' ∉ t) :
    ∃ p, p ++ t ∈ pieces (s ++ t) := by
  induction s with
  | nil => exact ⟨[], by rw [List.nil_append, pieces_eq_singleton h]; exact List.mem_singleton_self t⟩
  | cons c rest ih =>
    obtain ⟨p, hp⟩ := ih
    rw [List.cons_append, pieces_cons]
    split
    · exact ⟨p, List.mem_cons_of_mem _ hp⟩
    · split
      · next hnil => exact absurd hnil (pieces_ne_nil _)
      · next q more hq =>
        rw [hq] at hp
        rcases List.mem_cons.1 hp with rfl | hmore
        · exact ⟨c :: p, List.mem_cons_self⟩
        · exact ⟨p, List.mem_cons_of_mem _ hmore⟩

/-! ## File names -/

/-- A text that can name an entry of a directory. -/
structure IsFileName (s : String) : Prop where
  /-- it is not empty -/
  ne_empty : s ≠ ""
  /-- it is not the directory itself -/
  ne_here : s ≠ "."
  /-- it is not the directory above -/
  ne_up : s ≠ ".."
  /-- it does not divide -/
  slash_not_mem : '/' ∉ s.toList

/-- Only an empty piece and a single point stand for nothing. -/
theorem component?_eq_none_iff {piece : List Char} :
    component? piece = none ↔ piece = [] ∨ piece = ['.'] := by
  unfold component?
  split
  · next h => exact ⟨fun _ => by simpa using h, fun _ => rfl⟩
  · next h =>
    have hnot : ¬ (piece = [] ∨ piece = ['.']) := by simpa using h
    split <;> exact ⟨fun hc => (by cases hc), fun hc => absurd hc hnot⟩

theorem isFileName_of_component? {piece : List Char} {a : String} (hslash : '/' ∉ piece)
    (h : component? piece = some (.name a)) : IsFileName a ∧ piece = a.toList := by
  unfold component? at h
  split at h
  · cases h
  · next hidle =>
    split at h
    · cases h
    · next hup =>
      cases h
      have hlist := String.toList_ofList (l := piece)
      simp only [Bool.or_eq_true, decide_eq_true_eq, not_or] at hidle
      refine ⟨⟨?_, ?_, ?_, ?_⟩, hlist.symm⟩
      · exact fun heq => hidle.1 (by rw [← hlist, heq]; rfl)
      · exact fun heq => hidle.2 (by rw [← hlist, heq]; rfl)
      · exact fun heq => hup (by rw [← hlist, heq]; rfl)
      · rwa [hlist]

theorem component?_of_isFileName {s : String} (h : IsFileName s) :
    component? s.toList = some (.name s) := by
  have hnil : s.toList ≠ [] := fun heq => h.ne_empty (String.toList_eq_nil_iff.1 heq)
  have hhere : s.toList ≠ ['.'] := fun heq => h.ne_here (String.toList_inj.1 heq)
  have hup : s.toList ≠ ['.', '.'] := fun heq => h.ne_up (String.toList_inj.1 heq)
  unfold component?
  rw [if_neg (by simp [hnil, hhere]), if_neg hup, String.ofList_toList]

/-! ## Components -/

/-- Where a path begins, if its first piece says so. -/
def lead (ps : List (List Char)) : List Component :=
  match ps.head? with
  | some [] => [.top]
  | some ['.'] => [.here]
  | _ => []

/-- The first piece decides. -/
theorem lead_append {ps : List (List Char)} (h : ps ≠ []) (qs : List (List Char)) :
    lead (ps ++ qs) = lead ps := by
  unfold lead
  rw [List.head?_append, List.head?_eq_some_head h, Option.some_or]

/-- Pieces that neither stand for anything nor say where the path begins are none. -/
theorem eq_nil_of_lead {ps : List (List Char)} (hlead : lead ps = [])
    (h : ps.filterMap component? = []) : ps = [] := by
  cases ps with
  | nil => rfl
  | cons p rest =>
    rcases component?_eq_none_iff.1 (List.filterMap_eq_nil_iff.1 h p List.mem_cons_self) with rfl | rfl
    · cases hlead
    · cases hlead

theorem name_not_mem_lead (a : String) (ps : List (List Char)) : .name a ∉ lead ps := by
  unfold lead
  split <;> simp

/-- A path goes through its beginning and what its pieces stand for. -/
theorem components_eq {path : String} (h : path ≠ "") : components path =
    lead (pieces path.toList) ++ (pieces path.toList).filterMap component? := by
  unfold components
  rw [if_neg (by simpa using h)]
  split
  · next rest hp => rw [hp]; rfl
  · next rest hp => rw [hp]; rfl
  · next hempty hhere =>
    have hlead : lead (pieces path.toList) = [] := by
      unfold lead
      split
      · next hp =>
        obtain ⟨rest, hrest⟩ := List.head?_eq_some_iff.1 hp
        exact absurd hrest (hempty rest)
      · next hp =>
        obtain ⟨rest, hrest⟩ := List.head?_eq_some_iff.1 hp
        exact absurd hrest (hhere rest)
      · rfl
    rw [hlead, List.nil_append]

theorem isFileName_of_mem_components {path a : String} (h : .name a ∈ components path) :
    IsFileName a := by
  have hne : path ≠ "" := by
    rintro rfl
    cases h
  rw [components_eq hne] at h
  rcases List.mem_append.1 h with h | h
  · exact absurd h (name_not_mem_lead a _)
  · obtain ⟨piece, hpiece, hname⟩ := List.mem_filterMap.1 h
    exact (isFileName_of_component? (slash_not_mem_pieces hpiece) hname).1

/-- A path that is one name has one piece that stands for it, and no beginning. -/
theorem components_eq_singleton_iff {path a : String} : components path = [.name a] ↔
    lead (pieces path.toList) = [] ∧ (pieces path.toList).filterMap component? = [.name a] := by
  by_cases hne : path = ""
  · subst hne
    exact ⟨fun h => (by cases h), fun h => (by cases h.1)⟩
  · rw [components_eq hne]
    constructor
    · intro h
      cases hlead : lead (pieces path.toList) with
      | nil => rw [hlead] at h; exact ⟨rfl, h⟩
      | cons x rest =>
        -- a beginning would be the only component
        rw [hlead] at h
        obtain ⟨rfl, -⟩ := List.cons.inj h
        have hmem : .name a ∈ lead (pieces path.toList) := hlead ▸ List.mem_cons_self
        exact absurd hmem (name_not_mem_lead a _)
    · rintro ⟨hlead, hnames⟩
      rw [hlead, hnames, List.nil_append]

/-- A plain text has one component, which is a name. -/
theorem isPlain_iff {path : String} : isPlain path = true ↔ ∃ a, components path = [.name a] := by
  unfold isPlain
  split
  · next a h => exact ⟨fun _ => ⟨a, h⟩, fun _ => rfl⟩
  · next h => exact ⟨fun hf => (by cases hf), fun ⟨a, ha⟩ => absurd ha (h a)⟩

theorem components_of_isFileName {s : String} (h : IsFileName s) : components s = [.name s] := by
  have hpieces := pieces_eq_singleton h.slash_not_mem
  refine components_eq_singleton_iff.2 ?_
  rw [hpieces, List.filterMap_cons_some (component?_of_isFileName h)]
  refine ⟨?_, rfl⟩
  unfold lead
  split
  · next hp =>
    have hnil : s.toList = [] := Option.some.inj hp
    exact absurd (String.toList_eq_nil_iff.1 hnil) h.ne_empty
  · next hp =>
    have hhere : s.toList = ['.'] := Option.some.inj hp
    exact absurd (String.toList_inj.1 hhere) h.ne_here
  · rfl

/-! ## Joining -/

/-- A path to one name does not begin at the top. -/
theorem isAbsolute_of_components {path a : String} (h : components path = [.name a]) :
    isAbsolute path = false := by
  obtain ⟨hlead, -⟩ := components_eq_singleton_iff.1 h
  cases hlist : path.toList with
  | nil => simp [isAbsolute, hlist]
  | cons c rest =>
    by_cases hc : c = '/'
    · rw [hlist, pieces_cons, if_pos hc] at hlead
      cases hlead
    · simp [isAbsolute, hlist, hc]

/-- What is joined to a directory stands behind a slash, whether the directory ends in one or not. -/
theorem pieces_join {directory path a : String} (h : components path = [.name a])
    (hdirectory : directory ≠ "") : ∃ before after,
      before ≠ [] ∧ pieces directory.toList = before ++ after ∧ (∀ p ∈ after, p = []) ∧
      pieces (join directory path).toList = before ++ pieces path.toList := by
  unfold join
  rw [isAbsolute_of_components h, if_neg (by simpa using hdirectory)]
  split
  · next hslash =>
    obtain ⟨front, hfront⟩ := List.getLast?_eq_some_iff.1 hslash
    refine ⟨pieces front, [[]], pieces_ne_nil _, ?_, by simp, ?_⟩
    · rw [hfront, pieces_append]
      rfl
    · rw [String.toList_append, hfront, List.append_assoc]
      exact pieces_append _ _
  · refine ⟨pieces directory.toList, [], pieces_ne_nil _, (List.append_nil _).symm, by simp, ?_⟩
    rw [String.toList_append, String.toList_append, List.append_assoc]
    exact pieces_append _ _

theorem join_empty {path a : String} (h : components path = [.name a]) : join "" path = path := by
  unfold join
  rw [isAbsolute_of_components h]
  rfl

/-- Joined to a directory, a name comes after all that the directory goes through. -/
theorem components_join (directory : String) {path a : String} (h : components path = [.name a]) :
    components (join directory path) = components directory ++ [.name a] := by
  by_cases hdirectory : directory = ""
  · rw [hdirectory, join_empty h, h]
    rfl
  · obtain ⟨before, after, hbefore, hpieces, hafter, hjoin⟩ := pieces_join h hdirectory
    obtain ⟨-, hnames⟩ := components_eq_singleton_iff.1 h
    have hidle : after.filterMap component? = [] :=
      List.filterMap_eq_nil_iff.2 fun p hp => by rw [hafter p hp]; rfl
    have hne : join directory path ≠ "" := by
      intro heq
      rw [heq] at hjoin
      -- the empty path has one piece, but there is one before the name and one for it
      have hlength := congrArg List.length hjoin
      have hone := List.length_pos_iff.2 hbefore
      have htwo := List.length_pos_iff.2 (pieces_ne_nil path.toList)
      rw [List.length_append] at hlength
      change 1 = _ at hlength
      omega
    rw [components_eq hne, components_eq hdirectory, hjoin, hpieces, lead_append hbefore,
      lead_append hbefore, List.filterMap_append, List.filterMap_append, hnames, hidle,
      List.append_nil, List.append_assoc]

/-! ## Places -/

/-- A piece leads where its component says. -/
theorem follow_of_component? {p : Place} {piece : List Char} :
    (component? piece = none → follow p piece = p) ∧
      ∀ a, component? piece = some (.name a) → follow p piece = p ++ [a] := by
  unfold component? follow
  split
  · exact ⟨fun _ => rfl, fun a h => (by cases h)⟩
  · split
    · exact ⟨fun h => (by cases h), fun a h => (by cases h)⟩
    · exact ⟨fun h => (by cases h), fun a h => (by cases h; rfl)⟩

/-- Pieces that stand for nothing lead nowhere. -/
theorem foldl_follow_of_idle {p : Place} {ps : List (List Char)}
    (h : ps.filterMap component? = []) : ps.foldl follow p = p := by
  induction ps generalizing p with
  | nil => rfl
  | cons piece rest ih =>
    have hall := List.filterMap_eq_nil_iff.1 h
    rw [List.foldl_cons, follow_of_component?.1 (hall piece List.mem_cons_self)]
    exact ih (List.filterMap_eq_nil_iff.2 fun q hq => hall q (List.mem_cons_of_mem _ hq))

theorem foldl_follow_of_name {p : Place} {ps : List (List Char)} {a : String}
    (h : ps.filterMap component? = [.name a]) : ps.foldl follow p = p ++ [a] := by
  induction ps generalizing p with
  | nil => cases h
  | cons piece rest ih =>
    rw [List.foldl_cons]
    cases hc : component? piece with
    | none =>
      rw [List.filterMap_cons_none hc] at h
      rw [follow_of_component?.1 hc]
      exact ih h
    | some x =>
      rw [List.filterMap_cons_some hc] at h
      obtain ⟨rfl, hrest⟩ := List.cons.inj h
      rw [follow_of_component?.2 a hc]
      exact foldl_follow_of_idle hrest

/-- A path that is joined to another one begins where that one does. -/
theorem origin_join (start : Place) {directory path a : String}
    (h : components path = [.name a]) :
    origin start (join directory path) = origin start directory := by
  have habsolute : isAbsolute (join directory path) = isAbsolute directory := by
    by_cases hdirectory : directory = ""
    · rw [hdirectory, join_empty h, isAbsolute_of_components h]
      rfl
    · have hhead := List.head?_eq_some_head (mt String.toList_eq_nil_iff.1 hdirectory)
      unfold join
      rw [isAbsolute_of_components h, if_neg (by simpa using hdirectory)]
      unfold isAbsolute
      split
      · rw [String.toList_append, List.head?_append, hhead, Option.some_or]
      · rw [String.toList_append, String.toList_append, List.append_assoc, List.head?_append, hhead,
          Option.some_or]
  unfold origin
  rw [habsolute]

/-- Joined to a directory, a name leads to the place of this name in the place of the directory. -/
theorem placeOf_join (start : Place) (directory : String) {path a : String}
    (h : components path = [.name a]) :
    placeOf start (join directory path) = placeOf start directory ++ [a] := by
  obtain ⟨-, hnames⟩ := components_eq_singleton_iff.1 h
  unfold placeOf
  rw [origin_join start h]
  by_cases hdirectory : directory = ""
  · rw [hdirectory, join_empty h, foldl_follow_of_name hnames]
    rfl
  · obtain ⟨before, after, -, hpieces, hafter, hjoin⟩ := pieces_join h hdirectory
    have hidle : after.filterMap component? = [] :=
      List.filterMap_eq_nil_iff.2 fun p hp => by rw [hafter p hp]; rfl
    rw [hjoin, hpieces, List.foldl_append, List.foldl_append, foldl_follow_of_name hnames,
      foldl_follow_of_idle hidle]

end JobLoom.Path
