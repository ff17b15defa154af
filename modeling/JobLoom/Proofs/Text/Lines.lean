import Mathlib.Data.List.Basic
import Mathlib.Data.List.TakeWhile
import JobLoom.Text.Lines

/-!
# Lines and blank margins

How `Text.lines` takes a text apart, and what `Text.trim` leaves.

* **A line feed** ends a line: the text before it, if it holds none itself, is the first line, and
  the lines of the rest follow. So no line holds a line feed.
* **Trimming** leaves a text that is empty or ends in a visible character, and adds nothing. So a
  visible line ends in no carriage return, and its own line end is all that is cut from it.
-/

namespace JobLoom.Text

/-! ## Pieces between line feeds -/

@[simp] theorem pieces_nil : pieces [] = [[]] := rfl

theorem pieces_ne_nil (s : List Char) : pieces s ≠ [] := by
  cases s with
  | nil => exact List.cons_ne_nil _ _
  | cons c rest =>
    show (if c = '\n' then [] :: pieces rest else _) ≠ []
    split
    · exact List.cons_ne_nil _ _
    · split <;> exact List.cons_ne_nil _ _

theorem pieces_cons (c : Char) (s : List Char) :
    pieces (c :: s) = if c = '\n' then [] :: pieces s else
      match pieces s with
      | [] => [[c]]
      | p :: rest => (c :: p) :: rest := rfl

/-- Up to its first line feed, a text is one piece. -/
theorem pieces_append {l : List Char} (h : '\n' ∉ l) (s : List Char) :
    pieces (l ++ '\n' :: s) = l :: pieces s := by
  induction l with
  | nil => rw [List.nil_append, pieces_cons, if_pos rfl]
  | cons c rest ih =>
    obtain ⟨hc, hrest⟩ := not_or.1 (mt List.mem_cons.2 h)
    rw [List.cons_append, pieces_cons, if_neg (Ne.symm hc), ih hrest]

/-- A line feed separates the pieces before it from those after it. -/
theorem pieces_append_newline (l s : List Char) :
    pieces (l ++ '\n' :: s) = pieces l ++ pieces s := by
  induction l with
  | nil => rfl
  | cons c rest ih =>
    rw [List.cons_append, pieces_cons, ih, pieces_cons]
    obtain ⟨p, ps, hp⟩ := List.exists_cons_of_ne_nil (pieces_ne_nil rest)
    rw [hp]
    split <;> rfl

theorem newline_not_mem_pieces {s p : List Char} (h : p ∈ pieces s) : '\n' ∉ p := by
  induction s generalizing p with
  | nil =>
    obtain rfl : p = [] := by simpa using h
    exact List.not_mem_nil
  | cons c rest ih =>
    rw [pieces_cons] at h
    split at h
    · rcases List.mem_cons.1 h with rfl | h
      · exact List.not_mem_nil
      · exact ih h
    · next hc =>
      split at h
      · obtain rfl : p = [c] := by simpa using h
        simpa using Ne.symm hc
      · next q more hq =>
        rcases List.mem_cons.1 h with rfl | h
        · have hqn : '\n' ∉ q := ih (by simp [hq])
          simp [Ne.symm hc, hqn]
        · exact ih (by simp [hq, h])

/-! ## Lines -/

theorem withoutReturn_sublist (l : List Char) : (withoutReturn l).Sublist l := by
  unfold withoutReturn
  split
  · exact List.dropLast_sublist l
  · exact List.Sublist.refl l

/-- Only a carriage return is cut from the end of a line. -/
theorem withoutReturn_eq_self {l : List Char} (h : l.getLast? ≠ some '\r') :
    withoutReturn l = l := if_neg h

@[simp] theorem lines_nil : lines [] = [] := rfl

/-- Up to its first line feed, a text is its first line. -/
theorem lines_append {l : List Char} (h : '\n' ∉ l) (s : List Char) :
    lines (l ++ '\n' :: s) = withoutReturn l :: lines s := by
  obtain ⟨p, ps, hp⟩ := List.exists_cons_of_ne_nil (pieces_ne_nil s)
  simp only [lines, pieces_append h, hp, List.getLast?_cons_cons, List.dropLast_cons_cons,
    List.map_cons, List.cons_append]

/-- A line feed separates the lines before it from those after it. -/
theorem lines_append_newline (l s : List Char) :
    lines (l ++ '\n' :: s) = lines (l ++ ['\n']) ++ lines s := by
  obtain ⟨p, ps, hp⟩ := List.exists_cons_of_ne_nil (pieces_ne_nil s)
  simp only [lines, pieces_append_newline, hp, pieces_nil]
  rw [List.dropLast_append_of_ne_nil (List.cons_ne_nil _ _), List.getLast?_append_cons]
  simp

theorem newline_not_mem_lines {s l : List Char} (h : l ∈ lines s) : '\n' ∉ l := by
  unfold lines at h
  rcases List.mem_append.1 h with h | h
  · obtain ⟨p, hp, rfl⟩ := List.mem_map.1 h
    have hn := newline_not_mem_pieces ((List.dropLast_sublist _).subset hp)
    exact fun hm => hn ((withoutReturn_sublist p).subset hm)
  · cases hlast : (pieces s).getLast? with
    | none => rw [hlast] at h; cases h
    | some p =>
      have hn := newline_not_mem_pieces (List.mem_of_getLast? hlast)
      cases p with
      | nil => rw [hlast] at h; cases h
      | cons c rest =>
        rw [hlast] at h
        obtain rfl : l = c :: rest := by simpa using h
        exact hn

/-! ## Trimming -/

theorem trim_sublist (s : List Char) : (trim s).Sublist s := by
  have h : (trim s).Sublist (s.dropWhile isBlank) := by
    have := List.dropWhile_sublist (p := isBlank) (l := (s.dropWhile isBlank).reverse)
    simpa [trim, trimRight] using this.reverse
  exact h.trans (List.dropWhile_sublist _)

/-- What is left after trimming ends in a visible character. -/
theorem isBlank_getLast_trim {s : List Char} {c : Char} (h : (trim s).getLast? = some c) :
    isBlank c = false := by
  rw [trim, trimRight, List.getLast?_reverse] at h
  have := List.head?_dropWhile_not isBlank (s.dropWhile isBlank).reverse
  rw [h] at this
  simpa using this

/-- What is left after trimming is not blank, unless nothing is left. -/
theorem exists_visible_of_trim_ne_nil {s : List Char} (h : trim s ≠ []) :
    ∃ c ∈ trim s, isBlank c = false :=
  ⟨(trim s).getLast h, List.getLast_mem h, isBlank_getLast_trim (List.getLast?_eq_getLast_of_ne_nil h)⟩

theorem getLast?_trim_ne_return (s : List Char) : (trim s).getLast? ≠ some '\r' := by
  intro h
  have := isBlank_getLast_trim h
  exact absurd this (by decide)

theorem trim_blank_append {m : List Char} (hm : ∀ c ∈ m, isBlank c = true) (s : List Char) :
    trim (m ++ s) = trim s := by
  rw [trim, List.dropWhile_append_of_pos hm, trim]

theorem trim_append_blank {m : List Char} (hm : ∀ c ∈ m, isBlank c = true) (s : List Char) :
    trim (s ++ m) = trim s := by
  rw [trim, trim, List.dropWhile_append]
  split
  · next h =>
    rw [List.isEmpty_iff.1 h, List.dropWhile_eq_nil_iff.2 hm]
  · have hreverse : ∀ c ∈ m.reverse, isBlank c = true := fun c hc => hm c (List.mem_reverse.1 hc)
    rw [trimRight, List.reverse_append, List.dropWhile_append_of_pos hreverse, trimRight]

/-- What is trimmed away are blank margins. -/
theorem exists_margins (s : List Char) : ∃ before after, (∀ c ∈ before, isBlank c = true) ∧
    (∀ c ∈ after, isBlank c = true) ∧ s = before ++ trim s ++ after := by
  refine ⟨s.takeWhile isBlank, ((s.dropWhile isBlank).reverse.takeWhile isBlank).reverse,
    fun c hc => List.mem_takeWhile_imp hc,
    fun c hc => List.mem_takeWhile_imp (List.mem_reverse.1 hc), ?_⟩
  rw [trim, trimRight, List.append_assoc, ← List.reverse_append, List.takeWhile_append_dropWhile,
    List.reverse_reverse, List.takeWhile_append_dropWhile]

theorem trim_trim (s : List Char) : trim (trim s) = trim s := by
  obtain ⟨before, after, hbefore, hafter, hs⟩ := exists_margins s
  calc trim (trim s) = trim (before ++ trim s ++ after) := by
        rw [trim_append_blank hafter, trim_blank_append hbefore]
    _ = trim s := by rw [← hs]

@[simp] theorem toList_trimmed (s : String) : (trimmed s).toList = trim s.toList :=
  String.toList_ofList

theorem trimmed_trimmed (s : String) : trimmed (trimmed s) = trimmed s := by
  rw [trimmed, toList_trimmed, trim_trim, trimmed]

theorem trim_eq_self {s : List Char} (h : ∀ c ∈ s, isBlank c = false) : trim s = s := by
  obtain ⟨before, after, hbefore, hafter, hs⟩ := exists_margins s
  have hnone {m : List Char} (hm : ∀ c ∈ m, isBlank c = true) (hsub : ∀ c ∈ m, c ∈ s) : m = [] := by
    refine List.eq_nil_iff_forall_not_mem.2 fun c hc => ?_
    have := hm c hc
    rw [h c (hsub c hc)] at this
    cases this
  have hb := hnone hbefore fun c hc => by rw [hs]; simp [hc]
  have ha := hnone hafter fun c hc => by rw [hs]; simp [hc]
  rw [hb, ha, List.nil_append, List.append_nil] at hs
  exact hs.symm

/-! ## Visible lines -/

/-- The visible lines are the trimmed lines that are not empty. -/
theorem mem_visibleLines {s l : List Char} :
    l ∈ visibleLines s ↔ (∃ r ∈ lines s, trim r = l) ∧ l ≠ [] := by
  simp [visibleLines]

theorem newline_not_mem_visibleLines {s l : List Char} (h : l ∈ visibleLines s) : '\n' ∉ l := by
  obtain ⟨⟨r, hr, rfl⟩, -⟩ := mem_visibleLines.1 h
  exact fun hm => newline_not_mem_lines hr ((trim_sublist r).subset hm)

theorem getLast?_visibleLines {s l : List Char} (h : l ∈ visibleLines s) :
    l.getLast? ≠ some '\r' := by
  obtain ⟨⟨r, -, rfl⟩, -⟩ := mem_visibleLines.1 h
  exact getLast?_trim_ne_return r

theorem exists_visible_of_mem_visibleLines {s l : List Char} (h : l ∈ visibleLines s) :
    ∃ c ∈ l, isBlank c = false := by
  obtain ⟨⟨r, -, rfl⟩, hne⟩ := mem_visibleLines.1 h
  exact exists_visible_of_trim_ne_nil hne

end JobLoom.Text
