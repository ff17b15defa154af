import Mathlib.Logic.Relation
import JobLoom.Proofs.Text.Lines

/-!
# Layout

What can be changed about a text without a change of its visible lines.

* **Margins of lines.** Lines are trimmed, so blanks at either edge of a line do not count. A
  carriage return in front of a line feed is such a blank.
* **Blank lines** are not visible, and a line feed is nothing but their end. So wherever a line
  begins or ends, any blanks may stand, line feeds among them.
* **Tidy texts** consist of their visible lines.
-/

namespace JobLoom.Text

variable {s t l m before rest : List Char}

/-- Blanks, and nothing else. -/
def AreBlank (m : List Char) : Prop := ∀ c ∈ m, isBlank c = true

/-- A line begins behind this text. -/
def StartsLine (before : List Char) : Prop := before = [] ∨ ∃ lead, before = lead ++ ['\n']

/-- A line ends in front of this text. -/
def EndsLine (rest : List Char) : Prop := rest = [] ∨ ∃ tail, rest = '\n' :: tail

/-- A change of the layout at one place. -/
inductive Relaid : List Char → List Char → Prop where
  /-- a line has another indent -/
  | indent {before m m' rest : List Char} (hstart : StartsLine before) (hm : AreBlank m)
    (hm' : AreBlank m') : Relaid (before ++ (m ++ rest)) (before ++ (m' ++ rest))
  /-- blanks are added at the end of a line -/
  | trailing {before m rest : List Char} (hend : EndsLine rest) (hm : AreBlank m) :
    Relaid (before ++ rest) (before ++ (m ++ rest))
  /-- a blank line is added -/
  | blankLine {before m rest : List Char} (hstart : StartsLine before) (hm : AreBlank m) :
    Relaid (before ++ rest) (before ++ (m ++ '\n' :: rest))
  /-- a line end is written with a carriage return -/
  | lineEnd {before rest : List Char} :
    Relaid (before ++ '\n' :: rest) (before ++ '\r' :: '\n' :: rest)

/-- The visible lines of a text, one below the other. -/
def tidied (s : String) : String := String.ofList (List.intercalate ['\n'] (visibleLines s.toList))

/-! ## Visible lines of joined texts -/

/-- Nothing is left of blanks, and of nothing else. -/
theorem trim_eq_nil_iff {l : List Char} : trim l = [] ↔ AreBlank l := by
  constructor
  · intro h
    obtain ⟨before, after, hbefore, hafter, hl⟩ := exists_margins l
    rw [hl, h, List.append_nil]
    exact List.forall_mem_append.2 ⟨hbefore, hafter⟩
  · intro h
    have hnil := trim_blank_append h []
    rw [List.append_nil] at hnil
    exact hnil

/-- A carriage return at the end of a line is trimmed away anyway. -/
theorem trim_withoutReturn (l : List Char) : trim (withoutReturn l) = trim l := by
  unfold withoutReturn
  split
  · next h =>
    obtain ⟨lead, rfl⟩ := List.getLast?_eq_some_iff.1 h
    have hreturn : AreBlank ['\r'] := List.forall_mem_singleton.2 rfl
    rw [List.dropLast_concat, trim_append_blank hreturn]
  · rfl

/-- Pieces are as good as lines: what is cut from lines does not show. -/
theorem visibleLines_eq (s : List Char) :
    visibleLines s = ((pieces s).map trim).filter fun l => !l.isEmpty := by
  have hlast := List.dropLast_append_getLast (pieces_ne_nil s)
  have htrim : trim ∘ withoutReturn = trim := funext trim_withoutReturn
  unfold visibleLines lines
  dsimp only
  rw [List.getLast?_eq_some_getLast (pieces_ne_nil s)]
  generalize hp : (pieces s).getLast (pieces_ne_nil s) = p at hlast
  rw [← hlast]
  simp only [List.map_append, List.map_map, htrim, List.filter_append, List.dropLast_concat]
  cases p <;> rfl

@[simp] theorem visibleLines_nil : visibleLines [] = [] := rfl

/-- A line feed separates the visible lines before it from those after it. -/
theorem visibleLines_append_newline (l s : List Char) :
    visibleLines (l ++ '\n' :: s) = visibleLines l ++ visibleLines s := by
  simp only [visibleLines_eq, pieces_append_newline, List.map_append, List.filter_append]

/-- A text without line feed is one line, if it shows anything. -/
theorem visibleLines_of_newline_not_mem (h : '\n' ∉ l) :
    visibleLines l = [trim l].filter fun l => !l.isEmpty := by
  have hpieces : pieces l = [l] := by
    have hclosed := (pieces_append_newline l []).symm.trans (pieces_append h [])
    exact List.append_cancel_right hclosed
  rw [visibleLines_eq, hpieces, List.map_singleton]

/-! ## Blanks at the edge of a line -/

/-- A text ends with a line, which may be empty. -/
theorem exists_lastLine (s : List Char) :
    ∃ l, '\n' ∉ l ∧ (s = l ∨ ∃ lead, s = lead ++ '\n' :: l) := by
  by_cases h : '\n' ∈ s.reverse
  · obtain ⟨l, lead, heq, hl⟩ := List.eq_append_cons_of_mem h
    refine ⟨l.reverse, by simpa using hl, .inr ⟨lead.reverse, ?_⟩⟩
    simpa using congrArg List.reverse heq
  · exact ⟨s, by simpa using h, .inl rfl⟩

theorem visibleLines_blank_append (hm : AreBlank m) (s : List Char) :
    visibleLines (m ++ s) = visibleLines s := by
  induction m with
  | nil => rfl
  | cons c rest ih =>
    obtain ⟨hc, hrest⟩ := List.forall_mem_cons.1 hm
    rw [← ih hrest, List.cons_append]
    by_cases hline : c = '\n'
    · rw [hline]
      exact visibleLines_append_newline [] (rest ++ s)
    · obtain ⟨p, ps, hp⟩ := List.exists_cons_of_ne_nil (pieces_ne_nil (rest ++ s))
      have htrim : trim (c :: p) = trim p :=
        trim_blank_append (List.forall_mem_singleton.2 hc) p
      simp only [visibleLines_eq, pieces_cons, if_neg hline, hp, List.map_cons, htrim]

theorem visibleLines_append_blank (s : List Char) (hm : AreBlank m) :
    visibleLines (s ++ m) = visibleLines s := by
  have hone (s : List Char) {c : Char} (hc : isBlank c = true) :
      visibleLines (s ++ [c]) = visibleLines s := by
    by_cases hline : c = '\n'
    · rw [hline, visibleLines_append_newline, visibleLines_nil, List.append_nil]
    · have hlast {l : List Char} (hl : '\n' ∉ l) : visibleLines (l ++ [c]) = visibleLines l := by
        have hboth : '\n' ∉ l ++ [c] := by simp [hl, Ne.symm hline]
        rw [visibleLines_of_newline_not_mem hboth, visibleLines_of_newline_not_mem hl,
          trim_append_blank (List.forall_mem_singleton.2 hc)]
      obtain ⟨l, hl, rfl | ⟨lead, rfl⟩⟩ := exists_lastLine s
      · exact hlast hl
      · rw [List.append_assoc, List.cons_append, visibleLines_append_newline, hlast hl,
          visibleLines_append_newline]
  induction m generalizing s with
  | nil => rw [List.append_nil]
  | cons c rest ih =>
    obtain ⟨hc, hrest⟩ := List.forall_mem_cons.1 hm
    rw [List.append_cons, ih _ hrest, hone s hc]

/-- Where a line begins, two texts are joined line by line. -/
theorem visibleLines_append_of_startsLine (hstart : StartsLine before) (s : List Char) :
    visibleLines (before ++ s) = visibleLines before ++ visibleLines s := by
  obtain rfl | ⟨lead, rfl⟩ := hstart
  · rfl
  · rw [List.append_assoc, List.singleton_append, visibleLines_append_newline,
      visibleLines_append_newline, visibleLines_nil, List.append_nil]

/-- Where a line ends, two texts are joined line by line. -/
theorem visibleLines_append_of_endsLine (s : List Char) (hend : EndsLine rest) :
    visibleLines (s ++ rest) = visibleLines s ++ visibleLines rest := by
  obtain rfl | ⟨tail, rfl⟩ := hend
  · rw [List.append_nil, visibleLines_nil, List.append_nil]
  · rw [visibleLines_append_newline]
    exact congrArg _ (visibleLines_append_newline [] tail).symm

/-- A change of the layout does not show. -/
theorem visibleLines_of_relaid (h : Relaid s t) : visibleLines s = visibleLines t := by
  cases h with
  | indent hstart hm hm' =>
    rw [visibleLines_append_of_startsLine hstart, visibleLines_append_of_startsLine hstart,
      visibleLines_blank_append hm, visibleLines_blank_append hm']
  | trailing hend hm =>
    rw [← List.append_assoc, visibleLines_append_of_endsLine _ hend,
      visibleLines_append_of_endsLine _ hend, visibleLines_append_blank _ hm]
  | blankLine hstart hm =>
    rw [visibleLines_append_of_startsLine hstart, visibleLines_append_of_startsLine hstart,
      visibleLines_blank_append hm]
    exact congrArg _ (visibleLines_append_newline [] _).symm
  | @lineEnd before rest =>
    have hreturn : AreBlank ['\r'] := List.forall_mem_singleton.2 rfl
    rw [List.append_cons before '\r', visibleLines_append_newline, visibleLines_append_newline,
      visibleLines_append_blank _ hreturn]

/-! ## Tidy texts -/

/-- Trimmed lines that show something are the visible lines of the text that they make. -/
theorem visibleLines_intercalate {ls : List (List Char)}
    (hls : ∀ l ∈ ls, '\n' ∉ l ∧ trim l = l ∧ l ≠ []) :
    visibleLines (List.intercalate ['\n'] ls) = ls := by
  have hone {l : List Char} (hl : '\n' ∉ l ∧ trim l = l ∧ l ≠ []) : visibleLines l = [l] := by
    obtain ⟨hnewline, htrim, hne⟩ := hl
    rw [visibleLines_of_newline_not_mem hnewline, htrim, List.filter_cons_of_pos (by simpa using hne),
      List.filter_nil]
  induction ls with
  | nil => rfl
  | cons l rest ih =>
    obtain ⟨hl, hrest⟩ := List.forall_mem_cons.1 hls
    cases rest with
    | nil => rw [List.intercalate_singleton, hone hl]
    | cons l' ls =>
      rw [List.intercalate_cons_cons, List.append_assoc, List.singleton_append,
        visibleLines_append_newline, hone hl, ih hrest]
      rfl

/-- A tidy text shows what it was made from. -/
theorem visibleLines_tidied (s : String) :
    visibleLines (tidied s).toList = visibleLines s.toList := by
  rw [tidied, String.toList_ofList]
  refine visibleLines_intercalate fun l hl => ⟨newline_not_mem_visibleLines hl, ?_, ?_⟩
  · obtain ⟨⟨r, -, rfl⟩, -⟩ := mem_visibleLines.1 hl
    exact trim_trim r
  · exact (mem_visibleLines.1 hl).2

end JobLoom.Text
