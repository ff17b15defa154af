import Mathlib.Tactic.FinCases
import JobLoom.Proofs.Text.Lines
import JobLoom.Script

/-!
# The lines of a script

`Script.assemble` puts lines together, and a shell takes the text apart again. The two agree as long
as every announced name fits on one line.

* **Commands** always come back as they went in: they are lines already, and trimmed.
* **Names** are trimmed and no more. A line feed inside a name ends its comment, and what follows it
  is a line of the script like any other.
-/

namespace JobLoom.Script

/-! ## What a step has to say -/

/-- The commands of a step: the visible lines of what it runs. -/
def commands (s : Step) : List (List Char) :=
  match s.run with
  | none => []
  | some run => Text.visibleLines run.toList

theorem mem_commands {s : Step} {l : List Char} (h : l ∈ commands s) :
    ∃ run, l ∈ Text.visibleLines run := by
  unfold commands at h
  split at h
  · cases h
  · next run _ => exact ⟨run.toList, h⟩

/-- The name that a step is announced by; it may be empty. -/
def shownName (s : Step) : List Char := Text.trim (s.name.getD "").toList

/-- The comment for a name. -/
def comment (name : List Char) : List Char := '#' :: ' ' :: name

theorem announcement_eq (s : Step) :
    announcement s.name = if shownName s = [] then [] else [comment (shownName s)] := by
  unfold announcement shownName
  cases s.name with
  | none => rfl
  | some name => simp [comment]

/-- A step with commands adds its comment and them, any other step nothing. -/
theorem stepLines_eq (s : Step) :
    stepLines s = if commands s = [] then [] else announcement s.name ++ commands s := by
  unfold stepLines commands
  cases s.run with
  | none => rfl
  | some run => simp

/-- The lines that a step adds are its comment and its commands. -/
theorem mem_stepLines {s : Step} {l : List Char} (h : l ∈ stepLines s) :
    commands s ≠ [] ∧ (shownName s ≠ [] ∧ l = comment (shownName s) ∨ l ∈ commands s) := by
  rw [stepLines_eq] at h
  split at h
  · cases h
  · next hne =>
    refine ⟨hne, (List.mem_append.1 h).imp_left fun ha => ?_⟩
    rw [announcement_eq] at ha
    split at ha
    · cases ha
    · next hn => exact ⟨hn, by simpa using ha⟩

/-- The lines that a script should have: the first line and then, for each step that has commands,
its comment, if it has a name to show, and the commands. -/
def describedLines (steps : List Step) : List (List Char) :=
  firstLine :: steps.flatMap fun s =>
    if commands s = [] then []
    else (if shownName s = [] then [] else [comment (shownName s)]) ++ commands s

/-- A script is put together from the lines that it should have. -/
theorem scriptLines_eq (steps : List Step) : scriptLines steps = describedLines steps := by
  have hstep : ∀ s ∈ steps, stepLines s = if commands s = [] then []
      else (if shownName s = [] then [] else [comment (shownName s)]) ++ commands s := by
    intro s _
    rw [stepLines_eq, announcement_eq]
  rw [scriptLines, describedLines, List.flatMap_congr hstep]

/-- Every name that is announced fits on one line. -/
def NamesFit (steps : List Step) : Prop :=
  ∀ s ∈ steps, commands s ≠ [] → '\n' ∉ shownName s

/-! ## Taking a script apart -/

/-- Lines put together are taken apart one by one. -/
theorem lines_joinLines (ls : List (List Char)) :
    Text.lines (joinLines ls) = ls.flatMap fun l => Text.lines (l ++ ['\n']) := by
  induction ls with
  | nil => rfl
  | cons l rest ih =>
    have hcons : joinLines (l :: rest) = l ++ '\n' :: joinLines rest := by simp [joinLines]
    rw [hcons, Text.lines_append_newline, ih, List.flatMap_cons]

/-- A line without line feed that does not end in a carriage return is taken as it is. -/
theorem lines_of_fits {l : List Char} (hn : '\n' ∉ l) (hr : l.getLast? ≠ some '\r') :
    Text.lines (l ++ ['\n']) = [l] := by
  rw [Text.lines_append hn, Text.withoutReturn_eq_self hr, Text.lines_nil]

theorem toList_assemble (steps : List Step) :
    (assemble steps).toList = joinLines (scriptLines steps) := String.toList_ofList

/-- No line that is put together ends in a carriage return. -/
theorem getLast?_scriptLines {steps : List Step} {l : List Char} (h : l ∈ scriptLines steps) :
    l.getLast? ≠ some '\r' := by
  rcases List.mem_cons.1 h with rfl | h
  · decide
  · obtain ⟨s, -, hl⟩ := List.mem_flatMap.1 h
    obtain ⟨-, ⟨hn, rfl⟩ | hc⟩ := mem_stepLines hl
    · have hlast : (comment (shownName s)).getLast? = (shownName s).getLast? := by
        obtain ⟨c, rest, hcons⟩ := List.exists_cons_of_ne_nil hn
        simp [comment, hcons]
      rw [hlast]
      exact Text.getLast?_trim_ne_return _
    · obtain ⟨run, hrun⟩ := mem_commands hc
      exact Text.getLast?_visibleLines hrun

/-- If the names fit, no line that is put together holds a line feed. -/
theorem newline_not_mem_scriptLines {steps : List Step} (h : NamesFit steps) {l : List Char}
    (hl : l ∈ scriptLines steps) : '\n' ∉ l := by
  rcases List.mem_cons.1 hl with rfl | hl
  · decide
  · obtain ⟨s, hs, hl⟩ := List.mem_flatMap.1 hl
    obtain ⟨hne, ⟨-, rfl⟩ | hc⟩ := mem_stepLines hl
    · simpa [comment] using h s hs hne
    · obtain ⟨run, hrun⟩ := mem_commands hc
      exact Text.newline_not_mem_visibleLines hrun

/-- If the names fit, a script is taken apart into the lines that it was put together from. -/
theorem lines_assemble_of_namesFit {steps : List Step} (h : NamesFit steps) :
    Text.lines (assemble steps).toList = scriptLines steps := by
  rw [toList_assemble, lines_joinLines]
  have hself : ∀ l ∈ scriptLines steps, Text.lines (l ++ ['\n']) = [l] := fun l hl =>
    lines_of_fits (newline_not_mem_scriptLines h hl) (getLast?_scriptLines hl)
  rw [List.flatMap_congr hself]
  simp

/-- If a script is taken apart into the lines that it was put together from, the names fit. -/
theorem namesFit_of_lines_assemble {steps : List Step}
    (h : Text.lines (assemble steps).toList = scriptLines steps) : NamesFit steps := by
  intro s hs hne hmem
  have hname : shownName s ≠ [] := List.ne_nil_of_mem hmem
  have hcomment : comment (shownName s) ∈ scriptLines steps := by
    refine List.mem_cons_of_mem _ (List.mem_flatMap.2 ⟨s, hs, ?_⟩)
    rw [stepLines_eq, if_neg hne, announcement_eq, if_neg hname]
    exact List.mem_cons_self
  rw [← h] at hcomment
  refine Text.newline_not_mem_lines hcomment ?_
  exact List.mem_cons_of_mem _ (List.mem_cons_of_mem _ hmem)

/-- No line that is put together is blank. -/
theorem exists_visible_of_mem_scriptLines {steps : List Step} {l : List Char}
    (h : l ∈ scriptLines steps) : ∃ c ∈ l, Text.isBlank c = false := by
  rcases List.mem_cons.1 h with rfl | h
  · exact ⟨'s', by decide, by decide⟩
  · obtain ⟨s, -, hl⟩ := List.mem_flatMap.1 h
    obtain ⟨-, ⟨-, rfl⟩ | hc⟩ := mem_stepLines hl
    · exact ⟨'#', List.mem_cons_self, by decide⟩
    · obtain ⟨run, hrun⟩ := mem_commands hc
      exact Text.exists_visible_of_mem_visibleLines hrun

/-- **When a script says what its steps say.** A shell reads the first line and then, step by step,
the comment and the commands, exactly when every announced name fits on one line. Then no line is
blank, and every line but the first one and the comments is a command of some step. -/
theorem lines_assemble_iff (steps : List Step) :
    (Text.lines (assemble steps).toList = describedLines steps ↔ NamesFit steps) ∧
      (NamesFit steps → ∀ l ∈ Text.lines (assemble steps).toList,
        (∃ c ∈ l, Text.isBlank c = false) ∧
          (l = firstLine ∨ (∃ s ∈ steps, commands s ≠ [] ∧ l = comment (shownName s)) ∨
            ∃ s ∈ steps, l ∈ commands s)) := by
  refine ⟨?_, fun h l hl => ?_⟩
  · rw [← scriptLines_eq]
    exact ⟨namesFit_of_lines_assemble, lines_assemble_of_namesFit⟩
  rw [lines_assemble_of_namesFit h] at hl
  refine ⟨exists_visible_of_mem_scriptLines hl, ?_⟩
  rcases List.mem_cons.1 hl with rfl | hl
  · exact .inl rfl
  · obtain ⟨s, hs, hl⟩ := List.mem_flatMap.1 hl
    obtain ⟨hne, ⟨-, rfl⟩ | hc⟩ := mem_stepLines hl
    · exact .inr (.inl ⟨s, hs, hne, rfl⟩)
    · exact .inr (.inr ⟨s, hs, hc⟩)

/-- The names of a named and an unnamed step fit. -/
theorem lines_assemble_named_and_unnamed :
    let steps := [Step.shell (some "a") "echo 1", Step.shell none "\techo 2\r\n\n"]
    NamesFit steps ∧ Text.lines (assemble steps).toList =
      ["set -e".toList, "# a".toList, "echo 1".toList, "echo 2".toList] := by
  have h : NamesFit [Step.shell (some "a") "echo 1", Step.shell none "\techo 2\r\n\n"] := by
    intro s hs _
    fin_cases hs <;> decide
  exact ⟨h, ((lines_assemble_iff _).1.2 h).trans (by decide)⟩

/-- The end of a name of two lines is run as a command. -/
theorem second_line_of_name_runs :
    let steps := [Step.shell (some "a\nrm x") "echo 1"]
    Text.lines (assemble steps).toList =
        ["set -e".toList, "# a".toList, "rm x".toList, "echo 1".toList] ∧
      Text.lines (assemble steps).toList ≠ describedLines steps := by
  decide

end JobLoom.Script
