import JobLoom.Proofs.Script
import JobLoom.Proofs.Text.Layout

/-!
# Scripts that stay the same

What can be changed about the steps of a job without a change of its script.

* **Steps are independent.** A script is its first line and then what each step adds, in order. So
  the script of two lists of steps is that of the first list, and then that of the second one
  without its first line.
* **Silent steps** add nothing, whatever they are called, and no other steps add nothing.
* **Layout.** A step adds the visible lines of what it runs, so it adds the same if only their
  layout changes.
-/

namespace JobLoom.Script

variable {xs ys : List Step} {s t : Step}

/-- A step that runs nothing, or blank lines only. -/
def IsSilent (s : Step) : Prop :=
  ∀ run, s.run = some run → ∀ l ∈ Text.lines run.toList, Text.AreBlank l

/-- The text behind the first line feed. -/
def afterFirstLine (s : String) : String :=
  String.ofList ((s.toList.dropWhile fun c => c ≠ '\n').drop 1)

/-- A change of the steps at one place that is not meant to change the script. -/
inductive Edit : List Step → List Step → Prop where
  /-- a silent step is added -/
  | silent (xs ys : List Step) {s : Step} (hs : IsSilent s) : Edit (xs ++ ys) (xs ++ s :: ys)
  /-- what a step runs is replaced by its visible lines -/
  | tidy (xs ys : List Step) (s : Step) {run : String} (hrun : s.run = some run) :
    Edit (xs ++ s :: ys) (xs ++ { s with run := some (Text.tidied run) } :: ys)
  /-- the layout of what a step runs is changed -/
  | relay (xs ys : List Step) (s : Step) {run run' : String} (hrun : s.run = some run)
    (h : Text.Relaid run.toList run'.toList) :
    Edit (xs ++ s :: ys) (xs ++ { s with run := some run' } :: ys)

/-! ## Steps -/

theorem joinLines_append (ls ms : List (List Char)) :
    joinLines (ls ++ ms) = joinLines ls ++ joinLines ms := List.flatMap_append

theorem joinLines_eq_nil_iff {ls : List (List Char)} : joinLines ls = [] ↔ ls = [] := by
  cases ls <;> simp [joinLines]

/-- What the steps add to a script. -/
theorem toList_assemble_eq (xs : List Step) : (assemble xs).toList =
    firstLine ++ '\n' :: joinLines (xs.flatMap stepLines) := by
  rw [toList_assemble, scriptLines, joinLines, List.flatMap_cons]
  simp [joinLines]

theorem assemble_congr (h : xs.flatMap stepLines = ys.flatMap stepLines) :
    assemble xs = assemble ys := by
  rw [assemble, assemble, scriptLines, scriptLines, h]

/-- A step is as good as another one of the same name that has the same commands. -/
theorem stepLines_congr (hname : s.name = t.name) (hcommands : commands s = commands t) :
    stepLines s = stepLines t := by
  rw [stepLines_eq, stepLines_eq, hname, hcommands]

theorem commands_of_run {run : String} (hrun : s.run = some run) :
    commands s = Text.visibleLines run.toList := by
  rw [commands, hrun]

theorem assemble_replaced (xs ys : List Step) (h : stepLines s = stepLines t) :
    assemble (xs ++ s :: ys) = assemble (xs ++ t :: ys) := by
  refine assemble_congr ?_
  simp only [List.flatMap_append, List.flatMap_cons, h]

/-! ## Silent steps -/

/-- The silent steps are those without commands. -/
theorem isSilent_iff : IsSilent s ↔ commands s = [] := by
  unfold IsSilent commands
  cases s.run with
  | none => simp
  | some run =>
    simp only [Option.some.injEq, forall_eq', Text.visibleLines, List.filter_eq_nil_iff,
      List.forall_mem_map, Bool.not_eq_true', Bool.not_eq_false, List.isEmpty_iff,
      Text.trim_eq_nil_iff]

/-- The silent steps are those that add nothing. -/
theorem stepLines_eq_nil_iff : stepLines s = [] ↔ IsSilent s := by
  rw [isSilent_iff, stepLines_eq]
  split
  · next h => exact iff_of_true rfl h
  · next h => exact iff_of_false (by simp [h]) h

/-- A script shows whether there is one more step, unless that step is silent. -/
theorem assemble_insert_eq_iff (xs ys : List Step) (s : Step) :
    assemble (xs ++ s :: ys) = assemble (xs ++ ys) ↔ IsSilent s := by
  rw [← stepLines_eq_nil_iff]
  constructor
  · intro h
    have hlists := congrArg String.toList h
    simp only [toList_assemble_eq, List.flatMap_append, List.flatMap_cons, joinLines_append,
      List.append_cancel_left_eq, List.cons.injEq, true_and] at hlists
    exact joinLines_eq_nil_iff.1 (List.append_cancel_right (hlists.trans (List.nil_append _).symm))
  · intro h
    refine assemble_congr ?_
    simp only [List.flatMap_append, List.flatMap_cons, h, List.nil_append]

/-! ## Edits -/

/-- One edit leaves the script as it is. -/
theorem assemble_of_edit (h : Edit xs ys) : assemble xs = assemble ys := by
  cases h with
  | silent xs ys hs => exact ((assemble_insert_eq_iff xs ys _).2 hs).symm
  | tidy xs ys s hrun =>
    refine assemble_replaced xs ys (stepLines_congr rfl ?_)
    rw [commands_of_run hrun, commands_of_run rfl, Text.visibleLines_tidied]
  | relay xs ys s hrun hrelaid =>
    refine assemble_replaced xs ys (stepLines_congr rfl ?_)
    rw [commands_of_run hrun, commands_of_run rfl, Text.visibleLines_of_relaid hrelaid]

/-- Any edits, made or taken back, leave the script as it is. -/
theorem assemble_of_edits (h : Relation.EqvGen Edit xs ys) : assemble xs = assemble ys := by
  induction h with
  | rel _ _ hedit => exact assemble_of_edit hedit
  | refl _ => rfl
  | symm _ _ _ ih => exact ih.symm
  | trans _ _ _ _ _ ih ih' => exact ih.trans ih'

theorem assemble_append (xs ys : List Step) :
    assemble (xs ++ ys) = assemble xs ++ afterFirstLine (assemble ys) := by
  have hfirst : ∀ c ∈ firstLine, decide (c ≠ '\n') = true := List.all_eq_true.1 (by decide)
  have hafter : (afterFirstLine (assemble ys)).toList = joinLines (ys.flatMap stepLines) := by
    rw [afterFirstLine, String.toList_ofList, toList_assemble_eq,
      List.dropWhile_append_of_pos hfirst]
    rfl
  refine String.toList_inj.1 ?_
  rw [String.toList_append, hafter, toList_assemble_eq, toList_assemble_eq, List.flatMap_append,
    joinLines_append, List.append_assoc, List.cons_append]

/-- **What scripts do not tell.** A script is put together step by step: further steps go on with
it, a step changes it exactly if it is not silent, and it stays the same whatever silent steps come
or go and however the commands of a step are laid out. -/
theorem assemble_keeps (xs ys : List Step) :
    assemble (xs ++ ys) = assemble xs ++ afterFirstLine (assemble ys) ∧
      (∀ s, assemble (xs ++ s :: ys) = assemble (xs ++ ys) ↔ IsSilent s) ∧
      (Relation.EqvGen Edit xs ys → assemble xs = assemble ys) :=
  ⟨assemble_append xs ys, assemble_insert_eq_iff xs ys, assemble_of_edits⟩

/-- A silent step goes, commands are tidied, and a line end gets a carriage return. -/
theorem assemble_keeps_retyped :
    let build : Step := .shell (some "Build") "  make\n\n\tmake test  \n"
    let blank : Step := .shell (some "Blank") "   \n \r\n\t"
    let retyped : Step := .shell (some "Build") "make\r\nmake test"
    Relation.EqvGen Edit [blank, build] [retyped] ∧ assemble [blank, build] = assemble [retyped] ∧
      assemble [retyped] = "set -e\n# Build\nmake\nmake test\n" := by
  intro build blank retyped
  let tidy : Step := .shell (some "Build") "make\nmake test"
  have hblank : IsSilent blank := isSilent_iff.2 (by decide)
  have hgone : Edit [build] [blank, build] := .silent [] [build] hblank
  have htext : Text.tidied "  make\n\n\tmake test  \n" = "make\nmake test" := by decide
  have htidy : Edit [build] [tidy] := by
    have h := Edit.tidy [] [] build rfl
    rw [htext] at h
    exact h
  have hline : Text.Relaid "make\nmake test".toList "make\r\nmake test".toList :=
    @Text.Relaid.lineEnd "make".toList "make test".toList
  have hrelay : Edit [tidy] [retyped] := .relay [] [] tidy rfl hline
  have hedits : Relation.EqvGen Edit [blank, build] [retyped] :=
    .trans _ _ _ (.symm _ _ (.rel _ _ hgone)) (.trans _ _ _ (.rel _ _ htidy) (.rel _ _ hrelay))
  exact ⟨hedits, (assemble_keeps _ _).2.2 hedits, by decide⟩

end JobLoom.Script
