import JobLoom.Text.Lines
import JobLoom.Pipeline.Basic

/-!
# Scripts

The shell script of a job: a first line that stops it at the first failing command, then the visible
lines of its steps, trimmed. A named step is announced by a comment. Steps without a visible line
leave no trace, not even their name.
-/

namespace JobLoom.Script

/-- The first line of every script. -/
def firstLine : List Char := ['s', 'e', 't', ' ', '-', 'e']

/-- The comment that announces a step with this name, if there is anything to say. -/
def announcement (name : Option String) : List (List Char) :=
  match name with
  | none => []
  | some name =>
    let shown := Text.trim name.toList
    if shown.isEmpty then [] else [['#', ' '] ++ shown]

/-- The lines that a step adds. -/
def stepLines (s : Step) : List (List Char) :=
  match s.run with
  | none => []
  | some run =>
    let body := Text.visibleLines run.toList
    if body.isEmpty then [] else announcement s.name ++ body

/-- All lines of a script. -/
def scriptLines (steps : List Step) : List (List Char) :=
  firstLine :: steps.flatMap stepLines

/-- Lines as a text, each with a line feed at its end. -/
def joinLines (ls : List (List Char)) : List Char := ls.flatMap fun l => l ++ ['\n']

/-- The script of some steps. -/
def assemble (steps : List Step) : String := String.ofList (joinLines (scriptLines steps))

end JobLoom.Script
