import JobLoom.Command.Batch

/-!
# Running commands

A command ends with exit code 0, or tells its failure and ends with the exit code of that.
-/

namespace JobLoom.Command

variable {m : Type → Type} [Monad m]

namespace Host

/-- Carry out a command. -/
def perform (h : Host m) (turns : Service → Turns) (i : Invocation) : Task m Unit :=
  match i.action with
  | .convert file format output => h.convertFile turns i file format output
  | .validate file => h.validateFile file
  | .batch directory outDirectory format =>
    h.convertDirectory turns i ⟨directory, outDirectory⟩ format

/-- Carry out a command, tell its failure if it fails, and give the exit code. -/
def run (h : Host m) (turns : Service → Turns) (i : Invocation) : m UInt32 := do
  match ← (h.perform turns i).run with
  | .ok () => return 0
  | .error f =>
    h.warn f.report
    return f.exitCode

end Host

end JobLoom.Command
