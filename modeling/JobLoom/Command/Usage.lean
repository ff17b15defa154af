import JobLoom.Command.Arguments

/-!
# Usage

What is told to somebody who asks how commands are written.
-/

namespace JobLoom.Command

/-- The name of the program and its version. -/
def versionText : String := "argus 0.1.0\n"

/-- How commands are written. -/
def usageText : String :=
  "Convert CI workflows into container DAG workflows\n\n" ++
  "Usage: argus [OPTIONS] <COMMAND>\n\n" ++
  "Commands:\n" ++
  "  convert <FILE> [-f yaml|json] [-o <OUTPUT>]            Convert one workflow file\n" ++
  "  validate <FILE>                                        Validate a workflow file\n" ++
  "  batch <DIR> --out-dir <OUT_DIR> [-f yaml|json]         Convert all files of a directory\n\n" ++
  "Options:\n" ++
  "  --config <FILE>           Settings file\n" ++
  "  --store-dir <DIR>         Directory laid out as <DIR>/<NAMESPACE>/<LABEL>.yaml\n" ++
  "  --namespace <NAMESPACE>   Namespace of the entries in the store\n" ++
  "  --default-image <IMAGE>   Image of jobs without one\n" ++
  "  --workers <N>             Number of conversion workers\n" ++
  "  --queue-capacity <N>      Maximum number of queued conversions\n"

/-- What is told about a command line that makes no sense. -/
def misuseText (e : Misuse) : String := "error: " ++ e.message ++ "\n\n" ++ usageText

end JobLoom.Command
