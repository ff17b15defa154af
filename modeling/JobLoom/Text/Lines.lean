import JobLoom.Text.Blank

/-!
# Lines of a text

A line ends at a line feed, and a carriage return directly before the line feed belongs to the
line end. The last line may lack its line end; then nothing is cut from it, and an empty rest is
no line.
-/

namespace JobLoom.Text

/-- The pieces between line feeds; there is always at least one. -/
def pieces (s : List Char) : List (List Char) :=
  s.foldr (fun c ps =>
    if c = '\n' then [] :: ps
    else match ps with
      | [] => [[c]]
      | p :: rest => (c :: p) :: rest) [[]]

/-- Drop one carriage return at the end. -/
def withoutReturn (s : List Char) : List Char :=
  if s.getLast? = some '\r' then s.dropLast else s

/-- The lines of a text, without their line ends. -/
def lines (s : List Char) : List (List Char) :=
  let ps := pieces s
  let open? := match ps.getLast? with
    | some [] => []
    | some p => [p]
    | none => []
  ps.dropLast.map withoutReturn ++ open?

/-- The lines of a text that show something, trimmed. -/
def visibleLines (s : List Char) : List (List Char) :=
  ((lines s).map trim).filter (fun l => !l.isEmpty)

end JobLoom.Text
