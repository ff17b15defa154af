/-!
# Generated names

The cluster makes the name of a run from a stem and a random end. The stem is the name of the
pipeline in lower case, with every run of other characters than letters and digits replaced by one
dash, none at the start and one at the end. A name without letters and digits gives the stem
`workflow-`.

Lower case is that of Unicode, as far as it leads to letters of the basic alphabet: the Kelvin sign
becomes `k`, and a capital `I` with a dot becomes an `i` and a dot that separates.
-/

namespace JobLoom

/-- The lower case of a character. Characters whose lower case holds no basic letter stay as they
are, since no stem can hold either. -/
def lowerCase (c : Char) : List Char :=
  if 'A' ≤ c && c ≤ 'Z' then [Char.ofNat (c.toNat + 32)]
  else if c = '\u212A' then ['k']
  else if c = '\u0130' then ['i', '\u0307']
  else [c]

/-- A letter or digit that a stem may hold. -/
def isStemChar (c : Char) : Bool := ('a' ≤ c && c ≤ 'z') || ('0' ≤ c && c ≤ '9')

/-- Add a character to a stem. The stem is kept in reverse, with a note whether something was left
out since its last character. -/
def addToStem (stem : List Char × Bool) (c : Char) : List Char × Bool :=
  if isStemChar c then
    (if stem.2 && !stem.1.isEmpty then c :: '-' :: stem.1 else c :: stem.1, false)
  else (stem.1, true)

/-- The characters of a stem, without the dash at its end. -/
def stemChars (name : List Char) : List Char :=
  ((name.flatMap lowerCase).foldl addToStem ([], false)).1.reverse

/-- The stem for the name of a pipeline. -/
def generateName (name : String) : String :=
  let stem := stemChars name.toList
  String.ofList ((if stem.isEmpty then "workflow".toList else stem) ++ ['-'])

end JobLoom
