/-!
# Paths

A path is a text whose pieces are divided by slashes.

* **Components** are what a path goes through: empty pieces do not count, and a single point counts
  only at the beginning.
* **Plain names** are texts with one component, which is a name. Joined to a directory they cannot
  lead out of it.
* **Extensions** follow the last point of a name, unless the name begins with it.
-/

namespace JobLoom.Path

/-! ## Components -/

/-- A component of a path. -/
inductive Component where
  /-- the top of the file system -/
  | top
  /-- the directory itself -/
  | here
  /-- the directory above -/
  | up
  /-- an entry of the directory -/
  | name (s : String)
  deriving DecidableEq, Repr

/-- The pieces between the slashes; there is always one more than slashes. -/
def pieces : List Char → List (List Char)
  | [] => [[]]
  | c :: rest =>
    if c = '/' then [] :: pieces rest
    else match pieces rest with
      | [] => [[c]]
      | p :: ps => (c :: p) :: ps

/-- The component that a piece stands for, if it stands for one. -/
def component? (piece : List Char) : Option Component :=
  if piece = [] || piece = ['.'] then none
  else if piece = ['.', '.'] then some .up
  else some (.name (String.ofList piece))

/-- The components of a path. -/
def components (path : String) : List Component :=
  if path.isEmpty then []
  else match pieces path.toList with
    | [] :: rest => .top :: rest.filterMap component?
    | ['.'] :: rest => .here :: rest.filterMap component?
    | ps => ps.filterMap component?

/-- The path is one name. -/
def isPlain (path : String) : Bool :=
  match components path with
  | [.name _] => true
  | _ => false

/-! ## Joining -/

/-- The path begins at the top. -/
def isAbsolute (path : String) : Bool := path.toList.head? = some '/'

/-- A path, seen from a directory. -/
def join (directory path : String) : String :=
  if isAbsolute path || directory.isEmpty then path
  else if directory.toList.getLast? = some '/' then directory ++ path
  else directory ++ "/" ++ path

/-- A path through several names, seen from a directory. -/
def joinAll (directory : String) (names : List String) : String := names.foldl join directory

/-- The path of the directory that holds what a path leads to. -/
def parent (path : String) : String :=
  let rec dropIdle : List (List Char) → List (List Char)
    | [] => []
    | [p] => [p]
    | p :: ps => if p = [] || p = ['.'] then dropIdle ps else p :: ps
  match dropIdle (pieces path.toList).reverse.tail with
  | [[]] => "/"
  | ps => String.ofList (['/'].intercalate ps.reverse)

/-! ## Extensions -/

/-- A name without its extension, and the extension behind the last point. -/
def splitExtension (name : List Char) : List Char × Option (List Char) :=
  let after := (name.reverse.takeWhile (· ≠ '.')).reverse
  let before := (name.reverse.dropWhile (· ≠ '.')).tail.reverse
  if name = ['.', '.'] || before.isEmpty then (name, none) else (before, some after)

/-- The extension of a name. -/
def extension? (name : String) : Option String :=
  (splitExtension name.toList).2.map String.ofList

/-- A path to a name with an extension instead of the one it has. -/
def withExtension (path extension : String) : String :=
  let name := (path.toList.reverse.takeWhile (· ≠ '/')).reverse
  let before := (path.toList.reverse.dropWhile (· ≠ '/')).reverse
  String.ofList (before ++ (splitExtension name).1 ++ '.' :: extension.toList)

end JobLoom.Path
