import JobLoom.Yaml.Node
import JobLoom.Yaml.Mismatch

/-!
# Reading values from document trees

The readers from which those for whole documents are built: texts, options, sequences, mappings,
records and values of any kind.

* **Aliases** are followed where the value is needed. A document may follow only so many of them,
  in proportion to its events.
* **Depth.** Collections nest at most 128 levels, those behind aliases included.
* **Places.** A mismatch gets the path of the innermost reader that it passes through and that
  knows one.
* **What nobody asks for** is left unread; it must only be there as a whole.
-/

namespace JobLoom.Yaml

/-- What readers know about the document. -/
structure Context where
  /-- the values that aliases refer to -/
  anchors : List (Nat × Node)
  /-- how many aliases may be followed -/
  limit : Nat
  /-- the fault behind a lost part -/
  broken : Fault

/-- A reader counts the aliases followed and may find a flaw. -/
abbrev Reading := StateT Nat (Except Flaw)

/-- How deep collections may nest. -/
def depthLimit : Nat := 128

/-- The document has a flaw. -/
def flawed {α : Type} (f : Flaw) : Reading α := fun _ => .error f

/-- The document has the wrong shape, at a place that is not known here. -/
def mismatched {α : Type} (m : Mismatch) : Reading α := flawed (.mismatch m none)

/-- Give a path to mismatches that have none. -/
def located {α : Type} (path : Path) (r : Reading α) : Reading α := fun n =>
  match r n with
  | .error (.mismatch m none) => .error (.mismatch m (some path))
  | x => x

/-- The value behind an alias; any other value is itself. -/
def follow (c : Context) (n : Node) : Reading Node :=
  match n with
  | .aliasOf id => fun count =>
    if count + 1 > c.limit then .error (.fault .repetition)
    else .ok ((c.anchors.lookup id).getD .lost, count + 1)
  | n => pure n

/-! ## Scalars -/

/-- The tag that makes a value one of its own kind, without the exclamation mark. -/
def ownTag (tag : Option String) : Option String :=
  match tag with
  | none => none
  | some t =>
    match t.toList with
    | '!' :: _ => some (String.ofList (bareTag t))
    | _ => none

/-- The value that a meaning gives to a text; wide integers have none. -/
def valueOf (text expected : String) : Meaning → Reading Value
  | .null => pure .null
  | .boolean b => pure (.boolean b)
  | .integer n => pure (.integer n)
  | .wide n isSigned => mismatched (.kind (.wide n isSigned) expected)
  | .float x => pure (.float x)
  | .text => pure (.text text)

/-- What a scalar stands for. A standard tag asks for a kind of value; inside a tag of its own, and
without a tag, a plain scalar speaks for itself. -/
def scalarMeaning (inTag : Bool) (tag : Option String) (plain : Bool) (text : String) :
    Except Mismatch Meaning :=
  match (if inTag then none else tag) with
  | none => .ok (if plain then meaning text else .text)
  | some t =>
    if t = "tag:yaml.org,2002:bool" then
      match booleanWord text with
      | some b => .ok (.boolean b)
      | none => .error (.content text "a boolean")
    else if t = "tag:yaml.org,2002:int" then
      match integerMeaning text.toList with
      | some m => .ok m
      | none => .error (.content text "an integer")
    else if t = "tag:yaml.org,2002:float" then
      match floatMeaning text.toList with
      | some x => .ok (.float x)
      | none => .error (.content text "a float")
    else if t = "tag:yaml.org,2002:null" then
      if isNullWord text then .ok .null else .error (.content text "null")
    else if plain && t.toList.head? = some '!' then .ok (meaning text)
    else .ok .text

/-- A meaning, as something in the wrong place. -/
def Found.ofMeaning (text : String) : Meaning → Found
  | .null => .null
  | .boolean b => .boolean b
  | .integer n => .integer n
  | .wide n isSigned => .wide n isSigned
  | .float x => .float x
  | .text => .text text

/-- The value is of the wrong kind. -/
def wrongKind {α : Type} (c : Context) (expected : String) : Node → Reading α
  | .lost => flawed (.fault c.broken)
  | .absent => flawed (.fault .endOfStream)
  | .aliasOf _ => flawed (.fault .unknownAlias)
  | .scalar tag plain text =>
    match scalarMeaning false tag plain text with
    | .ok m => mismatched (.kind (.ofMeaning text m) expected)
    | .error m => mismatched m
  | .sequence .. => mismatched (.kind .sequence expected)
  | .mapping .. => mismatched (.kind .mapping expected)

/-- Read the text of any scalar. -/
def readText (c : Context) (path : Path) (expected : String) (n : Node) : Reading String :=
  located path do
    match ← follow c n with
    | .scalar _ _ text => pure text
    | n => wrongKind c expected n

/-- Nothing is written here. -/
def isEmptyScalar : Node → Bool
  | .absent => true
  | .scalar _ plain text => plain && text.isEmpty
  | _ => false

/-- A value that may be missing: nothing is written, or a plain scalar that stands for no value. -/
def isMissing (n : Node) : Except Mismatch Bool :=
  match n with
  | .absent => .ok true
  | .scalar tag plain text =>
    if !plain then .ok false
    else match tag with
      | none => .ok (text.isEmpty || isNullWord text)
      | some t =>
        if t = "tag:yaml.org,2002:null" then
          if isNullWord text then .ok true else .error (.content text "null")
        else .ok false
  | _ => .ok false

/-- Read a value that may be missing. -/
def readOption {α : Type} (c : Context) (read : Node → Reading α) (n : Node) :
    Reading (Option α) := do
  let n ← follow c n
  match n with
  | .lost => flawed (.fault c.broken)
  | n =>
    match isMissing n with
    | .error m => mismatched m
    | .ok true => pure none
    | .ok false => some <$> read n

/-! ## Collections -/

/-- Go one level deeper. -/
def deeper {α : Type} (depth : Nat) (r : Nat → Reading α) : Reading α :=
  match depth with
  | 0 => flawed (.fault .nesting)
  | d + 1 => r d

/-- Read the items of a sequence, one after the other. -/
def readItems {α : Type} (path : Path) (read : Path → Node → Reading α) (items : List Node) :
    Reading (List α) :=
  items.zipIdx.mapM fun e => read (.index e.2 :: path) e.1

/-- Read a sequence; where nothing is written it is empty. The reader of the items gets the depth
that is left. -/
def readSequence {α : Type} (c : Context) (depth : Nat) (path : Path) (expected : String)
    (read : Nat → Path → Node → Reading α) (n : Node) : Reading (List α) :=
  located path do
    match ← follow c n with
    | .sequence _ items => deeper depth fun d => readItems path (read d) items
    | n => if isEmptyScalar n then pure [] else wrongKind c expected n

/-- The step from a mapping to the value for a key. -/
def Segment.ofKey : Node → Segment
  | .scalar _ _ text => .key text
  | _ => .anyKey

/-- Read a mapping, entry by entry, into a state; where nothing is written it is empty. -/
def readMapping {σ : Type} (c : Context) (depth : Nat) (path : Path) (expected : String)
    (entry : Nat → σ → Node → Node → Reading σ) (init : σ) (n : Node) : Reading σ :=
  located path do
    match ← follow c n with
    | .mapping _ entries => deeper depth fun d => entries.foldlM (fun s e => entry d s e.1 e.2) init
    | n => if isEmptyScalar n then pure init else wrongKind c expected n

/-- Leave a value unread. -/
def skipNode (c : Context) (n : Node) : Reading Unit :=
  if n.isWhole then pure () else flawed (.fault c.broken)

/-- How one field of a record is read: whether it is filled already, and how to fill it. -/
structure FieldReader (σ : Type) where
  /-- the field has been read before -/
  filled : Bool
  /-- read the field, with the depth that is left -/
  fill : Nat → Path → Node → Reading σ

/-- Read one entry of a record; keys that name no field are skipped. -/
def readField {σ : Type} (c : Context) (path : Path) (fields : σ → String → Option (FieldReader σ))
    (depth : Nat) (s : σ) (key value : Node) : Reading σ := do
  let name ← readText c path "field identifier" key
  match fields s name with
  | none => do
    skipNode c value
    pure s
  | some f =>
    if f.filled then mismatched (.repeatedField name)
    else f.fill depth (.ofKey key :: path) value

/-- Read a record from a mapping. -/
def readRecord {σ : Type} (c : Context) (depth : Nat) (path : Path) (expected : String)
    (fields : σ → String → Option (FieldReader σ)) (init : σ) (n : Node) : Reading σ :=
  readMapping c depth path expected (readField c path fields) init n

/-! ## Values of any kind -/

/-- How strict a reader of values is. -/
structure Manner where
  /-- tags of their own are kept; otherwise they are a mismatch -/
  tags : Bool
  /-- a mapping may not have a key twice -/
  unique : Bool
  /-- what a message says is expected -/
  expected : String

/-- Every value of a document. -/
def Manner.any : Manner := ⟨true, true, "any YAML value"⟩

/-- Values that are looked at again to find out which form they have. -/
def Manner.buffered : Manner := ⟨false, false, "any value"⟩

/-- A tag of its own around a value. -/
def withTag (m : Manner) (tag : Option String) (inner : Bool → Reading Value) : Reading Value :=
  match ownTag tag with
  | none => inner false
  | some t => if m.tags then .tagged t <$> inner true else mismatched .tagOnForms

/-- Read one entry of a mapping value, after those already read, which are kept in reverse. -/
def readEntry (m : Manner) (path : Path) (read : Path → Node → Reading Value)
    (done : List (Value × Value)) (key value : Node) : Reading (List (Value × Value)) := do
  let k ← read path key
  if m.unique && done.any (fun e => k.same e.1) then mismatched (.repeatedKey k)
  let v ← read (.ofKey key :: path) value
  pure ((k, v) :: done)

/-- Read a value; `inner` reads the values in it. -/
def readValueWith (m : Manner) (c : Context) (inner : Option (Path → Node → Reading Value))
    (path : Path) (n : Node) : Reading Value :=
  located path do
    match ← follow c n with
    | .lost => flawed (.fault c.broken)
    | .absent => pure .null
    | .aliasOf _ => flawed (.fault .unknownAlias)
    | .scalar tag plain text =>
      withTag m tag fun inTag =>
        match scalarMeaning inTag tag plain text with
        | .ok x => valueOf text m.expected x
        | .error e => mismatched e
    | .sequence tag items =>
      withTag m tag fun _ =>
        match inner with
        | none => flawed (.fault .nesting)
        | some read => .sequence <$> readItems path read items
    | .mapping tag entries =>
      withTag m tag fun _ =>
        match inner with
        | none => flawed (.fault .nesting)
        | some read => do
          let done ← entries.foldlM (fun done e => readEntry m path read done e.1 e.2) []
          pure (.mapping done.reverse)

/-- Read a value of any kind. -/
def readValue (m : Manner) (c : Context) : Nat → Path → Node → Reading Value
  | 0 => readValueWith m c none
  | d + 1 => readValueWith m c (some (readValue m c d))

/-! ## Whole documents -/

/-- What the readers of a document know. A lost part is there only behind a fault. -/
def Document.context (d : Document) : Context :=
  ⟨d.anchors, 100 * d.events, d.fault.getD .endOfStream⟩

/-- Read the only document of a stream. What is wrong inside the document comes up first, then what
is wrong at its end, then that another one follows. -/
def readDocument {α : Type} (read : Context → Node → Reading α) (d : Document) : Except Flaw α := do
  let (x, _) ← read d.context d.root 0
  match d.fault with
  | some f => throw (.fault f)
  | none => if d.followed then throw (.fault .severalDocuments) else pure x

end JobLoom.Yaml
