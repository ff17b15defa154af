import JobLoom.Yaml.Token
import JobLoom.Yaml.Fault

/-!
# Events of a document stream

The tokens of a stream, told as a walk over its documents: collections open and close, and between
that stand scalars and aliases. The walk keeps what it expects next on a list of `Expectation`s,
innermost first, so documents may nest to any depth.

* **Missing content** is an empty plain scalar.
* **Tag shorthands** are replaced by their meaning. A lone exclamation mark on a scalar says that it
  has no tag.
* **Faults.** The walk stops at the first token that does not fit, or where the tokens themselves
  break off; the events before it stay.
-/

namespace JobLoom.Yaml

/-- The properties in front of a value. -/
structure Properties where
  /-- the name that aliases refer to -/
  anchor : Option String
  /-- the tag, with its shorthand replaced -/
  tag : Option String
  deriving DecidableEq, Repr

/-- One step of the walk over a stream. -/
inductive Event where
  /-- a document starts -/
  | documentStart
  /-- a document ends -/
  | documentEnd
  /-- an alias -/
  | aliasOf (name : String)
  /-- a scalar, and whether it is plain -/
  | scalar (props : Properties) (text : String) (plain : Bool)
  /-- a sequence opens -/
  | sequence (props : Properties)
  /-- a mapping opens -/
  | mapping (props : Properties)
  /-- the innermost collection closes -/
  | close
  deriving DecidableEq, Repr

/-- What comes next in the walk. -/
inductive Expectation where
  /-- a document, or the end; `bare` allows one without its mark -/
  | document (bare : Bool)
  /-- the content of a document that starts without its mark -/
  | node
  /-- the content after a document mark -/
  | content
  /-- the end of a document -/
  | documentEnd
  /-- an entry of a block sequence -/
  | blockEntry
  /-- an entry of a sequence that is not indented -/
  | dashEntry
  /-- a key of a block mapping -/
  | blockKey
  /-- a value of a block mapping -/
  | blockValue
  /-- an entry of a flow sequence -/
  | flowEntry (first : Bool)
  /-- the key of a single pair in a flow sequence -/
  | pairKey
  /-- the value of a single pair in a flow sequence -/
  | pairValue
  /-- the end of a single pair in a flow sequence -/
  | pairEnd
  /-- a key of a flow mapping -/
  | flowKey (first : Bool)
  /-- a value of a flow mapping -/
  | flowValue
  /-- the missing value of a flow mapping -/
  | flowNoValue
  deriving DecidableEq, Repr

/-- The walk at some point of a stream. -/
structure Walk where
  /-- the tokens ahead -/
  tokens : List Token
  /-- what is expected, the next thing first -/
  expected : List Expectation
  /-- the meanings of tag shorthands in this document -/
  shorthands : List (String × String)

/-- No properties at all. -/
def Properties.none : Properties := ⟨Option.none, Option.none⟩

/-- Content that is not there. -/
def Event.missing : Event := .scalar .none "" true

/-- The meanings of the shorthands that are always there. -/
def standardShorthands : List (String × String) :=
  [("!", "!"), ("!!", "tag:yaml.org,2002:")]

namespace Walk

/-- What a step produces: an event and the walk after it, or the end of the stream. -/
inductive Step where
  /-- an event -/
  | event (e : Event) (w : Walk)
  /-- the end of the stream -/
  | finished

/-- Leave one token behind. -/
def skip (w : Walk) : Walk := { w with tokens := w.tokens.tail }

/-- Expect these things before all else. -/
def expect (w : Walk) (xs : List Expectation) : Walk := { w with expected := xs ++ w.expected }

/-- The next token; `broken` is the fault that stopped the tokens. -/
def peek (broken : Fault) (w : Walk) : Except Fault Token :=
  match w.tokens with
  | t :: _ => .ok t
  | [] => .error broken

/-! ## Directives -/

/-- Read the directives in front of a document. -/
def directives (broken : Fault) (fuel : Nat) (seenVersion : Bool)
    (shorthands : List (String × String)) (w : Walk) :
    Except Fault (List (String × String) × Walk) :=
  match fuel with
  | 0 => .ok (shorthands, w)
  | fuel + 1 =>
    match w.tokens with
    | [] => .error broken
    | .version major minor :: _ =>
      if seenVersion then .error .repeatedVersion
      else if major ≠ 1 || (minor ≠ 1 && minor ≠ 2) then .error .unsupportedVersion
      else directives broken fuel true shorthands w.skip
    | .shorthand handle start :: _ =>
      if shorthands.any (·.1 = handle) then .error .repeatedShorthand
      else directives broken fuel seenVersion (shorthands ++ [(handle, start)]) w.skip
    | _ => .ok (shorthands, w)

/-! ## Values -/

/-- The full tag for a handle and a suffix. -/
def fullTag (w : Walk) (handle suffix : String) : Except Fault String :=
  if handle = "" then .ok suffix
  else match w.shorthands.lookup handle with
    | some start => .ok (start ++ suffix)
    | none => .error .undefinedShorthand

/-- An anchor, if one comes next. -/
def anchor? (broken : Fault) (w : Walk) : Except Fault (Option String × Walk) := do
  match ← w.peek broken with
  | .anchor name => return (some name, w.skip)
  | _ => return (none, w)

/-- A tag, if one comes next. -/
def tag? (broken : Fault) (w : Walk) : Except Fault (Option (String × String) × Walk) := do
  match ← w.peek broken with
  | .tag handle suffix => return (some (handle, suffix), w.skip)
  | _ => return (none, w)

/-- The properties in front of a value, in either order. -/
def properties (broken : Fault) (w : Walk) : Except Fault (Properties × Walk) := do
  let (anchor, w) ← w.anchor? broken
  let (tag, w) ← w.tag? broken
  let (anchor, w) ← match anchor, tag with
    | none, some _ => w.anchor? broken
    | anchor, _ => pure (anchor, w)
  let _ ← w.peek broken
  match tag with
  | none => return (⟨anchor, none⟩, w)
  | some (handle, suffix) => return (⟨anchor, some (← w.fullTag handle suffix)⟩, w)

/-- A value. `inBlock` allows block collections, `dashes` a sequence that is not indented. -/
def value (broken : Fault) (inBlock dashes : Bool) (w : Walk) : Except Fault Step := do
  match ← w.peek broken with
  | .aliasOf name => return .event (.aliasOf name) w.skip
  | _ =>
    let (props, w) ← w.properties broken
    let t ← w.peek broken
    match t with
    | .dash => if dashes then return .event (.sequence props) (w.expect [.dashEntry])
    | .scalar text plain =>
      let props := if props.tag = some "!" then { props with tag := none } else props
      return .event (.scalar props text plain) w.skip
    | .openBracket => return .event (.sequence props) (w.skip.expect [.flowEntry true])
    | .openBrace => return .event (.mapping props) (w.skip.expect [.flowKey true])
    | .blockSequence =>
      if inBlock then return .event (.sequence props) (w.skip.expect [.blockEntry])
    | .blockMapping =>
      if inBlock then return .event (.mapping props) (w.skip.expect [.blockKey])
    | _ => pure ()
    if props = .none then throw .missingNode
    return .event (.scalar props "" true) w

/-- A value, unless one of these tokens shows that it is missing. -/
def valueUnless (broken : Fault) (inBlock dashes : Bool) (ends : Token → Bool) (w : Walk) :
    Except Fault Step := do
  if ends (← w.peek broken) then return .event .missing w
  else w.value broken inBlock dashes

/-! ## One step -/

/-- Start a document or end the stream. -/
def document (broken : Fault) (bare : Bool) (w : Walk) : Except Fault Step := do
  let w := if bare then w else { w with tokens := w.tokens.dropWhile (· = .documentEnd) }
  match ← w.peek broken with
  | .streamEnd => return .finished
  | t =>
    let needsMark := match t with
      | .version .. => true
      | .shorthand .. => true
      | .documentStart => true
      | _ => !bare
    if !needsMark then
      let w := { w with shorthands := standardShorthands }
      return .event .documentStart (w.expect [.node, .documentEnd])
    let (own, w) ← w.directives broken (w.tokens.length + 1) false []
    match ← w.peek broken with
    | .documentStart =>
      let w := { w with shorthands := own ++ standardShorthands }
      return .event .documentStart (w.skip.expect [.content, .documentEnd])
    | _ => throw .documentMark

/-- The content after a document mark. -/
def content (broken : Fault) (w : Walk) : Except Fault Step :=
  w.valueUnless broken true false fun
    | .version .. => true
    | .shorthand .. => true
    | .documentStart => true
    | .documentEnd => true
    | .streamEnd => true
    | _ => false

/-- The end of a document, with or without its mark. -/
def endDocument (broken : Fault) (w : Walk) : Except Fault Step := do
  let w ← match ← w.peek broken with
    | .documentEnd => pure w.skip
    | _ => pure w
  return .event .documentEnd (w.expect [.document false])

/-- The next entry of a block sequence, or its end. -/
def blockEntry (broken : Fault) (w : Walk) : Except Fault Step := do
  match ← w.peek broken with
  | .dash =>
    (w.skip.expect [.blockEntry]).valueUnless broken true false fun
      | .dash => true
      | .blockEnd => true
      | _ => false
  | .blockEnd => return .event .close w.skip
  | _ => throw .sequenceEntry

/-- The next entry of a sequence that is not indented, or its end. -/
def dashEntry (broken : Fault) (w : Walk) : Except Fault Step := do
  match ← w.peek broken with
  | .dash =>
    (w.skip.expect [.dashEntry]).valueUnless broken true false fun
      | .dash => true
      | .key => true
      | .value => true
      | .blockEnd => true
      | _ => false
  | _ => return .event .close w

/-- A token that shows that a key or value of a block mapping is missing. -/
def endsBlockPart : Token → Bool
  | .key => true
  | .value => true
  | .blockEnd => true
  | _ => false

/-- The next key of a block mapping, or its end. -/
def blockKey (broken : Fault) (w : Walk) : Except Fault Step := do
  match ← w.peek broken with
  | .key => (w.skip.expect [.blockValue]).valueUnless broken true true endsBlockPart
  | .blockEnd => return .event .close w.skip
  | _ => throw .mappingKey

/-- The value for the last key of a block mapping. -/
def blockValue (broken : Fault) (w : Walk) : Except Fault Step := do
  match ← w.peek broken with
  | .value => (w.skip.expect [.blockKey]).valueUnless broken true true endsBlockPart
  | _ => return .event .missing (w.expect [.blockKey])

/-- The next entry of a flow sequence, or its end. -/
def flowEntry (broken : Fault) (first : Bool) (w : Walk) : Except Fault Step := do
  match ← w.peek broken with
  | .closeBracket => return .event .close w.skip
  | t =>
    if !first && t ≠ .comma then throw .flowSequence
    let w := if first then w else w.skip
    match ← w.peek broken with
    | .key => return .event (.mapping .none) (w.skip.expect [.pairKey, .flowEntry false])
    | .closeBracket => return .event .close w.skip
    | _ => (w.expect [.flowEntry false]).value broken false false

/-- A token that shows that a part of a single pair is missing. -/
def endsPairPart : Token → Bool
  | .comma => true
  | .closeBracket => true
  | _ => false

/-- The key of a single pair. Where it is missing, the token that shows this is left behind. -/
def pairKey (broken : Fault) (w : Walk) : Except Fault Step := do
  let t ← w.peek broken
  if t = .value || endsPairPart t then return .event .missing (w.skip.expect [.pairValue])
  else (w.expect [.pairValue]).value broken false false

/-- The value of a single pair. -/
def pairValue (broken : Fault) (w : Walk) : Except Fault Step := do
  match ← w.peek broken with
  | .value => (w.skip.expect [.pairEnd]).valueUnless broken false false endsPairPart
  | _ => return .event .missing (w.expect [.pairEnd])

/-- The end of a single pair. -/
def pairEnd (broken : Fault) (w : Walk) : Except Fault Step := do
  let _ ← w.peek broken
  return .event .close w

/-- A token that shows that a part of a flow mapping entry is missing. -/
def endsEntryPart : Token → Bool
  | .comma => true
  | .closeBrace => true
  | _ => false

/-- The next key of a flow mapping, or its end. -/
def flowKey (broken : Fault) (first : Bool) (w : Walk) : Except Fault Step := do
  match ← w.peek broken with
  | .closeBrace => return .event .close w.skip
  | t =>
    if !first && t ≠ .comma then throw .flowMapping
    let w := if first then w else w.skip
    match ← w.peek broken with
    | .key =>
      (w.skip.expect [.flowValue]).valueUnless broken false false fun t =>
        t = .value || endsEntryPart t
    | .closeBrace => return .event .close w.skip
    | _ => (w.expect [.flowNoValue]).value broken false false

/-- The value for the last key of a flow mapping. -/
def flowValue (broken : Fault) (w : Walk) : Except Fault Step := do
  match ← w.peek broken with
  | .value => (w.skip.expect [.flowKey false]).valueUnless broken false false endsEntryPart
  | _ => return .event .missing (w.expect [.flowKey false])

/-- The missing value of a flow mapping. -/
def flowNoValue (broken : Fault) (w : Walk) : Except Fault Step := do
  let _ ← w.peek broken
  return .event .missing (w.expect [.flowKey false])

/-- One step of the walk. -/
def step (broken : Fault) (w : Walk) : Except Fault Step :=
  match w.expected with
  | [] => .ok .finished
  | x :: expected =>
    let w := { w with expected := expected }
    match x with
    | .document bare => w.document broken bare
    | .node => w.value broken true false
    | .content => w.content broken
    | .documentEnd => w.endDocument broken
    | .blockEntry => w.blockEntry broken
    | .dashEntry => w.dashEntry broken
    | .blockKey => w.blockKey broken
    | .blockValue => w.blockValue broken
    | .flowEntry first => w.flowEntry broken first
    | .pairKey => w.pairKey broken
    | .pairValue => w.pairValue broken
    | .pairEnd => w.pairEnd broken
    | .flowKey first => w.flowKey broken first
    | .flowValue => w.flowValue broken
    | .flowNoValue => w.flowNoValue broken

/-- Walk on and collect the events, those before being given in reverse. -/
def run (broken : Fault) (fuel : Nat) (w : Walk) (done : List Event) : List Event × Option Fault :=
  match fuel with
  | 0 => (done.reverse, none)
  | fuel + 1 =>
    match w.step broken with
    | .ok (.event e w) => run broken fuel w (e :: done)
    | .ok .finished => (done.reverse, none)
    | .error e => (done.reverse, some e)

end Walk

/-- The events of a stream up to the first fault, and the fault. Every token brings at most three
events: a missing key, its missing value and the end of what they stand in. -/
def events (tokens : List Token) (fault : Option Fault) : List Event × Option Fault :=
  Walk.run (fault.getD .endOfStream) (4 * tokens.length + 8) ⟨tokens, [.document true], []⟩ []

end JobLoom.Yaml
