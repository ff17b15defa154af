import JobLoom.Decimal.Notation
import JobLoom.Settings.Layers

/-!
# Command lines

What a command line asks for. The settings that every command takes may stand in front of the
command or behind it; given on both sides, the one behind the command holds.

* **Options** are written `--name value` or `--name=value`, some also `-n value`, `-nvalue` or
  `-n=value`. An option is given at most once on each side of the command.
* **Values** that begin with a dash have to be joined to their option; a single dash is a value.
* **Two dashes** end the options.
-/

namespace JobLoom.Command

/-! ## Requests -/

/-- A command. -/
inductive Action where
  /-- convert one file; the result goes to a file or to the output -/
  | convert (file : String) (format : OutputFormat) (output : Option String)
  /-- check one file -/
  | validate (file : String)
  /-- convert all files below a directory -/
  | batch (directory outDirectory : String) (format : OutputFormat)
  deriving DecidableEq, Repr

/-- A command with its settings. -/
structure Invocation where
  /-- the command -/
  action : Action
  /-- the settings file, if one is given -/
  config : Option String
  /-- the settings on the line -/
  overrides : Overrides
  deriving DecidableEq, Repr

/-- What a command line asks for. -/
inductive Wish where
  /-- to run a command -/
  | run (i : Invocation)
  /-- to tell how commands are written -/
  | help
  /-- to tell the version -/
  | version
  deriving DecidableEq, Repr

/-- Why a command line makes no sense. -/
inductive Misuse where
  /-- an option or a text that is not expected -/
  | unexpected (argument : String)
  /-- an option without its value -/
  | valueMissing (option : String)
  /-- a value that does not fit its option -/
  | badValue (option value : String)
  /-- an option that is given twice -/
  | repeated (option : String)
  /-- an argument that has to be given -/
  | argumentMissing (name : String)
  deriving DecidableEq, Repr

/-- The wording of a misuse. -/
def Misuse.message : Misuse → String
  | .unexpected argument => "unexpected argument '" ++ argument ++ "'"
  | .valueMissing option => "a value is required for '" ++ option ++ "'"
  | .badValue option value => "invalid value '" ++ value ++ "' for '" ++ option ++ "'"
  | .repeated option => "the argument '" ++ option ++ "' cannot be used multiple times"
  | .argumentMissing name => "the argument '" ++ name ++ "' is required"

/-! ## Options -/

/-- An option with a value. -/
inductive Flag where
  /-- the settings file -/
  | config
  /-- the directory of the store -/
  | storeDir
  /-- the namespace of the store -/
  | space
  /-- the image of containers without one -/
  | image
  /-- the number of workers -/
  | workers
  /-- the capacity of the queue -/
  | capacity
  /-- the format of the manifests -/
  | format
  /-- the file that is written -/
  | output
  /-- the directory that is written to -/
  | outDir
  deriving DecidableEq, Repr

namespace Flag

/-- The name behind two dashes. -/
def long : Flag → String
  | .config => "config"
  | .storeDir => "store-dir"
  | .space => "namespace"
  | .image => "default-image"
  | .workers => "workers"
  | .capacity => "queue-capacity"
  | .format => "format"
  | .output => "output"
  | .outDir => "out-dir"

/-- The letter behind one dash. -/
def short? : Flag → Option Char
  | .format => some 'f'
  | .output => some 'o'
  | _ => none

/-- The option as it is written in full. -/
def spelling (f : Flag) : String := "--" ++ f.long

/-- The options of every command. -/
def common : List Flag := [.config, .storeDir, .space, .image, .workers, .capacity]

/-- A format by its exact name. -/
def formatOf? (value : String) : Option OutputFormat :=
  if value = "yaml" then some .yaml else if value = "json" then some .json else none

/-- The value fits the option: paths are not empty, counts are numerals, formats have a name. -/
def accepts (f : Flag) (value : String) : Bool :=
  match f with
  | .config => !value.isEmpty
  | .storeDir => !value.isEmpty
  | .output => !value.isEmpty
  | .outDir => !value.isEmpty
  | .workers => (Decimal.readCount value.toList).isSome
  | .capacity => (Decimal.readCount value.toList).isSome
  | .format => (formatOf? value).isSome
  | .space => true
  | .image => true

end Flag

/-! ## One side of the command -/

/-- What stands on one side of the command. -/
structure Side where
  /-- the options with their values -/
  values : List (Flag × String)
  /-- the texts that belong to no option -/
  words : List String

/-- Nothing. -/
def Side.empty : Side := ⟨[], []⟩

/-- Add an option. -/
def Side.set (s : Side) (f : Flag) (value : String) : Except Misuse Side :=
  if s.values.any (·.1 = f) then .error (.repeated f.spelling)
  else if !f.accepts value then .error (.badValue f.spelling value)
  else .ok { s with values := s.values ++ [(f, value)] }

/-- What an argument looks like. -/
inductive Shape where
  /-- the end of the options -/
  | dashes
  /-- an option in full, perhaps with a value behind an equals sign -/
  | long (name : String) (value : Option String)
  /-- an option by its letter, perhaps with a value behind it -/
  | short (letter : Char) (value : Option String)
  /-- any other text -/
  | word

/-- The text behind an equals sign is the value. -/
def splitValue (s : List Char) : List Char × Option String :=
  let name := s.takeWhile (· ≠ '=')
  match s.drop name.length with
  | [] => (name, none)
  | _ :: value => (name, some (String.ofList value))

/-- What an argument looks like. -/
def shape (argument : String) : Shape :=
  match argument.toList with
  | ['-', '-'] => .dashes
  | '-' :: '-' :: rest =>
    let (name, value) := splitValue rest
    .long (String.ofList name) value
  | '-' :: letter :: [] => .short letter none
  | '-' :: letter :: '=' :: value => .short letter (some (String.ofList value))
  | '-' :: letter :: value => .short letter (some (String.ofList value))
  | _ => .word

/-- The argument is taken for a value when an option waits for one. -/
def isValue (argument : String) : Bool :=
  match shape argument with
  | .word => true
  | _ => false

/-- What comes of reading one side. -/
inductive Reading where
  /-- the side, and the command in front of the rest -/
  | side (s : Side) (rest : List String)
  /-- a wish for something else than a command -/
  | wish (w : Wish)

/-- What the reader of one side knows. -/
structure Grammar where
  /-- the options that may be given -/
  flags : List Flag
  /-- how many words may be given; without words, the first one ends the side -/
  words : Option Nat
  /-- the version may be asked for -/
  versioned : Bool

/-- The words behind two dashes. -/
def closeSide (g : Grammar) (s : Side) (words : List String) : Except Misuse Reading :=
  match g.words with
  | none =>
    match words with
    | [] => .ok (.side s [])
    | w :: _ => .error (.unexpected w)
  | some n =>
    match (s.words ++ words).drop n with
    | [] => .ok (.side { s with words := s.words ++ words } [])
    | w :: _ => .error (.unexpected w)

/-- Read one side of a command. -/
def readSide (g : Grammar) (s : Side) : List String → Except Misuse Reading
  | [] => .ok (.side s [])
  | a :: rest =>
    let option (f? : Option Flag) (value : Option String) : Except Misuse Reading :=
      match f?, value with
      | none, _ => .error (.unexpected a)
      | some f, some value => do readSide g (← s.set f value) rest
      | some f, none =>
        match rest with
        | v :: rest =>
          if isValue v then do readSide g (← s.set f v) rest else .error (.valueMissing f.spelling)
        | [] => .error (.valueMissing f.spelling)
    match shape a with
    | .dashes => closeSide g s rest
    | .long name value =>
      if name = "help" && value.isNone then .ok (.wish .help)
      else if name = "version" && value.isNone && g.versioned then .ok (.wish .version)
      else option (g.flags.find? fun f => f.long = name) value
    | .short letter value =>
      if letter = 'h' then .ok (.wish .help)
      else if letter = 'V' && g.versioned then .ok (.wish .version)
      else option (g.flags.find? fun f => f.short? = some letter) value
    | .word =>
      match g.words with
      | none => .ok (.side s (a :: rest))
      | some n =>
        if s.words.length < n then readSide g { s with words := s.words ++ [a] } rest
        else .error (.unexpected a)

/-! ## Whole lines -/

/-- The names of the commands. -/
def commandNames : List String := ["convert", "validate", "batch"]

/-- What may stand in front of the command. -/
def frontGrammar : Grammar := ⟨Flag.common, none, true⟩

/-- What may stand behind a command. -/
def backGrammar (name : String) : Grammar :=
  let own : List Flag :=
    if name = "convert" then [.format, .output]
    else if name = "batch" then [.outDir, .format]
    else []
  ⟨Flag.common ++ own, some 1, false⟩

/-- A word that has to be given, and is not empty. -/
def Side.word (s : Side) (name : String) : Except Misuse String :=
  match s.words with
  | [] => .error (.argumentMissing name)
  | w :: _ => if w.isEmpty then .error (.badValue name w) else .ok w

/-- The command that stands behind its name. -/
def actionOf (name : String) (back : Side) : Except Misuse Action :=
  let value? (f : Flag) : Option String := back.values.lookup f
  let format := ((value? .format).bind Flag.formatOf?).getD .yaml
  if name = "convert" then do return .convert (← back.word "FILE") format (value? .output)
  else if name = "validate" then do return .validate (← back.word "FILE")
  else do
    let directory ← back.word "DIR"
    match value? .outDir with
    | some out => return .batch directory out format
    | none => throw (.argumentMissing Flag.outDir.spelling)

/-- The command and its settings, from both sides. -/
def invocationOf (front : Side) (name : String) (back : Side) : Except Misuse Invocation := do
  let value? (f : Flag) : Option String := (back.values.lookup f).or (front.values.lookup f)
  let count? (f : Flag) : Option Nat := (value? f).bind fun v => Decimal.readCount v.toList
  return { action := ← actionOf name back
           config := value? .config
           overrides := ⟨count? .workers, count? .capacity, value? .space, value? .storeDir,
             value? .image⟩ }

/-- What a command line asks for. -/
def read (arguments : List String) : Except Misuse Wish := do
  match ← readSide frontGrammar .empty arguments with
  | .wish w => return w
  | .side _ [] => throw (.argumentMissing "COMMAND")
  | .side front (name :: rest) =>
    if name = "help" then
      match rest.find? fun w => !commandNames.contains w && w ≠ "help" with
      | some w => throw (.unexpected w)
      | none => return .help
    else if !commandNames.contains name then throw (.unexpected name)
    else
      match ← readSide (backGrammar name) .empty rest with
      | .wish w => return w
      | .side back _ => return .run (← invocationOf front name back)

end JobLoom.Command
