/-!
# Faults of a document stream

The ways in which a text fails to be a document stream, from the bytes up to the aliases. What a
well-formed document holds in the wrong place is no fault but a `Mismatch`.
-/

namespace JobLoom.Yaml

/-- Why a stream cannot be read. -/
inductive Fault where
  /-- bytes or characters that may not stand in a stream -/
  | damagedText
  /-- a line that has to start a mapping entry has no colon -/
  | missingColon
  /-- a character that starts no token -/
  | strayCharacter (c : Char)
  /-- a dash where no sequence can start -/
  | misplacedEntry
  /-- a question mark where no mapping can start -/
  | misplacedKey
  /-- a colon where no mapping can start -/
  | misplacedValue
  /-- a percent sign without a directive name -/
  | directiveName
  /-- a directive other than the version and the tag shorthand -/
  | unknownDirective (name : String)
  /-- a version that is not two short numbers with a point between -/
  | versionNumber
  /-- text after a directive, or after the head of a block scalar -/
  | lineEnd
  /-- an anchor or alias without a name, or with a bad end -/
  | anchorName
  /-- a tag shorthand that does not end in an exclamation mark -/
  | tagHandle
  /-- a tag without text -/
  | tagText
  /-- a tag that is not followed by a blank -/
  | tagEnd
  /-- an escape in a tag that is no octet, or no part of a character -/
  | tagEscape
  /-- an indentation of zero asked for -/
  | zeroIndentation
  /-- a tab among indentation -/
  | tabIndentation
  /-- a document mark inside a quoted scalar -/
  | markInQuotes
  /-- a quoted scalar without its closing quote -/
  | unclosedQuotes
  /-- a backslash in front of a character that has no escape -/
  | unknownEscape
  /-- an escape whose number is not written out or is no character -/
  | escapeNumber
  /-- a colon inside a flow collection that separates nothing -/
  | flowColon
  /-- content where a document mark has to stand -/
  | documentMark
  /-- two versions for one document -/
  | repeatedVersion
  /-- a version that is not supported -/
  | unsupportedVersion
  /-- two meanings for one tag shorthand -/
  | repeatedShorthand
  /-- a tag shorthand without meaning -/
  | undefinedShorthand
  /-- no value where one is needed -/
  | missingNode
  /-- a sequence that goes on with something that is no entry -/
  | sequenceEntry
  /-- a mapping that goes on with something that is no key -/
  | mappingKey
  /-- a flow sequence without comma or bracket -/
  | flowSequence
  /-- a flow mapping without comma or brace -/
  | flowMapping
  /-- an alias for a name that no value carries -/
  | unknownAlias
  /-- the stream ends before the value does -/
  | endOfStream
  /-- a second document -/
  | severalDocuments
  /-- collections nested too deeply -/
  | nesting
  /-- aliases that expand too often -/
  | repetition
  deriving DecidableEq, Repr

/-- The wording of a fault. -/
def Fault.message : Fault → String
  | .damagedText => "the text holds bytes or characters that are not allowed"
  | .missingColon => "could not find the ':' of a mapping entry"
  | .strayCharacter c => String.ofList ['\'', c, '\''] ++ " cannot start a value"
  | .misplacedEntry => "a sequence entry is not allowed here"
  | .misplacedKey => "a mapping key is not allowed here"
  | .misplacedValue => "a mapping value is not allowed here"
  | .directiveName => "a directive needs a name"
  | .unknownDirective name => "unknown directive " ++ name
  | .versionNumber => "a version directive needs two short numbers"
  | .lineEnd => "expected a comment or the end of the line"
  | .anchorName => "an anchor or alias needs a name of letters and digits"
  | .tagHandle => "a tag shorthand has to end in '!'"
  | .tagText => "a tag needs a text"
  | .tagEnd => "a tag has to be followed by a blank"
  | .tagEscape => "an escape in a tag is not part of a character"
  | .zeroIndentation => "an indentation of 0 is not allowed"
  | .tabIndentation => "a tab stands where an indentation space is expected"
  | .markInQuotes => "a document mark stands inside quotes"
  | .unclosedQuotes => "the text ends inside quotes"
  | .unknownEscape => "unknown escape character"
  | .escapeNumber => "an escape does not give the number of a character"
  | .flowColon => "unexpected ':'"
  | .documentMark => "expected the start of a document"
  | .repeatedVersion => "the version is given twice"
  | .unsupportedVersion => "the version is not supported"
  | .repeatedShorthand => "a tag shorthand is defined twice"
  | .undefinedShorthand => "a tag shorthand is not defined"
  | .missingNode => "expected a value"
  | .sequenceEntry => "expected the next sequence entry"
  | .mappingKey => "expected the next mapping key"
  | .flowSequence => "expected ',' or ']'"
  | .flowMapping => "expected ',' or '\x7d'"
  | .unknownAlias => "unknown anchor"
  | .endOfStream => "the text ends before a value does"
  | .severalDocuments => "more than one document"
  | .nesting => "recursion limit exceeded"
  | .repetition => "repetition limit exceeded"

end JobLoom.Yaml
