/-!
# Tokens of a document stream

The smallest pieces that carry meaning. Where a block collection starts and ends is not written in
the text but follows from the indentation; these borders are tokens like the brackets of the flow
collections.
-/

namespace JobLoom.Yaml

/-- A piece of a stream. -/
inductive Token where
  /-- nothing comes after this -/
  | streamEnd
  /-- the version directive -/
  | version (major minor : Nat)
  /-- the directive that gives a tag shorthand its meaning -/
  | shorthand (handle start : String)
  /-- `---` -/
  | documentStart
  /-- `...` -/
  | documentEnd
  /-- a sequence starts by indentation -/
  | blockSequence
  /-- a mapping starts by indentation -/
  | blockMapping
  /-- a collection ends by indentation -/
  | blockEnd
  /-- `[` -/
  | openBracket
  /-- `]` -/
  | closeBracket
  /-- an opening brace -/
  | openBrace
  /-- a closing brace -/
  | closeBrace
  /-- `,` -/
  | comma
  /-- `-` -/
  | dash
  /-- the key of a mapping entry follows -/
  | key
  /-- the value of a mapping entry follows -/
  | value
  /-- `*name` -/
  | aliasOf (name : String)
  /-- `&name` -/
  | anchor (name : String)
  /-- `!handle!suffix`; a verbatim tag has an empty handle -/
  | tag (handle suffix : String)
  /-- a scalar, and whether it was written without quotes or block marks -/
  | scalar (text : String) (plain : Bool)
  deriving DecidableEq, Repr

end JobLoom.Yaml
