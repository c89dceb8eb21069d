/-!
# Errors in the notation of YAML

An error says what is wrong and where, and often what was being read and since
where.  Places count from zero; a place at the very start of the text is not
mentioned.
-/

namespace WebBaseline.Yaml

/-- A place in a text, in characters. -/
structure Mark where
  index : Nat := 0
  line : Nat := 0
  column : Nat := 0
deriving BEq, DecidableEq, Inhabited, Repr

namespace Mark

/-- Whether two places have the same line and column. -/
def sameAs (a b : Mark) : Bool := a.line == b.line && a.column == b.column

/-- Whether a place is the start of the text. -/
def isStart (m : Mark) : Bool := m.sameAs {}

/-- The wording of a place, counted from one. -/
def message (m : Mark) : String :=
  "line " ++ toString (m.line + 1) ++ " column " ++ toString (m.column + 1)

/-- The wording of a place after a message; the start is left out. -/
def suffix (m : Mark) : String := if m.isStart then "" else " at " ++ m.message

end Mark

/-- What is wrong with a text. -/
inductive Problem where
  | noToken
  | noKeyColon
  | sequenceHere
  | keyHere
  | valueHere
  | unknownDirective
  | noDirectiveName
  | directiveNameEnd
  | directiveEnd
  | longVersion
  | noVersion
  | noVersionPoint
  | noTagHandle
  | noDirectiveBlank
  | noPrefixEnd
  | noAnchorName
  | noTagClose
  | noTagEnd
  | noTagUri
  | noTagEscape
  | badTagEscape
  | badTagContinuation
  | zeroIndentation
  | headerEnd
  | tabInBlock
  | documentInQuotes
  | endInQuotes
  | unknownEscape
  | noHexDigits
  | badCodePoint
  | colonInFlow
  | tabInPlain
  | noDocumentStart
  | undefinedHandle
  | noContent
  | noDash
  | noKey
  | noListEnd
  | noMapEnd
  | repeatedVersion
  | wrongVersion
  | repeatedHandle
deriving DecidableEq, Repr

/-- The wording of a problem. -/
def Problem.message : Problem → String
  | noToken => "found character that cannot start any token"
  | noKeyColon => "could not find expected \x27:\x27"
  | sequenceHere => "block sequence entries are not allowed in this context"
  | keyHere => "mapping keys are not allowed in this context"
  | valueHere => "mapping values are not allowed in this context"
  | unknownDirective => "found unknown directive name"
  | noDirectiveName => "could not find expected directive name"
  | directiveNameEnd => "found unexpected non-alphabetical character"
  | directiveEnd => "did not find expected comment or line break"
  | longVersion => "found extremely long version number"
  | noVersion => "did not find expected version number"
  | noVersionPoint => "did not find expected digit or \x27.\x27 character"
  | noTagHandle => "did not find expected \x27!\x27"
  | noDirectiveBlank => "did not find expected whitespace"
  | noPrefixEnd => "did not find expected whitespace or line break"
  | noAnchorName => "did not find expected alphabetic or numeric character"
  | noTagClose => "did not find the expected \x27>\x27"
  | noTagEnd => "did not find expected whitespace or line break"
  | noTagUri => "did not find expected tag URI"
  | noTagEscape => "did not find URI escaped octet"
  | badTagEscape => "found an incorrect leading UTF-8 octet"
  | badTagContinuation => "found an incorrect trailing UTF-8 octet"
  | zeroIndentation => "found an indentation indicator equal to 0"
  | headerEnd => "did not find expected comment or line break"
  | tabInBlock => "found a tab character where an indentation space is expected"
  | documentInQuotes => "found unexpected document indicator"
  | endInQuotes => "found unexpected end of stream"
  | unknownEscape => "found unknown escape character"
  | noHexDigits => "did not find expected hexdecimal number"
  | badCodePoint => "found invalid Unicode character escape code"
  | colonInFlow => "found unexpected \x27:\x27"
  | tabInPlain => "found a tab character that violates indentation"
  | noDocumentStart => "did not find expected <document start>"
  | undefinedHandle => "found undefined tag handle"
  | noContent => "did not find expected node content"
  | noDash => "did not find expected \x27-\x27 indicator"
  | noKey => "did not find expected key"
  | noListEnd => "did not find expected \x27,\x27 or \x27]\x27"
  | noMapEnd => "did not find expected \x27,\x27 or \x27\x7d\x27"
  | repeatedVersion => "found duplicate %YAML directive"
  | wrongVersion => "found incompatible YAML document"
  | repeatedHandle => "found duplicate %TAG directive"

/-- What was being read. -/
inductive Activity where
  | nextToken
  | simpleKey
  | directive
  | versionDirective
  | tagDirective
  | tagDirectiveUri
  | anchor
  | reference
  | tag
  | tagUri
  | blockScalar
  | quotedScalar
  | quotedEscape
  | plainScalar
  | node
  | blockNode
  | flowNode
  | blockCollection
  | blockMapping
  | flowSequence
  | flowMapping
deriving DecidableEq, Repr

/-- The wording of an activity. -/
def Activity.message : Activity → String
  | nextToken => "while scanning for the next token"
  | simpleKey => "while scanning a simple key"
  | directive => "while scanning a directive"
  | versionDirective => "while scanning a %YAML directive"
  | tagDirective => "while scanning a %TAG directive"
  | tagDirectiveUri => "while parsing a %TAG directive"
  | anchor => "while scanning an anchor"
  | reference => "while scanning an alias"
  | tag => "while scanning a tag"
  | tagUri => "while parsing a tag"
  | blockScalar => "while scanning a block scalar"
  | quotedScalar => "while scanning a quoted scalar"
  | quotedEscape => "while parsing a quoted scalar"
  | plainScalar => "while scanning a plain scalar"
  | node => "while parsing a node"
  | blockNode => "while parsing a block node"
  | flowNode => "while parsing a flow node"
  | blockCollection => "while parsing a block collection"
  | blockMapping => "while parsing a block mapping"
  | flowSequence => "while parsing a flow sequence"
  | flowMapping => "while parsing a flow mapping"

/-- An error in the notation. -/
structure SyntaxError where
  problem : Problem
  place : Mark
  activity : Option (Activity × Mark) := none
deriving DecidableEq, Repr

/-- The wording of an error: the problem with its place, then the activity, with its own
place if that is another one. -/
def SyntaxError.message (e : SyntaxError) : String :=
  e.problem.message ++ e.place.suffix ++
    match e.activity with
    | none => ""
    | some (a, since) =>
      ", " ++ a.message ++ (if since.sameAs e.place then "" else since.suffix)

end WebBaseline.Yaml
