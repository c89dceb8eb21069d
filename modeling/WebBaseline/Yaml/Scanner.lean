import WebBaseline.Yaml.Scalar

/-!
# Reading tokens of YAML

Tokens are read one by one.  A token waits in the queue as long as it may turn
out to start a key, since then a token for the key, and perhaps one for the
start of a mapping, goes in front of it.
-/

namespace WebBaseline.Yaml.Scan

/-! ### Indentation -/

/-- Put a token into the queue in front of the token with a number. -/
def insertAt (number : Nat) (t : Located) : Scan Unit :=
  modify fun s =>
    let i := number - s.taken
    { s with queue := s.queue.take i ++ t :: s.queue.drop i }

/-- Start a block at a column that is further in than the current one.  The token that
starts it goes in front of a numbered token, or to the end. -/
def openBlock (column : Nat) (number : Option Nat) (token : Token) (mark : Mark) : Scan Unit := do
  let s ← get
  if s.flowLevel = 0 && s.indent < column then
    set { s with indents := s.indent :: s.indents, indent := (column : Int) }
    match number with
    | none => push token mark mark
    | some n => insertAt n ⟨token, mark, mark⟩

/-- The levels of indentation that are left when those further in than a column end, with
the number of those that end. -/
def dropIndents (column : Int) : Nat → Int → List Int → Nat × Int × List Int
  | n, indent, [] => (n, indent, [])
  | n, indent, outer :: rest =>
    if column < indent then dropIndents column (n + 1) outer rest else (n, indent, outer :: rest)

/-- End the blocks that are further in than a column. -/
def closeBlocks (column : Int) : Scan Unit := do
  let s ← get
  if s.flowLevel = 0 then
    let (n, indent, indents) := dropIndents column 0 s.indent s.indents
    let ends := List.replicate n (Located.mk .blockEnd s.mark s.mark)
    set { s with indent, indents, queue := s.queue ++ ends }

/-! ### Keys without a mark -/

/-- The key that may have started at the current level. -/
def currentKey : Scan SimpleKey := do return (← get).keys.headD {}

/-- Replace the key of the current level. -/
def setKey (k : SimpleKey) : Scan Unit := modify fun s => { s with keys := k :: s.keys.tail }

/-- The current level has no key that may have started.  It is an error if there had to be one. -/
def removeKey : Scan Unit := do
  let k ← currentKey
  if k.possible && k.required then failSince .simpleKey k.place .noKeyColon
  setKey { k with possible := false }

/-- A key may start here, if one is allowed. -/
def saveKey : Scan Unit := do
  let s ← get
  if s.keyAllowed then
    removeKey
    setKey { possible := true, required := s.flowLevel = 0 && s.indent = s.mark.column
             token := s.taken + s.queue.length, place := s.mark }

/-- How far a key may reach. -/
def longestKey : Nat := 1024

/-- Keys cannot reach over the end of a line, nor too far. -/
def dropStaleKeys : Scan Unit := do
  let s ← get
  let stale (k : SimpleKey) : Bool :=
    k.possible && (k.place.line < s.mark.line || k.place.index + longestKey < s.mark.index)
  -- the outermost key is looked at first
  match s.keys.reverse.find? fun k => stale k && k.required with
  | some k => failSince .simpleKey k.place .noKeyColon
  | none =>
    set { s with keys := s.keys.map fun k => if stale k then { k with possible := false } else k }

/-- Say whether a key may start with the next token. -/
def allowKey (allowed : Bool) : Scan Unit := modify fun s => { s with keyAllowed := allowed }

/-! ### Blanks and comments -/

/-- Pass over blanks, comments and line ends, and over a mark of the byte order at the start. -/
def skipToToken : Nat → Scan Unit
  | 0 => pure ()
  | fuel + 1 => do
    if (← get).mark.index = 0 && (← nextIs '\ufeff') then skip
    let s ← get
    let tabs := 0 < s.flowLevel || !s.keyAllowed
    let _ ← readWhile fun c => c = ' ' || (tabs && c = '\t')
    skipComment
    if ((← look 0).map isBreak).getD false then
      let _ ← readBreak
      if s.flowLevel = 0 then allowKey true
      skipToToken fuel

/-! ### Directives and tags -/

/-- Read the name of a directive. -/
def readDirectiveName (since : Mark) : Scan String := do
  let name ← readWhile isWordChar
  if name.isEmpty then failSince .directive since .noDirectiveName
  unless atBlankOrEnd (← look 0) do failSince .directive since .directiveNameEnd
  return String.ofList name

/-- The most digits of a version number. -/
def longestVersion : Nat := 9

/-- Read a part of a version number. -/
def readVersionPart (since : Mark) : Scan Nat := do
  let digits := (← get).rest.takeWhile Char.isDigit
  if longestVersion < digits.length then
    skipMany longestVersion
    failSince .versionDirective since .longVersion
  if digits.isEmpty then failSince .versionDirective since .noVersion
  skipMany digits.length
  return digits.foldl (fun n c => 10 * n + (c.toNat - 48)) 0

/-- Read a version number. -/
def readVersion (since : Mark) : Scan Token := do
  let _ ← readWhile isBlank
  let major ← readVersionPart since
  unless ← nextIs '.' do failSince .versionDirective since .noVersionPoint
  skip
  let minor ← readVersionPart since
  return .versionDirective major minor

/-- Read a handle: an exclamation mark, perhaps a name and another mark. -/
def readHandle (inDirective : Bool) (since : Mark) : Scan (List Char) := do
  let activity : Activity := if inDirective then .tagDirective else .tag
  unless ← nextIs '!' do failSince activity since .noTagHandle
  skip
  let name ← readWhile isWordChar
  if ← nextIs '!' then
    skip
    return '!' :: name ++ ['!']
  if inDirective && !name.isEmpty then failSince .tagDirectiveUri since .noTagHandle
  return '!' :: name

/-- The characters of tags beside those of names. -/
def tagMarks : List Char := ";/?:@&=+$.!~*\x27()".toList

/-- Read an octet that is written with a percent sign. -/
def readOctet (inDirective : Bool) (since : Mark) : Scan Nat := do
  let s ← get
  match s.rest with
  | '%' :: a :: b :: _ =>
    match hexNumber? [a, b] with
    | some n => skipMany 3; return n
    | none => failSince (if inDirective then .tagDirectiveUri else .tagUri) since .noTagEscape
  | _ => failSince (if inDirective then .tagDirectiveUri else .tagUri) since .noTagEscape

/-- Read the further octets of a character. -/
def readOctets (inDirective : Bool) (since : Mark) : Nat → Nat → Scan Nat
  | 0, value => return value
  | n + 1, value => do
    let octet ← readOctet inDirective since
    if octet / 64 != 2 then
      failSince (if inDirective then .tagDirectiveUri else .tagUri) since .badTagContinuation
    readOctets inDirective since n (64 * value + octet % 64)

/-- Read a character that is written with percent signs. -/
def readOctetChar (inDirective : Bool) (since : Mark) : Scan Char := do
  let octet ← readOctet inDirective since
  if octet < 0x80 then return Char.ofNat octet
  else if octet / 32 = 6 then return Char.ofNat (← readOctets inDirective since 1 (octet % 32))
  else if octet / 16 = 14 then return Char.ofNat (← readOctets inDirective since 2 (octet % 16))
  else if octet / 8 = 30 then return Char.ofNat (← readOctets inDirective since 3 (octet % 8))
  else failSince (if inDirective then .tagDirectiveUri else .tagUri) since .badTagEscape

/-- Read the characters of a tag. -/
def readTagChars (flowMarks inDirective : Bool) (since : Mark) : Nat → List Char → Scan (List Char)
  | 0, read => return read
  | fuel + 1, read => do
    match ← look 0 with
    | none => return read
    | some c =>
      if isWordChar c || tagMarks.contains c || (flowMarks && (c = ',' || c = '[' || c = ']')) then
        skip
        readTagChars flowMarks inDirective since fuel (c :: read)
      else if c = '%' then
        let d ← readOctetChar inDirective since
        readTagChars flowMarks inDirective since fuel (d :: read)
      else return read

/-- Read the rest of a tag, of which a handle may have been read already. -/
def readTagUri (flowMarks inDirective : Bool) (since : Mark) (head : List Char) :
    Scan String := do
  let read ← readTagChars flowMarks inDirective since ((← get).rest.length + 1) []
  if head.isEmpty && read.isEmpty then
    failSince (if inDirective then .tagDirectiveUri else .tagUri) since .noTagUri
  return String.ofList (head.tail ++ read.reverse)

/-- Read the handle of a directive with what it stands for. -/
def readTagDirective (since : Mark) : Scan Token := do
  let _ ← readWhile isBlank
  let handle ← readHandle true since
  unless ((← look 0).map isBlank).getD false do
    failSince .tagDirective since .noDirectiveBlank
  let _ ← readWhile isBlank
  let expansion ← readTagUri true true since []
  unless atBlankOrEnd (← look 0) do failSince .tagDirective since .noPrefixEnd
  return .tagDirective (String.ofList handle) expansion

/-- Read a directive. -/
def readDirective : Scan Located := do
  let start ← place
  skip
  let name ← readDirectiveName start
  let token ← if name == "YAML" then readVersion start
    else if name == "TAG" then readTagDirective start
    else failSince .directive start .unknownDirective
  let stop ← place
  let _ ← readWhile isBlank
  skipComment
  unless atBreakOrEnd (← look 0) do failSince .directive start .directiveEnd
  let _ ← readBreak
  return ⟨token, start, stop⟩

/-- Read a tag. -/
def readTag : Scan Located := do
  let start ← place
  let token ← if (← look 1) == some '<' then do
      skipMany 2
      let suffix ← readTagUri true false start []
      unless ← nextIs '>' do failSince .tag start .noTagClose
      skip
      pure (Token.tag "" suffix)
    else do
      let handle ← readHandle false start
      if 1 < handle.length && handle.getLast? == some '!' then
        pure (Token.tag (String.ofList handle) (← readTagUri false false start []))
      else
        let suffix ← readTagUri false false start handle
        pure (if suffix.isEmpty then Token.tag "" "!" else Token.tag "!" suffix)
  let next ← look 0
  unless atBlankOrEnd next || (0 < (← get).flowLevel && next == some ',') do
    failSince .tag start .noTagEnd
  return ⟨token, start, ← place⟩

/-- Read the name of an anchor or of a reference to one. -/
def readAnchor (isReference : Bool) : Scan Located := do
  let start ← place
  skip
  let name ← readWhile isWordChar
  let next ← look 0
  let isMark (c : Char) : Bool := "?:,]\x7d%@\x60".toList.contains c
  let ended := atBlankOrEnd next || next.any isMark
  if name.isEmpty || !ended then
    failSince (if isReference then .reference else .anchor) start .noAnchorName
  let text := String.ofList name
  return ⟨if isReference then .reference text else .anchor text, start, ← place⟩

/-! ### Tokens -/

/-- Queue a token that takes some characters. -/
def pushMark (token : Token) (length : Nat) : Scan Unit := do
  let start ← place
  skipMany length
  push token start (← place)

/-- Queue a token that has been read. -/
def pushLocated (t : Located) : Scan Unit := push t.token t.start t.stop

/-- The end of the text ends all blocks. -/
def readStreamEnd : Scan Unit := do
  modify fun s =>
    if s.mark.column = 0 then s
    else { s with mark := { s.mark with column := 0, line := s.mark.line + 1 } }
  closeBlocks (-1)
  removeKey
  allowKey false
  push .streamEnd (← place) (← place)

/-- A mark at the level of the document ends all blocks. -/
def endBlocks : Scan Unit := do
  closeBlocks (-1)
  removeKey
  allowKey false

/-- Queue the start of a flow collection. -/
def readFlowStart (token : Token) : Scan Unit := do
  saveKey
  modify fun s => { s with keys := {} :: s.keys, flowLevel := s.flowLevel + 1 }
  allowKey true
  pushMark token 1

/-- Queue the end of a flow collection. -/
def readFlowEnd (token : Token) : Scan Unit := do
  removeKey
  modify fun s =>
    if s.flowLevel = 0 then s else { s with keys := s.keys.tail, flowLevel := s.flowLevel - 1 }
  allowKey false
  pushMark token 1

/-- Queue the mark of an item of a block sequence. -/
def readBlockEntry : Scan Unit := do
  let s ← get
  if s.flowLevel = 0 then
    unless s.keyAllowed do failHere .sequenceHere
    openBlock s.mark.column none .blockSequenceStart s.mark
  removeKey
  allowKey true
  pushMark .blockEntry 1

/-- Queue the mark of a key. -/
def readKey : Scan Unit := do
  let s ← get
  if s.flowLevel = 0 then
    unless s.keyAllowed do failHere .keyHere
    openBlock s.mark.column none .blockMappingStart s.mark
  removeKey
  allowKey (s.flowLevel = 0)
  pushMark .key 1

/-- Queue the mark of a value.  What may have been a key is one now. -/
def readValue : Scan Unit := do
  let s ← get
  let k ← currentKey
  if k.possible then
    insertAt k.token ⟨.key, k.place, k.place⟩
    openBlock k.place.column (some k.token) .blockMappingStart k.place
    setKey { k with possible := false }
    allowKey false
  else
    if s.flowLevel = 0 then
      unless s.keyAllowed do failHere .valueHere
      openBlock s.mark.column none .blockMappingStart s.mark
    allowKey (s.flowLevel = 0)
  pushMark .value 1

/-- Marks with which no plain scalar starts. -/
def plainStoppers : List Char := "-?:,[]\x7b\x7d#&*!|>\x27\"%@\x60".toList

/-- Whether a plain scalar starts with the next characters. -/
def startsPlain (inFlow : Bool) (c : Char) (next : Option Char) : Bool :=
  (!isBlank c && !isBreak c && !plainStoppers.contains c)
    || (c = '-' && !(next.map isBlank).getD false)
    || (!inFlow && (c = '?' || c = ':') && !atBlankOrEnd next)

/-- Read the next token into the queue. -/
def readToken : Scan Unit := do
  if !(← get).started then
    modify fun s => { s with started := true, keys := [{}], keyAllowed := true }
    push .streamStart {} {}
  else
    skipToToken ((← get).rest.length + 1)
    dropStaleKeys
    closeBlocks (← place).column
    let s ← get
    let inFlow := 0 < s.flowLevel
    let next := s.rest[1]?
    match s.rest with
    | [] => readStreamEnd
    | c :: _ =>
      if s.mark.column = 0 && c = '%' then
        endBlocks
        pushLocated (← readDirective)
      else if ← atDocumentMark then
        endBlocks
        pushMark (if c = '-' then .documentStart else .documentEnd) 3
      else if c = '[' then readFlowStart .flowSequenceStart
      else if c = '\x7b' then readFlowStart .flowMappingStart
      else if c = ']' then readFlowEnd .flowSequenceEnd
      else if c = '\x7d' then readFlowEnd .flowMappingEnd
      else if c = ',' then
        removeKey
        allowKey true
        pushMark .flowEntry 1
      else if c = '-' && atBlankOrEnd next then readBlockEntry
      else if c = '?' && (inFlow || atBlankOrEnd next) then readKey
      else if c = ':' && (inFlow || atBlankOrEnd next) then readValue
      else if c = '*' || c = '&' then
        saveKey
        allowKey false
        pushLocated (← readAnchor (c = '*'))
      else if c = '!' then
        saveKey
        allowKey false
        pushLocated (← readTag)
      else if (c = '|' || c = '>') && !inFlow then
        removeKey
        allowKey true
        pushLocated (← readBlock (c = '|'))
      else if c = '\x27' || c = '\"' then
        saveKey
        allowKey false
        pushLocated (← readQuoted (c = '\x27'))
      else if startsPlain inFlow c next then
        saveKey
        allowKey false
        pushLocated (← readPlain)
      else failSince .nextToken s.mark .noToken

/-- Read tokens until the first one of the queue is certain. -/
def fillQueue : Nat → Scan Unit
  | 0 => pure ()
  | fuel + 1 => do
    let s ← get
    let certain ← if s.queue.isEmpty then pure false
      else do
        dropStaleKeys
        pure !((← get).keys.any fun k => k.possible && k.token = s.taken)
    unless certain do
      readToken
      fillQueue fuel

/-- The next token. -/
def peek : Scan Located := do
  fillQueue ((← get).rest.length + 10)
  return (← get).queue.headD ⟨.streamEnd, {}, {}⟩

/-- Take the next token. -/
def takeToken : Scan Unit :=
  modify fun s => { s with queue := s.queue.tail, taken := s.taken + 1 }

end WebBaseline.Yaml.Scan
