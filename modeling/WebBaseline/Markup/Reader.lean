import WebBaseline.Parsing.Engine
import WebBaseline.Markup.Grammar
import WebBaseline.Markup.Tag

/-!
# Reading what depends on the open elements

Names of start and end tags, the end of elements that is not written out, the
raw text of scripts and style sheets, and comments.  The reader's state lists
the open elements, the outermost first.
-/

namespace WebBaseline.Markup

open WebBaseline.Grammar WebBaseline.Parsing WebBaseline.Text

/-- The tokens read by hand. -/
inductive Piece where
  | startTagName
  | scriptStartTagName
  | styleStartTagName
  | endTagName
  | erroneousEndTagName
  | selfClose
  | implicitEnd
  | rawText
  | comment
deriving BEq, DecidableEq

/-- The number of a token in the grammar. -/
def Piece.number : Piece → Nat
  | .startTagName => 0
  | .scriptStartTagName => 1
  | .styleStartTagName => 2
  | .endTagName => 3
  | .erroneousEndTagName => 4
  | .selfClose => 5
  | .implicitEnd => 6
  | .rawText => 7
  | .comment => 8

namespace Reader

/-- What has been read, with the open elements after it. -/
structure Reading where
  piece : Piece
  start : Nat
  stop : Nat
  tags : List Tag

/-- Whether a character may stand in a tag's name. -/
def isNameChar (c : Char) : Bool :=
  c.isAlphanum || c == '-' || c == ':'

/-- The name at an index, in upper case, and the index after it. -/
def tagName (s : Source) (i : Nat) : String × Nat :=
  let stop := s.skipWhile isNameChar i
  (String.ofList ((s.chars.extract i stop).toList.map Char.toUpper), stop)

/-- The innermost open element. -/
def innermost (tags : List Tag) : Option Tag := tags.getLast?

/-- Raw text goes on until the end tag of its element.  `matched` characters of
that tag have been seen; `stop` is where the raw text would end. -/
def rawTextEnd (s : Source) (closing : List Char) : Nat → List Char → Nat → Nat → Nat
  | 0, _, stop, _ => stop
  | fuel + 1, left, stop, i =>
    if s.peek i == 0 then stop
    else match left with
      | [] => stop
      | c :: rest =>
        if (Char.ofNat (s.peek i)).toUpper == c then
          if rest.isEmpty then stop else rawTextEnd s closing fuel rest stop (i + 1)
        else rawTextEnd s closing fuel closing (i + 1) (i + 1)

/-- Read the text of a script or a style sheet. -/
def readRawText (s : Source) (tags : List Tag) (i : Nat) : Option Reading :=
  match innermost tags with
  | none => none
  | some tag =>
    let closing := if tag.isNamed "SCRIPT" then "</SCRIPT" else "</STYLE"
    let stop := rawTextEnd s closing.toList (s.size + 1) closing.toList i i
    some { piece := .rawText, start := i, stop, tags }

/-- The index after the comment whose text starts at an index. -/
def commentEnd (s : Source) : Nat → Nat → Nat → Option Nat
  | 0, _, _ => none
  | fuel + 1, dashes, i =>
    let here := Char.ofNat (s.peek i)
    if s.peek i == 0 then none
    else if here == '-' then commentEnd s fuel (dashes + 1) (i + 1)
    else if here == '>' && 2 ≤ dashes then some (i + 1)
    else commentEnd s fuel 0 (i + 1)

/-- Read a comment; the index is that of its exclamation mark. -/
def readComment (s : Source) (tags : List Tag) (start i : Nat) : Option Reading :=
  if s.peek (i + 1) == '-'.toNat && s.peek (i + 2) == '-'.toNat then
    (commentEnd s (s.size + 1) 0 (i + 3)).map fun stop => { piece := .comment, start, stop, tags }
  else none

/-- The end of the innermost element when its end tag is left out: the element
is void, an outer element is closed, a tag follows that it cannot contain, or
the document ends.  `stop` is where the token ends, `i` the index after the
angle bracket, if there is one. -/
def readImplicitEnd (s : Source) (tags : List Tag) (start : Nat) (stop : Option Nat) (i : Nat) :
    Option Reading :=
  let parent := innermost tags
  let ends (i : Nat) : Option Reading :=
    some { piece := .implicitEnd, start, stop := stop.getD i, tags := tags.dropLast }
  let closing := s.peek i == '/'.toNat
  if !closing && (parent.map Tag.isVoid).getD false then ends i
  else
    let (name, i) := tagName s (if closing then i + 1 else i)
    if name.isEmpty && !s.atEnd i then none
    else
      let tag := Tag.ofName name
      if closing then
        if parent == some tag then none
        else if tags.any (Tag.sameType tag) then ends i
        else none
      else match parent with
        | none => none
        | some p =>
          let outermost := p.isNamed "HTML" || p.isNamed "HEAD" || p.isNamed "BODY"
          if !p.canContain tag || (outermost && s.atEnd i) then ends i else none

/-- Read the name of a start or an end tag. -/
def readTagName (s : Source) (tags : List Tag) (opening : Bool) (start : Nat) : Option Reading :=
  let (name, stop) := tagName s start
  if name.isEmpty then none
  else
    let tag := Tag.ofName name
    if opening then
      let piece : Piece :=
        if tag.isNamed "SCRIPT" then .scriptStartTagName
        else if tag.isNamed "STYLE" then .styleStartTagName
        else .startTagName
      some { piece, start, stop, tags := tags ++ [tag] }
    else if innermost tags == some tag then
      some { piece := .endTagName, start, stop, tags := tags.dropLast }
    else some { piece := .erroneousEndTagName, start, stop, tags }

/-- Read one of the tokens that are asked for. -/
def readPiece (tags : List Tag) (asked : Piece → Bool) (s : Source) (i : Nat) : Option Reading :=
  if asked .rawText && !asked .startTagName && !asked .endTagName then readRawText s tags i
  else
    let start := s.skipWhile (fun c => CharClass.blank.contains c.toNat) i
    let here := Char.ofNat (s.peek start)
    if here == '<' then
      if s.peek (start + 1) == '!'.toNat then readComment s tags start (start + 1)
      else if asked .implicitEnd then readImplicitEnd s tags start (some start) (start + 1)
      else none
    else if s.peek start == 0 then
      if asked .implicitEnd then readImplicitEnd s tags start none start else none
    else if here == '/' then
      if asked .selfClose && s.peek (start + 1) == '>'.toNat then
        -- Where no element is open, the two characters pass for a tag's name.
        let piece : Piece := if tags.isEmpty then .startTagName else .selfClose
        some { piece, start, stop := start + 2, tags := tags.dropLast }
      else none
    else if (asked .startTagName || asked .endTagName) && !asked .rawText then
      readTagName s tags (asked .startTagName) start
    else none

/-- Read one of the tokens that are asked for, by their numbers. -/
def read (state : Option (List Tag)) (asked : List Nat) (s : Source) (i : Nat) :
    Option (ExternalReading (List Tag)) :=
  (readPiece (state.getD []) (fun p => asked.contains p.number) s i).map fun r =>
    { external := r.piece.number, start := r.start, stop := r.stop
      state := some (Tag.remember r.tags) }

end Reader

/-- The language of markup documents. -/
def language : Parsing.Language (List Tag) := Parsing.Language.ofGrammar grammar Reader.read

end WebBaseline.Markup
