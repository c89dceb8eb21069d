import WebBaseline.Yaml.Node
import WebBaseline.Yaml.Scanner

/-!
# Documents of YAML

The nodes of a document are read token by token.  What is still to be read is
a list of goals: a goal takes some tokens, adds to the draft of the document,
and may put further goals in its place.
-/

namespace WebBaseline.Yaml

/-- The first document of a text. -/
structure Document where
  root : Node
  /-- The nodes that references mean. -/
  references : List (Nat × Node) := []
  /-- Why the text breaks off. -/
  failure : Option Error := none
  /-- Whether more follows after the document. -/
  continued : Bool := false

/-- Where a reader of documents is. -/
structure Reading where
  scanner : Scanner
  draft : Draft := {}
  /-- The handles of tags with what they stand for. -/
  handles : List (String × String) := []

/-- A step of a reader of documents.  What has been read is kept when it fails. -/
abbrev Compose (α : Type) := ExceptT Error (StateM Reading) α

/-- A thing to read. -/
inductive Goal where
  /-- A node, which may be a block collection, even one that is not indented. -/
  | node (block indentless : Bool)
  /-- The next item of a block sequence. -/
  | blockItem (since : Mark)
  | indentlessItem
  /-- The next key of a block mapping. -/
  | blockKey (since : Mark)
  | blockValue (since : Mark)
  | flowItem (first : Bool) (since : Mark)
  /-- The key of a mapping that is an item of a flow sequence. -/
  | pairKey
  | pairValue
  | pairEnd
  | flowKey (first : Bool) (since : Mark)
  | flowValue (since : Mark)
  /-- The value of a key that has none. -/
  | noValue (since : Mark)

namespace Compose

/-- Read from the tokens. -/
def scan {α : Type} (s : Scan α) : Compose α := do
  match s.run (← get).scanner with
  | .ok (a, scanner) => modify fun r => { r with scanner }; return a
  | .error e => throw (.malformed e)

/-- The next token. -/
def peek : Compose Located := scan Scan.peek

/-- Take the next token. -/
def take : Compose Unit := scan Scan.takeToken

/-- Change the draft. -/
def draft (change : Draft → Draft) : Compose Unit :=
  modify fun r => { r with draft := change r.draft }

/-- Fail at a place. -/
def fail {α : Type} (activity : Activity) (since : Mark) (problem : Problem) (place : Mark) :
    Compose α :=
  throw (.malformed ⟨problem, place, some (activity, since)⟩)

/-- Name the node that starts here, and number its anchor. -/
def nameAnchor : Option String → Compose (Option Nat)
  | none => return none
  | some name => do
    let number := (← get).draft.anchors.length
    draft (·.nameAnchor name)
    return some number

/-- Add a scalar without text. -/
def addEmpty (mark : Mark) : Compose Unit := draft (·.add none (.scalar mark none .plain ""))

/-- What may stand in front of a node. -/
structure Properties where
  /-- The place of the first of them, or of the node. -/
  start : Mark
  anchor : Option String := none
  tag : Option (String × String × Mark) := none

/-- Read an anchor, if there is one. -/
def readAnchor (p : Properties) : Compose Properties := do
  match (← peek).token with
  | .anchor name => take; return { p with anchor := some name }
  | _ => return p

/-- Read a tag, if there is one. -/
def readTag (p : Properties) : Compose Properties := do
  let t ← peek
  match t.token with
  | .tag handle suffix => take; return { p with tag := some (handle, suffix, t.start) }
  | _ => return p

/-- Read an anchor and a tag, in any order. -/
def readProperties : Compose Properties := do
  let p : Properties := { start := (← peek).start }
  let p ← readAnchor p
  let tagFirst := p.anchor.isNone
  let p ← readTag p
  if tagFirst && p.tag.isSome then readAnchor p else return p

/-- The full tag of a node. -/
def expandTag (p : Properties) : Compose (Option String) := do
  match p.tag with
  | none => return none
  | some (handle, suffix, place) =>
    if handle.isEmpty then return some suffix
    match (← get).handles.lookup handle with
    | some expansion => return some (expansion ++ suffix)
    | none => fail .node p.start .undefinedHandle place

/-- Start a collection with a token. -/
def startWith (opened : Opened) (goal : Goal) : Compose (List Goal) := do
  take
  draft (·.start opened)
  return [goal]

/-- Read a node. -/
def readNode (block indentless : Bool) : Compose (List Goal) := do
  let p ← readProperties
  let t ← peek
  let tag ← expandTag p
  match t.token with
  | .blockEntry =>
    if indentless then
      let anchor ← nameAnchor p.anchor
      draft (·.start (.sequence ⟨p.start, tag, anchor⟩ []))
      return [.indentlessItem]
  | .scalar style text =>
    let anchor ← nameAnchor p.anchor
    take
    draft (·.add anchor (.scalar p.start (tag.filter (· != "!")) style text))
    return []
  | .flowSequenceStart =>
    let head : Head := ⟨p.start, tag, ← nameAnchor p.anchor⟩
    return ← startWith (.sequence head []) (.flowItem true t.start)
  | .flowMappingStart =>
    let head : Head := ⟨p.start, tag, ← nameAnchor p.anchor⟩
    return ← startWith (.mapping head [] none) (.flowKey true t.start)
  | .blockSequenceStart =>
    if block then
      let head : Head := ⟨p.start, tag, ← nameAnchor p.anchor⟩
      return ← startWith (.sequence head []) (.blockItem t.start)
  | .blockMappingStart =>
    if block then
      let head : Head := ⟨p.start, tag, ← nameAnchor p.anchor⟩
      return ← startWith (.mapping head [] none) (.blockKey t.start)
  | _ => pure ()
  if p.anchor.isSome || tag.isSome then
    draft (·.add (← nameAnchor p.anchor) (.scalar p.start tag .plain ""))
    return []
  fail (if block then .blockNode else .flowNode) p.start .noContent t.start

/-- Read a node or a reference to one. -/
def readNodeOrReference (block indentless : Bool) : Compose (List Goal) := do
  let t ← peek
  match t.token with
  | .reference name =>
    take
    match (← get).draft.called? name with
    | some called => draft (·.add none (.reference called)); return []
    | none => throw (.unknownAnchor t.start)
  | _ => readNode block indentless

/-- End a collection with a token. -/
def closeWith : Compose (List Goal) := do
  take
  draft (·.close)
  return []

/-- Read what comes after a mark: a node, unless one of some tokens is next. -/
def readAfter (ends : List Token) (empty : Mark) (node : Goal) (goals : List Goal) :
    Compose (List Goal) := do
  if ends.contains (← peek).token then
    addEmpty empty
    return goals
  return node :: goals

/-- Read towards a goal.  The goals that take its place are returned. -/
def step : Goal → Compose (List Goal)
  | .node block indentless => readNodeOrReference block indentless
  | .blockItem since => do
    let t ← peek
    match t.token with
    | .blockEntry =>
      take
      readAfter [.blockEntry, .blockEnd] t.stop (.node true false) [.blockItem since]
    | .blockEnd => closeWith
    | _ => fail .blockCollection since .noDash t.start
  | .indentlessItem => do
    let t ← peek
    match t.token with
    | .blockEntry =>
      take
      readAfter [.blockEntry, .key, .value, .blockEnd] t.stop (.node true false) [.indentlessItem]
    | _ => draft (·.close); return []
  | .blockKey since => do
    let t ← peek
    match t.token with
    | .key =>
      take
      readAfter [.key, .value, .blockEnd] t.stop (.node true true) [.blockValue since]
    | .blockEnd => closeWith
    | _ => fail .blockMapping since .noKey t.start
  | .blockValue since => do
    let t ← peek
    match t.token with
    | .value =>
      take
      readAfter [.key, .value, .blockEnd] t.stop (.node true true) [.blockKey since]
    | _ => addEmpty t.start; return [.blockKey since]
  | .flowItem first since => do
    let t ← peek
    if t.token == .flowSequenceEnd then return ← closeWith
    if !first then
      unless t.token == .flowEntry do fail .flowSequence since .noListEnd t.start
      take
    let t ← peek
    match t.token with
    | .key =>
      take
      draft (·.start (.mapping { mark := t.start } [] none))
      return [.pairKey, .flowItem false since]
    | .flowSequenceEnd => closeWith
    | _ => return [.node false false, .flowItem false since]
  | .pairKey => do
    let t ← peek
    if [Token.value, .flowEntry, .flowSequenceEnd].contains t.token then
      take
      addEmpty t.stop
      return [.pairValue]
    return [.node false false, .pairValue]
  | .pairValue => do
    if (← peek).token == .value then
      take
      let t ← peek
      unless t.token == .flowEntry || t.token == .flowSequenceEnd do
        return [.node false false, .pairEnd]
    addEmpty (← peek).start
    return [.pairEnd]
  | .pairEnd => do
    draft (·.close)
    return []
  | .flowKey first since => do
    let t ← peek
    if t.token == .flowMappingEnd then return ← closeWith
    if !first then
      unless t.token == .flowEntry do fail .flowMapping since .noMapEnd t.start
      take
    let t ← peek
    match t.token with
    | .key =>
      take
      let next ← peek
      readAfter [.value, .flowEntry, .flowMappingEnd] next.start (.node false false)
        [.flowValue since]
    | .flowMappingEnd => closeWith
    | _ => return [.node false false, .noValue since]
  | .flowValue since => do
    if (← peek).token == .value then
      take
      let next ← peek
      readAfter [.flowEntry, .flowMappingEnd] next.start (.node false false)
        [.flowKey false since]
    else
      addEmpty (← peek).start
      return [.flowKey false since]
  | .noValue since => do
    addEmpty (← peek).start
    return [.flowKey false since]

/-- Read towards all goals. -/
def pursue : Nat → List Goal → Compose Unit
  | 0, _ => pure ()
  | _, [] => pure ()
  | fuel + 1, goal :: rest => do pursue fuel ((← step goal) ++ rest)

/-- A bound on the number of steps that a text needs. -/
def stepBound (length : Nat) : Nat := 16 * (length + 16)

/-! ### Documents -/

/-- The handles that every document knows. -/
def standardHandles : List (String × String) := [("!", "!"), ("!!", "tag:yaml.org,2002:")]

/-- Read directives; `versioned` says that there was a version. -/
def readDirectives : Nat → Bool → Compose Unit
  | 0, _ => pure ()
  | fuel + 1, versioned => do
    let t ← peek
    match t.token with
    | .versionDirective major minor =>
      if versioned then throw (.malformed ⟨.repeatedVersion, t.start, none⟩)
      unless major = 1 && (minor = 1 || minor = 2) do
        throw (.malformed ⟨.wrongVersion, t.start, none⟩)
      take
      readDirectives fuel true
    | .tagDirective handle expansion =>
      if ((← get).handles.lookup handle).isSome then
        throw (.malformed ⟨.repeatedHandle, t.start, none⟩)
      modify fun r => { r with handles := r.handles ++ [(handle, expansion)] }
      take
      readDirectives fuel versioned
    | _ => modify fun r => { r with handles := r.handles ++ standardHandles }

/-- Read the content of a document after its mark. -/
def readContent (fuel : Nat) : Compose Unit := do
  let t ← peek
  match t.token with
  | .versionDirective .. | .tagDirective .. | .documentStart | .documentEnd | .streamEnd =>
    addEmpty t.start
  | _ => pursue fuel [.node true false]

/-- Read the first document. -/
def readDocument (fuel : Nat) : Compose Unit := do
  let _ ← peek
  take
  let t ← peek
  match t.token with
  | .streamEnd => draft (·.add none .void)
  | .versionDirective .. | .tagDirective .. | .documentStart =>
    readDirectives fuel false
    let t ← peek
    unless t.token == .documentStart do
      throw (.malformed ⟨.noDocumentStart, t.start, none⟩)
    take
    readContent fuel
  | _ =>
    modify fun r => { r with handles := standardHandles }
    pursue fuel [.node true false]

/-- Pass over the marks that end a document. -/
def skipEnds : Nat → Compose Unit
  | 0 => pure ()
  | fuel + 1 => do
    if (← peek).token == .documentEnd then
      take
      skipEnds fuel

/-- Whether more follows after the document.  Its own end can be malformed, and what comes
after that counts as more even if it is malformed. -/
def readEnd (fuel : Nat) : Compose Bool := do
  if (← peek).token == .documentEnd then take
  tryCatch (do skipEnds fuel; return (← peek).token != .streamEnd) fun _ => return true

end Compose

/-- The first document of some characters. -/
def Document.ofChars (cs : List Char) : Document :=
  let fuel := Compose.stepBound cs.length
  let reading : Compose Bool := do
    Compose.readDocument fuel
    Compose.readEnd fuel
  let (result, r) := StateT.run (ExceptT.run reading) { scanner := { rest := cs } }
  match result with
  | .ok continued =>
    { root := r.draft.root.getD .void, references := r.draft.references, continued }
  | .error e =>
    let d := r.draft.breakOff e
    { root := d.root.getD .void, references := d.references, failure := some e }

/-- The mark of the byte order. -/
def byteOrderMark : Char := '\ufeff'

/-- The first document of a text.  A mark of the byte order at the start is no part of it. -/
def Document.ofText (text : String) : Document :=
  let cs := text.toList
  let (skipped, cs) := if cs.head? == some byteOrderMark then (1, cs.drop 1) else (0, cs)
  match cs.findIdx? (!isAllowed ·) with
  | some i =>
    let offset := (String.ofList (text.toList.take (skipped + i))).utf8ByteSize
    { root := .broken (.control offset), failure := some (.control offset) }
  | none => .ofChars cs

end WebBaseline.Yaml
