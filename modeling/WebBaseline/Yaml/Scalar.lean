import WebBaseline.Text.Hex
import WebBaseline.Yaml.Token

/-!
# Scalars of YAML

How the five styles of scalars are read.  Line breaks inside a scalar that is
not literal are folded: a single one counts as a blank, each further one as
itself.
-/

namespace WebBaseline.Yaml.Scan

/-- What folded line breaks count as: `first` is the first break, `more` those after it. -/
def folded (first more : List Char) : List Char :=
  if first == ['\n'] then (if more.isEmpty then [' '] else more) else first ++ more

/-! ### Scalars in quotes -/

/-- The characters that single letters stand for after a backslash. -/
def escapeLetters : List (Char × Nat) :=
  [('0', 0), ('a', 7), ('b', 8), ('t', 9), ('\t', 9), ('n', 10), ('v', 11), ('f', 12), ('r', 13),
   ('e', 27), (' ', 32), ('\"', 34), ('/', 47), ('\\', 92), ('N', 0x85), ('_', 0xA0),
   ('L', 0x2028), ('P', 0x2029)]

/-- The numbers of digits that letters announce after a backslash. -/
def escapeLengths : List (Char × Nat) := [('x', 2), ('u', 4), ('U', 8)]

/-- The number that digits of base sixteen write. -/
def hexNumber? (cs : List Char) : Option Nat :=
  cs.foldl (fun n c => n.bind fun n => (Text.hexValue? c).map fun d => 16 * n + d) (some 0)

/-- Read an escape from its backslash on. -/
def readEscape (since : Mark) : Scan Char := do
  let letter ← look 1
  match letter.bind (escapeLetters.lookup ·) with
  | some n => skipMany 2; return Char.ofNat n
  | none =>
    match letter.bind (escapeLengths.lookup ·) with
    | none => failSince .quotedEscape since .unknownEscape
    | some digits =>
      skipMany 2
      let ds := (← get).rest.take digits
      match if ds.length = digits then hexNumber? ds else none with
      | none => failSince .quotedEscape since .noHexDigits
      | some n =>
        if (0xD800 ≤ n && n ≤ 0xDFFF) || 0x10FFFF < n then
          failSince .quotedEscape since .badCodePoint
        else skipMany digits; return Char.ofNat n

/-- Read the characters of one line in quotes, up to a blank, a break or the quote.
The second part says that the line ended with a backslash. -/
def readQuotedRun (single : Bool) (since : Mark) : Nat → List Char → Scan (List Char × Bool)
  | 0, read => return (read, false)
  | fuel + 1, read => do
    let c ← look 0
    if atBlankOrEnd c then return (read, false)
    let c := c.getD ' '
    let d ← look 1
    if single then
      if c = '\x27' then
        if d == some '\x27' then
          skipMany 2
          readQuotedRun single since fuel ('\x27' :: read)
        else return (read, false)
      else
        skip
        readQuotedRun single since fuel (c :: read)
    else if c = '\"' then return (read, false)
    else if c = '\\' then
      if (d.map isBreak).getD false then
        skip
        let _ ← readBreak
        return (read, true)
      let e ← readEscape since
      readQuotedRun single since fuel (e :: read)
    else
      skip
      readQuotedRun single since fuel (c :: read)

/-- Read blanks and breaks: the blanks before the first break, the first break, and the
breaks after it.  `broken` says that a line has ended already. -/
def readGap :
    Nat → Bool → List Char → List Char → List Char → Scan (Bool × List Char × List Char × List Char)
  | 0, broken, blanks, first, more => return (broken, blanks, first, more)
  | fuel + 1, broken, blanks, first, more => do
    match ← look 0 with
    | none => return (broken, blanks, first, more)
    | some c =>
      if isBlank c then
        skip
        readGap fuel broken (if broken then blanks else blanks ++ [c]) first more
      else if isBreak c then
        let b ← readBreak
        if broken then readGap fuel true blanks first (more ++ b)
        else readGap fuel true [] b more
      else return (broken, blanks, first, more)

/-- Read the lines of a scalar in quotes, after the opening quote. -/
def readQuotedLines (single : Bool) (since : Mark) : Nat → List Char → Scan (List Char)
  | 0, read => return read
  | fuel + 1, read => do
    if ← atDocumentMark then failSince .quotedScalar since .documentInQuotes
    if atEnd (← look 0) then failSince .quotedScalar since .endInQuotes
    let length := (← get).rest.length
    let (read, joined) ← readQuotedRun single since (length + 1) read
    if ← nextIs (if single then '\x27' else '\"') then return read
    let (broken, blanks, first, more) ← readGap (length + 1) joined [] [] []
    let gap := if broken then
        (if joined then first ++ more else folded first more)
      else blanks
    readQuotedLines single since fuel (gap.reverse ++ read)

/-- Read a scalar in quotes. -/
def readQuoted (single : Bool) : Scan Located := do
  let start ← place
  skip
  let read ← readQuotedLines single start ((← get).rest.length + 1) []
  skip
  let style : Style := if single then .singleQuoted else .doubleQuoted
  return ⟨.scalar style (String.ofList read.reverse), start, ← place⟩

/-! ### Block scalars -/

/-- What to do with the breaks at the end of a block scalar. -/
inductive Chomping where
  | strip
  | clip
  | keep
deriving DecidableEq, Repr

/-- Read the sign of a chomping, if there is one. -/
def readChomping : Scan (Option Chomping) := do
  match ← look 0 with
  | some '+' => skip; return some .keep
  | some '-' => skip; return some .strip
  | _ => return none

/-- Read the digit of an indentation, if there is one. -/
def readIncrement (since : Mark) : Scan (Option Nat) := do
  match ← look 0 with
  | some c =>
    if c = '0' then failSince .blockScalar since .zeroIndentation
    else if c.isDigit then skip; return some (c.toNat - 48)
    else return none
  | none => return none

/-- Read empty lines and the indentation of the line after them.  An unknown indentation is
zero; `widest` is the widest one seen. -/
def readEmptyLines (since : Mark) (indent : Nat) :
    Nat → Nat → List Char → Mark → Scan (Nat × List Char × Mark)
  | 0, widest, breaks, stop => return (widest, breaks, stop)
  | fuel + 1, widest, breaks, stop => do
    let column := (← place).column
    let blanks := ((← get).rest.takeWhile (· = ' ')).length
    skipMany (if indent = 0 then blanks else min blanks (indent - column))
    let column := (← place).column
    let widest := max widest column
    if (indent = 0 || column < indent) && (← nextIs '\t') then
      failSince .blockScalar since .tabInBlock
    match ← look 0 with
    | some c =>
      if isBreak c then
        let b ← readBreak
        readEmptyLines since indent fuel widest (breaks ++ b) (← place)
      else return (widest, breaks, stop)
    | none => return (widest, breaks, stop)

/-- The parts of a block scalar that have been read. -/
structure BlockText where
  text : List Char := []
  /-- The break after the last line. -/
  leading : List Char := []
  /-- The breaks of the empty lines after it. -/
  trailing : List Char := []
  /-- Whether the last line started with a blank. -/
  blank : Bool := false
  stop : Mark

/-- Read the lines of a block scalar. -/
def readBlockLines (literal : Bool) (since : Mark) (indent : Nat) : Nat → BlockText → Scan BlockText
  | 0, b => return b
  | fuel + 1, b => do
    let next ← look 0
    if (← place).column != indent || atEnd next then return b
    let blank := (next.map isBlank).getD false
    let fold := !literal && b.leading == ['\n'] && !b.blank && !blank
    let joint := if fold then (if b.trailing.isEmpty then [' '] else []) else b.leading
    let line ← readWhile (!isBreak ·)
    let leading ← readBreak
    let (_, trailing, stop) ←
      readEmptyLines since indent ((← get).rest.length + 1) 0 [] (← place)
    readBlockLines literal since indent fuel
      { text := b.text ++ joint ++ b.trailing ++ line, leading, trailing, blank, stop }

/-- Read a block scalar. -/
def readBlock (literal : Bool) : Scan Located := do
  let start ← place
  skip
  let (chomping, increment) ← match ← readChomping with
    | some c => pure (some c, ← readIncrement start)
    | none =>
      let i ← readIncrement start
      pure (← (if i.isSome then readChomping else pure none), i)
  let _ ← readWhile isBlank
  skipComment
  unless atBreakOrEnd (← look 0) do failSince .blockScalar start .headerEnd
  let _ ← readBreak
  let outer := (← get).indent
  let given : Nat := match increment with
    | some n => if 0 ≤ outer then outer.toNat + n else n
    | none => 0
  let (widest, trailing, stop) ←
    readEmptyLines start given ((← get).rest.length + 1) 0 [] (← place)
  let indent := if given = 0 then max (max widest (outer + 1).toNat) 1 else given
  let b ← readBlockLines literal start indent ((← get).rest.length + 1) { trailing, stop }
  let tail := match chomping.getD .clip with
    | .strip => []
    | .clip => b.leading
    | .keep => b.leading ++ b.trailing
  let style : Style := if literal then .literal else .folded
  return ⟨.scalar style (String.ofList (b.text ++ tail)), start, b.stop⟩

/-! ### Plain scalars -/

/-- Marks of flow collections. -/
def isFlowMark (c : Char) : Bool :=
  c = ',' || c = '[' || c = ']' || c = '\x7b' || c = '\x7d'

/-- Read the characters of a plain scalar up to a blank or to what ends it. -/
def readPlainRun (since : Mark) (inFlow : Bool) : Nat → List Char → Scan (List Char)
  | 0, read => return read
  | fuel + 1, read => do
    let c ← look 0
    if atBlankOrEnd c then return read
    let c := c.getD ' '
    let d ← look 1
    if inFlow && c = ':' && ((d.map fun d => isFlowMark d || d = '?').getD false) then
      failSince .plainScalar since .colonInFlow
    if (c = ':' && atBlankOrEnd d) || (inFlow && isFlowMark c) then return read
    skip
    readPlainRun since inFlow fuel (c :: read)

/-- Read blanks and breaks in a plain scalar, as `readGap` does. -/
def readPlainGap (since : Mark) (indent : Int) :
    Nat → Bool → List Char → List Char → List Char → Scan (Bool × List Char × List Char × List Char)
  | 0, broken, blanks, first, more => return (broken, blanks, first, more)
  | fuel + 1, broken, blanks, first, more => do
    match ← look 0 with
    | none => return (broken, blanks, first, more)
    | some c =>
      if isBlank c then
        if broken && ((← place).column : Int) < indent && c = '\t' then
          failSince .plainScalar since .tabInPlain
        skip
        readPlainGap since indent fuel broken (if broken then blanks else blanks ++ [c]) first more
      else if isBreak c then
        let b ← readBreak
        if broken then readPlainGap since indent fuel true blanks first (more ++ b)
        else readPlainGap since indent fuel true [] b more
      else return (broken, blanks, first, more)

/-- Read the lines of a plain scalar: its text, its end, and whether a line ended after it. -/
def readPlainLines (since : Mark) (inFlow : Bool) (indent : Int) :
    Nat → List Char → List Char → Mark → Bool → Scan (List Char × Mark × Bool)
  | 0, read, _, stop, broken => return (read, stop, broken)
  | fuel + 1, read, gap, stop, broken => do
    if (← atDocumentMark) || (← nextIs '#') then return (read, stop, broken)
    let length := (← get).rest.length
    let run ← readPlainRun since inFlow (length + 1) []
    let (read, stop, broken) ← if run.isEmpty then pure (read, stop, broken)
      else pure (run ++ gap.reverse ++ read, ← place, false)
    let gap := if run.isEmpty then gap else []
    unless ((← look 0).map fun c => isBlank c || isBreak c).getD false do
      return (read, stop, broken)
    let (ended, blanks, first, more) ← readPlainGap since indent (length + 1) broken [] [] []
    if !inFlow && ((← place).column : Int) < indent then return (read, stop, ended)
    let gap := if ended then folded first more else gap ++ blanks
    readPlainLines since inFlow indent fuel read gap stop ended

/-- Read a plain scalar.  Where a line ended after it, a key may start. -/
def readPlain : Scan Located := do
  let s ← get
  let (read, stop, broken) ←
    readPlainLines s.mark (0 < s.flowLevel) (s.indent + 1) (s.rest.length + 1) [] [] s.mark false
  if broken then modify fun s => { s with keyAllowed := true }
  return ⟨.scalar .plain (String.ofList read.reverse), s.mark, stop⟩

end WebBaseline.Yaml.Scan
