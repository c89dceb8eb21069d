import WebBaseline.Script.Word
import WebBaseline.SyntaxTree
import WebBaseline.Text.Source

/-!
# Reading scripts

A script is read lexeme by lexeme, with the context deciding what each lexeme
is.  What comes out is a tree with one leaf for every name.  Comments, strings,
patterns, the text of templates and the text of elements hold no names; an
unfinished template is read as if it had not begun.  Nothing is an error: what
does not fit is passed over.
-/

namespace WebBaseline.Script

/-- Which notations a script may use. -/
inductive Dialect where
  /-- Types, and no elements. -/
  | typed
  /-- Types and elements. -/
  | withElements
deriving DecidableEq, Repr

/-- What a step takes: how many characters, which kind of name they are if they are one,
and the context after them. -/
structure Step where
  length : Nat
  name? : Option NameKind := none
  next : Context

/-- What is left after the angle bracket that closes the innermost open one. -/
def afterClosingAngle : Nat → List Char → Option (List Char)
  | depth, '=' :: '>' :: rest => afterClosingAngle depth rest
  | depth, '<' :: rest => afterClosingAngle (depth + 1) rest
  | 0, '>' :: rest => some rest
  | depth + 1, '>' :: rest => afterClosingAngle depth rest
  | depth, c :: rest => if c = ';' then none else afterClosingAngle depth rest
  | _, [] => none

/-- What is left after the parenthesis that closes the innermost open one. -/
def afterClosingRound : Nat → List Char → Option (List Char)
  | depth, '(' :: rest => afterClosingRound (depth + 1) rest
  | 0, ')' :: rest => some rest
  | depth + 1, ')' :: rest => afterClosingRound depth rest
  | depth, _ :: rest => afterClosingRound depth rest
  | _, [] => none

/-- Whether an arrow comes before the end of a statement or of a line. -/
def arrowAhead : List Char → Bool
  | '=' :: '>' :: _ => true
  | c :: rest => !(c = ';' || c = '\n' || c = '<' && rest.head? = some '/') && arrowAhead rest
  | [] => false

/-- Whether type parameters and an arrow function follow an opening angle bracket. -/
def opensTypeParameters (cs : List Char) : Bool :=
  nameLength (skipBlanks cs) != 0 &&
    match (afterClosingAngle 0 cs).map skipBlanks with
    | some ('(' :: rest) =>
      match (afterClosingRound 0 rest).map skipBlanks with
      | some ('=' :: '>' :: _) => true
      | some (':' :: rest) => arrowAhead rest
      | _ => false
    | _ => false

namespace Context

/-- The context between an open tag or an element and what follows it. -/
def afterElement (ctx : Context) : Context :=
  { ctx with tagMark := ' ' }.leave .operator

/-- Pass over characters that mean nothing. -/
def pass (ctx : Context) (n : Nat) : Step := ⟨n, none, { ctx with joined := false }⟩

/-- Take a mark, and expect something after it. -/
def take (ctx : Context) (n : Nat) (e : Expectation) : Step := ⟨n, none, ctx.expecting e⟩

/-- Pass over blanks, or over a comment. -/
def space? (ctx : Context) (cs : List Char) : Option Step :=
  match cs with
  | [] => none
  | c :: _ =>
    let lines (n : Nat) : Context :=
      { ctx with newLine := ctx.newLine || (cs.take n).any fun c => isLineEnd c && c != '\r' }
    if isBlank c then some ((lines 1).pass 1)
    else match commentLength cs with
      | 0 => none
      | n => some ((lines n).pass n)

/-- Take a slash: it divides, or it opens a pattern. -/
def slash (ctx : Context) (rest : List Char) : Step :=
  if ctx.atOperand then
    match patternLength rest with
    | 0 => ctx.take 1 .operand
    | n => ctx.take (n + 1) .operator
  else if ctx.expect = .typeOperand then ctx.take 1 .typeOperand
  else ctx.take 1 .operand

/-- Take an opening angle bracket: it compares, or it opens types or an element. -/
def angle (ctx : Context) (dialect : Dialect) (rest : List Char) : Step :=
  match ctx.expect with
  | .statement | .operand | .answer | .arrowBody =>
    if dialect = .withElements && !opensTypeParameters rest && rest.head? != some '/' then
      ⟨1, none, { ctx.enter .openTag .operator true with tagMark := '<' }⟩
    else ctx.take 1 .typeOperand
  | .typeOperand | .member | .afterAngle => ctx.take 1 .typeOperand
  | _ => ctx.take 1 .operand

/-- Take a mark. -/
def mark (ctx : Context) (dialect : Dialect) (c : Char) (rest : List Char) : Step :=
  let atOperator : Bool := ctx.expect = .operator
  match c, rest with
  | '\x7b', _ => ⟨1, none, ctx.openBrace⟩
  | '\x7d', _ => ⟨1, none, ctx.closeBrace⟩
  | '(', _ => ⟨1, none, ctx.enter .round .operand false⟩
  | ')', _ => ⟨1, none, ctx.closeRound⟩
  | '[', _ => ⟨1, none, ctx.enter .square .operand false⟩
  | ']', _ => ⟨1, none, ctx.closeSquare⟩
  | '\x60', _ => ⟨1, none, ctx.enter .template .operator true⟩
  | ';', _ => ⟨1, none, ctx.restart⟩
  | ',', _ => ⟨1, none, ctx.comma⟩
  | ':', _ => ⟨1, none, ctx.colon⟩
  | '.', '.' :: '.' :: _ => ctx.take 3 .operand
  | '.', _ => ctx.take 1 .property
  | '?', '?' :: _ => ctx.take 2 .operand
  | '?', '.' :: d :: _ => if d.isDigit then ⟨1, none, ctx.question⟩ else ctx.take 2 .property
  | '?', _ => ⟨1, none, ctx.question⟩
  | '=', '>' :: _ =>
    ⟨2, none, { ctx with announced := { ctx.announced with body := none } }.expecting .arrowBody⟩
  | '+', '+' :: _ | '-', '-' :: _ => ctx.take 2 (if atOperator then .operator else .operand)
  | '!', d :: _ => ctx.take 1 (if atOperator && d != '=' then .operator else .operand)
  | '>', '=' :: _ => ctx.take 2 .operand
  | '>', _ =>
    if ctx.enclosure = .typeArguments then ⟨1, none, ctx.leave .operator⟩
    else ctx.take 1 .afterAngle
  | '<', _ => ctx.angle dialect rest
  | '/', _ => ctx.slash rest
  | '\"', _ | '\x27', _ => ctx.take (stringTail c 1 rest) .operator
  | '#', _ =>
    match nameLength rest with
    | 0 => ctx.pass 1
    | n => ⟨n + 1, some .hidden, ctx.expecting .operator⟩
  | '\\', _ =>
    let n := if ctx.joined then escapeLength (c :: rest) else 0
    { ctx with joined := true }.take (max n 1) ctx.expect
  | _, _ => ctx.take 1 .operand

/-- Read one lexeme of code. -/
def codeStep (ctx : Context) (dialect : Dialect) (cs : List Char) : Step :=
  match ctx.space? cs with
  | some s => s
  | none =>
    let ctx := ctx.endLine cs
    match cs with
    | [] => ctx.pass 0
    | c :: rest =>
      let comment := if ctx.atOperand then markupCommentLength cs else 0
      if 0 < comment then ctx.pass comment
      else match nameLength cs with
        | 0 =>
          if c.isDigit || c = '.' && (rest.headD ' ').isDigit && ctx.expect != .operator then
            ctx.take (numberLength cs) .operator
          else ctx.mark dialect c rest
        | n =>
          let (kind?, next) := ctx.word (String.ofList (cs.take n)) (cs.drop n)
          ⟨n, kind?, next⟩

/-- Read a piece of a tag. -/
def tagStep (ctx : Context) (dialect : Dialect) (cs : List Char) : Step :=
  match ctx.space? cs with
  | some s => s
  | none =>
    let marked (c : Char) : Context := { ctx with tagMark := c }
    match cs with
    | [] => ctx.pass 0
    | c :: rest =>
      match tagNameLength cs with
      | 0 =>
        if c = '=' || c = '.' || c = ':' || c = '/' then ⟨1, none, marked c⟩
        else if c = '>' then
          if ctx.enclosure = .openTag && ctx.tagMark != '/' then
            let inside := (ctx.leave .operator).enter .elementText .operator true
            ⟨1, none, { inside with tagMark := ' ' }⟩
          else ⟨1, none, ctx.afterElement⟩
        else if c = '\x7b' then ⟨1, none, (marked ' ').enter .expression .operand true⟩
        else if c = '<' then
          if ctx.tagMark = '=' then
            ⟨1, none, { ctx.enter .openTag .operator true with tagMark := c }⟩
          else ⟨1, none, (marked ' ').enter .typeArguments .typeOperand true⟩
        else if c = '\"' || c = '\x27' then
          let n := (rest.takeWhile (· != c)).length
          ⟨if n < rest.length then n + 2 else 1, none, marked ' '⟩
        else (ctx.leave .operator).codeStep dialect cs
      | n => ⟨n, some (if ctx.tagMark = '<' then .variable else .property), marked ' '⟩

/-- Read a piece of the text of an element. -/
def elementTextStep (ctx : Context) (dialect : Dialect) (cs : List Char) : Step :=
  match cs with
  | '<' :: '/' :: _ =>
    ⟨2, none, { (ctx.leave .operator).enter .closeTag .operator true with tagMark := '<' }⟩
  | '<' :: _ => ⟨1, none, { ctx.enter .openTag .operator true with tagMark := '<' }⟩
  | '\x7b' :: _ => ⟨1, none, ctx.enter .expression .operand true⟩
  | '&' :: _ =>
    match referenceLength cs with
    | 0 => (ctx.leave .operator).codeStep dialect cs
    | n => ⟨n, none, ctx⟩
  | c :: _ =>
    if endsElementText c then (ctx.leave .operator).codeStep dialect cs
    else ⟨(cs.takeWhile (!endsElementText ·)).length, none, ctx⟩
  | [] => ctx.pass 0

/-- Read a piece of a template. -/
def templateStep (ctx : Context) (dialect : Dialect) (cs : List Char) : Step :=
  match cs with
  | '\x60' :: _ => ⟨1, none, ctx.leave .operator⟩
  | '$' :: '\x7b' :: _ => ⟨2, none, ctx.enter .substitution .operand true⟩
  | '\\' :: _ => ⟨max (escapeLength cs) 1, none, ctx⟩
  | _ =>
    match templateStop 0 cs with
    | some n => ⟨n, none, ctx⟩
    | none => (ctx.leave .operator).codeStep dialect cs

/-- Read one piece of a script. -/
def step (ctx : Context) (dialect : Dialect) (cs : List Char) : Step :=
  match ctx.enclosure with
  | .template => ctx.templateStep dialect cs
  | .elementText => ctx.elementTextStep dialect cs
  | .openTag | .closeTag => ctx.tagStep dialect cs
  | _ => ctx.codeStep dialect cs

end Context

open Text (Extent)

/-- The position after a piece of text. -/
def advance (position : Extent) (cs : List Char) : Extent :=
  cs.foldl (fun p c => p + Extent.ofChar c) position

/-- Read a script from a position on.  Every step takes at least one character. -/
def readFrom (dialect : Dialect) (ctx : Context) (position : Extent) (names : List SyntaxTree) :
    List Char → List SyntaxTree × Extent
  | [] => (names.reverse, position)
  | c :: rest =>
    let s := ctx.step dialect (c :: rest)
    let n := s.length - 1
    let stop := advance (position + Extent.ofChar c) (rest.take n)
    let names := match s.name? with
      | some kind =>
        .node kind.text position.bytes stop.bytes ⟨position.rows, position.column⟩ [] :: names
      | none => names
    readFrom dialect s.next stop names (rest.drop n)
termination_by cs => cs.length
decreasing_by simp only [List.length_drop, List.length_cons]; omega

/-- The length of a first line that names the program to run the script with. -/
def programLineLength : List Char → Nat
  | '#' :: '!' :: rest => (rest.takeWhile (· != '\n')).length + 2
  | _ => 0

/-- Read a script. -/
def parse (dialect : Dialect) (source : String) : SyntaxTree :=
  let cs := source.toList
  let mark := if cs.head? == some '\uFEFF' then 1 else 0
  let skipped := mark + programLineLength (cs.drop mark)
  let begun := advance {} (cs.take skipped)
  let (names, stop) := readFrom dialect {} begun [] (cs.drop skipped)
  .node "program" 0 stop.bytes ⟨0, 0⟩ names

end WebBaseline.Script
