import WebBaseline.Script.Lexeme

/-!
# Where a reader of a script is

What a word or a mark means in a script depends on what is open around it and
on what may come next: the same slash divides or opens a pattern, the same
brace opens statements or fields, the same name is a variable or a label.  A
`Context` holds just that: the brackets that are open, what is expected next,
and what has been announced for a bracket or a colon to come.
-/

namespace WebBaseline.Script

/-- What is open. -/
inductive Enclosure where
  /-- Statements between braces. -/
  | statements
  /-- The cases of a choice. -/
  | cases
  /-- The members of a class. -/
  | members
  /-- The fields of an object or of a type. -/
  | fields
  | round
  | square
  /-- An expression inside a template. -/
  | substitution
  /-- The text of a template. -/
  | template
  /-- The text between the tags of an element. -/
  | elementText
  | openTag
  | closeTag
  /-- An expression inside an element or a tag. -/
  | expression
  /-- The type arguments of a tag. -/
  | typeArguments
deriving DecidableEq, Repr

/-- Whether a closing brace closes it. -/
def Enclosure.isBraced : Enclosure → Bool
  | .statements | .cases | .members | .fields | .substitution | .expression => true
  | _ => false

/-- What comes next. -/
inductive Expectation where
  | statement
  | member
  | operand
  /-- An operand that must start on the same line. -/
  | answer
  /-- A type between angle brackets. -/
  | typeOperand
  /-- The body of an arrow function. -/
  | arrowBody
  | operator
  /-- An operand, or what follows a closing angle bracket. -/
  | afterAngle
  | label
  | property
deriving DecidableEq, Repr

/-- What has been announced. -/
structure Announced where
  /-- The next parenthesis holds the head of a statement. -/
  head : Bool := false
  /-- What the next brace opens. -/
  body : Option Enclosure := none
  /-- Whether that brace belongs to an expression. -/
  inExpression : Bool := false
  /-- The next colon starts a statement. -/
  colon : Bool := false
  /-- Question marks that wait for their colon. -/
  questions : Nat := 0
deriving DecidableEq, Repr

/-- An open bracket, tag or template. -/
structure Frame where
  enclosure : Enclosure
  inExpression : Bool := false
  isHead : Bool := false
  /-- What had been announced before it opened. -/
  outer : Announced := {}
deriving DecidableEq, Repr

/-- Where a reader is. -/
structure Context where
  frames : List Frame := []
  expect : Expectation := .statement
  announced : Announced := {}
  /-- Whether a line has ended since the last lexeme. -/
  newLine : Bool := false
  /-- Whether nothing stands between the last lexeme and the next. -/
  joined : Bool := true
  /-- The last mark in a tag. -/
  tagMark : Char := ' '
deriving DecidableEq, Repr

namespace Context

/-- What is open innermost. -/
def enclosure (ctx : Context) : Enclosure :=
  match ctx.frames with
  | [] => .statements
  | f :: _ => f.enclosure

/-- Expect something after a lexeme. -/
def expecting (ctx : Context) (e : Expectation) : Context :=
  { ctx with expect := e, newLine := false, joined := true }

/-- Whether an operand may start here, so that a slash opens a pattern. -/
def atOperand (ctx : Context) : Bool :=
  match ctx.expect with
  | .statement | .operand | .answer | .arrowBody | .afterAngle => true
  | _ => false

/-- What comes after a finished statement, member or field. -/
def start : Enclosure → Expectation
  | .statements | .cases => .statement
  | .members | .fields => .member
  | _ => .operand

/-- Start the next statement, member or field. -/
def restart (ctx : Context) : Context :=
  { ctx with announced := {} }.expecting (start ctx.enclosure)

/-- Open something. -/
def enter (ctx : Context) (enclosure : Enclosure) (e : Expectation) (inExpression : Bool) :
    Context :=
  { ctx with
    frames := ⟨enclosure, inExpression, ctx.announced.head, ctx.announced⟩ :: ctx.frames
    announced := {} }.expecting e

/-- Close the innermost frame; what it had announced holds again. -/
def leave (ctx : Context) (e : Expectation) : Context :=
  match ctx.frames with
  | [] => ctx.expecting e
  | f :: rest => { ctx with frames := rest, announced := f.outer }.expecting e

/-- Open the braces of statements, of members, of cases or of fields. -/
def openBrace (ctx : Context) : Context :=
  let block (inExpression : Bool) : Context :=
    { ctx with announced := { ctx.announced with body := none } }.enter .statements .statement
      inExpression
  let fields : Context := ctx.enter .fields .member true
  let body : Option Context := ctx.announced.body.map fun enclosure =>
    { ctx with announced := { ctx.announced with body := none, inExpression := false } }.enter
      enclosure (start enclosure)
      ctx.announced.inExpression
  match ctx.expect with
  | .statement | .member => body.getD (block false)
  | .operator => body.getD (block false)
  | .afterAngle => body.getD fields
  | .arrowBody => block true
  | _ => fields

/-- What comes after the brace that closes a frame in another. -/
def afterBrace (closed : Frame) (outer : Enclosure) : Expectation :=
  match closed.enclosure with
  | .substitution | .expression => .operator
  | _ =>
    if closed.inExpression then .operator
    else match outer with
      | .statements | .cases => .statement
      | .members => .member
      | _ => .operator

/-- A closing brace closes the innermost braces with all that is open in them; one that
closes nothing is passed over. -/
def closeBrace (ctx : Context) : Context :=
  match ctx.frames.dropWhile (!·.enclosure.isBraced) with
  | [] => ctx.expecting ctx.expect
  | f :: rest =>
    let ctx : Context := { ctx with frames := rest, announced := f.outer }
    let expect := afterBrace f ctx.enclosure
    let ctx := ctx.expecting expect
    if expect = .operator then ctx else { ctx with announced := {} }

/-- A closing parenthesis closes the innermost one in the same braces. -/
def closeRound (ctx : Context) : Context :=
  match ctx.frames.dropWhile (·.enclosure = .square) with
  | ⟨.round, _, isHead, outer⟩ :: rest =>
    let ctx : Context := { ctx with frames := rest, announced := { outer with head := false } }
    if isHead then ctx.expecting .statement
    else match ctx.enclosure with
      | .members | .fields =>
        let body := ctx.announced.body <|> some Enclosure.statements
        { ctx with announced := { ctx.announced with body } }.expecting .operator
      | _ => ctx.expecting .operator
  | _ => ctx.expecting .operator

/-- A closing bracket closes the innermost one in the same braces. -/
def closeSquare (ctx : Context) : Context :=
  match ctx.frames.dropWhile (·.enclosure = .round) with
  | ⟨.square, _, _, outer⟩ :: rest =>
    { ctx with frames := rest, announced := outer }.expecting .operator
  | _ => ctx.expecting .operator

/-- A colon ends a label or a case, or belongs to a question mark, a type or a field. -/
def colon (ctx : Context) : Context :=
  let a := ctx.announced
  if a.colon && a.questions = 0 then
    { ctx with announced := {} }.expecting .statement
  else { ctx with announced := { a with questions := a.questions - 1 } }.expecting .operand

/-- A question mark waits for its colon. -/
def question (ctx : Context) : Context :=
  let a := ctx.announced
  { ctx with announced := { a with questions := a.questions + 1 } }.expecting .operand

/-- A comma separates operands, members or fields. -/
def comma (ctx : Context) : Context :=
  match ctx.enclosure with
  | .fields | .members => ctx.restart
  | _ => ctx.expecting .operand

/-- Announce the parenthesis of a head. -/
def announceHead (ctx : Context) (e : Expectation) : Context :=
  { ctx with announced := { head := true } }.expecting e

/-- Announce what the next brace opens. -/
def announceBody (ctx : Context) (enclosure : Enclosure) : Context :=
  let inExpression := ctx.expect ≠ .statement
  { ctx with announced := { body := some enclosure, inExpression } }.expecting .operator

/-- Announce the colon of a label or of a case. -/
def announceColon (ctx : Context) (e : Expectation) : Context :=
  { ctx with announced := { colon := true } }.expecting e

/-- Whether a line end before a text ends a statement: not if the text goes on with an
operator, an opening parenthesis or the like. -/
def endsStatement : List Char → Bool
  | '+' :: '+' :: _ | '-' :: '-' :: _ => true
  | '!' :: c :: _ => c != '='
  | '.' :: c :: _ => c.isDigit
  | c :: _ => !(",:;*%><=[(?^|&/+-.)]".toList.contains c) && c != '\x60'
  | [] => true

/-- A finished operand is the end of a statement if a line ends after it. -/
def endLine (ctx : Context) (cs : List Char) : Context :=
  let goesOn := ctx.announced.body.isSome &&
    (cs.head? = some '\x7b' || ctx.enclosure = .statements || ctx.enclosure = .cases)
  match ctx.expect, ctx.enclosure with
  | .operator, .statements | .operator, .cases | .operator, .members | .operator, .fields
  | .afterAngle, .statements | .afterAngle, .members | .afterAngle, .fields
  | .answer, .statements | .answer, .cases | .label, .statements | .label, .cases =>
    if ctx.newLine && endsStatement cs && !goesOn && !ctx.announced.colon then
      { ctx with announced := {}, expect := start ctx.enclosure }
    else ctx
  | _, _ => ctx

end Context

end WebBaseline.Script
