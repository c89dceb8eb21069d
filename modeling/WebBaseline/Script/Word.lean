import WebBaseline.Script.Context

/-!
# Words in scripts

A word is a keyword that announces what is to come, or a name.  Which of the
two depends on where it stands: after a point and in front of the colon of a
field every word is a name.
-/

namespace WebBaseline.Script

/-- What a name is. -/
inductive NameKind where
  | variable
  | property
  | label
  | hidden
deriving DecidableEq, Repr

/-- The kind of node for a name. -/
def NameKind.text : NameKind → String
  | .variable => "identifier"
  | .property => "property_identifier"
  | .label => "statement_identifier"
  | .hidden => "private_property_identifier"

/-- What a keyword leads to. -/
inductive Keyword where
  /-- A statement with a head in parentheses. -/
  | head
  | headOfHandler
  /-- A head in parentheses, or the fields that say how to import. -/
  | scope
  | cases
  | body
  | answer
  | jump
  | case
  | otherwise
  | function
  | classBody
  | fields
  | operand
  | value
  | binding
  /-- A word in front of a declaration. -/
  | modifier
  /-- A word between two operands. -/
  | infixWord
  /-- A word in front of a type. -/
  | typeWord
deriving DecidableEq, Repr

/-- The keywords of scripts. -/
def Keyword.ofWord? : String → Option Keyword
  | "if" | "while" | "for" => some .head
  | "with" => some .scope
  | "catch" => some .headOfHandler
  | "switch" => some .cases
  | "do" | "else" | "try" | "finally" => some .body
  | "return" | "throw" => some .answer
  | "break" | "continue" => some .jump
  | "case" => some .case
  | "default" => some .otherwise
  | "function" => some .function
  | "class" => some .classBody
  | "interface" | "enum" => some .fields
  | "new" | "typeof" | "void" | "delete" | "await" | "yield" => some .operand
  | "this" | "super" | "null" | "true" | "false" | "debugger" | "import" => some .value
  | "var" | "let" | "const" => some .binding
  | "export" | "declare" | "abstract" | "async" => some .modifier
  | "in" | "instanceof" | "of" | "as" | "satisfies" | "is" | "extends" | "implements" =>
    some .infixWord
  | "keyof" => some .typeWord
  | _ => none

/-- Keywords that are names where they do not announce anything. -/
def isContextual (word : String) : Bool :=
  ["interface", "let", "declare", "abstract", "async", "of", "as", "satisfies", "is", "keyof",
    "implements", "yield", "await"].contains word

/-- What is left after blanks and comments.  The fuel is the length of the text. -/
def skipSpace : Nat → List Char → List Char
  | 0, cs => cs
  | fuel + 1, cs =>
    let rest := skipBlanks cs
    match commentLength rest with
    | 0 => rest
    | n => skipSpace fuel (rest.drop n)

/-- Whether a colon comes next. -/
def colonFollows (cs : List Char) : Bool := (skipSpace cs.length cs).head? == some ':'

/-- Whether a name follows on the same line. -/
def nameFollows (cs : List Char) : Bool :=
  nameLength (cs.dropWhile fun c => isBlank c && !isLineEnd c) != 0

namespace Context

/-- Take a keyword. -/
def keyword (ctx : Context) (k : Keyword) (after : List Char) : Context :=
  match k with
  | .head => ctx.announceHead .operator
  | .headOfHandler => ctx.announceHead .statement
  | .scope =>
    if ctx.expect = .operator then ctx.expecting .operand else ctx.announceHead .operator
  | .cases => ctx.announceBody .cases
  | .body => { ctx with announced := {} }.expecting .statement
  | .answer => ctx.expecting .answer
  | .jump => ctx.expecting .label
  | .case =>
    if ctx.enclosure = .cases then ctx.announceColon .operand else ctx.expecting .statement
  | .otherwise =>
    if ctx.enclosure = .cases then ctx.announceColon .operator else ctx.expecting .operand
  | .function => ctx.announceBody .statements
  | .classBody => ctx.announceBody .members
  | .fields => ctx.announceBody .fields
  | .operand | .infixWord | .binding | .typeWord => ctx.expecting .operand
  | .value => ctx.expecting .operator
  | .modifier => ctx.expecting (if nameFollows after then ctx.expect else .operator)

/-- Whether a keyword is one where it stands. -/
def admits (ctx : Context) (word : String) (k : Keyword) (after : List Char) : Bool :=
  match k with
  | .infixWord => ctx.expect = .operator || ctx.expect = .afterAngle || !isContextual word
  | .modifier => word = "export" || (ctx.expect = .statement && nameFollows after)
  | .binding =>
    word != "let" || (ctx.expect = .statement || ctx.enclosure = .round) && nameOrBracket after
  | .typeWord => ctx.expect != .statement
  | .fields => word = "enum" || nameFollows after
  | .operand => !(isContextual word && ctx.announced.head)
  | _ => true
where
  nameOrBracket (after : List Char) : Bool :=
    let rest := skipBlanks after
    nameLength rest != 0 || rest.head? == some '\x7b' || rest.head? == some '['

/-- Take a word: what it is if it is a name, and where the reader is after it. -/
def word (ctx : Context) (word : String) (after : List Char) : Option NameKind × Context :=
  let name (kind : NameKind) : Option NameKind × Context := (some kind, ctx.expecting .operator)
  match ctx.expect with
  | .property | .member => name .property
  | .label => name .label
  | _ =>
    match Keyword.ofWord? word with
    | some k =>
      if ctx.expect = .statement && isContextual word && colonFollows after then
        (some .label, ctx.announceColon .operator)
      else if ctx.admits word k after then (none, ctx.keyword k after)
      else if isContextual word then (some .variable, ctx.expecting .operator)
      else (none, ctx.expecting .operator)
    | none =>
      if ctx.expect = .statement && colonFollows after then
        (some .label, ctx.announceColon .operator)
      else name .variable

end Context

end WebBaseline.Script
