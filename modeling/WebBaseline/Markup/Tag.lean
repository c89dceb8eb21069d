/-!
# Tags of markup documents

What the reader of markup has to know of an element: whether it is void, that
is, never closed, and which elements may stand inside it.  A tag may not stand
inside an element that it closes by its mere presence.
-/

namespace WebBaseline.Markup

/-- The name of an element, in upper case. -/
inductive Tag where
  | known (name : String)
  /-- A name that is not in the list of known elements. -/
  | custom (name : String)
  /-- An element whose name was not kept. -/
  | forgotten
deriving BEq, DecidableEq, Inhabited

namespace Tag

/-- Elements that have no end tag. -/
def voidNames : List String :=
  ["AREA", "BASE", "BASEFONT", "BGSOUND", "BR", "COL", "COMMAND", "EMBED", "FRAME", "HR", "IMAGE",
   "IMG", "INPUT", "ISINDEX", "KEYGEN", "LINK", "MENUITEM", "META", "NEXTID", "PARAM", "SOURCE",
   "TRACK", "WBR"]

/-- The other known elements. -/
def regularNames : List String :=
  ["A", "ABBR", "ADDRESS", "ARTICLE", "ASIDE", "AUDIO", "B", "BDI", "BDO", "BLOCKQUOTE", "BODY",
   "BUTTON", "CANVAS", "CAPTION", "CITE", "CODE", "COLGROUP", "DATA", "DATALIST", "DD", "DEL",
   "DETAILS", "DFN", "DIALOG", "DIV", "DL", "DT", "EM", "FIELDSET", "FIGCAPTION", "FIGURE",
   "FOOTER", "FORM", "H1", "H2", "H3", "H4", "H5", "H6", "HEAD", "HEADER", "HGROUP", "HTML", "I",
   "IFRAME", "INS", "KBD", "LABEL", "LEGEND", "LI", "MAIN", "MAP", "MARK", "MATH", "MENU", "METER",
   "NAV", "NOSCRIPT", "OBJECT", "OL", "OPTGROUP", "OPTION", "OUTPUT", "P", "PICTURE", "PRE",
   "PROGRESS", "Q", "RB", "RP", "RT", "RTC", "RUBY", "S", "SAMP", "SCRIPT", "SECTION", "SELECT",
   "SLOT", "SMALL", "SPAN", "STRONG", "STYLE", "SUB", "SUMMARY", "SUP", "SVG", "TABLE", "TBODY",
   "TD", "TEMPLATE", "TEXTAREA", "TFOOT", "TH", "THEAD", "TIME", "TITLE", "TR", "U", "UL", "VAR",
   "VIDEO"]

/-- The tag of a name in upper case. -/
def ofName (name : String) : Tag :=
  if voidNames.contains name || regularNames.contains name then .known name else .custom name

/-- Whether the element is void. -/
def isVoid : Tag → Bool
  | .known name => voidNames.contains name
  | _ => false

/-- Whether the tag is a known one of the given name. -/
def isNamed (t : Tag) (name : String) : Bool := t == .known name

/-- Whether two tags are of one element type; all custom ones are. -/
def sameType : Tag → Tag → Bool
  | .known a, .known b => a == b
  | .custom _, .custom _ => true
  | .forgotten, .forgotten => true
  | _, _ => false

/-- Elements that end a paragraph. -/
def closesParagraph : List String :=
  ["ADDRESS", "ARTICLE", "ASIDE", "BLOCKQUOTE", "DETAILS", "DIV", "DL", "FIELDSET", "FIGCAPTION",
   "FIGURE", "FOOTER", "FORM", "H1", "H2", "H3", "H4", "H5", "H6", "HEADER", "HR", "MAIN", "NAV",
   "OL", "P", "PRE", "SECTION"]

/-- The known elements whose start ends an open element of a name. -/
def closers (parent : String) : List String :=
  match parent with
  | "LI" => ["LI"]
  | "DT" | "DD" => ["DT", "DD"]
  | "P" => closesParagraph
  | "RB" | "RT" | "RP" => ["RB", "RT", "RP"]
  | "OPTGROUP" => ["OPTGROUP"]
  | "TR" => ["TR"]
  | "TD" | "TH" => ["TD", "TH", "TR"]
  | _ => []

/-- Whether an element may stand directly inside another.  A column group holds
nothing but columns. -/
def canContain (parent child : Tag) : Bool :=
  match parent with
  | .known "COLGROUP" => child == .known "COL"
  | .known name => match child with
    | .known c => !(closers name).contains c
    | _ => true
  | _ => true

/-! ### What is remembered -/

/-- The room for the open elements. -/
def room : Nat := 1024

/-- How much of a custom name is kept. -/
def longestName : Nat := 255

/-- What remembering a tag takes. -/
def weight : Tag → Nat
  | .custom name => 2 + min name.length longestName
  | _ => 1

/-- A tag as it is remembered. -/
def remembered : Tag → Tag
  | .custom name => .custom (String.ofList (name.toList.take longestName))
  | t => t

/-- The open elements as they are remembered when `used` of the room is taken:
from the first tag on that finds no room, names are forgotten. -/
def rememberFrom (used : Nat) : List Tag → List Tag
  | [] => []
  | t :: rest =>
    if used + t.weight < room then t.remembered :: rememberFrom (used + t.weight) rest
    else .forgotten :: rest.map fun _ => .forgotten

/-- The open elements as they are remembered. -/
def remember (tags : List Tag) : List Tag := rememberFrom 4 tags

end Tag

end WebBaseline.Markup
