import WebBaseline.Json.Value

/-!
# Writing JSON

`Json.compact` writes a value without any space, `Json.pretty` over several
lines with an indentation of two.  Both write texts alike: quotes, backslashes
and control characters are escaped, everything else stands for itself.
-/

namespace WebBaseline.Json

/-- A digit of base sixteen, in lower case. -/
def hexDigit (n : Nat) : Char := (Nat.digitChar n)

/-- A character inside a quoted text. -/
def escape (c : Char) : String :=
  if c = '\"' then "\\\""
  else if c = '\\' then "\\\\"
  else if c = '\n' then "\\n"
  else if c = '\r' then "\\r"
  else if c = '\t' then "\\t"
  else if c.toNat = 8 then "\\b"
  else if c.toNat = 12 then "\\f"
  else if c.toNat < 32 then
    String.ofList ['\\', 'u', '0', '0', hexDigit (c.toNat / 16), hexDigit (c.toNat % 16)]
  else String.singleton c

/-- A text in quotes. -/
def quote (s : String) : String :=
  "\"" ++ String.join (s.toList.map escape) ++ "\""

/-- A value that is neither an array nor an object. -/
def scalarText : Json → String
  | null => "null"
  | bool true => "true"
  | bool false => "false"
  | integer i => toString i
  | double d => d.jsonText
  | text s => quote s
  | array _ => "[]"
  | object _ => "\x7b\x7d"

mutual

/-- A value without any space. -/
def compact : Json → String
  | array items => "[" ++ compactItems items ++ "]"
  | object members => "\x7b" ++ compactMembers members ++ "\x7d"
  | null => scalarText null
  | bool b => scalarText (bool b)
  | integer i => scalarText (integer i)
  | double d => scalarText (double d)
  | text s => scalarText (text s)

/-- The items of an array with commas between them. -/
def compactItems : List Json → String
  | [] => ""
  | [v] => compact v
  | v :: rest => compact v ++ "," ++ compactItems rest

/-- The members of an object with commas between them. -/
def compactMembers : List (String × Json) → String
  | [] => ""
  | [(k, v)] => quote k ++ ":" ++ compact v
  | (k, v) :: rest => quote k ++ ":" ++ compact v ++ "," ++ compactMembers rest

end

/-- A line break followed by the indentation of a depth. -/
def lineBreak (depth : Nat) : String :=
  "\n" ++ String.ofList (List.replicate (2 * depth) ' ')

mutual

/-- A value over several lines; `depth` is that of the line it starts on. -/
def prettyAt (depth : Nat) : Json → String
  | array [] => "[]"
  | array (v :: rest) =>
    "[" ++ prettyItems (depth + 1) (v :: rest) ++ lineBreak depth ++ "]"
  | object [] => "\x7b\x7d"
  | object (m :: rest) =>
    "\x7b" ++ prettyMembers (depth + 1) (m :: rest) ++ lineBreak depth ++ "\x7d"
  | null => scalarText null
  | bool b => scalarText (bool b)
  | integer i => scalarText (integer i)
  | double d => scalarText (double d)
  | text s => scalarText (text s)

/-- The items of an array, each on a line of its own. -/
def prettyItems (depth : Nat) : List Json → String
  | [] => ""
  | [v] => lineBreak depth ++ prettyAt depth v
  | v :: rest => lineBreak depth ++ prettyAt depth v ++ "," ++ prettyItems depth rest

/-- The members of an object, each on a line of its own. -/
def prettyMembers (depth : Nat) : List (String × Json) → String
  | [] => ""
  | [(k, v)] => lineBreak depth ++ quote k ++ ": " ++ prettyAt depth v
  | (k, v) :: rest =>
    lineBreak depth ++ quote k ++ ": " ++ prettyAt depth v ++ "," ++ prettyMembers depth rest

end

/-- A value over several lines. -/
def pretty (v : Json) : String := prettyAt 0 v

end WebBaseline.Json
