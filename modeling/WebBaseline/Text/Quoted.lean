import WebBaseline.Text.Invisible

/-!
# Texts inside messages

A text that a message quotes stands in double quotes.  Quotes, backslashes and
the common control characters get a backslash, and a character that does not
show is written as its code point.
-/

namespace WebBaseline.Text

/-- A number in base sixteen. -/
def hexText (n : Nat) : String := String.ofList (Nat.toDigits 16 n)

/-- A character inside a quoted text. -/
def escapeShown (c : Char) : String :=
  if c = '\"' then "\\\""
  else if c = '\\' then "\\\\"
  else if c = '\n' then "\\n"
  else if c = '\r' then "\\r"
  else if c = '\t' then "\\t"
  else if c.toNat = 0 then "\\0"
  else if isInvisible c then "\\u\x7b" ++ hexText c.toNat ++ "\x7d"
  else String.singleton c

/-- A text in quotes. -/
def quoteShown (s : String) : String :=
  "\"" ++ String.join (s.toList.map escapeShown) ++ "\""

end WebBaseline.Text
