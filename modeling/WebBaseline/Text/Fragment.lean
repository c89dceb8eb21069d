/-!
# Fragments of texts

A fragment of a text is any run of its characters; the empty text is a
fragment of every text.
-/

namespace WebBaseline.Text

/-- Whether a list of characters occurs in another. -/
def containsChars (fragment : List Char) : List Char → Bool
  | [] => fragment.isEmpty
  | c :: rest => fragment.isPrefixOf (c :: rest) || containsChars fragment rest

/-- Whether a text occurs in another. -/
def contains (s fragment : String) : Bool := containsChars fragment.toList s.toList

end WebBaseline.Text
