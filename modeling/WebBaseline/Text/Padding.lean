/-!
# Padding

Texts are brought to a width with blanks at their end, numbers with zeros in
front of them.
-/

namespace WebBaseline.Text

/-- A text with blanks at its end, up to a width. -/
def padRight (width : Nat) (s : String) : String :=
  s ++ String.ofList (List.replicate (width - s.length) ' ')

/-- A number in decimal digits with zeros in front of it, up to a width. -/
def zeroPadded (width n : Nat) : String :=
  let digits := toString n
  String.ofList (List.replicate (width - digits.length) '0') ++ digits

theorem length_padRight {width : Nat} {s : String} (h : s.length ≤ width) :
    (padRight width s).length = width := by
  simp only [padRight, String.length_append, String.length_ofList, List.length_replicate]
  omega

end WebBaseline.Text
