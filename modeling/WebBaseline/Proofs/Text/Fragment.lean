import Mathlib.Data.List.Infix
import WebBaseline.Text.Fragment

/-!
# Fragments as runs of characters

A fragment of a text is a run of its characters, wherever it starts.

* `contains_iff` — the test that the scanners use decides just that.
-/

namespace WebBaseline.Text

/-- A list of characters occurs in another if it is a run of its items. -/
theorem containsChars_iff (fragment cs : List Char) :
    containsChars fragment cs = true ↔ fragment <:+: cs := by
  induction cs with
  | nil => simp [containsChars, List.infix_nil]
  | cons c rest ih =>
      rw [containsChars, Bool.or_eq_true, ih, List.isPrefixOf_iff_prefix, List.infix_cons_iff]

/-- A text contains a fragment if the fragment is a run of its characters. -/
theorem contains_iff (s fragment : String) :
    contains s fragment = true ↔ fragment.toList <:+: s.toList :=
  containsChars_iff fragment.toList s.toList

end WebBaseline.Text
