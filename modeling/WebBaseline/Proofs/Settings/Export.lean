import WebBaseline.Proofs.Settings.Sections
import WebBaseline.Proofs.Yaml.Restoring
import WebBaseline.Settings.Loading

/-!
# Settings that are exported and loaded

The text of settings has all their sections.  Where its document says what was
written, loading gives the same settings, unless they are invalid.
-/

namespace WebBaseline.Settings

/-- A document that holds what is written for settings is read as all their sections. -/
theorem read_of_holds {d : Yaml.Document} {s : Settings}
    (h : d.holds (s.write Yaml.target) = true) :
    d.read SettingsDocument.read = .ok (SettingsDocument.ofSettings s) := by
  simp only [Yaml.Document.holds, Bool.and_eq_true, Option.isNone_iff_eq_none,
    Bool.not_eq_true'] at h
  obtain ⟨⟨hfailure, hcontinued⟩, hroot⟩ := h
  rw [Yaml.Document.read, SettingsDocument.read_write (Yaml.restores d.references) s d.root hroot]
  simp only [bind, Except.bind, hfailure, hcontinued, Bool.false_eq_true, if_false]
  rfl

/-- The settings of a document with all sections and the current version are those sections. -/
theorem ofDocument_ofSettings (s : Settings) :
    ofDocument (SettingsDocument.ofSettings s) = .ok s := rfl

/-- **Exporting and loading.**  Let the document of the text of some settings say what was written
for them.  Loading the text gives the settings if they are valid, and else fails with the first
condition that they violate. -/
theorem ofText_text (s : Settings)
    (hfaithful : (Yaml.Document.ofText s.text).holds (s.write Yaml.target) = true) :
    (s.validate = .ok () → ofText s.text = .ok s) ∧
    ∀ e, s.validate = .error e → ofText s.text = .error (.invalid e) := by
  have hparse : parse s.text = .ok s := by
    unfold parse
    rw [read_of_holds hfaithful]
    exact ofDocument_ofSettings s
  have hchecked : ofText s.text = s.checked := by
    rw [ofText, hparse]
    rfl
  rw [hchecked, checked]
  exact ⟨fun h => by rw [h], fun e h => by rw [h]⟩

/-- Settings whose texts look like something else: words for nothing, for truth values and for
numbers, a mark of a key, and several lines. -/
def misleading : Settings where
  catalog := { baseUrl := "null", endpoint := "", cacheTtlSecs := 18446744073709551615 }
  cache := { path := some "~", persistent := false }
  scan :=
    { style := { propertyStatuses := [.widely, .unknown], valueStatuses := [], scanValues := false }
      extraNames := .ofList [("yes: no", "007"), ("0x1F", "1e3"), ("true", "- a\n# b\n")] }
  workspace := { ignoreDirs := ["", "#", "\x27", " a", "é\t"] }

/-- The characters of their text. -/
def misleadingChars : List Char :=
  match misleading.write Yaml.target with
  | .mapping _ _ entries => Yaml.writeEntries 0 entries
  | _ => []

/-- Such settings are read back from their text. -/
theorem ofText_text_misleading :
    (Yaml.Document.ofText misleading.text).holds (misleading.write Yaml.target) = true ∧
      misleading.validate = .ok () ∧ ofText misleading.text = .ok misleading := by
  have hchars : ((misleadingChars.head? == some Yaml.byteOrderMark) ||
      misleadingChars.any (!Yaml.isAllowed ·)) = false ∧
      (Yaml.Document.ofChars misleadingChars).holds (misleading.write Yaml.target) = true := by
    decide +kernel
  have htext : Yaml.Document.ofText misleading.text = .ofChars misleadingChars :=
    Yaml.Document.ofText_ofList hchars.1
  have hfaithful := htext ▸ hchars.2
  have hvalid : misleading.validate = .ok () := by decide +kernel
  exact ⟨hfaithful, hvalid, (ofText_text misleading hfaithful).1 hvalid⟩

end WebBaseline.Settings
