import WebBaseline.Proofs.Settings.Environment
import WebBaseline.Proofs.Settings.Levels
import WebBaseline.Proofs.Settings.Outcomes
import WebBaseline.Proofs.Settings.Partial
import WebBaseline.Proofs.Yaml.Restoring

/-!
# Settings in layers

Settings are loaded in layers: the standard ones, what a document gives of
them at any level, and what the environment replaces.  A document that has
another key at some level is not loaded.

* `Yaml.regular_format` — YAML finds the same whatever is expected;
* `SettingsDocument.Partial.isDocument`, `parse_of_isDocument` — documents that
  give parts of settings, and what is read of them;
* `read_of_unknown` — documents with another key, which are not read;
* `LoadsExactly.ok_iff_of_isDocument` — which of the first are loaded;
* `loaded_in_layers` — all layers together.
-/

namespace WebBaseline

namespace Yaml

open Decoding

/-- The entries of a mapping do not depend on what is expected. -/
theorem Node.readMapping_ok {n : Node} {expected : String} {entries : List (Node × Node)}
    (h : n.readMapping expected = .ok entries) (other : String) :
    n.readMapping other = .ok entries := by
  cases n with
  | scalar mark tag style text =>
      simp only [readMapping] at h ⊢
      split at h
      next hempty => rwa [if_pos hempty]
      next => cases h
  | mapping => exact h
  | void => exact h
  | _ => cases h

/-- Nor does a text. -/
theorem Node.readText_ok {n : Node} {expected text : String} (h : n.readText expected = .ok text)
    (other : String) : n.readText other = .ok text := by
  cases n with
  | scalar => exact h
  | _ => cases h

/-- What stands for nothing has no entries. -/
theorem Node.entries_of_nothing {n : Node} {expected : String} {entries : List (Node × Node)}
    (hnothing : n.readNothing = .ok true) (h : n.readMapping expected = .ok entries) :
    entries = [] := by
  unfold readMapping at h
  split at h
  · cases hnothing
  · exact (Except.ok.inj h).symm
  · split at h
    · exact (Except.ok.inj h).symm
    · cases h

/-- **YAML** finds the same in a node whatever is expected there. -/
theorem regular_format (references : List (Nat × Node)) : (format references).Regular where
  layout {n expected found} h other := by
    cases hentries : (n.target references).readMapping expected with
    | error e =>
        simp only [format, hentries] at h
        cases h
    | ok entries =>
        simp only [format, hentries, Node.readMapping_ok hentries other] at h ⊢
        exact h
  text h other := Node.readText_ok h other
  nothing {n expected entries} hnothing h := by
    cases hfound : (n.target references).readMapping expected with
    | error e =>
        simp only [format, hfound] at h
        cases h
    | ok found =>
        simp only [format, hfound] at h
        obtain rfl : found = entries := Layout.named.inj (Except.ok.inj h)
        exact Node.entries_of_nothing hnothing hfound

end Yaml

namespace SettingsDocument.Partial

variable {p : Partial} {d : Yaml.Document}

/-- Whether a document gives just these parts, and no other document follows. -/
def isDocument (p : Partial) (d : Yaml.Document) : Bool :=
  d.failure.isNone && !d.continued && p.isGiven (Yaml.format d.references) d.root

/-- Whether a text does is told by its characters. -/
theorem isDocument_ofText {text : String}
    (hallowed : ((text.toList.head? == some Yaml.byteOrderMark) ||
      text.toList.any (!Yaml.isAllowed ·)) = false) :
    p.isDocument (.ofText text) = p.isDocument (.ofChars text.toList) := by
  rw [← Yaml.Document.ofText_ofList hallowed, String.ofList_toList]

/-- Such a document is read as the parts. -/
theorem read_of_isDocument (h : p.isDocument d = true) :
    d.read SettingsDocument.read = .ok p.document := by
  simp only [isDocument, Bool.and_eq_true, Option.isNone_iff_eq_none, Bool.not_eq_true'] at h
  obtain ⟨⟨hfailure, hcontinued⟩, hroot⟩ := h
  rw [Yaml.Document.read, read_of_isGiven (Yaml.regular_format d.references) p d.root hroot]
  simp only [bind, Except.bind, hfailure, hcontinued, Bool.false_eq_true, if_false]
  rfl

/-- Its sections are the settings that the parts mean. -/
theorem sections_document (p : Partial) : p.document.sections = p.settings := by
  obtain ⟨version, catalog, cache, scan, workspace⟩ := p
  obtain _ | _ | catalog := catalog <;> obtain _ | _ | cache := cache <;>
    obtain _ | _ | scan := scan <;> obtain _ | _ | workspace := workspace <;> rfl

end SettingsDocument.Partial

namespace Settings

/-- A text whose document gives parts of settings is read as the settings that they mean. -/
theorem parse_of_isDocument {text : String} {p : SettingsDocument.Partial}
    (hdocument : p.isDocument (.ofText text) = true) (hversion : p.version = some (some 1)) :
    parse text = .ok p.settings := by
  have hcurrent : p.document.version = some 1 := by
    rw [SettingsDocument.Partial.document, hversion]
    rfl
  rw [parse_of_read (p.read_of_isDocument hdocument), ofDocument_eq_ok_iff, p.sections_document]
  exact ⟨hcurrent, rfl⟩

/-- **Unknown keys.**  A document is not read that has, in one of its sections, an entry whose key
is the name of no field. -/
theorem read_of_unknown {d : Yaml.Document} {path known : List String}
    (hlevel : (path, known) ∈ SettingsDocument.levels) {n : Yaml.Node}
    (hreaches : (Yaml.format d.references).Reaches d.root path n) {key value : Yaml.Node}
    (hentry : (Yaml.format d.references).Lists n (key, value))
    (hunknown : ∀ name ∈ known, (Yaml.format d.references).text "" key ≠ .ok name) :
    ∃ e, d.read SettingsDocument.read = .error e := by
  cases hroot : SettingsDocument.read (Yaml.format d.references) d.root with
  | ok found =>
      obtain ⟨name, hname, htext⟩ := SettingsDocument.known_of_reaches
        (Yaml.regular_format d.references) hroot hlevel hreaches hentry
      exact absurd htext (hunknown name hname)
  | error e =>
      refine ⟨e, ?_⟩
      rw [Yaml.Document.read, hroot]
      rfl

section Loading

variable {text : String} {change : Settings → Settings} {outcome : Except SettingsError Settings}
  (h : LoadsExactly ((Yaml.Document.ofText text).read SettingsDocument.read) change outcome)
include h

/-- **What is well-formed.**  A text whose document gives parts of settings is loaded, whatever the
parts are, if the version is the current one and the changed settings are valid. -/
theorem LoadsExactly.ok_iff_of_isDocument {p : SettingsDocument.Partial}
    (hdocument : p.isDocument (.ofText text) = true) (s : Settings) :
    outcome = .ok s ↔ p.version = some (some 1) ∧ s = change p.settings ∧ s.Valid := by
  have hversion : p.document.version = some 1 ↔ p.version = some (some 1) := by
    rcases hgiven : p.version with _ | _ | version <;>
      simp [SettingsDocument.Partial.document, hgiven]
  rw [h.accepts, p.read_of_isDocument hdocument]
  simp only [Except.ok.injEq, exists_eq_left', hversion, p.sections_document]

/-- A text whose document is not read is malformed. -/
theorem LoadsExactly.eq_malformed {e : Yaml.Error}
    (hread : (Yaml.Document.ofText text).read SettingsDocument.read = .error e) :
    outcome = .error (.malformed e) :=
  (h.rejects _).mpr (.malformed hread)

end Loading

/-- **Settings in layers.**

* A text whose document has the current version and gives fields of sections, in any order and at
  any level, is loaded as the settings with the given values and otherwise the standard ones, under
  the environment; or its error is that of their validation.
* The environment replaces the base address and the path of the cache if its variables are not
  blank, and nothing else; a second time it changes nothing; valid settings stay valid.
* A text whose document has a key at some level that is not the name of a field there is
  malformed. -/
theorem loaded_in_layers :
    (∀ (text : String) (p : SettingsDocument.Partial),
      p.isDocument (.ofText text) = true → p.version = some (some 1) →
        ofText text = p.settings.checked ∧
        ∀ environment,
          ofFile (.ok text) environment = (p.settings.withEnvironment environment).checked) ∧
    (∀ (s : Settings) (environment : String → Option String),
      Overridden environment s (s.withEnvironment environment) ∧
      (s.withEnvironment environment).withEnvironment environment =
        s.withEnvironment environment ∧
      (s.validate = .ok () → (s.withEnvironment environment).validate = .ok ())) ∧
    ∀ (text : String) (d : Yaml.Document), .ofText text = d →
      ∀ path known, (path, known) ∈ SettingsDocument.levels →
      ∀ n, (Yaml.format d.references).Reaches d.root path n →
      ∀ key value, (Yaml.format d.references).Lists n (key, value) →
        (∀ name ∈ known, (Yaml.format d.references).text "" key ≠ .ok name) →
        ∃ e, ofText text = .error (.malformed e) ∧
          ∀ environment, ofFile (.ok text) environment = .error (.malformed e) := by
  refine ⟨fun text p hdocument hversion => ?_, fun s environment => ⟨?_, ?_, fun hvalid => ?_⟩,
    fun text d hdocument path known hlevel n hreaches key value hentry hunknown => ?_⟩
  · have hparse := parse_of_isDocument hdocument hversion
    refine ⟨?_, fun environment => ?_⟩
    · rw [ofText, hparse]
      rfl
    · simp only [ofFile, hparse]
      rfl
  · exact overridden_withEnvironment s environment
  · exact withEnvironment_withEnvironment s environment
  · exact validate_eq_ok_iff.mpr ((validate_eq_ok_iff.mp hvalid).withEnvironment environment)
  · obtain ⟨e, hread⟩ := read_of_unknown hlevel hreaches hentry hunknown
    rw [← hdocument] at hread
    exact ⟨e, (loadsExactly_ofText text).eq_malformed hread,
      fun environment => (loadsExactly_ofFile text environment).eq_malformed hread⟩

/-- A text that gives a few fields: its sections are in no order, and there is nothing in some. -/
def sparseText : String :=
  "scan:\n  style: \x7bscan_values: false\x7d\n  priority:\n" ++
  "  script:\n    extra_names: \x7bx: y\x7d\ncache: ~\ncatalog:\n  max_attempts: 5\nversion: 1\n"

/-- The parts that it gives. -/
def sparse : SettingsDocument.Partial where
  version := some (some 1)
  catalog := some (some { maxAttempts := some 5 })
  cache := some none
  scan := some (some
    { priority := some {}
      style := some { scanValues := some false }
      script := some (some (.ofList [("x", "y")])) })

/-- An environment with a base address and a blank path. -/
def sparseEnvironment (name : String) : Option String :=
  if name = "SCOUT_API_BASE" then some " http://mirror"
  else if name = "SCOUT_CACHE_PATH" then some " \t"
  else none

/-- They are loaded with the standard values of all other fields and that base address. -/
theorem loaded_in_layers_sparse :
    sparse.isDocument (.ofText sparseText) = true ∧ sparse.version = some (some 1) ∧
      ofFile (.ok sparseText) sparseEnvironment = .ok
        { catalog :=
            { baseUrl := " http://mirror", endpoint := "/features", cacheTtlSecs := 86400
              maxAttempts := 5, backoffBaseMs := 1000, requestTimeoutSecs := 30 }
          cache := { path := none, persistent := true }
          scan :=
            { priority := { widely := .low, newly := .medium, limited := .high, unknown := .low }
              style :=
                { propertyStatuses := [.limited, .newly], valueStatuses := [.limited, .newly]
                  scanValues := false }
              extraNames := .ofList [("x", "y")] }
          workspace := { ignoreDirs := ["node_modules", ".git"] } } := by
  have hchars : ((sparseText.toList.head? == some Yaml.byteOrderMark) ||
      sparseText.toList.any (!Yaml.isAllowed ·)) = false ∧
      sparse.isDocument (.ofChars sparseText.toList) = true := by
    decide +kernel
  have hdocument : sparse.isDocument (.ofText sparseText) = true :=
    (SettingsDocument.Partial.isDocument_ofText hchars.1).trans hchars.2
  refine ⟨hdocument, rfl, ?_⟩
  rw [(loaded_in_layers.1 sparseText sparse hdocument rfl).2 sparseEnvironment]
  decide +kernel

end Settings

end WebBaseline
