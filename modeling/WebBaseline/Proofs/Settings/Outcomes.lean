import WebBaseline.Proofs.Settings.Validity
import WebBaseline.Settings.Loading

/-!
# What loading settings gives

Settings are loaded from what is read of a document, changed by the environment
and then checked.  So loading gives the settings of the document if all is well,
and else the error of what fails first.

* `parse_of_read`, `parse_of_error` — a text is parsed as its document is read;
* `Rejected` — why settings are not loaded;
* `LoadsExactly` — which settings are loaded, and which errors arise;
* `loadsExactly_ofText`, `loadsExactly_ofFile`, `loadsExactly_ofEnvironment` — the
  three ways to load.
-/

namespace WebBaseline

/-- What succeeds in two steps. -/
theorem bind_eq_ok_iff {ε α β : Type} {first : Except ε α} {next : α → Except ε β} {b : β} :
    first >>= next = .ok b ↔ ∃ a, first = .ok a ∧ next a = .ok b := by
  cases first with
  | error e => exact ⟨nofun, fun ⟨_, h, _⟩ => nomatch h⟩
  | ok a => exact ⟨fun h => ⟨a, rfl, h⟩, fun ⟨_, h, hnext⟩ => Except.ok.inj h ▸ hnext⟩

/-- What fails in the first or in the second step. -/
theorem bind_eq_error_iff {ε α β : Type} {first : Except ε α} {next : α → Except ε β} {e : ε} :
    first >>= next = .error e ↔ first = .error e ∨ ∃ a, first = .ok a ∧ next a = .error e := by
  cases first with
  | error e' =>
      refine ⟨fun h => .inl (congrArg Except.error (Except.error.inj h)), ?_⟩
      rintro (h | ⟨_, h, -⟩)
      · exact congrArg Except.error (Except.error.inj h)
      · cases h
  | ok a =>
      refine ⟨fun h => .inr ⟨a, rfl, h⟩, ?_⟩
      rintro (h | ⟨_, h, hnext⟩)
      · cases h
      · exact Except.ok.inj h ▸ hnext

/-- The settings of the sections of a document; those that are not given are the standard ones. -/
def SettingsDocument.sections (d : SettingsDocument) : Settings where
  catalog := d.catalog.getD {}
  cache := d.cache.getD {}
  scan := d.scan.getD {}
  workspace := d.workspace.getD {}

namespace Settings

variable {text : String} {d : SettingsDocument} {s : Settings} {e : SettingsError}

/-- A text whose document is read is parsed as that. -/
theorem parse_of_read (h : (Yaml.Document.ofText text).read SettingsDocument.read = .ok d) :
    parse text = ofDocument d := by
  delta parse
  rw [h]

/-- A text whose document is not read is malformed. -/
theorem parse_of_error {e : Yaml.Error}
    (h : (Yaml.Document.ofText text).read SettingsDocument.read = .error e) :
    parse text = .error (.malformed e) := by
  delta parse
  rw [h]

/-- Which documents have settings: those with the current version. -/
theorem ofDocument_eq_ok_iff : ofDocument d = .ok s ↔ d.version = some 1 ∧ s = d.sections := by
  rcases hversion : d.version with _ | version
  · simp only [ofDocument, hversion, reduceCtorEq, false_and]
  · have hcurrent : version.toNat = currentVersion ↔ version = 1 := UInt32.toNat_inj (b := 1)
    simp only [ofDocument, hversion, hcurrent, Option.some.injEq]
    split
    next h => simp only [h, true_and, Except.ok.injEq, SettingsDocument.sections, eq_comm]
    next h => simp only [h, false_and, reduceCtorEq]

/-- The errors of the others. -/
theorem ofDocument_eq_error_iff :
    ofDocument d = .error e ↔ (d.version = none ∧ e = .missingVersion) ∨
      ∃ version, d.version = some version ∧ version ≠ 1 ∧ e = .unsupportedVersion version := by
  rcases hversion : d.version with _ | version
  · simp only [ofDocument, hversion, Except.error.injEq, true_and, reduceCtorEq, false_and,
      exists_false, or_false, eq_comm]
  · have hcurrent : version.toNat = currentVersion ↔ version = 1 := UInt32.toNat_inj (b := 1)
    simp only [ofDocument, hversion, hcurrent, reduceCtorEq, false_and, false_or,
      Option.some.injEq, exists_eq_left', ne_eq]
    split
    next h => simp only [h, not_true_eq_false, false_and, reduceCtorEq]
    next h => simp only [h, not_false_eq_true, true_and, Except.error.injEq, eq_comm]

/-- Settings are checked to be valid. -/
theorem checked_eq_ok_iff {t : Settings} : s.checked = .ok t ↔ t = s ∧ s.Valid := by
  rw [checked]
  split
  next h =>
    have hvalid := validate_eq_ok_iff.mp h
    simp only [Except.ok.injEq, hvalid, and_true, eq_comm]
  next h =>
    refine ⟨nofun, fun ⟨_, hvalid⟩ => ?_⟩
    rw [validate_eq_ok_iff.mpr hvalid] at h
    cases h

/-- The error of settings that are not valid. -/
theorem checked_eq_error_iff :
    s.checked = .error e ↔ ∃ i, FirstViolated s.requirements i ∧ e = .invalid i := by
  rw [checked]
  simp only [← validate_eq_error_iff]
  split
  next h => simp only [h, reduceCtorEq, false_and, exists_false]
  next i h => simp only [h, Except.error.injEq, exists_eq_left', eq_comm]

/-- Why no settings are loaded from what is read of a document and then changed. -/
inductive Rejected (found : Except Yaml.Error SettingsDocument) (change : Settings → Settings) :
    SettingsError → Prop
  | malformed {e : Yaml.Error} (read : found = .error e) : Rejected found change (.malformed e)
  | missing {d : SettingsDocument} (read : found = .ok d) (version : d.version = none) :
      Rejected found change .missingVersion
  | unsupported {d : SettingsDocument} {v : UInt32} (read : found = .ok d)
      (version : d.version = some v) (other : v ≠ 1) :
      Rejected found change (.unsupportedVersion v)
  | invalid {d : SettingsDocument} {i : Invalid} (read : found = .ok d)
      (version : d.version = some 1) (first : FirstViolated (change d.sections).requirements i) :
      Rejected found change (.invalid i)

/-- Whether an outcome is that of loading settings from what is read of a document and then
changed.  A document is read that gives any parts of the settings, each at its level, with a value
of its type; it is not that has a key which no field is called
(`SettingsDocument.Partial.read_of_isDocument`, `read_of_unknown`). -/
structure LoadsExactly (found : Except Yaml.Error SettingsDocument) (change : Settings → Settings)
    (outcome : Except SettingsError Settings) : Prop where
  accepts : ∀ s, outcome = .ok s ↔
    ∃ d, found = .ok d ∧ d.version = some 1 ∧ s = change d.sections ∧ s.Valid
  rejects : ∀ e, outcome = .error e ↔ Rejected found change e

/-- Settings that are loaded are valid. -/
theorem LoadsExactly.valid {found : Except Yaml.Error SettingsDocument}
    {change : Settings → Settings} {outcome : Except SettingsError Settings}
    (h : LoadsExactly found change outcome) (hloaded : outcome = .ok s) : s.Valid := by
  obtain ⟨_, -, -, -, hvalid⟩ := (h.accepts s).mp hloaded
  exact hvalid

variable (change : Settings → Settings)

/-- What is not read is rejected. -/
theorem loadsExactly_error (e : Yaml.Error) :
    LoadsExactly (.error e) change (.error (.malformed e)) where
  accepts s := ⟨nofun, fun ⟨_, hread, _⟩ => nomatch hread⟩
  rejects e' := by
    constructor
    · rintro ⟨⟩
      exact .malformed rfl
    · rintro (hread | hread | hread | hread) <;> cases hread
      rfl

/-- What is read is checked after the change if it has the current version. -/
theorem loadsExactly_ok (d : SettingsDocument) :
    LoadsExactly (.ok d) change (ofDocument d >>= fun s => (change s).checked) where
  accepts s := by
    rw [bind_eq_ok_iff]
    simp only [ofDocument_eq_ok_iff, checked_eq_ok_iff]
    constructor
    · rintro ⟨_, ⟨hversion, rfl⟩, rfl, hvalid⟩
      exact ⟨d, rfl, hversion, rfl, hvalid⟩
    · rintro ⟨_, ⟨⟩, hversion, rfl, hvalid⟩
      exact ⟨_, ⟨hversion, rfl⟩, rfl, hvalid⟩
  rejects e := by
    rw [bind_eq_error_iff]
    simp only [ofDocument_eq_ok_iff, ofDocument_eq_error_iff, checked_eq_error_iff]
    constructor
    · rintro ((⟨hversion, rfl⟩ | ⟨v, hversion, hother, rfl⟩) | ⟨_, ⟨hversion, rfl⟩, i, hfirst, rfl⟩)
      · exact .missing rfl hversion
      · exact .unsupported rfl hversion hother
      · exact .invalid rfl hversion hfirst
    · rintro (⟨⟨⟩⟩ | ⟨⟨⟩, hversion⟩ | ⟨⟨⟩, hversion, hother⟩ | ⟨⟨⟩, hversion, hfirst⟩)
      · exact .inl (.inl ⟨hversion, rfl⟩)
      · exact .inl (.inr ⟨_, hversion, hother, rfl⟩)
      · exact .inr ⟨_, ⟨hversion, rfl⟩, _, hfirst, rfl⟩

variable (text : String) (environment : String → Option String)

/-- Loading a text. -/
theorem loadsExactly_ofText :
    LoadsExactly ((Yaml.Document.ofText text).read SettingsDocument.read) id (ofText text) := by
  cases hread : (Yaml.Document.ofText text).read SettingsDocument.read with
  | error e =>
      rw [ofText, parse_of_error hread]
      exact loadsExactly_error id e
  | ok d =>
      rw [ofText, parse_of_read hread]
      exact loadsExactly_ok id d

/-- Loading a file. -/
theorem loadsExactly_ofFile :
    LoadsExactly ((Yaml.Document.ofText text).read SettingsDocument.read)
      (·.withEnvironment environment) (ofFile (.ok text) environment) := by
  cases hread : (Yaml.Document.ofText text).read SettingsDocument.read with
  | error e =>
      simp only [ofFile, parse_of_error hread]
      exact loadsExactly_error _ e
  | ok d =>
      simp only [ofFile, parse_of_read hread]
      exact loadsExactly_ok _ d

/-- Without a file, a document without sections is loaded. -/
theorem loadsExactly_ofEnvironment :
    LoadsExactly (.ok { version := some 1 }) (·.withEnvironment environment)
      (ofEnvironment environment) :=
  loadsExactly_ok _ { version := some 1 }

end Settings

end WebBaseline
