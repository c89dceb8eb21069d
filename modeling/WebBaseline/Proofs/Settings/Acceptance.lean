import WebBaseline.Proofs.Catalog.Endings
import WebBaseline.Proofs.Scan.Names
import WebBaseline.Proofs.Scan.ScriptNames
import WebBaseline.Proofs.Scan.Soundness
import WebBaseline.Proofs.Settings.Layers
import WebBaseline.Proofs.Text.ByteOrder

/-!
# Which settings are loaded

Exactly the valid settings are loaded.  So scans look for no empty fragment,
which every identifier would contain, and the service is asked at least once
and no more than ten times.

* `NameTable.fragment_ne_of_mem_withExtras` — the fragments of a table with extra names;
* `Scanner.exists_entry_of_mem_run` — the entry of the table behind an issue of a script;
* `loads_exactly_valid_settings` — loading, and what follows for scans and requests;
* `loads_exactly_valid_settings_mirrored` — a text that is valid with the environment only.
-/

namespace WebBaseline

namespace NameTable

/-- The names of a table ascend in the order of their bytes. -/
theorem pairwise_bytes (t : NameTable) :
    t.entries.Pairwise fun a b => Text.bytes a.1 < Text.bytes b.1 :=
  (List.pairwise_map.mp t.ascending).imp fun h => (Text.lt_iff_bytes_lt _ _).mp h

/-- The fragments of a table with extra names are not empty if those of the extra names are not. -/
theorem fragment_ne_of_mem_withExtras {extras : NameTable} (h : ∀ e ∈ extras.entries, e.2 ≠ "") :
    ∀ e ∈ (withExtras extras.entries).entries, e.2 ≠ "" := by
  have hbuiltIn : ∀ e ∈ builtIn.entries, e.2 ≠ "" := by decide
  rintro ⟨name, fragment⟩ hmem
  rw [← fragment?_eq_some_iff, fragment?_withExtras, Option.or_eq_some_iff] at hmem
  rcases hmem with hextra | ⟨-, hown⟩
  · exact h _ ((fragment?_eq_some_iff extras).mp hextra)
  · exact hbuiltIn _ ((fragment?_eq_some_iff builtIn).mp hown)

end NameTable

namespace Scanner

variable {parsers : Parsers} {catalog : List FeatureRecord} {settings : ScanSettings}

/-- The identifier of an issue in a script contains the fragment of an entry of the table. -/
theorem exists_entry_of_mem_run {σ : Type} {c : Canceller σ} {files : List SourceFile} {i : Issue}
    (h : i ∈ ((ofCatalog parsers catalog settings).run c files).result.issues)
    (hscript : ScanLanguage.ofPath i.file = some .script) :
    ∃ e ∈ (NameTable.withExtras settings.extraNames.entries).entries,
      e.2.toList <:+: i.featureId.toList := by
  obtain ⟨file, -, hfile⟩ := exists_mem_scanFile_of_mem_run _ h
  rw [(ofCatalog parsers catalog settings).file_of_mem_scanFile hfile] at hscript
  have hissues := Scan.scanFile_script parsers catalog settings file.content hscript ▸ hfile
  obtain ⟨node, -, hnode⟩ := List.mem_filterMap.mp hissues
  obtain ⟨r, hnames, rfl⟩ := Scan.namedIssue?_eq_some_iff.mp hnode
  obtain ⟨name, fragment, -, hentry, _, _, -, hcontains, -⟩ := hnames.first
  exact ⟨(name, fragment), hentry, hcontains.2⟩

end Scanner

namespace Settings

open Catalog Store

/-- At most ten attempts are made for valid settings. -/
theorem Valid.attempts_le {s : Settings} (h : s.Valid) :
    max 1 (Accessor.ofSettings s.catalog true).attempts ≤ 10 := by
  have hrange := h.attempts
  rw [attempts_ofSettings]
  omega

/-- **Exactly the valid settings are loaded.**

* From a text, from a file under an environment, and from the environment alone, settings are loaded
  if the document is read and has the current version, and they are valid after the environment has
  replaced what it does; otherwise the error is that of what fails first.
* Extra names are checked in the order of their bytes.
* With settings that were loaded no fragment of the table of names is empty, so the identifier of
  every issue in a script contains one that is not; and a run of the accessor for them that does
  not find a fresh catalog makes at least one and at most ten requests. -/
theorem loads_exactly_valid_settings (environment : String → Option String) :
    (∀ text, LoadsExactly ((Yaml.Document.ofText text).read SettingsDocument.read) id
      (ofText text)) ∧
    (∀ text, LoadsExactly ((Yaml.Document.ofText text).read SettingsDocument.read)
      (·.withEnvironment environment) (ofFile (.ok text) environment)) ∧
    LoadsExactly (.ok { version := some 1 }) (·.withEnvironment environment)
      (ofEnvironment environment) ∧
    (∀ s : Settings,
      s.scan.extraNames.entries.Pairwise fun a b => Text.bytes a.1 < Text.bytes b.1) ∧
    ∀ s, ((∃ text, ofText text = .ok s ∨ ofFile (.ok text) environment = .ok s) ∨
        ofEnvironment environment = .ok s) →
      (∀ e ∈ (NameTable.withExtras s.scan.extraNames.entries).entries, e.2 ≠ "") ∧
      (∀ (parsers : Parsers) (catalog : List FeatureRecord) (σ : Type) (c : Canceller σ)
          (files : List SourceFile),
        ∀ i ∈ ((Scanner.ofCatalog parsers catalog s.scan).run c files).result.issues,
          ScanLanguage.ofPath i.file = some .script →
          ∃ e ∈ (NameTable.withExtras s.scan.extraNames.entries).entries,
            e.2 ≠ "" ∧ e.2.toList <:+: i.featureId.toList) ∧
      ∀ (env : Surroundings Backend) (key : String) (before : Backend),
        let a := Accessor.ofSettings s.catalog true
        let fetched := a.fetch.run (env.host Backend.operations) key { store := before }
        let refreshed := a.refresh.run (env.host Backend.operations) key { store := before }
        (fetched.1.freshness = .fresh ∧ fetched.2.calls = 0 ∨
          fetched.1.freshness ≠ .fresh ∧ 1 ≤ fetched.2.calls ∧ fetched.2.calls ≤ 10) ∧
        1 ≤ refreshed.2.calls ∧ refreshed.2.calls ≤ 10 := by
  refine ⟨loadsExactly_ofText, (loadsExactly_ofFile · environment),
    loadsExactly_ofEnvironment environment, fun s => s.scan.extraNames.pairwise_bytes,
    fun s hloaded => ?_⟩
  have hvalid : s.Valid := by
    rcases hloaded with ⟨text, h | h⟩ | h
    · exact (loadsExactly_ofText text).valid h
    · exact (loadsExactly_ofFile text environment).valid h
    · exact (loadsExactly_ofEnvironment environment).valid h
  have hfragments : ∀ e ∈ (NameTable.withExtras s.scan.extraNames.entries).entries, e.2 ≠ "" :=
    NameTable.fragment_ne_of_mem_withExtras fun e he => (hvalid.names e he).2
  refine ⟨hfragments, fun parsers catalog σ c files i hi hscript => ?_,
    fun env key before => ⟨?_, ?_⟩⟩
  · obtain ⟨e, he, hcontains⟩ := Scanner.exists_entry_of_mem_run hi hscript
    exact ⟨e, he, hfragments e he, hcontains⟩
  · have hcalls := (ending_fetch env (.ofSettings s.catalog true) key before).calls_le rfl
    exact hcalls.imp And.right fun ⟨hother, hleast, hmost⟩ =>
      ⟨hother, hleast, hmost.trans hvalid.attempts_le⟩
  · have hcalls := (ending_refresh env (.ofSettings s.catalog true) key before).calls_le rfl
    obtain ⟨⟨_, hnever⟩, -⟩ | ⟨-, hleast, hmost⟩ := hcalls
    · exact hnever.elim
    · exact ⟨hleast, hmost.trans hvalid.attempts_le⟩

/-- A text with an empty base address, the most attempts and a name of its own. -/
def mirroredText : String :=
  "version: 1\nscan:\n  script:\n    extra_names: \x7bvibrate: vibration\x7d\n" ++
  "catalog:\n  max_attempts: 10\n  base_url: \x22\x22\n"

/-- The parts that it gives. -/
def mirrored : SettingsDocument.Partial where
  version := some (some 1)
  catalog := some (some { baseUrl := some "", maxAttempts := some 10 })
  scan := some (some { script := some (some (.ofList [("vibrate", "vibration")])) })

/-- They are what its document gives. -/
theorem isDocument_mirrored : mirrored.isDocument (.ofText mirroredText) = true := by
  have hchars : ((mirroredText.toList.head? == some Yaml.byteOrderMark) ||
      mirroredText.toList.any (!Yaml.isAllowed ·)) = false ∧
      mirrored.isDocument (.ofChars mirroredText.toList) = true := by
    decide +kernel
  exact (SettingsDocument.Partial.isDocument_ofText hchars.1).trans hchars.2

/-- Without the environment the base address is rejected; with that of a mirror the settings are
loaded.  A scan with them finds the name, and a service that is down is asked at most ten times. -/
theorem loads_exactly_valid_settings_mirrored :
    let environment := fun name => if name = "SCOUT_API_BASE" then some "http://mirror" else none
    let s := mirrored.settings.withEnvironment environment
    let tree := fun _ => SyntaxTree.node "identifier" 0 7 ⟨0, 0⟩ []
    let scanner := Scanner.ofCatalog ⟨fun _ => tree, tree, tree⟩
      [.ofParts "api-vibration" "Vibration" (some "limited")] s.scan
    let i : Issue := ⟨"a.js", "api-vibration", "Vibration", .limited, .high, 1, 1⟩
    let env : Surroundings Backend := ⟨fun _ => 0, fun _ => ⟨id, .error (.catalog "down")⟩⟩
    let calls := ((Accessor.ofSettings s.catalog true).refresh.run (env.host Backend.operations)
      "key" { store := .broken }).2.calls
    ofText mirroredText = .error (.invalid (.empty "catalog.base_url"
        "Set it to https://api.webstatus.dev/v1 or a mirror.")) ∧
      ofFile (.ok mirroredText) environment = .ok s ∧
      (scanner.run .never [⟨"a.js", "vibrate"⟩]).result.issues = [i] ∧
      (∃ e ∈ (NameTable.withExtras s.scan.extraNames.entries).entries,
        e.2 ≠ "" ∧ e.2.toList <:+: i.featureId.toList) ∧
      1 ≤ calls ∧ calls ≤ 10 := by
  intro environment s tree scanner i env calls
  have hvalid : s.Valid := validate_eq_ok_iff.mp (by decide +kernel)
  obtain ⟨htext, hfile, -, -, hloaded⟩ := loads_exactly_valid_settings environment
  have hmirrored : ofFile (.ok mirroredText) environment = .ok s :=
    ((hfile mirroredText).ok_iff_of_isDocument isDocument_mirrored s).mpr ⟨rfl, rfl, hvalid⟩
  have hblank : mirrored.document.sections.validate = .error (.empty "catalog.base_url"
      "Set it to https://api.webstatus.dev/v1 or a mirror.") := by decide +kernel
  have hrejected := ((htext mirroredText).rejects _).mpr
    (.invalid (mirrored.read_of_isDocument isDocument_mirrored) rfl
      (validate_eq_error_iff.mp hblank))
  have hissues : (scanner.run .never [⟨"a.js", "vibrate"⟩]).result.issues = [i] := by
    have hscan : scanner.scanFile ⟨"a.js", "vibrate"⟩ = [i] :=
      (Scan.scanFile_script _ _ _ "vibrate" (by decide +kernel)).trans (by decide +kernel)
    rw [scanner.issues_run (Scanner.stopsAt_never 1), List.take_succ_cons, List.take_nil,
      SourceFile.sortByPath, List.mergeSort_singleton, List.flatMap_singleton, hscan]
  obtain ⟨-, hnames, hcalls⟩ := hloaded s (.inl ⟨mirroredText, .inr hmirrored⟩)
  obtain ⟨-, hleast, hmost⟩ := hcalls env "key" .broken
  refine ⟨hrejected, hmirrored, hissues, ?_, hleast, hmost⟩
  exact hnames _ _ _ .never [⟨"a.js", "vibrate"⟩] i (hissues ▸ List.mem_singleton_self i)
    (by decide +kernel)

end Settings

end WebBaseline
