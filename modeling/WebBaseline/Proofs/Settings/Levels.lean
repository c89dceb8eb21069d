import WebBaseline.Proofs.Decoding.Giving
import WebBaseline.Settings.Decoding

/-!
# The levels of a document of settings

A document has sections, and one of them has sections of its own.  At every
level the names of fields are known, and a document with another one is not read.

* `SettingsDocument.levels` — where the sections are, and the names of their fields;
* `SettingsDocument.known_of_reaches` — the keys of a document that was read.
-/

namespace WebBaseline.SettingsDocument

open Decoding

variable {ν ε α R : Type} {f : Format ν ε}

/-- The sections of a document by the names that lead to them, with the names of their fields. -/
def levels : List (List String × List String) :=
  [([], ["version", "catalog", "cache", "scan", "workspace"]),
    (["catalog"], ["base_url", "endpoint", "cache_ttl_secs", "max_attempts", "backoff_base_ms",
      "request_timeout_secs"]),
    (["cache"], ["path", "persistent"]),
    (["scan"], ["priority", "style", "script"]),
    (["scan", "priority"], ["widely", "newly", "limited", "unknown"]),
    (["scan", "style"], ["property_statuses", "value_statuses", "scan_values"]),
    (["scan", "script"], ["extra_names"]),
    (["workspace"], ["ignore_dirs"])]

/-- A section of a document that was read has known fields only. -/
theorem accepted_section (hregular : f.Regular) {root : ν} {fields : List (Field ν ε R)}
    (h : Accepted f (SettingsDocument.fields f) root) {name : String} {read : ν → Except ε α}
    {set : Option α → SettingsDocument → SettingsDocument}
    (hfield : (SettingsDocument.fields f).find? (·.name == name) =
      some (.optional name (f.readOptional read) set))
    (hread : ∀ n a, read n = .ok a → Accepted f fields n) {n : ν}
    (hreaches : f.Reaches root [name] n) : Accepted f fields n := by
  obtain _ | ⟨hentry, hname, ⟨⟩⟩ := hreaches
  obtain ⟨found, hfound⟩ := h.inside hentry hname hfield
  exact .of_readOptional_ok hregular hfound (hread n)

/-- So has a section of its section for scans. -/
theorem accepted_scan_section {root : ν} {fields : List (Field ν ε R)}
    (h : ∀ n, f.Reaches root ["scan"] n → Accepted f (ScanSettings.fields f) n) {name : String}
    {read : ν → Except ε α} {set : α → ScanSettings → ScanSettings}
    (hfield : (ScanSettings.fields f).find? (·.name == name) = some (.optional name read set))
    (hread : ∀ n a, read n = .ok a → Accepted f fields n) {n : ν}
    (hreaches : f.Reaches root ["scan", name] n) : Accepted f fields n := by
  obtain _ | ⟨hscan, hscanName, _ | ⟨hentry, hname, ⟨⟩⟩⟩ := hreaches
  obtain ⟨found, hfound⟩ := (h _ (.inside hscan hscanName (.here _))).inside hentry hname hfield
  exact hread n found hfound

/-- **Known keys.**  In a document that was read, every key of a section is the name of one of its
fields. -/
theorem known_of_reaches (hregular : f.Regular) {root : ν} {d : SettingsDocument}
    (hroot : SettingsDocument.read f root = .ok d) {path known : List String}
    (hlevel : (path, known) ∈ levels) {n : ν} (hreaches : f.Reaches root path n) {key value : ν}
    (hentry : f.Lists n (key, value)) : ∃ name ∈ known, f.text "" key = .ok name := by
  have hdocument : Accepted f (SettingsDocument.fields f) root := .of_readRecord_ok hregular hroot
  have hscan : ∀ n, f.Reaches root ["scan"] n → Accepted f (ScanSettings.fields f) n := fun _ =>
    accepted_section hregular hdocument rfl fun _ _ => .of_readRecord_ok hregular
  -- The document, its four sections, and the three sections of the one for scans.
  simp only [levels, List.mem_cons, Prod.mk.injEq, List.not_mem_nil, or_false] at hlevel
  obtain ⟨rfl, rfl⟩ | ⟨rfl, rfl⟩ | ⟨rfl, rfl⟩ | ⟨rfl, rfl⟩ | ⟨rfl, rfl⟩ | ⟨rfl, rfl⟩ |
    ⟨rfl, rfl⟩ | ⟨rfl, rfl⟩ := hlevel
  · obtain ⟨⟩ := hreaches
    exact hdocument.known hentry
  · exact (accepted_section hregular hdocument rfl
      (fun _ _ => .of_readRecord_ok hregular) hreaches).known hentry
  · exact (accepted_section hregular hdocument rfl
      (fun _ _ => .of_readRecord_ok hregular) hreaches).known hentry
  · exact (hscan n hreaches).known hentry
  · exact (accepted_scan_section hscan rfl
      (fun _ _ => .of_readRecord_ok hregular) hreaches).known hentry
  · exact (accepted_scan_section hscan rfl
      (fun _ _ => .of_readRecord_ok hregular) hreaches).known hentry
  · exact (accepted_scan_section hscan rfl
      (fun _ _ => .of_readRecord_ok hregular) hreaches).known hentry
  · exact (accepted_section hregular hdocument rfl
      (fun _ _ => .of_readRecord_ok hregular) hreaches).known hentry

end WebBaseline.SettingsDocument
