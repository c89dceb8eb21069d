import WebBaseline.Encoding.Record
import WebBaseline.Settings.Basic

/-!
# Writing settings

Sections are written alike to every format, with all their fields.  Only a
missing path of the cache and an empty list of names are left out.
-/

namespace WebBaseline

open Encoding

variable {ν : Type} (t : Target ν)

/-- Write the settings of the catalog. -/
def CatalogSettings.write (s : CatalogSettings) : ν :=
  t.record
    [("base_url", t.text s.baseUrl), ("endpoint", t.text s.endpoint),
     ("cache_ttl_secs", t.natural s.cacheTtlSecs.toNat),
     ("max_attempts", t.natural s.maxAttempts.toNat),
     ("backoff_base_ms", t.natural s.backoffBaseMs.toNat),
     ("request_timeout_secs", t.natural s.requestTimeoutSecs.toNat)]

/-- Write the settings of the cache. -/
def CacheSettings.write (s : CacheSettings) : ν :=
  t.record (optional "path" (s.path.map t.text) ++ [("persistent", t.boolean s.persistent)])

/-- Write a priority. -/
def Priority.write (p : Priority) : ν := t.text p.name

/-- Write a policy. -/
def PriorityPolicy.write (p : PriorityPolicy) : ν :=
  t.record
    [("widely", p.widely.write t), ("newly", p.newly.write t), ("limited", p.limited.write t),
     ("unknown", p.unknown.write t)]

/-- Write statuses. -/
def writeStatuses (statuses : List Status) : ν := t.list (statuses.map fun s => t.text s.label)

/-- Write the rules for style sheets. -/
def StyleRules.write (s : StyleRules) : ν :=
  t.record
    [("property_statuses", writeStatuses t s.propertyStatuses),
     ("value_statuses", writeStatuses t s.valueStatuses),
     ("scan_values", t.boolean s.scanValues)]

namespace ScanSettings

/-- Write the rules for scripts. -/
def writeScript (names : NameTable) : ν :=
  t.record
    (if names.entries.isEmpty then []
      else [("extra_names", t.record (names.entries.map fun e => (e.1, t.text e.2)))])

/-- Write the settings of scans. -/
def write (s : ScanSettings) : ν :=
  t.record
    [("priority", s.priority.write t), ("style", s.style.write t),
     ("script", writeScript t s.extraNames)]

end ScanSettings

/-- Write the settings of workspaces. -/
def WorkspaceSettings.write (s : WorkspaceSettings) : ν :=
  t.record [("ignore_dirs", t.list (s.ignoreDirs.map t.text))]

namespace Settings

/-- The sections of settings by their names. -/
def sections (s : Settings) : List (String × ν) :=
  [("catalog", s.catalog.write t), ("cache", s.cache.write t), ("scan", s.scan.write t),
   ("workspace", s.workspace.write t)]

/-- The version of the documents that are written. -/
def currentVersion : Nat := 1

/-- Write a document of settings. -/
def write (s : Settings) : ν :=
  t.record (("version", t.natural currentVersion) :: s.sections t)

end Settings

end WebBaseline
