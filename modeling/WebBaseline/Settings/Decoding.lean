import WebBaseline.Decoding.Record
import WebBaseline.Settings.Basic

/-!
# Reading settings

Each section is a record whose fields have defaults and that has no others.
Sections are read alike from every format of records.
-/

namespace WebBaseline

open Decoding

variable {ν ε : Type} (f : Format ν ε)

/-- A natural number of 64 bits. -/
def readUInt64 (node : ν) : Except ε UInt64 := (f.natural UInt64.size "u64" node).map UInt64.ofNat

/-- A natural number of 32 bits. -/
def readUInt32 (node : ν) : Except ε UInt32 := (f.natural UInt32.size "u32" node).map UInt32.ofNat

/-- A text. -/
def readString (node : ν) : Except ε String := f.text "a string" node

/-- A list of statuses. -/
def readStatuses (node : ν) : Except ε (List Status) := f.readList (f.readChoice Status.names) node

/-- A priority. -/
def readPriority (node : ν) : Except ε Priority := f.readChoice Priority.names node

namespace CatalogSettings

/-- The fields of the section. -/
def fields : List (Field ν ε CatalogSettings) :=
  [ .optional "base_url" (readString f) (fun a s => { s with baseUrl := a }),
    .optional "endpoint" (readString f) (fun a s => { s with endpoint := a }),
    .optional "cache_ttl_secs" (readUInt64 f) (fun a s => { s with cacheTtlSecs := a }),
    .optional "max_attempts" (readUInt32 f) (fun a s => { s with maxAttempts := a }),
    .optional "backoff_base_ms" (readUInt64 f) (fun a s => { s with backoffBaseMs := a }),
    .optional "request_timeout_secs" (readUInt64 f)
      (fun a s => { s with requestTimeoutSecs := a }) ]

/-- Read the section. -/
def read (node : ν) : Except ε CatalogSettings :=
  f.readRecord "CatalogConfig" true (fields f) {} node

end CatalogSettings

namespace CacheSettings

/-- The fields of the section. -/
def fields : List (Field ν ε CacheSettings) :=
  [ .optional "path" (f.readOptional (f.text "path string")) (fun a s => { s with path := a }),
    .optional "persistent" f.boolean (fun a s => { s with persistent := a }) ]

/-- Read the section. -/
def read (node : ν) : Except ε CacheSettings :=
  f.readRecord "CacheConfig" true (fields f) {} node

end CacheSettings

namespace PriorityPolicy

/-- The fields of a policy. -/
def fields : List (Field ν ε PriorityPolicy) :=
  [ .optional "widely" (readPriority f) (fun a p => { p with widely := a }),
    .optional "newly" (readPriority f) (fun a p => { p with newly := a }),
    .optional "limited" (readPriority f) (fun a p => { p with limited := a }),
    .optional "unknown" (readPriority f) (fun a p => { p with unknown := a }) ]

/-- Read a policy. -/
def read (node : ν) : Except ε PriorityPolicy :=
  f.readRecord "PriorityPolicy" true (fields f) {} node

end PriorityPolicy

namespace StyleRules

/-- The fields of the rules for style sheets. -/
def fields : List (Field ν ε StyleRules) :=
  [ .optional "property_statuses" (readStatuses f) (fun a s => { s with propertyStatuses := a }),
    .optional "value_statuses" (readStatuses f) (fun a s => { s with valueStatuses := a }),
    .optional "scan_values" f.boolean (fun a s => { s with scanValues := a }) ]

/-- Read the rules for style sheets. -/
def read (node : ν) : Except ε StyleRules :=
  f.readRecord "StyleScanConfig" true (fields f) {} node

end StyleRules

namespace ScanSettings

/-- Read names with their fragments. -/
def readNames (node : ν) : Except ε NameTable := do
  f.readTexts (fun name fragment t => t.insert name fragment) node (← f.entries node) .empty

/-- The fields of the rules for scripts. -/
def scriptFields : List (Field ν ε NameTable) :=
  [ .optional "extra_names" (readNames f) (fun a _ => a) ]

/-- Read the rules for scripts. -/
def readScript (node : ν) : Except ε NameTable :=
  f.readRecord "ScriptScanConfig" true (scriptFields f) .empty node

/-- The fields of the section. -/
def fields : List (Field ν ε ScanSettings) :=
  [ .optional "priority" (PriorityPolicy.read f) (fun a s => { s with priority := a }),
    .optional "style" (StyleRules.read f) (fun a s => { s with style := a }),
    .optional "script" (readScript f) (fun a s => { s with extraNames := a }) ]

/-- Read the section. -/
def read (node : ν) : Except ε ScanSettings :=
  f.readRecord "ScanConfig" true (fields f) {} node

end ScanSettings

namespace WorkspaceSettings

/-- The fields of the section. -/
def fields : List (Field ν ε WorkspaceSettings) :=
  [ .optional "ignore_dirs" (f.readList (readString f)) (fun a s => { s with ignoreDirs := a }) ]

/-- Read the section. -/
def read (node : ν) : Except ε WorkspaceSettings :=
  f.readRecord "WorkspaceConfig" true (fields f) {} node

end WorkspaceSettings

/-- A document of settings: its version, and the sections that are given. -/
structure SettingsDocument where
  version : Option UInt32 := none
  catalog : Option CatalogSettings := none
  cache : Option CacheSettings := none
  scan : Option ScanSettings := none
  workspace : Option WorkspaceSettings := none
deriving DecidableEq, Repr, Inhabited

namespace SettingsDocument

/-- The parts of a document. -/
def fields : List (Field ν ε SettingsDocument) :=
  [ .optional "version" (f.readOptional (readUInt32 f)) (fun a d => { d with version := a }),
    .optional "catalog" (f.readOptional (CatalogSettings.read f))
      (fun a d => { d with catalog := a }),
    .optional "cache" (f.readOptional (CacheSettings.read f)) (fun a d => { d with cache := a }),
    .optional "scan" (f.readOptional (ScanSettings.read f)) (fun a d => { d with scan := a }),
    .optional "workspace" (f.readOptional (WorkspaceSettings.read f))
      (fun a d => { d with workspace := a }) ]

/-- Read a document. -/
def read (node : ν) : Except ε SettingsDocument :=
  f.readRecord "ConfigFileV1" true (fields f) {} node

end SettingsDocument

end WebBaseline
