import WebBaseline.Proofs.Decoding.Giving
import WebBaseline.Settings.Decoding

/-!
# Settings of which some are given

A section of settings may give any of its fields.  The settings that it means
have the given values, and the standard values of all other fields; `Partial`
holds the given ones, level by level.

* `CatalogSettings.Partial`, `CacheSettings.Partial`, `PriorityPolicy.Partial`,
  `StyleRules.Partial`, `ScanSettings.Partial`, `WorkspaceSettings.Partial` — the
  sections, each with the settings that it means;
* `SettingsDocument.Partial` — whole documents, of which sections may be missing;
* `read_of_isGiven`, for each of them — a node that gives it is read as what it means.
-/

namespace WebBaseline

open Decoding

variable {ν ε : Type} (f : Format ν ε)

namespace CatalogSettings

/-- The fields that a section gives. -/
structure Partial where
  baseUrl : Option String := none
  endpoint : Option String := none
  cacheTtlSecs : Option UInt64 := none
  maxAttempts : Option UInt32 := none
  backoffBaseMs : Option UInt64 := none
  requestTimeoutSecs : Option UInt64 := none

namespace Partial

variable (p : Partial)

/-- The settings that they mean. -/
def settings : CatalogSettings where
  baseUrl := p.baseUrl.getD "https://api.webstatus.dev/v1"
  endpoint := p.endpoint.getD "/features"
  cacheTtlSecs := p.cacheTtlSecs.getD 86400
  maxAttempts := p.maxAttempts.getD 3
  backoffBaseMs := p.backoffBaseMs.getD 1000
  requestTimeoutSecs := p.requestTimeoutSecs.getD 30

/-- The fields with their values. -/
def parts : List (Given ν CatalogSettings) :=
  given "base_url" (reads (readString f)) (fun a s => { s with baseUrl := a }) p.baseUrl ++
  given "endpoint" (reads (readString f)) (fun a s => { s with endpoint := a }) p.endpoint ++
  given "cache_ttl_secs" (reads (readUInt64 f)) (fun a s => { s with cacheTtlSecs := a })
    p.cacheTtlSecs ++
  given "max_attempts" (reads (readUInt32 f)) (fun a s => { s with maxAttempts := a })
    p.maxAttempts ++
  given "backoff_base_ms" (reads (readUInt64 f)) (fun a s => { s with backoffBaseMs := a })
    p.backoffBaseMs ++
  given "request_timeout_secs" (reads (readUInt64 f))
    (fun a s => { s with requestTimeoutSecs := a }) p.requestTimeoutSecs

/-- Whether a node gives just these fields. -/
def isGiven (n : ν) : Bool := f.gives (p.parts f) n

variable {f} in
/-- The section is read as what it means. -/
theorem read_of_isGiven (hregular : f.Regular) (p : Partial) (n : ν) (h : p.isGiven f n = true) :
    CatalogSettings.read f n = .ok p.settings := by
  have hread : AllRead (fields f) (p.parts f) :=
    (((((AllRead.of_reads rfl).append (.of_reads rfl)).append (.of_reads rfl)).append
      (.of_reads rfl)).append (.of_reads rfl)).append (.of_reads rfl)
  have hapart : AllApart (p.parts f) := by
    simp only [AllApart, parts, List.forall_mem_append, forall_mem_given, implies_true, and_self,
      ne_eq, not_true_eq_false, false_imp_iff]
  -- Each field that is left out keeps what the record starts with.
  have hresult : (p.parts f).foldl (fun r q => q.change r) {} = p.settings := by
    simp only [parts, List.foldl_append, foldl_given]
    obtain ⟨baseUrl, endpoint, cacheTtlSecs, maxAttempts, backoffBaseMs, requestTimeoutSecs⟩ := p
    cases baseUrl <;> cases endpoint <;> cases cacheTtlSecs <;> cases maxAttempts <;>
      cases backoffBaseMs <;> cases requestTimeoutSecs <;> rfl
  rw [← hresult]
  exact readRecord_of_gives hregular (by simp [fields, Field.optional]) hread hapart _ _ _ h

end Partial

end CatalogSettings

namespace CacheSettings

/-- The fields that a section gives; a path may be given as nothing. -/
structure Partial where
  path : Option (Option String) := none
  persistent : Option Bool := none

namespace Partial

variable (p : Partial)

/-- The settings that they mean. -/
def settings : CacheSettings where
  path := p.path.getD none
  persistent := p.persistent.getD true

/-- The fields with their values. -/
def parts : List (Given ν CacheSettings) :=
  given "path" (reads (f.readOptional (f.text "path string"))) (fun a s => { s with path := a })
    p.path ++
  given "persistent" (reads f.boolean) (fun a s => { s with persistent := a }) p.persistent

/-- Whether a node gives just these fields. -/
def isGiven (n : ν) : Bool := f.gives (p.parts f) n

variable {f} in
/-- The section is read as what it means. -/
theorem read_of_isGiven (hregular : f.Regular) (p : Partial) (n : ν) (h : p.isGiven f n = true) :
    CacheSettings.read f n = .ok p.settings := by
  have hread : AllRead (fields f) (p.parts f) :=
    (AllRead.of_reads rfl).append (.of_reads rfl)
  have hapart : AllApart (p.parts f) := by
    simp only [AllApart, parts, List.forall_mem_append, forall_mem_given, implies_true, and_self,
      ne_eq, not_true_eq_false, false_imp_iff]
  have hresult : (p.parts f).foldl (fun r q => q.change r) {} = p.settings := by
    simp only [parts, List.foldl_append, foldl_given]
    obtain ⟨path, persistent⟩ := p
    cases path <;> cases persistent <;> rfl
  rw [← hresult]
  exact readRecord_of_gives hregular (by simp [fields, Field.optional]) hread hapart _ _ _ h

end Partial

end CacheSettings

namespace PriorityPolicy

/-- The fields that a policy gives. -/
structure Partial where
  widely : Option Priority := none
  newly : Option Priority := none
  limited : Option Priority := none
  unknown : Option Priority := none

namespace Partial

variable (p : Partial)

/-- The policy that they mean. -/
def settings : PriorityPolicy where
  widely := p.widely.getD .low
  newly := p.newly.getD .medium
  limited := p.limited.getD .high
  unknown := p.unknown.getD .low

/-- The fields with their values. -/
def parts : List (Given ν PriorityPolicy) :=
  given "widely" (reads (readPriority f)) (fun a s => { s with widely := a }) p.widely ++
  given "newly" (reads (readPriority f)) (fun a s => { s with newly := a }) p.newly ++
  given "limited" (reads (readPriority f)) (fun a s => { s with limited := a }) p.limited ++
  given "unknown" (reads (readPriority f)) (fun a s => { s with unknown := a }) p.unknown

/-- Whether a node gives just these fields. -/
def isGiven (n : ν) : Bool := f.gives (p.parts f) n

variable {f} in
/-- A policy is read as what it means. -/
theorem read_of_isGiven (hregular : f.Regular) (p : Partial) (n : ν) (h : p.isGiven f n = true) :
    PriorityPolicy.read f n = .ok p.settings := by
  have hread : AllRead (fields f) (p.parts f) :=
    (((AllRead.of_reads rfl).append (.of_reads rfl)).append (.of_reads rfl)).append (.of_reads rfl)
  have hapart : AllApart (p.parts f) := by
    simp only [AllApart, parts, List.forall_mem_append, forall_mem_given, implies_true, and_self,
      ne_eq, not_true_eq_false, false_imp_iff]
  have hresult : (p.parts f).foldl (fun r q => q.change r) {} = p.settings := by
    simp only [parts, List.foldl_append, foldl_given]
    obtain ⟨widely, newly, limited, unknown⟩ := p
    cases widely <;> cases newly <;> cases limited <;> cases unknown <;> rfl
  rw [← hresult]
  exact readRecord_of_gives hregular (by simp [fields, Field.optional]) hread hapart _ _ _ h

end Partial

end PriorityPolicy

namespace StyleRules

/-- The fields that rules for style sheets give. -/
structure Partial where
  propertyStatuses : Option (List Status) := none
  valueStatuses : Option (List Status) := none
  scanValues : Option Bool := none

namespace Partial

variable (p : Partial)

/-- The rules that they mean. -/
def settings : StyleRules where
  propertyStatuses := p.propertyStatuses.getD [.limited, .newly]
  valueStatuses := p.valueStatuses.getD [.limited, .newly]
  scanValues := p.scanValues.getD true

/-- The fields with their values. -/
def parts : List (Given ν StyleRules) :=
  given "property_statuses" (reads (readStatuses f)) (fun a s => { s with propertyStatuses := a })
    p.propertyStatuses ++
  given "value_statuses" (reads (readStatuses f)) (fun a s => { s with valueStatuses := a })
    p.valueStatuses ++
  given "scan_values" (reads f.boolean) (fun a s => { s with scanValues := a }) p.scanValues

/-- Whether a node gives just these fields. -/
def isGiven (n : ν) : Bool := f.gives (p.parts f) n

variable {f} in
/-- The rules are read as what they mean. -/
theorem read_of_isGiven (hregular : f.Regular) (p : Partial) (n : ν) (h : p.isGiven f n = true) :
    StyleRules.read f n = .ok p.settings := by
  have hread : AllRead (fields f) (p.parts f) :=
    ((AllRead.of_reads rfl).append (.of_reads rfl)).append (.of_reads rfl)
  have hapart : AllApart (p.parts f) := by
    simp only [AllApart, parts, List.forall_mem_append, forall_mem_given, implies_true, and_self,
      ne_eq, not_true_eq_false, false_imp_iff]
  have hresult : (p.parts f).foldl (fun r q => q.change r) {} = p.settings := by
    simp only [parts, List.foldl_append, foldl_given]
    obtain ⟨propertyStatuses, valueStatuses, scanValues⟩ := p
    cases propertyStatuses <;> cases valueStatuses <;> cases scanValues <;> rfl
  rw [← hresult]
  exact readRecord_of_gives hregular (by simp [fields, Field.optional]) hread hapart _ _ _ h

end Partial

end StyleRules

namespace ScanSettings

/-- The one field of the rules for scripts. -/
def scriptParts (names : Option NameTable) : List (Given ν NameTable) :=
  given "extra_names" (reads (readNames f)) (fun a _ => a) names

/-- Whether a node gives the rules for scripts with just these names, or without any. -/
def scriptIsGiven (names : Option NameTable) (n : ν) : Bool := f.gives (scriptParts f names) n

variable {f} in
/-- The rules for scripts are read as the names, of which there are none by themselves. -/
theorem readScript_of_isGiven (hregular : f.Regular) (names : Option NameTable) (n : ν)
    (h : scriptIsGiven f names n = true) : readScript f n = .ok (names.getD .empty) := by
  have hapart : AllApart (scriptParts f names) := by
    simp only [AllApart, scriptParts, forall_mem_given, implies_true, ne_eq, not_true_eq_false,
      false_imp_iff]
  have hresult : (scriptParts f names).foldl (fun r q => q.change r) .empty =
      names.getD .empty := by
    rw [scriptParts, foldl_given]
    cases names <;> rfl
  rw [← hresult]
  exact readRecord_of_gives hregular (by simp [scriptFields, Field.optional])
    (AllRead.of_reads rfl) hapart _ _ _ h

/-- The fields that a section gives. -/
structure Partial where
  priority : Option PriorityPolicy.Partial := none
  style : Option StyleRules.Partial := none
  /-- The rules for scripts, which have one field. -/
  script : Option (Option NameTable) := none

namespace Partial

variable (p : Partial)

/-- The settings that they mean. -/
def settings : ScanSettings where
  priority := (p.priority.getD {}).settings
  style := (p.style.getD {}).settings
  extraNames := (p.script.getD none).getD .empty

/-- The fields with their values. -/
def parts : List (Given ν ScanSettings) :=
  given "priority" (PriorityPolicy.Partial.isGiven f)
    (fun a s => { s with priority := a.settings }) p.priority ++
  given "style" (StyleRules.Partial.isGiven f) (fun a s => { s with style := a.settings })
    p.style ++
  given "script" (scriptIsGiven f) (fun a s => { s with extraNames := a.getD .empty }) p.script

/-- Whether a node gives just these fields. -/
def isGiven (n : ν) : Bool := f.gives (p.parts f) n

variable {f} in
/-- The section is read as what it means. -/
theorem read_of_isGiven (hregular : f.Regular) (p : Partial) (n : ν) (h : p.isGiven f n = true) :
    ScanSettings.read f n = .ok p.settings := by
  have hread : AllRead (fields f) (p.parts f) := by
    refine .append (.append ?_ ?_) ?_
    · exact .of_states PriorityPolicy.Partial.settings rfl (fun _ => rfl)
        (PriorityPolicy.Partial.read_of_isGiven hregular)
    · exact .of_states StyleRules.Partial.settings rfl (fun _ => rfl)
        (StyleRules.Partial.read_of_isGiven hregular)
    · exact .of_states (fun names : Option NameTable => names.getD .empty) rfl (fun _ => rfl)
        (readScript_of_isGiven hregular)
  have hapart : AllApart (p.parts f) := by
    simp only [AllApart, parts, List.forall_mem_append, forall_mem_given, implies_true, and_self,
      ne_eq, not_true_eq_false, false_imp_iff]
  have hresult : (p.parts f).foldl (fun r q => q.change r) {} = p.settings := by
    simp only [parts, List.foldl_append, foldl_given]
    obtain ⟨priority, style, script⟩ := p
    cases priority <;> cases style <;> cases script <;> rfl
  rw [← hresult]
  exact readRecord_of_gives hregular (by simp [fields, Field.optional]) hread hapart _ _ _ h

end Partial

end ScanSettings

namespace WorkspaceSettings

/-- The fields that a section gives. -/
structure Partial where
  ignoreDirs : Option (List String) := none

namespace Partial

variable (p : Partial)

/-- The settings that they mean. -/
def settings : WorkspaceSettings where
  ignoreDirs := p.ignoreDirs.getD ["node_modules", ".git"]

/-- The fields with their values. -/
def parts : List (Given ν WorkspaceSettings) :=
  given "ignore_dirs" (reads (f.readList (readString f))) (fun a s => { s with ignoreDirs := a })
    p.ignoreDirs

/-- Whether a node gives just these fields. -/
def isGiven (n : ν) : Bool := f.gives (p.parts f) n

variable {f} in
/-- The section is read as what it means. -/
theorem read_of_isGiven (hregular : f.Regular) (p : Partial) (n : ν) (h : p.isGiven f n = true) :
    WorkspaceSettings.read f n = .ok p.settings := by
  have hapart : AllApart (p.parts f) := by
    simp only [AllApart, parts, forall_mem_given, implies_true, ne_eq, not_true_eq_false,
      false_imp_iff]
  have hresult : (p.parts f).foldl (fun r q => q.change r) {} = p.settings := by
    rw [parts, foldl_given]
    obtain ⟨ignoreDirs⟩ := p
    cases ignoreDirs <;> rfl
  rw [← hresult]
  exact readRecord_of_gives hregular (by simp [fields, Field.optional])
    (AllRead.of_reads rfl) hapart _ _ _ h

end Partial

end WorkspaceSettings

namespace SettingsDocument

/-- What a document gives: its version, and sections, each of which may be given as nothing. -/
structure Partial where
  version : Option (Option UInt32) := none
  catalog : Option (Option CatalogSettings.Partial) := none
  cache : Option (Option CacheSettings.Partial) := none
  scan : Option (Option ScanSettings.Partial) := none
  workspace : Option (Option WorkspaceSettings.Partial) := none

namespace Partial

variable (p : Partial)

/-- The settings that the sections mean. -/
def settings : Settings where
  catalog := ((p.catalog.getD none).getD {}).settings
  cache := ((p.cache.getD none).getD {}).settings
  scan := ((p.scan.getD none).getD {}).settings
  workspace := ((p.workspace.getD none).getD {}).settings

/-- The document that is read. -/
def document : SettingsDocument where
  version := p.version.getD none
  catalog := (p.catalog.getD none).map (·.settings)
  cache := (p.cache.getD none).map (·.settings)
  scan := (p.scan.getD none).map (·.settings)
  workspace := (p.workspace.getD none).map (·.settings)

/-- The parts with their values. -/
def parts : List (Given ν SettingsDocument) :=
  given "version" (reads (f.readOptional (readUInt32 f))) (fun a d => { d with version := a })
    p.version ++
  given "catalog" (f.statesOptional (CatalogSettings.Partial.isGiven f))
    (fun a d => { d with catalog := a.map (·.settings) }) p.catalog ++
  given "cache" (f.statesOptional (CacheSettings.Partial.isGiven f))
    (fun a d => { d with cache := a.map (·.settings) }) p.cache ++
  given "scan" (f.statesOptional (ScanSettings.Partial.isGiven f))
    (fun a d => { d with scan := a.map (·.settings) }) p.scan ++
  given "workspace" (f.statesOptional (WorkspaceSettings.Partial.isGiven f))
    (fun a d => { d with workspace := a.map (·.settings) }) p.workspace

/-- Whether a node gives just these parts. -/
def isGiven (n : ν) : Bool := f.gives (p.parts f) n

variable {f} in
/-- **Documents.**  What gives parts of settings, in any order, is read as them. -/
theorem read_of_isGiven (hregular : f.Regular) (p : Partial) (n : ν) (h : p.isGiven f n = true) :
    SettingsDocument.read f n = .ok p.document := by
  have hread : AllRead (fields f) (p.parts f) := by
    refine .append (.append (.append (.append ?_ ?_) ?_) ?_) ?_
    · exact .of_reads rfl
    · exact .of_states (Option.map CatalogSettings.Partial.settings) rfl (fun _ => rfl) fun _ _ =>
        readOptional_of_statesOptional (CatalogSettings.Partial.read_of_isGiven hregular)
    · exact .of_states (Option.map CacheSettings.Partial.settings) rfl (fun _ => rfl) fun _ _ =>
        readOptional_of_statesOptional (CacheSettings.Partial.read_of_isGiven hregular)
    · exact .of_states (Option.map ScanSettings.Partial.settings) rfl (fun _ => rfl) fun _ _ =>
        readOptional_of_statesOptional (ScanSettings.Partial.read_of_isGiven hregular)
    · exact .of_states (Option.map WorkspaceSettings.Partial.settings) rfl (fun _ => rfl) fun _ _ =>
        readOptional_of_statesOptional (WorkspaceSettings.Partial.read_of_isGiven hregular)
  have hapart : AllApart (p.parts f) := by
    simp only [AllApart, parts, List.forall_mem_append, forall_mem_given, implies_true, and_self,
      ne_eq, not_true_eq_false, false_imp_iff]
  have hresult : (p.parts f).foldl (fun r q => q.change r) {} = p.document := by
    simp only [parts, List.foldl_append, foldl_given]
    obtain ⟨version, catalog, cache, scan, workspace⟩ := p
    cases version <;> cases catalog <;> cases cache <;> cases scan <;> cases workspace <;> rfl
  rw [← hresult]
  exact readRecord_of_gives hregular (by simp [fields, Field.optional]) hread hapart _ _ _ h

end Partial

end SettingsDocument

end WebBaseline
