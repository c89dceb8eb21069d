import WebBaseline.Proofs.Decoding.Restoring
import WebBaseline.Proofs.Scan.Names
import WebBaseline.Settings.Decoding
import WebBaseline.Settings.Encoding

/-!
# Reading settings back

Every section that is written is read back by a format that restores scalars,
lists and records.  What is not written is what reading starts from: no path of
the cache, and no further names.

* `CatalogSettings.read_write`, `CacheSettings.read_write`,
  `ScanSettings.read_write`, `WorkspaceSettings.read_write` — the sections;
* `SettingsDocument.read_write` — a document with all of them.
-/

namespace WebBaseline

open Decoding

variable {μ ν ε : Type} {t : Encoding.Target μ} {f : Format ν ε} {conveys : μ → ν → Prop}

/-! ### Parts of records -/

namespace Decoding.Restores

variable {α : Type} (h : Restores t f conveys)

include h

/-- A number of 64 bits is read back. -/
theorem readUInt64 (k : UInt64) (n : ν) (hn : conveys (t.natural k.toNat) n) :
    readUInt64 f n = .ok k := by
  rw [WebBaseline.readUInt64, h.natural hn k.toNat_lt_size (Nat.le_refl _)]
  exact congrArg Except.ok UInt64.ofNat_toNat

/-- A number of 32 bits is read back. -/
theorem readUInt32 (k : UInt32) (n : ν) (hn : conveys (t.natural k.toNat) n) :
    readUInt32 f n = .ok k := by
  rw [WebBaseline.readUInt32, h.natural hn k.toNat_lt_size (by decide)]
  exact congrArg Except.ok UInt32.ofNat_toNat

/-- A text is read back. -/
theorem readString (s : String) (n : ν) (hn : conveys (t.text s) n) : readString f n = .ok s :=
  h.text hn "a string"

/-- A truth value is read back. -/
theorem readBoolean (b : Bool) (n : ν) (hn : conveys (t.boolean b) n) : f.boolean n = .ok b :=
  h.boolean hn

/-- A priority is read back from its name. -/
theorem readPriority (p : Priority) (n : ν) (hn : conveys (p.write t) n) :
    readPriority f n = .ok p :=
  h.readChoice (by cases p <;> decide) hn

/-- Statuses are read back from their labels, beside which there are short names. -/
theorem readStatuses (statuses : List Status) (n : ν)
    (hn : conveys (writeStatuses t statuses) n) : readStatuses f n = .ok statuses :=
  h.readList (fun s _ => h.readChoice (by cases s <;> decide)) hn

omit h in
/-- What is written and may be left out is read as something. -/
theorem readOptional {read : ν → Except ε α} {w : μ} {a : α}
    (hsomething : ∀ n, conveys w n → f.isNothing n = .ok false)
    (hread : ∀ n, conveys w n → read n = .ok a) (n : ν) (hn : conveys w n) :
    f.readOptional read n = .ok (some a) := by
  simp [Format.readOptional, hsomething n hn, hread n hn, bind, Except.bind, Except.map]

end Decoding.Restores

variable (h : Restores t f conveys)

/-! ### Catalog and cache -/

namespace CatalogSettings

/-- The parts that are written of the section. -/
def parts (t : Encoding.Target μ) (s : CatalogSettings) : List (Part μ CatalogSettings) :=
  [⟨"base_url", t.text s.baseUrl, fun r => { r with baseUrl := s.baseUrl }⟩,
   ⟨"endpoint", t.text s.endpoint, fun r => { r with endpoint := s.endpoint }⟩,
   ⟨"cache_ttl_secs", t.natural s.cacheTtlSecs.toNat,
    fun r => { r with cacheTtlSecs := s.cacheTtlSecs }⟩,
   ⟨"max_attempts", t.natural s.maxAttempts.toNat,
    fun r => { r with maxAttempts := s.maxAttempts }⟩,
   ⟨"backoff_base_ms", t.natural s.backoffBaseMs.toNat,
    fun r => { r with backoffBaseMs := s.backoffBaseMs }⟩,
   ⟨"request_timeout_secs", t.natural s.requestTimeoutSecs.toNat,
    fun r => { r with requestTimeoutSecs := s.requestTimeoutSecs }⟩]

include h in
/-- The section is read back. -/
theorem read_write (s : CatalogSettings) (n : ν) (hn : conveys (s.write t) n) :
    read f n = .ok s := by
  have hparts : ∀ p ∈ s.parts t, p.IsRead conveys (fields f) := by
    simp only [parts, List.forall_mem_cons, List.not_mem_nil, false_imp_iff, implies_true,
      and_true]
    exact ⟨Part.isRead_of_find rfl (h.readString _) rfl, Part.isRead_of_find rfl (h.readString _) rfl,
      Part.isRead_of_find rfl (h.readUInt64 _) rfl, Part.isRead_of_find rfl (h.readUInt32 _) rfl,
      Part.isRead_of_find rfl (h.readUInt64 _) rfl, Part.isRead_of_find rfl (h.readUInt64 _) rfl⟩
  exact h.readRecord hparts (by simp [parts]) (by simp [fields, Field.optional]) _ _ _ hn

end CatalogSettings

namespace CacheSettings

/-- The parts that are written of the section. -/
def parts (t : Encoding.Target μ) (s : CacheSettings) : List (Part μ CacheSettings) :=
  (s.path.map fun path => ⟨"path", t.text path, fun r => { r with path := some path }⟩).toList ++
    [⟨"persistent", t.boolean s.persistent, fun r => { r with persistent := s.persistent }⟩]

include h in
/-- The section is read back.  If there is no path, none is written, and reading starts from
none. -/
theorem read_write (s : CacheSettings) (n : ν) (hn : conveys (s.write t) n) :
    read f n = .ok s := by
  have hpersistent : Part.IsRead conveys (fields f)
      (⟨"persistent", t.boolean s.persistent, fun r => { r with persistent := s.persistent }⟩ :
        Part μ CacheSettings) := Part.isRead_of_find rfl (h.readBoolean _) rfl
  obtain ⟨path, persistent⟩ := s
  cases path with
  | none =>
      exact h.readRecord (List.forall_mem_singleton.mpr hpersistent) (by simp)
        (by simp [fields, Field.optional]) _ _ _ hn
  | some path =>
      have hpath : Part.IsRead conveys (fields f)
          (⟨"path", t.text path, fun r => { r with path := some path }⟩ : Part μ CacheSettings) :=
        Part.isRead_of_find rfl
          (Restores.readOptional (fun _ => h.text_isNothing) fun _ hn => h.text hn _) rfl
      exact h.readRecord (List.forall_mem_cons.mpr ⟨hpath, List.forall_mem_singleton.mpr hpersistent⟩)
        (by simp) (by simp [fields, Field.optional]) _ _ _ hn

end CacheSettings

/-! ### Scans and workspaces -/

/-- The parts that are written of a policy. -/
def PriorityPolicy.parts (t : Encoding.Target μ) (p : PriorityPolicy) :
    List (Part μ PriorityPolicy) :=
  [⟨"widely", p.widely.write t, fun r => { r with widely := p.widely }⟩,
   ⟨"newly", p.newly.write t, fun r => { r with newly := p.newly }⟩,
   ⟨"limited", p.limited.write t, fun r => { r with limited := p.limited }⟩,
   ⟨"unknown", p.unknown.write t, fun r => { r with unknown := p.unknown }⟩]

include h in
/-- A policy is read back. -/
theorem PriorityPolicy.read_write (p : PriorityPolicy) (n : ν) (hn : conveys (p.write t) n) :
    read f n = .ok p := by
  have hparts : ∀ q ∈ p.parts t, q.IsRead conveys (fields f) := by
    simp only [parts, List.forall_mem_cons, List.not_mem_nil, false_imp_iff, implies_true,
      and_true]
    exact ⟨Part.isRead_of_find rfl (h.readPriority _) rfl,
      Part.isRead_of_find rfl (h.readPriority _) rfl,
      Part.isRead_of_find rfl (h.readPriority _) rfl,
      Part.isRead_of_find rfl (h.readPriority _) rfl⟩
  exact h.readRecord hparts (by simp [parts]) (by simp [fields, Field.optional]) _ _ _ hn

/-- The parts that are written of the rules for style sheets. -/
def StyleRules.parts (t : Encoding.Target μ) (s : StyleRules) : List (Part μ StyleRules) :=
  [⟨"property_statuses", writeStatuses t s.propertyStatuses,
    fun r => { r with propertyStatuses := s.propertyStatuses }⟩,
   ⟨"value_statuses", writeStatuses t s.valueStatuses,
    fun r => { r with valueStatuses := s.valueStatuses }⟩,
   ⟨"scan_values", t.boolean s.scanValues, fun r => { r with scanValues := s.scanValues }⟩]

include h in
/-- The rules for style sheets are read back. -/
theorem StyleRules.read_write (s : StyleRules) (n : ν) (hn : conveys (s.write t) n) :
    read f n = .ok s := by
  have hparts : ∀ p ∈ s.parts t, p.IsRead conveys (fields f) := by
    simp only [parts, List.forall_mem_cons, List.not_mem_nil, false_imp_iff, implies_true,
      and_true]
    exact ⟨Part.isRead_of_find rfl (h.readStatuses _) rfl,
      Part.isRead_of_find rfl (h.readStatuses _) rfl,
      Part.isRead_of_find rfl (h.readBoolean _) rfl⟩
  exact h.readRecord hparts (by simp [parts]) (by simp [fields, Field.optional]) _ _ _ hn

namespace ScanSettings

include h in
/-- Names are read back with their fragments: their order is that in which they are inserted. -/
theorem readNames_write (names : NameTable) (n : ν)
    (hn : conveys (t.record (names.entries.map fun e => (e.1, t.text e.2))) n) :
    readNames f n = .ok names := by
  obtain ⟨entries, -, hentries, hall⟩ := h.entries hn
  have htexts : List.Forall₂
      (fun p e => f.text "a string" e.1 = .ok p.1 ∧ f.text "a string" e.2 = .ok p.2)
      names.entries entries :=
    (List.forall₂_map_left_iff.mp hall).imp fun _ _ he => ⟨he.1 _, h.text he.2 _⟩
  rw [readNames, hentries]
  refine (readTexts_of_forall f _ n htexts NameTable.empty).trans (congrArg Except.ok ?_)
  exact names.ofList_entries

include h in
/-- The rules for scripts are read back.  If there are no names, none are written, and reading
starts from none. -/
theorem readScript_writeScript (names : NameTable) (n : ν)
    (hn : conveys (writeScript t names) n) : readScript f n = .ok names := by
  rw [writeScript] at hn
  split at hn
  · rename_i hempty
    obtain rfl : NameTable.empty = names := NameTable.ext (List.isEmpty_iff.mp hempty).symm
    have hparts : ∀ p ∈ ([] : List (Part μ NameTable)), p.IsRead conveys (scriptFields f) :=
      fun _ hp => absurd hp List.not_mem_nil
    exact h.readRecord hparts (by simp) (by simp [scriptFields, Field.optional]) _ _ _ hn
  · have hpart : Part.IsRead conveys (scriptFields f)
        (⟨"extra_names", t.record (names.entries.map fun e => (e.1, t.text e.2)), fun _ => names⟩ :
          Part μ NameTable) := Part.isRead_of_find rfl (readNames_write h names) rfl
    exact h.readRecord (List.forall_mem_singleton.mpr hpart) (by simp)
      (by simp [scriptFields, Field.optional]) _ _ _ hn

/-- The parts that are written of the section. -/
def parts (t : Encoding.Target μ) (s : ScanSettings) : List (Part μ ScanSettings) :=
  [⟨"priority", s.priority.write t, fun r => { r with priority := s.priority }⟩,
   ⟨"style", s.style.write t, fun r => { r with style := s.style }⟩,
   ⟨"script", writeScript t s.extraNames, fun r => { r with extraNames := s.extraNames }⟩]

include h in
/-- The section is read back. -/
theorem read_write (s : ScanSettings) (n : ν) (hn : conveys (s.write t) n) :
    read f n = .ok s := by
  have hparts : ∀ p ∈ s.parts t, p.IsRead conveys (fields f) := by
    simp only [parts, List.forall_mem_cons, List.not_mem_nil, false_imp_iff, implies_true,
      and_true]
    exact ⟨Part.isRead_of_find rfl (s.priority.read_write h) rfl,
      Part.isRead_of_find rfl (s.style.read_write h) rfl,
      Part.isRead_of_find rfl (readScript_writeScript h s.extraNames) rfl⟩
  exact h.readRecord hparts (by simp [parts]) (by simp [fields, Field.optional]) _ _ _ hn

end ScanSettings

include h in
/-- The settings of workspaces are read back. -/
theorem WorkspaceSettings.read_write (s : WorkspaceSettings) (n : ν)
    (hn : conveys (s.write t) n) : read f n = .ok s := by
  have hpart : Part.IsRead conveys (fields f)
      (⟨"ignore_dirs", t.list (s.ignoreDirs.map t.text), fun r => { r with ignoreDirs := s.ignoreDirs }⟩ :
        Part μ WorkspaceSettings) :=
    Part.isRead_of_find rfl (fun _ => h.readList h.readString) rfl
  exact h.readRecord (List.forall_mem_singleton.mpr hpart) (by simp)
    (by simp [fields, Field.optional]) _ _ _ hn

/-! ### Documents -/

namespace SettingsDocument

/-- The document of settings: all sections are given, with the current version. -/
def ofSettings (s : Settings) : SettingsDocument where
  version := some (UInt32.ofNat Settings.currentVersion)
  catalog := some s.catalog
  cache := some s.cache
  scan := some s.scan
  workspace := some s.workspace

/-- The parts that are written of settings. -/
def parts (t : Encoding.Target μ) (s : Settings) : List (Part μ SettingsDocument) :=
  [⟨"version", t.natural Settings.currentVersion,
    fun d => { d with version := (ofSettings s).version }⟩,
   ⟨"catalog", s.catalog.write t, fun d => { d with catalog := some s.catalog }⟩,
   ⟨"cache", s.cache.write t, fun d => { d with cache := some s.cache }⟩,
   ⟨"scan", s.scan.write t, fun d => { d with scan := some s.scan }⟩,
   ⟨"workspace", s.workspace.write t, fun d => { d with workspace := some s.workspace }⟩]

include h in
/-- **Documents.**  What is written for settings is read back as the document with all their
sections. -/
theorem read_write (s : Settings) (n : ν) (hn : conveys (s.write t) n) :
    read f n = .ok (ofSettings s) := by
  have hrecord : ∀ parts n, conveys (t.record parts) n → f.isNothing n = .ok false :=
    fun _ _ => h.record_isNothing
  have hparts : ∀ p ∈ parts t s, p.IsRead conveys (fields f) := by
    simp only [parts, List.forall_mem_cons, List.not_mem_nil, false_imp_iff, implies_true,
      and_true]
    exact ⟨Part.isRead_of_find rfl (Restores.readOptional
        (fun _ hn => h.natural_isNothing hn (by decide))
        (h.readUInt32 (UInt32.ofNat Settings.currentVersion))) rfl,
      Part.isRead_of_find rfl (Restores.readOptional (hrecord _) (s.catalog.read_write h)) rfl,
      Part.isRead_of_find rfl (Restores.readOptional (hrecord _) (s.cache.read_write h)) rfl,
      Part.isRead_of_find rfl (Restores.readOptional (hrecord _) (s.scan.read_write h)) rfl,
      Part.isRead_of_find rfl (Restores.readOptional (hrecord _) (s.workspace.read_write h)) rfl⟩
  exact h.readRecord hparts (by simp [parts]) (by simp [fields, Field.optional]) _ _ _ hn

end SettingsDocument

end WebBaseline
