import WebBaseline.Settings.Basic

/-!
# Valid settings

Settings have to meet requirements, in a fixed order; the first that they
violate is the error.

* `Settings.requirements` — the requirements with their errors;
* `FirstViolated` — the first violated one of a list;
* `Settings.Valid`, `Settings.requirements_hold_iff` — settings that meet all of them;
* `Settings.validate_eq_ok_iff`, `Settings.validate_eq_error_iff` — what validation finds.
-/

namespace WebBaseline

namespace Text

/-- A text is not all blank if it has a character that is no blank. -/
theorem isAllBlank_eq_false_iff {s : String} :
    isAllBlank s = false ↔ ∃ c ∈ s.toList, isBlank c = false := by
  rw [isAllBlank, List.all_eq_false]
  simp only [Bool.not_eq_true]

end Text

/-- A requirement, with the error of what violates it. -/
structure Requirement where
  holds : Prop
  error : Invalid

/-- The error of the first violated requirement of a list. -/
inductive FirstViolated : List Requirement → Invalid → Prop
  | here {r : Requirement} {rest : List Requirement} (violated : ¬ r.holds) :
      FirstViolated (r :: rest) r.error
  | later {r : Requirement} {rest : List Requirement} {e : Invalid} (holds : r.holds)
      (found : FirstViolated rest e) : FirstViolated (r :: rest) e

namespace FirstViolated

variable {r : Requirement} {rest more : List Requirement} {e : Invalid}

/-- Where a requirement is violated, not all hold. -/
theorem exists_not (h : FirstViolated rest e) : ∃ r ∈ rest, ¬ r.holds := by
  induction h with
  | @here r _ violated => exact ⟨r, List.mem_cons_self, violated⟩
  | later _ _ ih =>
      obtain ⟨q, hq, hviolated⟩ := ih
      exact ⟨q, List.mem_cons_of_mem _ hq, hviolated⟩

/-- There is one first violated requirement. -/
theorem unique (h : FirstViolated rest e) {e' : Invalid} (h' : FirstViolated rest e') :
    e = e' := by
  induction h with
  | here violated =>
      cases h' with
      | here => rfl
      | later holds => exact absurd holds violated
  | later holds _ ih =>
      cases h' with
      | here violated => exact absurd holds violated
      | later _ found => exact ih found

/-- What is violated first stays so if more is required afterwards. -/
theorem append_right (h : FirstViolated rest e) : FirstViolated (rest ++ more) e := by
  induction h with
  | here violated => exact .here violated
  | later holds _ ih => exact .later holds ih

/-- What is violated first stays so after requirements that hold. -/
theorem append_left (hbefore : ∀ r ∈ more, r.holds) (h : FirstViolated rest e) :
    FirstViolated (more ++ rest) e := by
  induction more with
  | nil => exact h
  | cons r more ih =>
      have ⟨hfirst, hothers⟩ := List.forall_mem_cons.mp hbefore
      exact .later hfirst (ih hothers)

end FirstViolated

/-- Whether an outcome is that of checking requirements one after the other. -/
inductive Checks (required : List Requirement) : Except Invalid Unit → Prop
  | ok (all : ∀ r ∈ required, r.holds) : Checks required (.ok ())
  | error {e : Invalid} (found : FirstViolated required e) : Checks required (.error e)

namespace Checks

variable {r : Requirement} {required more : List Requirement} {outcome rest : Except Invalid Unit}

/-- Nothing is required. -/
theorem nil : Checks [] (.ok ()) := .ok fun _ h => absurd h List.not_mem_nil

/-- One requirement is checked before others. -/
theorem cons {violated : Prop} [Decidable violated] (hiff : ¬ violated ↔ r.holds)
    (hrest : Checks required outcome) :
    Checks (r :: required) (if violated then .error r.error else outcome) := by
  split
  next h => exact .error (.here fun hholds => hiff.mpr hholds h)
  next h =>
    have hholds := hiff.mp h
    cases hrest with
    | ok all => exact .ok (List.forall_mem_cons.mpr ⟨hholds, all⟩)
    | error found => exact .error (.later hholds found)

/-- Some requirements are checked before others. -/
theorem append (h : Checks required outcome) (hrest : Checks more rest) :
    Checks (required ++ more) (outcome >>= fun _ => rest) := by
  cases h with
  | error found => exact .error found.append_right
  | ok all =>
      cases hrest with
      | ok others => exact .ok (List.forall_mem_append.mpr ⟨all, others⟩)
      | error found => exact .error (found.append_left all)

/-- The outcome is good if all requirements hold. -/
theorem eq_ok_iff (h : Checks required outcome) :
    outcome = .ok () ↔ ∀ r ∈ required, r.holds := by
  cases h with
  | ok all => exact ⟨fun _ => all, fun _ => rfl⟩
  | error found =>
      obtain ⟨r, hr, hviolated⟩ := found.exists_not
      exact ⟨nofun, fun hall => absurd (hall r hr) hviolated⟩

/-- The error is that of the first violated requirement. -/
theorem eq_error_iff (h : Checks required outcome) {e : Invalid} :
    outcome = .error e ↔ FirstViolated required e := by
  cases h with
  | ok all =>
      refine ⟨nofun, fun hfound => ?_⟩
      obtain ⟨r, hr, hviolated⟩ := hfound.exists_not
      exact absurd (all r hr) hviolated
  | error found =>
      exact ⟨fun heq => Except.error.inj heq ▸ found, fun hfound => by rw [found.unique hfound]⟩

end Checks

namespace CatalogSettings

/-- What is required of the settings for the catalog. -/
def requirements (s : CatalogSettings) : List Requirement :=
  [⟨1 ≤ s.maxAttempts.toNat ∧ s.maxAttempts.toNat ≤ 10,
      .range "catalog.max_attempts" s.maxAttempts.toNat 1 10
        "Use 3 for the standard retry behaviour."⟩,
    ⟨1 ≤ s.cacheTtlSecs.toNat,
      .range "catalog.cache_ttl_secs" s.cacheTtlSecs.toNat 1 18446744073709551615
        "The default is 86400 (24 hours)."⟩,
    ⟨1 ≤ s.requestTimeoutSecs.toNat ∧ s.requestTimeoutSecs.toNat ≤ 600,
      .range "catalog.request_timeout_secs" s.requestTimeoutSecs.toNat 1 600
        "Pick a timeout between one second and ten minutes."⟩,
    ⟨∃ c ∈ s.baseUrl.toList, Text.isBlank c = false,
      .empty "catalog.base_url" "Set it to https://api.webstatus.dev/v1 or a mirror."⟩]

/-- Validation checks them. -/
theorem checks_validate (s : CatalogSettings) : Checks s.requirements s.validate := by
  have hattempts : ¬ (s.maxAttempts < 1 ∨ 10 < s.maxAttempts) ↔
      1 ≤ s.maxAttempts.toNat ∧ s.maxAttempts.toNat ≤ 10 := by
    simp only [UInt32.lt_iff_toNat_lt, UInt32.reduceToNat]
    omega
  have hlifetime : ¬ s.cacheTtlSecs < 1 ↔ 1 ≤ s.cacheTtlSecs.toNat := by
    simp only [UInt64.lt_iff_toNat_lt, UInt64.reduceToNat]
    omega
  have htimeout : ¬ (s.requestTimeoutSecs < 1 ∨ 600 < s.requestTimeoutSecs) ↔
      1 ≤ s.requestTimeoutSecs.toNat ∧ s.requestTimeoutSecs.toNat ≤ 600 := by
    simp only [UInt64.lt_iff_toNat_lt, UInt64.reduceToNat]
    omega
  have hbase : ¬ Text.isAllBlank s.baseUrl = true ↔
      ∃ c ∈ s.baseUrl.toList, Text.isBlank c = false := by
    rw [Bool.not_eq_true, Text.isAllBlank_eq_false_iff]
  exact .cons hattempts (.cons hlifetime (.cons htimeout (.cons hbase .nil)))

end CatalogSettings

namespace ScanSettings

/-- What is required of an extra name with its fragment. -/
def nameRequirement (e : String × String) : Requirement :=
  ⟨e.1 ≠ "" ∧ e.2 ≠ "",
    .empty ("scan.script.extra_names." ++ e.1)
      "Both the identifier and the fragment are required."⟩

/-- What is required of the settings for scans, name by name. -/
def requirements (s : ScanSettings) : List Requirement :=
  s.extraNames.entries.map nameRequirement

/-- Validation checks them. -/
theorem checks_validate (s : ScanSettings) : Checks s.requirements s.validate := by
  rw [requirements, validate]
  induction s.extraNames.entries with
  | nil => exact .nil
  | cons e rest ih =>
      have hname : ¬ (e.1.isEmpty || e.2.isEmpty) = true ↔ e.1 ≠ "" ∧ e.2 ≠ "" := by
        simp only [Bool.or_eq_true, String.isEmpty_iff, not_or, ne_eq]
      have hcons := Checks.cons (r := nameRequirement e) hname ih
      rw [List.find?_cons]
      split at hcons
      next h => rwa [h]
      next h => rwa [Bool.eq_false_iff.mpr h]

end ScanSettings

namespace Settings

/-- What is required of settings, in the order in which it is checked: the extra names come last,
in the order of their bytes. -/
def requirements (s : Settings) : List Requirement := s.catalog.requirements ++ s.scan.requirements

/-- Validation checks them. -/
theorem checks_validate (s : Settings) : Checks s.requirements s.validate :=
  s.catalog.checks_validate.append s.scan.checks_validate

/-- Settings that meet all requirements. -/
structure Valid (s : Settings) : Prop where
  attempts : 1 ≤ s.catalog.maxAttempts.toNat ∧ s.catalog.maxAttempts.toNat ≤ 10
  lifetime : 1 ≤ s.catalog.cacheTtlSecs.toNat
  timeout : 1 ≤ s.catalog.requestTimeoutSecs.toNat ∧ s.catalog.requestTimeoutSecs.toNat ≤ 600
  base : ∃ c ∈ s.catalog.baseUrl.toList, Text.isBlank c = false
  names : ∀ e ∈ s.scan.extraNames.entries, e.1 ≠ "" ∧ e.2 ≠ ""

/-- All requirements hold of valid settings. -/
theorem requirements_hold_iff {s : Settings} : (∀ r ∈ s.requirements, r.holds) ↔ s.Valid := by
  simp only [requirements, CatalogSettings.requirements, ScanSettings.requirements,
    List.forall_mem_append, List.forall_mem_cons, List.forall_mem_map, List.not_mem_nil,
    false_imp_iff, implies_true, and_true]
  constructor
  · rintro ⟨⟨hattempts, hlifetime, htimeout, hbase⟩, hnames⟩
    exact ⟨hattempts, hlifetime, htimeout, hbase, hnames⟩
  · rintro ⟨hattempts, hlifetime, htimeout, hbase, hnames⟩
    exact ⟨⟨hattempts, hlifetime, htimeout, hbase⟩, hnames⟩

/-- **Validation** accepts the valid settings. -/
theorem validate_eq_ok_iff {s : Settings} : s.validate = .ok () ↔ s.Valid :=
  s.checks_validate.eq_ok_iff.trans requirements_hold_iff

/-- Otherwise it finds the first violated requirement. -/
theorem validate_eq_error_iff {s : Settings} {e : Invalid} :
    s.validate = .error e ↔ FirstViolated s.requirements e :=
  s.checks_validate.eq_error_iff

end Settings

end WebBaseline
