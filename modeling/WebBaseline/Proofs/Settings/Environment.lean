import WebBaseline.Proofs.Settings.Validity

/-!
# Settings under an environment

Two variables of the environment replace one field each, unless they are blank.

* `override?_eq_some_iff`, `override?_eq_none_iff` — what a variable gives;
* `withEnvironment_eq` — the settings under an environment, field by field;
* `Overridden` — what that means for two settings;
* `withEnvironment_withEnvironment`, `Valid.withEnvironment` — the environment again, and validity.
-/

namespace WebBaseline.Settings

variable {environment : String → Option String}

/-- A variable gives its value if that has a character that is no blank. -/
theorem override?_eq_some_iff {name value : String} :
    override? environment name = some value ↔
      environment name = some value ∧ ∃ c ∈ value.toList, Text.isBlank c = false := by
  rw [override?, Option.filter_eq_some_iff, Bool.not_eq_true', Text.isAllBlank_eq_false_iff]

/-- A variable gives nothing if it is missing or all blank. -/
theorem override?_eq_none_iff {name : String} :
    override? environment name = none ↔
      ∀ value, environment name = some value → ∀ c ∈ value.toList, Text.isBlank c = true := by
  simp only [override?, Option.filter_eq_none_iff, Bool.not_eq_true, Bool.not_eq_false',
    Text.isAllBlank, List.all_eq_true]

/-- The settings under an environment, field by field. -/
theorem withEnvironment_eq (s : Settings) (environment : String → Option String) :
    s.withEnvironment environment =
      { s with
        catalog := { s.catalog with
          baseUrl := (override? environment apiBaseVariable).getD s.catalog.baseUrl }
        cache := { s.cache with
          path := (override? environment cachePathVariable).or s.cache.path } } := by
  unfold withEnvironment
  cases override? environment apiBaseVariable <;>
    cases override? environment cachePathVariable <;> rfl

/-- Settings `t` that are those of `s` under an environment. -/
structure Overridden (environment : String → Option String) (s t : Settings) : Prop where
  /-- A variable that is not blank replaces the base address. -/
  base : ∀ value, environment "SCOUT_API_BASE" = some value →
    (∃ c ∈ value.toList, Text.isBlank c = false) → t.catalog.baseUrl = value
  sameBase : (∀ value, environment "SCOUT_API_BASE" = some value →
    ∀ c ∈ value.toList, Text.isBlank c = true) → t.catalog.baseUrl = s.catalog.baseUrl
  /-- Another one that is not blank replaces the path of the cache. -/
  path : ∀ value, environment "SCOUT_CACHE_PATH" = some value →
    (∃ c ∈ value.toList, Text.isBlank c = false) → t.cache.path = some value
  samePath : (∀ value, environment "SCOUT_CACHE_PATH" = some value →
    ∀ c ∈ value.toList, Text.isBlank c = true) → t.cache.path = s.cache.path
  /-- All other fields are the same. -/
  others : t = { s with
    catalog := { s.catalog with baseUrl := t.catalog.baseUrl }
    cache := { s.cache with path := t.cache.path } }

/-- **The environment** replaces two fields at most. -/
theorem overridden_withEnvironment (s : Settings) (environment : String → Option String) :
    Overridden environment s (s.withEnvironment environment) := by
  rw [withEnvironment_eq]
  refine ⟨fun value hgiven hvalue => ?_, fun hblank => ?_, fun value hgiven hvalue => ?_,
    fun hblank => ?_, rfl⟩
  · have hbase : override? environment apiBaseVariable = some value :=
      override?_eq_some_iff.mpr ⟨hgiven, hvalue⟩
    simp only [hbase, Option.getD_some]
  · have hbase : override? environment apiBaseVariable = none := override?_eq_none_iff.mpr hblank
    simp only [hbase, Option.getD_none]
  · have hpath : override? environment cachePathVariable = some value :=
      override?_eq_some_iff.mpr ⟨hgiven, hvalue⟩
    simp only [hpath, Option.some_or]
  · have hpath : override? environment cachePathVariable = none :=
      override?_eq_none_iff.mpr hblank
    simp only [hpath, Option.none_or]

/-- **The environment again** changes nothing. -/
theorem withEnvironment_withEnvironment (s : Settings) (environment : String → Option String) :
    (s.withEnvironment environment).withEnvironment environment =
      s.withEnvironment environment := by
  simp only [withEnvironment_eq]
  cases override? environment apiBaseVariable <;>
    cases override? environment cachePathVariable <;> rfl

/-- **Valid settings** stay valid: a base address that replaces another is not blank. -/
theorem Valid.withEnvironment {s : Settings} (h : s.Valid) (environment : String → Option String) :
    (s.withEnvironment environment).Valid := by
  rw [withEnvironment_eq]
  refine ⟨h.attempts, h.lifetime, h.timeout, ?_, h.names⟩
  cases hbase : override? environment apiBaseVariable with
  | none => exact h.base
  | some value => exact (override?_eq_some_iff.mp hbase).2

end WebBaseline.Settings
