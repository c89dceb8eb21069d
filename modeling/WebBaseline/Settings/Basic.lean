import WebBaseline.Scan.Run
import WebBaseline.Text.Blank

/-!
# Settings

What a run of the program can be told: where the catalog is and how hard to
try for it, where it is cached, what scans report, and which directories hold
no sources.
-/

namespace WebBaseline

/-- Where the catalog is requested, and how often. -/
structure CatalogSettings where
  baseUrl : String := "https://api.webstatus.dev/v1"
  endpoint : String := "/features"
  /-- How long a cached catalog is fresh. -/
  cacheTtlSecs : UInt64 := 86400
  /-- How often a request is tried, the first time included. -/
  maxAttempts : UInt32 := 3
  /-- The delay after the first failure; it doubles after each further one. -/
  backoffBaseMs : UInt64 := 1000
  requestTimeoutSecs : UInt64 := 30
deriving DecidableEq, Repr, Inhabited

/-- Where the catalog is cached. -/
structure CacheSettings where
  /-- The file of the cache; the standard one if none is given. -/
  path : Option String := none
  /-- Whether the cache outlives the run. -/
  persistent : Bool := true
deriving DecidableEq, Repr, Inhabited

/-- Which files of a directory are scanned. -/
structure WorkspaceSettings where
  /-- The names of directories that are passed over. -/
  ignoreDirs : List String := ["node_modules", ".git"]
deriving DecidableEq, Repr, Inhabited

/-- All settings. -/
structure Settings where
  catalog : CatalogSettings := {}
  cache : CacheSettings := {}
  scan : ScanSettings := {}
  workspace : WorkspaceSettings := {}
deriving DecidableEq, Repr, Inhabited

/-! ### Validation -/

/-- Why settings are invalid. -/
inductive Invalid where
  | range (field : String) (value least greatest : Nat) (hint : String)
  | empty (field hint : String)
deriving DecidableEq, Repr

namespace Invalid

/-- The wording of an error. -/
def message : Invalid → String
  | range field value least greatest hint =>
    "Invalid range for field \x27" ++ field ++ "\x27: " ++ toString value ++ " not in " ++
      toString least ++ "..=" ++ toString greatest ++ ". " ++ hint
  | empty field hint => "Field \x27" ++ field ++ "\x27 must not be empty. " ++ hint

end Invalid

namespace CatalogSettings

/-- The first condition that the settings violate. -/
def validate (s : CatalogSettings) : Except Invalid Unit :=
  if s.maxAttempts < 1 ∨ 10 < s.maxAttempts then
    .error (.range "catalog.max_attempts" s.maxAttempts.toNat 1 10
      "Use 3 for the standard retry behaviour.")
  else if s.cacheTtlSecs < 1 then
    .error (.range "catalog.cache_ttl_secs" s.cacheTtlSecs.toNat 1 (UInt64.size - 1)
      "The default is 86400 (24 hours).")
  else if s.requestTimeoutSecs < 1 ∨ 600 < s.requestTimeoutSecs then
    .error (.range "catalog.request_timeout_secs" s.requestTimeoutSecs.toNat 1 600
      "Pick a timeout between one second and ten minutes.")
  else if Text.isAllBlank s.baseUrl then
    .error (.empty "catalog.base_url" "Set it to https://api.webstatus.dev/v1 or a mirror.")
  else .ok ()

end CatalogSettings

namespace ScanSettings

/-- The first extra name that is empty or has no fragment. -/
def validate (s : ScanSettings) : Except Invalid Unit :=
  match s.extraNames.entries.find? fun e => e.1.isEmpty || e.2.isEmpty with
  | some (name, _) =>
    .error (.empty ("scan.script.extra_names." ++ name)
      "Both the identifier and the fragment are required.")
  | none => .ok ()

end ScanSettings

namespace Settings

/-- The first condition that the settings violate. -/
def validate (s : Settings) : Except Invalid Unit := do
  s.catalog.validate
  s.scan.validate

/-! ### The environment -/

/-- The variable that gives the base address of the catalog. -/
def apiBaseVariable : String := "SCOUT_API_BASE"

/-- The variable that gives the file of the cache. -/
def cachePathVariable : String := "SCOUT_CACHE_PATH"

/-- A variable's value, unless it is blank. -/
def override? (environment : String → Option String) (name : String) : Option String :=
  (environment name).filter fun v => !Text.isAllBlank v

/-- The settings under an environment, whose variables take precedence. -/
def withEnvironment (s : Settings) (environment : String → Option String) : Settings :=
  let s := match override? environment apiBaseVariable with
    | some base => { s with catalog := { s.catalog with baseUrl := base } }
    | none => s
  match override? environment cachePathVariable with
  | some path => { s with cache := { s.cache with path := some path } }
  | none => s

end Settings

end WebBaseline
