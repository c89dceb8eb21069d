import WebBaseline.Catalog.Accessor
import WebBaseline.Catalog.Url
import WebBaseline.Command.Arguments
import WebBaseline.Report.Markdown
import WebBaseline.Report.Terminal
import WebBaseline.Scan.Parsers
import WebBaseline.Scan.Workspace
import WebBaseline.Settings.Loading

/-!
# Running commands

Commands are carried out on a `System`: the files, the clock, the stores and
the service around the program.  A scan and a look at the catalog go on without
a cache that cannot be used; to forget a catalog, the cache has to be usable.
-/

namespace WebBaseline

/-- What is around the program, as steps of `m`; `κ` are its open stores. -/
structure System (m : Type → Type) (κ : Type) where
  environment : String → Option String
  readText : String → m (Except ReadError String)
  /-- The entries of a directory, if there is one.  Nothing need be listed in directories below it
  that have one of the given names. -/
  entries : List String → String → m (Option (List (String × FileTree)))
  writeText : String → String → m (Except OsError Unit)
  /-- Open the store in a file, which is made if it is missing. -/
  openFile : String → m (Except Store.Error κ)
  /-- Open a store that lasts as long as the run. -/
  openMemory : m κ
  get : κ → String → m (Except Store.Error (Option Store.Entry))
  put : κ → String → Store.Entry → m (Except Store.Error Unit)
  remove : κ → String → m (Except Store.Error Unit)
  /-- The time in milliseconds. -/
  now : m Int
  /-- Request the catalog at an address. -/
  request : String → m (Except Catalog.RequestError (List FeatureRecord))
  wait : Catalog.Duration → m Unit

/-- Why a command failed. -/
inductive Failure where
  | settings (e : SettingsError)
  | storage (e : Store.Error)
  | notDirectory (path : String)
  | unsaved (e : OsError)
deriving DecidableEq, Repr

/-- The wording of a failure. -/
def Failure.message : Failure → String
  | settings e => "Configuration error: " ++ e.message
  | storage e => "Storage error: " ++ e.message
  | notDirectory path => "IO error: not a directory: " ++ path
  | unsaved e => "IO error: " ++ e.message

namespace Command

variable {m : Type → Type} [Monad m] {κ : Type} (s : System m κ)

/-- Load the settings: those of a file, or the standard ones. -/
def loadSettings : Option String → m (Except SettingsError Settings)
  | some path => (Settings.ofFile · s.environment) <$> s.readText path
  | none => pure (Settings.ofEnvironment s.environment)

/-- Open the cache. -/
def openCache (c : CacheSettings) : m (Except Store.Error κ) :=
  match c.file? s.environment with
  | some path => s.openFile path
  | none => .ok <$> s.openMemory

/-- Open the cache, or one for this run if that fails. -/
def openCacheOrMemory (c : CacheSettings) : m κ := do
  match ← openCache s c with
  | .ok cache => pure cache
  | .error _ => s.openMemory

/-- The host of an accessor.  Some addresses are refused before the service is asked. -/
def host (cache : κ) (address : String) : Catalog.Host m where
  read key := Catalog.Cache.cached? <$> s.get cache key
  write key c := Except.isOk <$> s.put cache key c.toEntry
  remove key := (fun _ => ()) <$> s.remove cache key
  clock := s.now
  request := match Url.refusal? address with
    | some text => pure (.error (.http text))
    | none => s.request address
  wait := s.wait

/-- Carry out what an accessor for settings does. -/
def access {α : Type} (c : CatalogSettings) (online : Bool) (cache : κ)
    (plan : Catalog.Accessor → Catalog.Plan α) : m α :=
  let accessor := Catalog.Accessor.ofSettings c online
  (plan accessor).run (host s cache (Catalog.address c.baseUrl c.endpoint)) accessor.key

/-- Get the catalog. -/
def fetchCatalog (settings : Settings) (online : Bool) : m Catalog.Snapshot := do
  access s settings.catalog online (← openCacheOrMemory s settings.cache) (·.fetch)

/-- The file in which a report of a form is saved, with its text. -/
def savedReport (format : ReportFormat) (r : Report) : Option (String × String) :=
  match format with
  | .terminal => none
  | .json => some ("baseline-report.json", r.jsonText)
  | .markdown => some ("baseline-report.md", r.markdownText)

/-- What is printed of a report. -/
def printedReport (format : ReportFormat) (r : Report) : String :=
  match format with
  | .terminal => r.terminalText
  | .json => r.jsonText ++ "\n"
  | .markdown => r.markdownText

/-- Save a report in a directory, or print it.  One for a terminal is always printed. -/
def deliver (format : ReportFormat) (directory : Option String) (r : Report) :
    m (Except Failure String) := do
  match directory, savedReport format r with
  | some d, some (name, text) =>
    match ← s.writeText (Path.join d name) text with
    | .ok () => pure (.ok "")
    | .error e => pure (.error (.unsaved e))
  | _, _ => pure (.ok (printedReport format r))

/-- The sources below a directory. -/
def discover (settings : WorkspaceSettings) (directory : String) :
    m (Except Failure (List SourceFile)) := do
  match ← s.entries settings.ignoreDirs directory with
  | none => pure (.error (.notDirectory directory))
  | some entries => pure (.ok (Workspace.sources settings entries))

/-- Scan a directory with settings. -/
def scanDirectory (settings : Settings) (request : ScanRequest) : m (Except Failure String) := do
  let catalog ← fetchCatalog s settings (!request.offline)
  match ← discover s settings.workspace request.directory with
  | .error e => pure (.error e)
  | .ok files =>
    let scanner := Scanner.ofCatalog .standard catalog.records settings.scan
    deliver s request.format request.output
      (.ofRun request.directory (scanner.run .never files) catalog (← s.now))

/-- The lines about a catalog. -/
def catalogLines (catalog : Catalog.Snapshot) : List String :=
  ["freshness: " ++ catalog.freshness.title,
   "features:  " ++ toString catalog.records.length] ++
    match catalog.error with
    | some e => ["error:     " ++ e]
    | none => []

/-- Forget the catalog. -/
def forget (settings : Settings) : m (Except Failure String) := do
  match ← openCache s settings.cache with
  | .error e => pure (.error (.storage e))
  | .ok cache =>
    access s settings.catalog false cache fun _ => Catalog.Accessor.invalidate
    pure (.ok (textOfLines ["Catalog cache cleared"]))

/-- Carry out a command with settings. -/
def runWith (settings : Settings) : Command → m (Except Failure String)
  | scan request => scanDirectory s settings request
  | catalog _ offline => do
    pure (.ok (textOfLines (catalogLines (← fetchCatalog s settings (!offline)))))
  | invalidate _ => forget s settings

/-- The file of the settings of a command. -/
def settingsFile : Command → Option String
  | scan request => request.config
  | catalog config _ => config
  | invalidate config => config

/-- Carry out a command.  The outcome is what it prints. -/
def run (c : Command) : m (Except Failure String) := do
  match ← loadSettings s c.settingsFile with
  | .error e => pure (.error (.settings e))
  | .ok settings => runWith s settings c

end Command

/-- What a run of the program leaves behind. -/
structure Outcome where
  status : Nat
  stdout : String := ""
  stderr : String := ""
deriving DecidableEq, Repr

/-- How the program is called. -/
def usageText : String :=
  textOfLines
    ["Usage: baseline-scout [-v] <COMMAND>", "",
     "  scan <DIR> [-c <FILE>] [-f terminal|json|markdown] [-o <DIR>] [--offline]",
     "  catalog [-c <FILE>] [--offline]",
     "  invalidate [-c <FILE>]"]

/-- Run the program with arguments. -/
def program {m : Type → Type} [Monad m] {κ : Type} (s : System m κ) (arguments : List String) :
    m Outcome := do
  match Command.parse arguments with
  | .error .help => pure { status := 0, stdout := usageText }
  | .error .refused => pure { status := 2, stderr := usageText }
  | .ok command =>
    match ← command.run s with
    | .ok text => pure { status := 0, stdout := text }
    | .error e => pure { status := 1, stderr := textOfLines ["error: " ++ e.message] }

end WebBaseline
