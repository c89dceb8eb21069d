import WebBaseline.Proofs.Command.CachedCatalog
import WebBaseline.Proofs.Feature.Reading
import WebBaseline.Proofs.Scan.Discovery
import WebBaseline.Proofs.Scan.Soundness

/-!
# Scans without a service

A scan that does without the service takes its catalog from the cache, if it can
be used, and goes on without one otherwise.  So it reports in every state of the
cache.

* `run_of_parse`, `run_scanDirectory`, `run_deliver` — the steps of such a scan;
* `World.ScansOffline` — what is known of it; `scansOffline_run` — it is known;
* `offline_scan_outcome` — such scans in all worlds.
-/

namespace WebBaseline

/-- The outcome of a program that prints a text or fails. -/
def Outcome.of : Except Failure String → Outcome
  | .ok text => { status := 0, stdout := text }
  | .error e => { status := 1, stderr := textOfLines ["error: " ++ e.message] }

namespace World

/-- The world in which a run starts. -/
def started (w : World) : World := { w with memory := {} }

/-- The settings that a run gets from a file, or without one. -/
def loaded (w : World) (config : Option String) : Except SettingsError Settings :=
  (Command.loadSettings (system w.environment) config w).1

/-- Without a file the settings are those of the environment. -/
theorem loaded_none (w : World) : w.loaded none = Settings.ofEnvironment w.environment := rfl

/-- Loading settings changes nothing, and has nothing to do with the memory of a run. -/
theorem run_loadSettings (w : World) (config : Option String) :
    Command.loadSettings (system w.environment) config w.started = (w.loaded config, w.started) := by
  cases config <;> rfl

/-- The report of a scan of a directory with some entries. -/
def scanReport (w : World) (settings : Settings) (request : ScanRequest)
    (catalog : Catalog.Snapshot) (entries : List (String × FileTree)) : Report :=
  .ofRun request.directory
    ((Scanner.ofCatalog .standard catalog.records settings.scan).run .never
      (Workspace.sources settings.workspace entries)) catalog w.now

/-! ### Steps -/

/-- One step after the other. -/
theorem bind_apply {α β : Type} (x : StateM World α) (f : α → StateM World β) (w : World) :
    (x >>= f) w = f (x w).1 (x w).2 := rfl

/-- **A run** loads the settings of its command and carries it out with them. -/
theorem run_of_parse (w : World) {arguments : List String} {command : Command}
    (hparse : Command.parse arguments = .ok command) :
    w.run arguments =
      match w.loaded command.settingsFile with
      | .error e => (.of (.error (.settings e)), w.started)
      | .ok settings =>
        (Command.runWith (system w.environment) settings command w.started).map .of id := by
  rw [run, program, hparse]
  simp only [Command.run]
  rw [← started, bind_apply, bind_apply, run_loadSettings]
  cases w.loaded command.settingsFile with
  | error e => rfl
  | ok settings =>
      simp only []
      rcases Command.runWith (system w.environment) settings command w.started
        with ⟨_ | _, after⟩ <;> rfl

/-- How a scan is run: settings are loaded, and the directory is scanned with them. -/
theorem run_of_parse_scan (w : World) {arguments : List String} {request : ScanRequest}
    (hparse : Command.parse arguments = .ok (.scan request)) :
    (w.run arguments).1 =
      match w.loaded request.config with
      | .error e => .of (.error (.settings e))
      | .ok settings =>
        .of (Command.scanDirectory (system w.environment) settings request w.started).1 := by
  rw [w.run_of_parse hparse, Command.settingsFile]
  cases w.loaded request.config <;> rfl

/-- How a directory is scanned: the catalog is fetched, the sources below the directory are
scanned, and the report is delivered. -/
theorem run_scanDirectory (environment : String → Option String) (settings : Settings)
    (request : ScanRequest) (w : World) :
    Command.scanDirectory (system environment) settings request w =
      let (catalog, w) :=
        Command.fetchCatalog (system environment) settings (!request.offline) w
      match w.entries request.directory with
      | none => (.error (.notDirectory request.directory), w)
      | some entries =>
        Command.deliver (system environment) request.format request.output
          (w.scanReport settings request catalog entries) w := by
  rw [Command.scanDirectory, bind_apply]
  rcases Command.fetchCatalog (system environment) settings (!request.offline) w
    with ⟨catalog, w⟩
  simp only []
  rw [bind_apply, Workspace.run_discover]
  cases w.entries request.directory <;> rfl

/-- How a report is delivered: it is written to a file, or printed. -/
theorem run_deliver (environment : String → Option String) (format : ReportFormat)
    (output : Option String) (r : Report) (w : World) :
    Command.deliver (system environment) format output r w =
      match output, Command.savedReport format r with
      | some directory, some (name, text) =>
        match writeText (Path.join directory name) text w with
        | (.ok (), after) => (.ok "", after)
        | (.error e, after) => (.error (.unsaved e), after)
      | _, _ => (.ok (Command.printedReport format r), w) := by
  unfold Command.deliver
  generalize Command.savedReport format r = saved
  cases output with
  | none => rfl
  | some directory =>
      cases saved with
      | none => rfl
      | some s =>
          obtain ⟨name, text⟩ := s
          change (writeText (Path.join directory name) text >>= _ : StateM World _) w = _
          rw [bind_apply]
          simp only []
          rcases writeText (Path.join directory name) text w with ⟨_ | _, after⟩ <;> rfl

/-- A report that is not to be saved is printed. -/
theorem run_deliver_printed {environment : String → Option String} {format : ReportFormat}
    {output : Option String} (h : output = none ∨ format = .terminal) (r : Report) (w : World) :
    (Command.deliver (system environment) format output r w).1 =
      .ok (Command.printedReport format r) := by
  rw [run_deliver]
  rcases h with rfl | rfl
  · rfl
  · cases output <;> rfl

/-- A report is only not delivered if it is not saved. -/
theorem exists_unsaved_of_status_ne_zero {environment : String → Option String}
    {format : ReportFormat} {output : Option String} {r : Report} {w : World}
    (h : (Outcome.of (Command.deliver (system environment) format output r w).1).status ≠ 0) :
    ∃ directory name text e, output = some directory ∧
      Command.savedReport format r = some (name, text) ∧
      (writeText (Path.join directory name) text w).1 = .error e := by
  rw [run_deliver] at h
  split at h
  next directory name text hsaved =>
    rcases hwrite : writeText (Path.join directory name) text w with ⟨e | _, after⟩
    · exact ⟨directory, name, text, e, rfl, hsaved, congrArg Prod.fst hwrite⟩
    · rw [hwrite] at h
      exact absurd rfl h
  next => exact absurd rfl h

/-! ### Offline scans -/

/-- What is known of a scan without a service whose settings could be loaded: the catalog comes
from the cache, if that holds one, and the scan only fails for other reasons. -/
structure ScansOffline (w : World) (settings : Settings) (request : ScanRequest)
    (catalog : Catalog.Snapshot) (outcome : Outcome) : Prop where
  /-- A catalog in the cache is used, however old it is. -/
  held : ∀ c, w.CacheHolds settings c → catalog.records = c.records ∧
    catalog = offlineSnapshot w.now (Catalog.Accessor.ofSettings settings.catalog false).ttl (some c)
  /-- Otherwise there are no records. -/
  absent : (∀ c, ¬ w.CacheHolds settings c) → catalog = ⟨[], .unavailable, none, none⟩
  /-- Without records nothing is reported, and the score is full. -/
  empty : catalog.records = [] → ∀ entries,
    (w.scanReport settings request catalog entries).result.issues = [] ∧
    (w.scanReport settings request catalog entries).result.score = 100
  /-- If there is a directory, it is still there with the cache open, and its report is printed,
  unless it is to be saved. -/
  printed : ∀ entries, w.files.at? request.directory = .ok (.directory entries) →
    request.output = none ∨ request.format = .terminal →
    ∃ listed, (w.opened settings.cache).files.at? request.directory = .ok (.directory listed) ∧
      outcome =
        { status := 0
          stdout :=
            Command.printedReport request.format (w.scanReport settings request catalog listed) }
  /-- The scan fails only without a directory, or if the report is not saved. -/
  failed : outcome.status ≠ 0 →
    (∀ entries, w.files.at? request.directory ≠ .ok (.directory entries)) ∨
    ∃ listed directory name text e,
      (w.opened settings.cache).files.at? request.directory = .ok (.directory listed) ∧
      request.output = some directory ∧
      Command.savedReport request.format (w.scanReport settings request catalog listed) =
        some (name, text) ∧
      (writeText (Path.join directory name) text (w.opened settings.cache)).1 = .error e

/-- A directory is still there with the cache open. -/
theorem exists_at?_opened (w : World) (c : CacheSettings) {path : String}
    {entries : List (String × FileTree)} (h : w.files.at? path = .ok (.directory entries)) :
    ∃ listed, (w.opened c).files.at? path = .ok (.directory listed) := by
  obtain ⟨place, -, hopened, -⟩ := exists_openCacheOrMemory w c
  obtain ⟨v, hv, halike⟩ := hopened.files.at? h
  obtain _ | ⟨_, listed⟩ := halike
  exact ⟨listed, hv⟩

/-- The entries of a directory that is there. -/
theorem entries_eq_some_iff {w : World} {path : String} {listed : List (String × FileTree)} :
    w.entries path = some listed ↔ w.files.at? path = .ok (.directory listed) := by
  unfold entries
  split
  next listed' h => rw [h]; simp
  next h => exact ⟨nofun, fun hlisted => absurd hlisted (h listed)⟩

/-- Of a report only its time has to do with the world. -/
theorem scanReport_congr {w other : World} (h : other.now = w.now) :
    other.scanReport = w.scanReport := by
  unfold scanReport
  rw [h]

/-- What the cache holds gives its records, however old it is. -/
theorem records_offlineSnapshot (now ttl : Int) (c : Catalog.Cached) :
    (offlineSnapshot now ttl (some c)).records = c.records := by
  rw [offlineSnapshot]
  split <;> rfl

/-- **A scan without a service.** -/
theorem scansOffline_run {w : World} (hmemory : w.memory = {}) (settings : Settings)
    {request : ScanRequest} (hoffline : request.offline = true) :
    ∃ catalog, w.ScansOffline settings request catalog
      (.of (Command.scanDirectory (system w.environment) settings request w).1) := by
  obtain ⟨cached, hcached, hfetch⟩ := run_fetchCatalog_offline settings hmemory
  obtain ⟨_, -, hopened, -⟩ := exists_openCacheOrMemory w settings.cache
  have hreport : (w.opened settings.cache).scanReport = w.scanReport :=
    scanReport_congr (by rw [hopened.others])
  refine ⟨offlineSnapshot w.now (Catalog.Accessor.ofSettings settings.catalog false).ttl cached,
    ?_, ?_, ?_, ?_, ?_⟩
  · intro c hc
    rw [(hcached c).mpr hc]
    exact ⟨records_offlineSnapshot .., rfl⟩
  · intro hnone
    cases cached with
    | none => rfl
    | some c => exact absurd ((hcached c).mp rfl) (hnone c)
  · intro hempty entries
    simp only [scanReport, Report.ofRun, hempty]
    exact Scanner.result_run_nil ..
  all_goals
    -- A scan with the cache open lists the directory and delivers its report.
    rw [run_scanDirectory, hoffline, Bool.not_true, hfetch]
    simp only [hreport]
  · intro entries hentries hprinted
    obtain ⟨listed, hlisted⟩ := exists_at?_opened w settings.cache hentries
    refine ⟨listed, hlisted, ?_⟩
    simp only [entries_eq_some_iff.mpr hlisted]
    rw [run_deliver_printed hprinted]
    rfl
  · intro hstatus
    cases hlisted : (w.opened settings.cache).entries request.directory with
    | none =>
        refine Or.inl fun entries hentries => ?_
        obtain ⟨listed, hthere⟩ := exists_at?_opened w settings.cache hentries
        rw [entries_eq_some_iff.mpr hthere] at hlisted
        cases hlisted
    | some listed =>
        rw [hlisted] at hstatus
        obtain ⟨directory, name, text, e, houtput, hsaved, hwrite⟩ :=
          exists_unsaved_of_status_ne_zero hstatus
        exact Or.inr ⟨listed, directory, name, text, e, entries_eq_some_iff.mp hlisted, houtput,
          hsaved, hwrite⟩

/-- A world with an empty site, and a cache with one row. -/
def worldWithRow (r : Store.Row) : World where
  files := .directory [("site", .directory []), ("c.sqlite", .file (.database ⟨some [r]⟩))]
  environment := fun name => if name = Settings.cachePathVariable then some "/c.sqlite" else none
  now := 1000

/-- The settings in that world. -/
def settingsWithCache : Settings := { cache := { path := some "/c.sqlite" } }

theorem storedRows_worldWithRow (r : Store.Row) :
    (openFile "/c.sqlite" (worldWithRow r).started).1 = .ok (.file ["c.sqlite"]) ∧
      (worldWithRow r).started.files.storedRows ["c.sqlite"] = [r] :=
  ⟨by with_unfolding_all rfl, by with_unfolding_all rfl⟩

end World

end WebBaseline
