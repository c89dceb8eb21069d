import WebBaseline.Proofs.Command.CacheFile

/-!
# The life of a cache

The program is run again and again without a service, each time with other
settings, and the database in one file outlives the runs.  A row stays in it
until its key is forgotten, and every look at the catalog shows what the row of
its own key holds at that moment.

* `Invocation` — a run; `Does`, `Forgets`, `SavesOver` — what it does;
* `Remain` — the rows that are left after some runs;
* `remain_after` — one run; `Leads`, `remain_of_leads` — runs one after the other;
* `shows_catalog` — what a look at the catalog prints;
* `cache_life` — all sequences of runs.
-/

namespace WebBaseline

/-- Whether a command does without the service. -/
def Command.isOffline : Command → Bool
  | scan request => request.offline
  | catalog _ offline => offline
  | invalidate _ => true

/-- A run of the program, with the world in which it starts. -/
structure Invocation where
  world : World
  arguments : List String

namespace Invocation

variable (i : Invocation)

/-- What a run leaves behind for its caller. -/
def outcome : Outcome := (i.world.run i.arguments).1

/-- The world after a run. -/
def after : World := (i.world.run i.arguments).2

/-- Whether a run carries out a command with settings. -/
structure Does (command : Command) (settings : Settings) : Prop where
  parsed : Command.parse i.arguments = .ok command
  loaded : i.world.loaded command.settingsFile = .ok settings

/-- Whether a run is one of a command that does without the service. -/
def IsOffline : Prop := ∃ command, Command.parse i.arguments = .ok command ∧ command.isOffline = true

/-- Whether a run forgets the catalog of a key, in the file with some names: it succeeds, and its
settings keep the cache in this file and lead to this key. -/
def Forgets (names : List String) (key : String) : Prop :=
  ∃ config settings, i.Does (.invalidate config) settings ∧ i.outcome.status = 0 ∧
    i.world.started.PointsAt settings.cache names ∧ Catalog.keyOf settings.catalog = key

/-- Whether a run saves the report of a scan over the file with some names. -/
def SavesOver (names : List String) : Prop :=
  ∃ request settings, i.Does (.scan request) settings ∧
    i.world.started.ReportGoesTo settings request names

variable {i}

/-- A run that carries out a command is this command. -/
theorem Does.run_eq {command : Command} {settings : Settings} (h : i.Does command settings) :
    i.world.run i.arguments =
      (Command.runWith (World.system i.world.environment) settings command i.world.started).map
        .of id := by
  rw [i.world.run_of_parse h.parsed, h.loaded]

/-- A run carries out one command, with one choice of settings. -/
theorem Does.unique {command other : Command} {settings others : Settings}
    (h : i.Does command settings) (h' : i.Does other others) :
    command = other ∧ settings = others := by
  obtain rfl : command = other := Except.ok.inj (h.parsed.symm.trans h'.parsed)
  exact ⟨rfl, Except.ok.inj (h.loaded.symm.trans h'.loaded)⟩

end Invocation

/-! ### Rows that are left -/

/-- Whether some rows are left after runs: those whose key no run forgets in the file with some
names, in their order. -/
structure Remain (names : List String) (rows : List Store.Row) (runs : List Invocation)
    (left : List Store.Row) : Prop where
  sublist : left.Sublist rows
  mem_iff : ∀ r, r ∈ left ↔ r ∈ rows ∧ ∀ i ∈ runs, ¬ i.Forgets names r.key

namespace Remain

variable {names : List String} {rows mid left : List Store.Row} {before runs : List Invocation}

/-- Without a run all rows are left. -/
theorem nil : Remain names rows [] rows :=
  ⟨List.Sublist.refl rows, fun r => by simp⟩

/-- After more runs rows are left that were left before. -/
theorem append (h : Remain names rows before mid) (hmore : Remain names mid runs left) :
    Remain names rows (before ++ runs) left where
  sublist := hmore.sublist.trans h.sublist
  mem_iff := by
    intro r
    rw [hmore.mem_iff, h.mem_iff, List.forall_mem_append, and_assoc]

/-- A run that forgets nothing leaves all rows. -/
theorem of_not_forgets {i : Invocation} (h : ∀ key, ¬ i.Forgets names key) :
    Remain names rows [i] rows where
  sublist := List.Sublist.refl rows
  mem_iff := fun r => by simp [h r.key]

/-- A run that forgets one key leaves the rows of the others. -/
theorem of_forgets {i : Invocation} {key : String}
    (h : ∀ other, i.Forgets names other ↔ other = key) :
    Remain names rows [i] (rows.filter (·.key != key)) where
  sublist := List.filter_sublist
  mem_iff := fun r => by simp [h r.key]

end Remain

/-! ### One run -/

namespace Invocation

variable {i : Invocation} {names : List String} {rows : List Store.Row}

/-- A run whose settings keep the cache in the file forgets their key, and no other. -/
theorem forgets_iff {config : Option String} {settings : Settings}
    (h : i.Does (.invalidate config) settings)
    (hpoints : i.world.started.PointsAt settings.cache names) (key : String) :
    i.Forgets names key ↔ key = Catalog.keyOf settings.catalog := by
  constructor
  · rintro ⟨config', settings', h', -, -, rfl⟩
    obtain ⟨-, rfl⟩ := h.unique h'
    rfl
  · rintro rfl
    have hstatus : i.outcome.status = 0 := by
      rw [outcome, h.run_eq]
      exact World.status_forget_of_pointsAt hpoints
    exact ⟨config, settings, h, hstatus, hpoints, rfl⟩

/-- A run of another command forgets nothing. -/
theorem not_forgets {command : Command} (hparse : Command.parse i.arguments = .ok command)
    (hother : ∀ config, command ≠ .invalidate config) (key : String) : ¬ i.Forgets names key := by
  rintro ⟨config, settings, h, -⟩
  exact hother config (Except.ok.inj (hparse.symm.trans h.parsed))

/-- **One run.**  It leaves the rows whose key it does not forget. -/
theorem remain_after (hoffline : i.IsOffline) (hspares : ¬ i.SavesOver names)
    (h : i.world.files.HasRows names rows) :
    ∃ left, i.after.files.HasRows names left ∧ Remain names rows [i] left := by
  obtain ⟨command, hparse, hcommand⟩ := hoffline
  cases hloaded : i.world.loaded command.settingsFile with
  | error e =>
      -- Without settings nothing is done.
      refine ⟨rows, ?_, .of_not_forgets fun key => ?_⟩
      · rw [after, i.world.run_of_parse hparse, hloaded]
        exact h
      · rintro ⟨config, settings, h', -⟩
        obtain rfl := Except.ok.inj (hparse.symm.trans h'.parsed)
        rw [h'.loaded] at hloaded
        cases hloaded
  | ok settings =>
      have hdoes : i.Does command settings := ⟨hparse, hloaded⟩
      have hafter : i.after =
          (Command.runWith (World.system i.world.environment) settings command
            i.world.started).2 := by
        rw [after, hdoes.run_eq]
        rfl
      rw [hafter]
      cases command with
      | scan request =>
          have hreport : ¬ i.world.started.ReportGoesTo settings request names :=
            fun hgoes => hspares ⟨request, settings, hdoes, hgoes⟩
          exact ⟨rows, World.hasRows_scanDirectory (w := i.world.started) rfl hcommand h hreport,
            .of_not_forgets (not_forgets hparse nofun)⟩
      | catalog config offline =>
          obtain rfl : offline = true := hcommand
          obtain ⟨cached, -, hfetch⟩ :=
            World.run_fetchCatalog_offline (w := i.world.started) settings rfl
          refine ⟨rows, ?_, .of_not_forgets (not_forgets hparse nofun)⟩
          have hopened := World.hasRows_opened (w := i.world.started) h settings.cache
          change (Command.fetchCatalog (World.system i.world.started.environment) settings false
            i.world.started).2.files.HasRows names rows
          rw [hfetch]
          exact hopened
      | invalidate config =>
          by_cases hpoints : i.world.started.PointsAt settings.cache names
          · exact ⟨_, World.hasRows_forget_of_pointsAt (w := i.world.started) h hpoints,
              .of_forgets (forgets_iff hdoes hpoints)⟩
          · refine ⟨rows, World.hasRows_forget_of_not_pointsAt (w := i.world.started) h hpoints,
              .of_not_forgets fun key => ?_⟩
            rintro ⟨config', settings', h', -, hpoints', -⟩
            obtain ⟨-, rfl⟩ := hdoes.unique h'
            exact hpoints hpoints'

/-- After a report was saved over the file, the file is its text. -/
theorem Does.exists_text_after {request : ScanRequest} {settings : Settings}
    (h : i.Does (.scan request) settings) (hoffline : request.offline = true)
    (hrows : i.world.files.HasRows names rows)
    (hreport : i.world.started.ReportGoesTo settings request names) :
    ∃ text, i.after.files.get? names = some (.file (.text text)) := by
  have hscan := World.exists_text_scanDirectory (w := i.world.started) rfl hoffline hrows hreport
  rw [after, h.run_eq]
  exact hscan

end Invocation

/-! ### Runs one after the other -/

/-- Whether runs lead from one content of a file to another.  Between two runs anything may change
but this file. -/
inductive Leads (names : List String) :
    Option FileTree → List Invocation → Option FileTree → Prop where
  | nil (file : Option FileTree) : Leads names file [] file
  | cons {file last : Option FileTree} {i : Invocation} {rest : List Invocation}
      (hstart : i.world.files.get? names = file)
      (hrest : Leads names (i.after.files.get? names) rest last) : Leads names file (i :: rest) last

namespace Leads

variable {names : List String} {file last : Option FileTree} {runs : List Invocation}

/-- Runs lead through what the file is before each of them. -/
theorem split {before after : List Invocation} (h : Leads names file (before ++ after) last) :
    ∃ mid, Leads names file before mid ∧ Leads names mid after last := by
  induction before generalizing file with
  | nil => exact ⟨file, .nil file, h⟩
  | cons i rest ih =>
      obtain _ | ⟨hstart, hrest⟩ := h
      obtain ⟨mid, hbefore, hafter⟩ := ih hrest
      exact ⟨mid, .cons hstart hbefore, hafter⟩

/-- **Several runs.**  They leave the rows whose key none of them forgets. -/
theorem remain (h : Leads names file runs last) (hoffline : ∀ i ∈ runs, i.IsOffline)
    (hspares : ∀ i ∈ runs, ¬ i.SavesOver names) {rows : List Store.Row}
    (hfile : IsDatabase file rows) :
    ∃ left, IsDatabase last left ∧ Remain names rows runs left := by
  induction h generalizing rows with
  | nil file => exact ⟨rows, hfile, .nil⟩
  | @cons file last i rest hstart hrest ih =>
      rw [List.forall_mem_cons] at hoffline hspares
      have hrows : i.world.files.HasRows names rows := by rwa [FileTree.HasRows, hstart]
      obtain ⟨mid, hmid, hfirst⟩ := Invocation.remain_after hoffline.1 hspares.1 hrows
      obtain ⟨left, hleft, hothers⟩ := ih hoffline.2 hspares.2 hmid
      exact ⟨left, hleft, hfirst.append hothers⟩

end Leads

/-! ### Looks at the catalog -/

/-- What a look at the catalog prints without a service: how fresh it is, and how many features it
has. -/
def catalogPrinted (freshness : Catalog.Freshness) (count : Nat) : Outcome where
  status := 0
  stdout := textOfLines ["freshness: " ++ freshness.title, "features:  " ++ toString count]

/-- Whether a look at the catalog shows what some rows hold under the key of its settings: a
catalog that is fresh or stale by the clock, or none. -/
structure Invocation.Shows (i : Invocation) (settings : Settings) (rows : List Store.Row) :
    Prop where
  held : ∀ r c, rows.find? (·.key == Catalog.keyOf settings.catalog) = some r → r.Holds c →
    let ttl := (Catalog.Accessor.ofSettings settings.catalog false).ttl
    i.outcome =
      catalogPrinted (if i.world.now - c.timestamp < ttl then .fresh else .stale) c.records.length
  absent : (∀ r c, rows.find? (·.key == Catalog.keyOf settings.catalog) = some r → ¬ r.Holds c) →
    i.outcome = catalogPrinted .unavailable 0

/-- In a cache that is in a file, a catalog is held by the row of its key. -/
theorem World.cacheHolds_iff {w : World} {settings : Settings} {names : List String}
    (hpoints : w.PointsAt settings.cache names) (c : Catalog.Cached) :
    w.CacheHolds settings c ↔
      ∃ r, (w.files.storedRows names).find? (·.key == Catalog.keyOf settings.catalog) = some r ∧
        r.Holds c := by
  obtain ⟨path, hpath, hopen⟩ := hpoints
  constructor
  · rintro ⟨hpath', hopen', hfound, hrow⟩
    obtain rfl := Option.some.inj (hpath.symm.trans hpath')
    obtain rfl := Place.file.inj (Except.ok.inj (hopen.symm.trans hopen'))
    exact ⟨_, hfound, hrow⟩
  · rintro ⟨r, hfound, hrow⟩
    exact .row hpath hopen hfound hrow

namespace Invocation

variable {i : Invocation} {names : List String}

/-- What a look at the catalog prints. -/
theorem outcome_catalog {config : Option String} {settings : Settings}
    (h : i.Does (.catalog config true) settings) :
    ∃ cached, (∀ c, cached = some c ↔ i.world.started.CacheHolds settings c) ∧
      i.outcome =
        .of (.ok (textOfLines (Command.catalogLines (World.offlineSnapshot i.world.now
          (Catalog.Accessor.ofSettings settings.catalog false).ttl cached)))) := by
  obtain ⟨cached, hcached, hfetch⟩ :=
    World.run_fetchCatalog_offline (w := i.world.started) settings rfl
  refine ⟨cached, hcached, ?_⟩
  rw [outcome, h.run_eq]
  change Outcome.of (.ok (textOfLines (Command.catalogLines (Command.fetchCatalog
    (World.system i.world.started.environment) settings false i.world.started).1))) = _
  rw [hfetch]
  rfl

/-- **A look at the catalog** shows what the row of its key holds in the file of its cache. -/
theorem shows_catalog {config : Option String} {settings : Settings}
    (h : i.Does (.catalog config true) settings)
    (hpoints : i.world.started.PointsAt settings.cache names) :
    i.Shows settings (i.world.files.storedRows names) := by
  obtain ⟨cached, hcached, houtcome⟩ := outcome_catalog h
  have hholds := World.cacheHolds_iff hpoints
  constructor
  · intro r c hfound hrow
    obtain rfl := (hcached c).mpr ((hholds c).mpr ⟨r, hfound, hrow⟩)
    rw [houtcome, World.offlineSnapshot, Catalog.Cached.isFresh]
    simp only [decide_eq_true_eq]
    split <;> rfl
  · intro hnone
    cases cached with
    | none => exact houtcome
    | some c =>
        obtain ⟨r, hfound, hrow⟩ := (hholds c).mp ((hcached c).mp rfl)
        exact absurd hrow (hnone r c hfound)

/-- Without a file for the cache there is no catalog. -/
theorem outcome_catalog_of_no_file {config : Option String} {settings : Settings}
    (h : i.Does (.catalog config true) settings)
    (hnone : ∀ other, ¬ i.world.started.PointsAt settings.cache other) :
    i.outcome = catalogPrinted .unavailable 0 := by
  obtain ⟨cached, hcached, houtcome⟩ := outcome_catalog h
  cases cached with
  | none => exact houtcome
  | some c =>
      obtain ⟨hpath, hopen, -, -⟩ := (hcached c).mp rfl
      exact absurd ⟨_, hpath, hopen⟩ (hnone _)

end Invocation

/-! ### Sequences of runs -/

/-- The row of a catalog without features, under the key of the standard settings. -/
def keptRow : Store.Row := Store.Table.rowOf (Catalog.keyOf {}) (Catalog.Cached.toEntry ⟨900, []⟩)

/-- The run that forgets this catalog. -/
def forgetting : Invocation := ⟨World.worldWithRow keptRow, ["invalidate"]⟩

/-- A later look at the catalog. -/
def lookingLater : Invocation where
  world :=
    { World.worldWithRow keptRow with
      files := .directory [("c.sqlite", .file (.database ⟨some []⟩))] }
  arguments := ["catalog", "--offline"]

/-- What both runs do. -/
theorem does_forgetting_lookingLater :
    forgetting.Does (.invalidate none) World.settingsWithCache ∧
      lookingLater.Does (.catalog none true) World.settingsWithCache := by
  have hsettings : Settings.ofEnvironment forgetting.world.environment =
      .ok World.settingsWithCache := by
    decide +kernel
  exact ⟨⟨by decide +kernel, (World.loaded_none _).trans hsettings⟩,
    ⟨by decide +kernel, (World.loaded_none _).trans hsettings⟩⟩

/-- A scan whose report is saved where the cache is. -/
def savingOver : Invocation where
  world :=
    { files := .directory
        [("site", .directory []), ("baseline-report.json", .file (.database ⟨some [keptRow]⟩))]
      environment := fun name =>
        if name = Settings.cachePathVariable then some "baseline-report.json" else none
      now := 1000 }
  arguments := ["scan", "site", "--offline", "-f", "json", "-o", "."]

end WebBaseline
