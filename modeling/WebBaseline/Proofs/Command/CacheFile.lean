import WebBaseline.Proofs.Command.OfflineScan
import WebBaseline.Proofs.Files.Replacing

/-!
# The database of a cache

What commands without a service do to the rows of one file.  Opening a cache,
there or elsewhere, keeps them; to forget a catalog removes those of its key, if
the cache is in this file; a report that is saved leaves them alone, unless it is
saved over the file.

* `IsDatabase`, `FileTree.HasRows` — the rows of a file; `hasRows_openFile`, `hasRows_opened`;
* `PointsAt` — settings of a cache that is in a file;
* `hasRows_forget_of_pointsAt`, `hasRows_forget_of_not_pointsAt`,
  `hasRows_scanDirectory` — the commands;
* `exists_text_scanDirectory` — a report over the file.
-/

namespace WebBaseline

/-- Whether what is found is a database with some rows; one that has lost its table has none. -/
inductive IsDatabase : Option FileTree → List Store.Row → Prop where
  | intro (table : Store.Table) :
      IsDatabase (some (.file (.database table))) (table.rows.getD [])

/-- Whether a file is a database with some rows. -/
def FileTree.HasRows (t : FileTree) (names : List String) (rows : List Store.Row) : Prop :=
  IsDatabase (t.get? names) rows

/-- The name under which a report of a form is saved. -/
def ReportFormat.fileName? : ReportFormat → Option String
  | .terminal => none
  | .json => some "baseline-report.json"
  | .markdown => some "baseline-report.md"

namespace FileTree.HasRows

variable {t u : FileTree} {names : List String} {rows : List Store.Row}

/-- A database with rows is a file that stores them. -/
theorem exists_table (h : t.HasRows names rows) :
    ∃ table : Store.Table, t.get? names = some (.file (.database table)) ∧
      t.storedRows names = rows := by
  unfold HasRows at h
  unfold storedRows
  generalize t.get? names = found at h ⊢
  cases h with
  | intro table => exact ⟨table, rfl, rfl⟩

/-- A file that stays has its rows. -/
theorem of_file (h : t.HasRows names rows)
    (hfile : ∀ c, t.get? names = some (.file c) → u.get? names = some (.file c)) :
    u.HasRows names rows := by
  obtain ⟨table, htable, -⟩ := h.exists_table
  have hsame : u.get? names = t.get? names := (hfile _ htable).trans htable.symm
  rwa [HasRows, hsame]

/-- A database that was put has its rows. -/
theorem put (t : FileTree) (names : List String) (rows : List Store.Row) :
    (t.put names (.file (.database ⟨some rows⟩))).HasRows names rows := by
  rw [HasRows, get?_put]
  exact .intro ⟨some rows⟩

end FileTree.HasRows

namespace World

variable {w : World} {names : List String} {rows : List Store.Row}

/-! ### Opening a cache -/

/-- Opening a database, in the file or elsewhere, keeps the rows. -/
theorem hasRows_openIn {files after : FileTree} {path : String} {place : Place}
    (h : files.HasRows names rows) (hopen : openIn files path = .ok (place, after)) :
    after.HasRows names rows := by
  obtain ⟨other, -, rfl, hthere⟩ := openIn_eq_put hopen
  by_cases hsame : names = other
  · -- The database that is put there has the rows that the file had.
    subst hsame
    obtain ⟨-, -, hrows⟩ := h.exists_table
    rw [hrows]
    exact .put ..
  · refine h.of_file fun c hfile => ?_
    rcases hthere with hfree | ⟨d, hd⟩
    · exact FileTree.get?_put_new_of_file hfile hfree _
    · exact FileTree.get?_put_of_ne hfile hd rfl hsame _

/-- So does opening a store, whether or not it succeeds. -/
theorem hasRows_openFile (h : w.files.HasRows names rows) (path : String) :
    (openFile path w).2.files.HasRows names rows := by
  rw [openFile]
  split
  · exact h
  · split
    next => exact h
    next files hmade =>
      have hfiles : files.HasRows names rows :=
        h.of_file fun c => (FileTree.sameFile_makeDirectories hmade names c).mpr
      split
      next => exact hfiles
      next hopen => exact hasRows_openIn hfiles hopen

/-- How the cache is opened. -/
theorem run_openCache (w : World) (c : CacheSettings) :
    Command.openCache (system w.environment) c w =
      match c.file? w.environment with
      | some path => openFile path w
      | none => (.ok .memory, w) := by
  have hfile : c.file? (system w.environment).environment = c.file? w.environment := rfl
  rw [Command.openCache, hfile]
  cases c.file? w.environment <;> rfl

/-- Opening the cache keeps the rows. -/
theorem hasRows_openCache (h : w.files.HasRows names rows) (c : CacheSettings) :
    (Command.openCache (system w.environment) c w).2.files.HasRows names rows := by
  rw [run_openCache]
  cases c.file? w.environment with
  | none => exact h
  | some path => exact hasRows_openFile h path

/-- With the cache open the rows are there. -/
theorem hasRows_opened (h : w.files.HasRows names rows) (c : CacheSettings) :
    (w.opened c).files.HasRows names rows := by
  rw [opened]
  cases hfile : c.file? w.environment with
  | none =>
      rw [run_openCacheOrMemory_none hfile]
      exact h
  | some path =>
      rw [run_openCacheOrMemory_some hfile]
      exact hasRows_openFile h path

/-- Whether the cache of some settings is in a file: it is kept, and can be opened there. -/
def PointsAt (w : World) (c : CacheSettings) (names : List String) : Prop :=
  ∃ path, c.file? w.environment = some path ∧ (openFile path w).1 = .ok (.file names)

/-- The cache is opened where its settings point at. -/
theorem pointsAt_iff {c : CacheSettings} :
    w.PointsAt c names ↔
      (Command.openCache (system w.environment) c w).1 = .ok (.file names) := by
  rw [run_openCache, PointsAt]
  cases c.file? w.environment with
  | none =>
      constructor
      · rintro ⟨path, hpath, -⟩
        cases hpath
      · intro h
        cases h
  | some path => simp

/-- A cache that is opened serves. -/
theorem serves_openCache {c : CacheSettings} {place : Place}
    (h : (Command.openCache (system w.environment) c w).1 = .ok place) :
    (Command.openCache (system w.environment) c w).2.Serves w.files place := by
  rw [run_openCache] at h ⊢
  cases hfile : c.file? w.environment with
  | none =>
      rw [hfile] at h
      exact Except.ok.inj h ▸ trivial
  | some path =>
      rw [hfile] at h
      exact (opened_openFile w path).place place h

/-! ### Forgetting a catalog -/

/-- How a catalog is forgotten. -/
theorem run_forget (w : World) (settings : Settings) :
    Command.forget (system w.environment) settings w =
      match Command.openCache (system w.environment) settings.cache w with
      | (.error e, after) => (.error (.storage e), after)
      | (.ok place, after) =>
        (.ok (textOfLines ["Catalog cache cleared"]),
          (operate place (Store.Backend.operations.remove
            (Catalog.keyOf settings.catalog)) after).2) := by
  rw [Command.forget, bind_apply]
  rcases Command.openCache (system w.environment) settings.cache w with ⟨_ | _, after⟩ <;> rfl

/-- In a database an entry is removed with its row. -/
theorem operate_remove_file {after : World} {other : List String} {stored : List Store.Row}
    (h : after.files.get? other = some (.file (.database ⟨some stored⟩))) (key : String) :
    (operate (.file other) (Store.Backend.operations.remove key) after).2.files =
      after.files.put other
        (.file (.database ⟨some (stored.filter (·.key != key))⟩)) := by
  have hbackend : after.backend (.file other) = .table ⟨some stored⟩ := by
    rw [backend, h]
  simp only [operate, hbackend]
  rfl

/-- What forgetting a catalog leaves in the file that its cache is in. -/
theorem get?_forget_of_pointsAt {settings : Settings}
    (hpoints : w.PointsAt settings.cache names) :
    (Command.forget (system w.environment) settings w).2.files.get? names =
      some (.file (.database ⟨some ((w.files.storedRows names).filter
        (·.key != Catalog.keyOf settings.catalog))⟩)) := by
  rw [pointsAt_iff] at hpoints
  have hserves := serves_openCache hpoints
  rw [run_forget]
  rcases hopen : Command.openCache (system w.environment) settings.cache w with ⟨outcome, after⟩
  rw [hopen] at hpoints hserves
  obtain rfl : outcome = .ok (.file names) := hpoints
  simp only [operate_remove_file hserves, FileTree.get?_put]

/-- A catalog whose cache is in the file is forgotten, and the rows of other keys are kept. -/
theorem hasRows_forget_of_pointsAt {settings : Settings} (h : w.files.HasRows names rows)
    (hpoints : w.PointsAt settings.cache names) :
    (Command.forget (system w.environment) settings w).2.files.HasRows names
      (rows.filter (·.key != Catalog.keyOf settings.catalog)) := by
  obtain ⟨-, -, hrows⟩ := h.exists_table
  rw [FileTree.HasRows, get?_forget_of_pointsAt hpoints, hrows]
  exact .intro ⟨some _⟩

/-- If the cache can be opened, a catalog is forgotten with success. -/
theorem status_forget_of_pointsAt {settings : Settings} (hpoints : w.PointsAt settings.cache names) :
    (Outcome.of (Command.forget (system w.environment) settings w).1).status = 0 := by
  rw [pointsAt_iff] at hpoints
  rw [run_forget]
  rcases hopen : Command.openCache (system w.environment) settings.cache w with ⟨outcome, after⟩
  rw [hopen] at hpoints
  obtain rfl : outcome = .ok (.file names) := hpoints
  rfl

/-- Forgetting a catalog whose cache is elsewhere leaves all rows alone. -/
theorem hasRows_forget_of_not_pointsAt {settings : Settings} (h : w.files.HasRows names rows)
    (hpoints : ¬ w.PointsAt settings.cache names) :
    (Command.forget (system w.environment) settings w).2.files.HasRows names rows := by
  rw [pointsAt_iff] at hpoints
  have hkept := hasRows_openCache h settings.cache
  have hserves := @serves_openCache w settings.cache
  rw [run_forget]
  rcases hopen : Command.openCache (system w.environment) settings.cache w with ⟨outcome, after⟩
  rw [hopen] at hpoints hkept hserves
  -- The rows could only be lost by the removal, which acts on the place that was opened.
  cases outcome with
  | error e => exact hkept
  | ok place =>
      cases place with
      | memory => exact hkept
      | file other =>
          have hother : names ≠ other := by
            rintro rfl
            exact hpoints rfl
          have hthere := hserves rfl
          simp only [operate_remove_file hthere]
          exact hkept.of_file fun c hfile => FileTree.get?_put_of_ne hfile hthere rfl hother _

/-! ### Scanning -/

/-- Reports are saved under the names of their forms. -/
theorem fileName?_of_savedReport {format : ReportFormat} {r : Report} {name text : String}
    (h : Command.savedReport format r = some (name, text)) : format.fileName? = some name := by
  cases format with
  | terminal => cases h
  | json =>
      obtain ⟨rfl, -⟩ := Prod.mk.inj (Option.some.inj h)
      rfl
  | markdown =>
      obtain ⟨rfl, -⟩ := Prod.mk.inj (Option.some.inj h)
      rfl

/-- A text that is written elsewhere leaves the rows alone. -/
theorem hasRows_writeText (h : w.files.HasRows names rows) {path : String}
    (hne : w.files.resolve .missing path ≠ .ok names) (text : String) :
    (writeText path text w).2.files.HasRows names rows := by
  rw [writeText]
  split
  next files hwrite =>
    exact h.of_file fun c hfile => FileTree.get?_writeFile_of_ne hwrite hfile hne
  next => exact h

/-- So does a report, unless it is to be saved there. -/
theorem hasRows_deliver (h : w.files.HasRows names rows) {environment : String → Option String}
    {format : ReportFormat} {output : Option String}
    (hne : ∀ directory name, output = some directory → format.fileName? = some name →
      w.files.resolve .missing (Path.join directory name) ≠ .ok names) (r : Report) :
    (Command.deliver (system environment) format output r w).2.files.HasRows names rows := by
  rw [run_deliver]
  split
  next directory name text hsaved =>
    have hwritten := hasRows_writeText h
      (hne directory name rfl (fileName?_of_savedReport hsaved)) text
    rcases hwrite : writeText (Path.join directory name) text w with ⟨_ | _, after⟩
    · rwa [hwrite] at hwritten
    · rwa [hwrite] at hwritten
  next => exact h

/-- Whether a scan has a directory to scan, and a report of it is saved over a file. -/
def ReportGoesTo (w : World) (settings : Settings) (request : ScanRequest) (names : List String) :
    Prop :=
  ∃ listed directory name,
    (w.opened settings.cache).entries request.directory = some listed ∧
    request.output = some directory ∧ request.format.fileName? = some name ∧
    (w.opened settings.cache).files.resolve .missing (Path.join directory name) = .ok names

/-- A scan without a service keeps the rows of the file, unless its report is saved over it. -/
theorem hasRows_scanDirectory {settings : Settings} {request : ScanRequest}
    (hmemory : w.memory = {}) (hoffline : request.offline = true)
    (h : w.files.HasRows names rows) (hreport : ¬ w.ReportGoesTo settings request names) :
    (Command.scanDirectory (system w.environment) settings request w).2.files.HasRows names
      rows := by
  obtain ⟨cached, -, hfetch⟩ := run_fetchCatalog_offline settings hmemory
  have hopened := hasRows_opened h settings.cache
  rw [run_scanDirectory, hoffline, Bool.not_true, hfetch]
  simp only []
  cases hlisted : (w.opened settings.cache).entries request.directory with
  | none => exact hopened
  | some listed =>
      refine hasRows_deliver hopened (fun directory name houtput hname hresolve => ?_) _
      exact hreport ⟨listed, directory, name, hlisted, houtput, hname, hresolve⟩

/-- A report of a form that is saved has a text. -/
theorem exists_savedReport {format : ReportFormat} {name : String}
    (h : format.fileName? = some name) (r : Report) :
    ∃ text, Command.savedReport format r = some (name, text) := by
  cases format with
  | terminal => cases h
  | json =>
      obtain rfl := Option.some.inj h
      exact ⟨_, rfl⟩
  | markdown =>
      obtain rfl := Option.some.inj h
      exact ⟨_, rfl⟩

/-- A scan whose report is saved over the database leaves the text of the report. -/
theorem exists_text_scanDirectory {settings : Settings} {request : ScanRequest}
    (hmemory : w.memory = {}) (hoffline : request.offline = true)
    (h : w.files.HasRows names rows) (hreport : w.ReportGoesTo settings request names) :
    ∃ text, (Command.scanDirectory (system w.environment) settings request w).2.files.get? names =
      some (.file (.text text)) := by
  obtain ⟨listed, directory, name, hlisted, houtput, hname, hresolve⟩ := hreport
  obtain ⟨cached, -, hfetch⟩ := run_fetchCatalog_offline settings hmemory
  obtain ⟨table, htable, -⟩ := (hasRows_opened h settings.cache).exists_table
  have hwrite : ∀ text, (w.opened settings.cache).files.writeFile (Path.join directory name)
      (.text text) = .ok ((w.opened settings.cache).files.put names (.file (.text text))) := by
    intro text
    rw [FileTree.writeFile, hresolve]
    simp only [bind, Except.bind, htable]
    rfl
  rw [run_scanDirectory, hoffline, Bool.not_true, hfetch]
  simp only [hlisted]
  obtain ⟨text, hsaved⟩ := exists_savedReport hname ((w.opened settings.cache).scanReport settings
    request (offlineSnapshot w.now (Catalog.Accessor.ofSettings settings.catalog false).ttl cached)
    listed)
  rw [run_deliver, houtput, hsaved]
  simp only [writeText, hwrite]
  exact ⟨text, FileTree.get?_put ..⟩

end World

end WebBaseline
