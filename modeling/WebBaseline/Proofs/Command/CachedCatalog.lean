import WebBaseline.Command.World
import WebBaseline.Proofs.Catalog.Rows
import WebBaseline.Proofs.Files.Extending

/-!
# The catalog in a cache

Without a service a catalog can only come from the cache.  It is used if the
cache can be opened and the row under its key is sound; whatever else is the
case, there is no catalog.  Opening the cache may change its file and make the
directories for it, but nothing else.

* `Opened` — what opening a store leaves; `opened_openFile`,
  `opened_openCacheOrMemory`;
* `World.CacheHolds` — the catalog in the cache of a world;
* `run_fetchCatalog_offline` — getting the catalog without a service.
-/

namespace WebBaseline

/-! ### Opening a store -/

/-- The rows of the table in the file with some names.  What is no database has none, nor has a
database without the table. -/
def FileTree.storedRows (files : FileTree) (names : List String) : List Store.Row :=
  match files.get? names with
  | some (.file (.database t)) => t.rows.getD []
  | _ => []

namespace World

/-- Whether a place is one for a store in a world, and what is in a file there are the rows that
it has in given files. -/
def Serves (w : World) (files : FileTree) : Place → Prop
  | .memory => True
  | .file names =>
    w.files.get? names = some (.file (.database ⟨some (files.storedRows names)⟩))

/-- What is known after a store was opened: nothing but files has changed, nothing is lost of them,
and the place of the store serves with the rows that were there before. -/
structure Opened (w after : World) (outcome : Except Store.Error Place) : Prop where
  others : after = { w with files := after.files }
  files : w.files.Extends after.files
  place : ∀ place, outcome = .ok place → after.Serves w.files place

/-- The table of a database that is opened has the rows of the file. -/
theorem databaseOf_eq_ok {files : FileTree} {path : String} {names : List String}
    {t : Store.Table} (h : databaseOf path (files.get? names) = .ok t) :
    t = ⟨some (files.storedRows names)⟩ ∧
      (files.get? names = none ∨ ∃ c, files.get? names = some (.file c)) := by
  unfold FileTree.storedRows
  generalize files.get? names = found at h ⊢
  unfold databaseOf at h
  split at h
  next =>
    obtain rfl := Except.ok.inj h
    exact ⟨rfl, Or.inl rfl⟩
  next =>
    obtain rfl := Except.ok.inj h
    exact ⟨rfl, Or.inr ⟨_, rfl⟩⟩
  next stored =>
    obtain rfl := Except.ok.inj h
    exact ⟨rfl, Or.inr ⟨_, rfl⟩⟩
  next => cases h
  next => cases h

/-- Files that are the same have the same rows. -/
theorem storedRows_congr {t u : FileTree} (h : FileTree.Throughout FileTree.SameFile t u)
    (names : List String) : u.storedRows names = t.storedRows names := by
  have hsame := h names
  unfold FileTree.storedRows
  generalize t.get? names = a at hsame ⊢
  generalize u.get? names = b at hsame ⊢
  split
  next b t =>
    rw [(hsame _).mp rfl]
  next b hb =>
    split
    next a t => exact absurd ((hsame _).mpr rfl) (hb t)
    next => rfl

/-- A store that is opened in files is put where nothing or a file is. -/
theorem openIn_eq_put {files after : FileTree} {path : String} {place : Place}
    (h : openIn files path = .ok (place, after)) :
    ∃ names, place = .file names ∧
      after = files.put names (.file (.database ⟨some (files.storedRows names)⟩)) ∧
      (files.IsFree names ∨ ∃ c, files.get? names = some (.file c)) := by
  rw [openIn] at h
  split at h
  next => cases h
  next names hnames =>
    cases hdatabase : databaseOf path (files.get? names) with
    | error e =>
        rw [hdatabase] at h
        cases h
    | ok t =>
        rw [hdatabase] at h
        obtain ⟨rfl, rfl⟩ := Prod.mk.inj (Except.ok.inj h)
        obtain ⟨rfl, hthere⟩ := databaseOf_eq_ok hdatabase
        obtain ⟨-, hfollow, -⟩ := FileTree.resolve_eq_ok_iff.mp hnames
        exact ⟨names, rfl, rfl, hthere.imp_left (FileTree.isFree_of_follow_missing hfollow)⟩

/-- So nothing of the files is lost. -/
theorem openIn_eq_ok {files after : FileTree} {path : String} {place : Place}
    (h : openIn files path = .ok (place, after)) :
    ∃ names, place = .file names ∧ files.Extends after ∧
      after.get? names = some (.file (.database ⟨some (files.storedRows names)⟩)) := by
  obtain ⟨names, rfl, rfl, hfree | ⟨c, hfile⟩⟩ := openIn_eq_put h
  · exact ⟨names, rfl, .put_new hfree _, FileTree.get?_put ..⟩
  · exact ⟨names, rfl, .put_file hfile _, FileTree.get?_put ..⟩

/-- **Opening a store.**  Whether or not it succeeds, nothing is lost. -/
theorem opened_openFile (w : World) (path : String) :
    Opened w (openFile path w).2 (openFile path w).1 := by
  rw [openFile]
  split
  · exact ⟨rfl, .refl _, fun place h => Except.ok.inj h ▸ trivial⟩
  · split
    next => exact ⟨rfl, .refl _, nofun⟩
    next files hmade =>
      have hextends := FileTree.extends_makeDirectories hmade
      split
      next => exact ⟨rfl, hextends, nofun⟩
      next place after hopen =>
        obtain ⟨names, rfl, hopened, hthere⟩ := openIn_eq_ok hopen
        refine ⟨rfl, hextends.trans hopened, fun place h => ?_⟩
        obtain rfl := Except.ok.inj h
        rw [Serves, ← storedRows_congr (FileTree.sameFile_makeDirectories hmade)]
        exact hthere

/-- The world in which the cache has been opened. -/
def opened (w : World) (c : CacheSettings) : World :=
  (Command.openCacheOrMemory (system w.environment) c w).2

/-- Without a file for it the cache is in memory. -/
theorem run_openCacheOrMemory_none {w : World} {c : CacheSettings}
    (h : c.file? w.environment = none) :
    Command.openCacheOrMemory (system w.environment) c w = (.memory, w) := by
  have hfile : c.file? (system w.environment).environment = none := h
  rw [Command.openCacheOrMemory, Command.openCache, hfile]
  rfl

/-- The cache is opened in its file, and if that fails, it is in memory. -/
theorem run_openCacheOrMemory_some {w : World} {c : CacheSettings} {path : String}
    (h : c.file? w.environment = some path) :
    Command.openCacheOrMemory (system w.environment) c w =
      ((openFile path w).1.toOption.getD .memory, (openFile path w).2) := by
  have hfile : c.file? (system w.environment).environment = some path := h
  rw [Command.openCacheOrMemory, Command.openCache, hfile]
  change (openFile path >>= _ : StateM World Place) w = _
  simp only [bind, StateT.bind]
  rcases openFile path w with ⟨_ | _, after⟩ <;> rfl

/-- Opening the cache always gives a place to use, and loses nothing.  The place is in a file only
if the store there could be opened. -/
theorem exists_openCacheOrMemory (w : World) (c : CacheSettings) :
    ∃ place, Command.openCacheOrMemory (system w.environment) c w = (place, w.opened c) ∧
      Opened w (w.opened c) (.ok place) ∧
      ∀ names, place = .file names ↔
        ∃ path, c.file? w.environment = some path ∧ (openFile path w).1 = .ok (.file names) := by
  rw [opened]
  cases hfile : c.file? w.environment with
  | none =>
      rw [run_openCacheOrMemory_none hfile]
      exact ⟨.memory, rfl, ⟨rfl, .refl _, fun place h => Except.ok.inj h ▸ trivial⟩,
        fun names => ⟨nofun, fun ⟨_, h, _⟩ => nomatch h⟩⟩
  | some path =>
      have hopened := opened_openFile w path
      rw [run_openCacheOrMemory_some hfile]
      simp only [Option.some.injEq, exists_eq_left']
      cases houtcome : (openFile path w).1 with
      | ok place =>
          rw [houtcome] at hopened
          exact ⟨place, rfl, hopened, fun names => by simp⟩
      | error e =>
          exact ⟨.memory, rfl, ⟨hopened.others, hopened.files,
            fun place h => Except.ok.inj h ▸ trivial⟩, fun names => by simp⟩

/-! ### Getting the catalog -/

/-- Whether the cache holds a catalog for settings: a store can be opened in its file, and the row
of the file under the key of the settings holds the catalog. -/
inductive CacheHolds (w : World) (settings : Settings) (c : Catalog.Cached) : Prop where
  | row {path : String} {names : List String} {r : Store.Row}
      (hpath : settings.cache.file? w.environment = some path)
      (hopen : (openFile path w).1 = .ok (.file names))
      (hfound : (w.files.storedRows names).find? (·.key == Catalog.keyOf settings.catalog) = some r)
      (hrow : r.Holds c)

/-- What is found in the cache if it is opened at a place. -/
theorem cached?_backend_eq_some_iff {w after : World} {place : Place} (hmemory : w.memory = {})
    (hopened : Opened w after (.ok place)) {key : String} {c : Catalog.Cached} :
    Catalog.Cache.cached? ((after.backend place).get key) = some c ↔
      ∃ names r, place = .file names ∧
        (w.files.storedRows names).find? (·.key == key) = some r ∧ r.Holds c := by
  cases place with
  | memory =>
      have hempty : after.backend .memory = .memory {} := by
        rw [hopened.others, backend, hmemory]
      rw [hempty]
      exact ⟨nofun, fun ⟨_, _, h, _⟩ => nomatch h⟩
  | file names =>
      have htable : after.backend (.file names) =
          .table ⟨some (w.files.storedRows names)⟩ := by
        have hserves : after.files.get? names = _ := hopened.place _ rfl
        rw [backend, hserves]
      rw [htable]
      simp only [Place.file.injEq, exists_and_left, exists_eq_left']
      exact Catalog.get_table_eq_some_iff

/-- Setting a store to what it is changes nothing. -/
theorem setBackend_backend (w : World) (place : Place) :
    w.setBackend place (w.backend place) = w := by
  cases place with
  | memory => rfl
  | file names =>
      simp only [backend]
      split
      next t ht => rw [setBackend, FileTree.put_self ht]
      next => rfl

/-- Reading a store changes nothing. -/
theorem operate_get (w : World) (place : Place) (key : String) :
    operate place (Store.Backend.operations.get key) w = ((w.backend place).get key, w) :=
  congrArg (_, ·) (setBackend_backend w place)

/-- What an accessor reads of the cache. -/
theorem read_host (environment : String → Option String) (place : Place) (address key : String)
    (w : World) :
    (Command.host (system environment) place address).read key w =
      (Catalog.Cache.cached? ((w.backend place).get key), w) := by
  change (fun p : Except Store.Error (Option Store.Entry) × World =>
    (Catalog.Cache.cached? p.1, p.2)) (operate place (Store.Backend.operations.get key) w) = _
  rw [operate_get]

/-- The snapshot of what the cache holds, if no service is asked. -/
def offlineSnapshot (now ttl : Int) : Option Catalog.Cached → Catalog.Snapshot
  | some c => if c.isFresh now ttl then .ofFresh c else .fallback (some c) none
  | none => .fallback none none

/-- Without a service an accessor reads the cache, looks at the clock, and is done. -/
theorem run_fetch_offline {a : Catalog.Accessor} (hoffline : a.online = false)
    (host : Catalog.Host (StateM World)) (w : World) :
    a.fetch.run host a.key w =
      let (cached, w) := host.read a.key w
      let (now, w) := host.clock w
      (offlineSnapshot now a.ttl cached, w) := by
  have hfallback : ∀ cached, a.fetchOrFallback cached = .done (.fallback cached none) :=
    fun cached => by rw [Catalog.Accessor.fetchOrFallback, hoffline]; rfl
  rw [Catalog.Accessor.fetch, Catalog.Plan.run]
  simp only [bind, StateT.bind]
  rcases host.read a.key w with ⟨cached, w⟩
  simp only [Catalog.Plan.run, bind, StateT.bind]
  rcases host.clock w with ⟨now, w⟩
  cases cached with
  | none => simp only [hfallback]; rfl
  | some c =>
      simp only [offlineSnapshot, hfallback]
      split <;> rfl

/-- **Getting the catalog without a service.**  It comes from what the cache holds, and opening the
cache is all that is done. -/
theorem run_fetchCatalog_offline (settings : Settings) {w : World} (hmemory : w.memory = {}) :
    ∃ cached, (∀ c, cached = some c ↔ w.CacheHolds settings c) ∧
      Command.fetchCatalog (system w.environment) settings false w =
        (offlineSnapshot w.now (Catalog.Accessor.ofSettings settings.catalog false).ttl cached,
          w.opened settings.cache) := by
  obtain ⟨place, hrun, hopened, hplace⟩ := exists_openCacheOrMemory w settings.cache
  refine ⟨Catalog.Cache.cached? (((w.opened settings.cache).backend place).get
    (Catalog.keyOf settings.catalog)), fun c => ?_, ?_⟩
  · rw [cached?_backend_eq_some_iff hmemory hopened]
    simp only [hplace]
    exact ⟨fun ⟨_, _, ⟨_, hpath, hopen⟩, hfound, hrow⟩ => .row hpath hopen hfound hrow,
      fun ⟨hpath, hopen, hfound, hrow⟩ => ⟨_, _, ⟨_, hpath, hopen⟩, hfound, hrow⟩⟩
  · have hfetch : Command.fetchCatalog (system w.environment) settings false w =
        (fun p : Place × World =>
          Command.access (system w.environment) settings.catalog false p.1 (·.fetch) p.2)
          (Command.openCacheOrMemory (system w.environment) settings.cache w) := rfl
    have hnow : (w.opened settings.cache).now = w.now := by rw [hopened.others]
    rw [hfetch, hrun]
    simp only [Command.access]
    rw [run_fetch_offline rfl, read_host]
    exact congrArg (offlineSnapshot · _ _, w.opened settings.cache) hnow

end World

end WebBaseline
