import WebBaseline.Proofs.Catalog.Retries
import WebBaseline.Proofs.Feature.Reading
import WebBaseline.Proofs.Store.ReadBack

/-!
# What fetching a catalog comes to

Fetching prefers a fresh entry of the cache; refreshing does not look for one.
Otherwise both request the catalog, and either keep what they get or fall back
to the cache, which others may have changed meanwhile.

* `run_fetch_fresh`, `run_fetch_otherwise`, `run_refresh` — how a run starts;
* `run_fetchOrFallback_success`, `run_fetchOrFallback_failure` — how it ends
  after the requests;
* `fetch_and_refresh_outcome` — the whole outcome, for every store, clock and
  sequence of requests;
* `fetch_and_refresh_outcome_disturbed` — a fetch while another scan writes.
-/

namespace WebBaseline.Catalog

/-- A catalog is read back from its entry. -/
theorem Cached.ofEntry?_toEntry (c : Cached) : Cached.ofEntry? c.toEntry = some c := by
  simp [Cached.ofEntry?, Cached.toEntry, FeatureRecord.listOfJson_listToJson]

namespace Surroundings

open Store

variable {σ : Type} (env : Surroundings σ) (ops : Operations σ) (a : Accessor) (key : String)

/-- A fresh entry is all that fetching needs. -/
theorem run_fetch_fresh {p : Position σ} {c : Cached}
    (hread : (Cache.get ops key p.store).1 = some c)
    (hfresh : env.clock p.looks - c.timestamp < a.ttl) :
    a.fetch.run (env.host ops) key p = (.ofFresh c, afterLook (afterRead ops key p)) := by
  have hisFresh : c.isFresh (env.clock (afterRead ops key p).looks) a.ttl = true :=
    decide_eq_true hfresh
  rw [Accessor.fetch, run_read, run_clock, hread]
  simp only [hisFresh, if_true, run_done]

/-- Without a fresh entry fetching goes on as refreshing does, after a look at
the clock. -/
theorem run_fetch_otherwise {p : Position σ}
    (hstale : ∀ c, (Cache.get ops key p.store).1 = some c →
      ¬ env.clock p.looks - c.timestamp < a.ttl) :
    a.fetch.run (env.host ops) key p =
      (a.fetchOrFallback (Cache.get ops key p.store).1).run (env.host ops) key
        (afterLook (afterRead ops key p)) := by
  rw [Accessor.fetch, run_read, run_clock]
  cases hread : (Cache.get ops key p.store).1 with
  | none => rfl
  | some c =>
      have hnot : c.isFresh (env.clock (afterRead ops key p).looks) a.ttl = false :=
        decide_eq_false (hstale c hread)
      simp only [hnot, Bool.false_eq_true, if_false]

/-- Refreshing reads the cache and goes on at once. -/
theorem run_refresh (p : Position σ) :
    a.refresh.run (env.host ops) key p =
      (a.fetchOrFallback (Cache.get ops key p.store).1).run (env.host ops) key
        (afterRead ops key p) := rfl

/-- Without a service the entry that was read is all there is. -/
theorem run_fetchOrFallback_offline {cached : Option Cached} {p : Position σ}
    (hoffline : a.online = false) :
    (a.fetchOrFallback cached).run (env.host ops) key p = (.fallback cached none, p) := by
  simp only [Accessor.fetchOrFallback, hoffline, Bool.false_eq_true, if_false, run_done]

/-- After the first success the records are kept, with the time of that moment. -/
theorem run_fetchOrFallback_success (cached : Option Cached) {p : Position σ} {j : Nat}
    {records : List FeatureRecord} (honline : a.online = true) (hj : j < max 1 a.attempts)
    (hfails : ∀ i < j, (env.turns (p.calls + i)).Fails)
    (hok : (env.turns (p.calls + j)).outcome = .ok records) :
    (a.fetchOrFallback cached).run (env.host ops) key p =
      (.ofFetched ⟨env.clock p.looks, records⟩,
        afterWrite ops key ⟨env.clock p.looks, records⟩
          (afterLook (env.afterRequests a.backoffBaseMs 0 (j + 1) p))) := by
  have hleft : j ≤ a.attempts - 1 := by omega
  simp only [Accessor.fetchOrFallback, honline, if_true]
  rw [run_requestWithRetry_success env ops key _ a hleft hfails hok, run_clock, run_write,
    run_done]
  rfl

/-- After the last failure the cache is read once more, and its entry, or else
the one that was read first, stands in. -/
theorem run_fetchOrFallback_failure (cached : Option Cached) {p : Position σ} {e : RequestError}
    (honline : a.online = true)
    (hfails : ∀ i < a.attempts - 1, (env.turns (p.calls + i)).Fails)
    (hlast : (env.turns (p.calls + (a.attempts - 1))).outcome = .error e) :
    (a.fetchOrFallback cached).run (env.host ops) key p =
      (.fallback
          ((Cache.get ops key (env.disturbed p.calls (a.attempts - 1 + 1) p.store)).1.or cached)
          (some e.message),
        afterRead ops key (env.afterRequests a.backoffBaseMs 0 (a.attempts - 1 + 1) p)) := by
  simp only [Accessor.fetchOrFallback, honline, if_true]
  rw [run_requestWithRetry_failure env ops key _ a hfails hlast, run_read, run_done]
  rfl

/-- Requests either succeed at a first time or fail as long as one likes. -/
theorem first_success_or_failures (count : Nat) :
    (∃ j < count, (∀ i < j, (env.turns i).Fails) ∧
      ∃ records, (env.turns j).outcome = .ok records) ∨
    ∀ i < count, (env.turns i).Fails := by
  induction count with
  | zero => exact Or.inr fun i hi => absurd hi (Nat.not_lt_zero i)
  | succ n ih =>
      rcases ih with ⟨j, hj, hfails, hok⟩ | hfails
      · exact Or.inl ⟨j, by omega, hfails, hok⟩
      · cases hlast : (env.turns n).outcome with
        | ok records => exact Or.inl ⟨n, by omega, hfails, records, hlast⟩
        | error e =>
            refine Or.inr fun i hi => ?_
            rcases Nat.lt_succ_iff_lt_or_eq.mp hi with h | rfl
            · exact hfails i h
            · exact ⟨e, hlast⟩

end Surroundings

/-! ### The outcome over the stores -/

open Store Surroundings

/-- Whether a snapshot is that of an entry that stands in for a catalog, or of
nothing. -/
def StandsIn (entry : Option Cached) (error : Option String) (snapshot : Snapshot) : Prop :=
  match entry with
  | some c => snapshot = ⟨c.records, .stale, some c.timestamp, error⟩
  | none => snapshot = ⟨[], .unavailable, none, error⟩

/-- What falling back gives stands in. -/
theorem standsIn_fallback (entry : Option Cached) (error : Option String) :
    StandsIn entry error (.fallback entry error) := by
  cases entry <;> rfl

/-- What stands in is old, or it is nothing. -/
theorem StandsIn.freshness_eq {entry : Option Cached} {error : Option String}
    {snapshot : Snapshot} (h : StandsIn entry error snapshot) :
    snapshot.freshness = .stale ∨ snapshot.freshness = .unavailable := by
  cases entry with
  | none =>
      obtain rfl : snapshot = _ := h
      exact Or.inr rfl
  | some c =>
      obtain rfl : snapshot = _ := h
      exact Or.inl rfl

/-- What stands in is not fresh. -/
theorem StandsIn.freshness_ne {entry : Option Cached} {error : Option String}
    {snapshot : Snapshot} (h : StandsIn entry error snapshot) : snapshot.freshness ≠ .fresh := by
  rcases h.freshness_eq with heq | heq
  · simp [heq]
  · simp [heq]

/-- Nor has it just been fetched. -/
theorem StandsIn.freshness_ne_fetched {entry : Option Cached} {error : Option String}
    {snapshot : Snapshot} (h : StandsIn entry error snapshot) : snapshot.freshness ≠ .fetched := by
  rcases h.freshness_eq with heq | heq
  · simp [heq]
  · simp [heq]

/-- What a run comes to that goes to the service.  `attempts` is how often it
tries, `now` the time of its success, `first` the entry that it read first and
`before` the store at that moment. -/
structure Settled (env : Surroundings Backend) (key : String) (attempts : Nat) (now : Int)
    (first : Option Cached) (before : Backend) (run : Snapshot × Position Backend) : Prop where
  /-- The first success is returned and written, and nothing is requested after it. -/
  success : ∀ j < attempts, ∀ records, (∀ i < j, (env.turns i).Fails) →
    (env.turns j).outcome = .ok records →
      run.1 = ⟨records, .fetched, some now, none⟩ ∧
      run.2.calls = j + 1 ∧
      run.2.store =
        (Cache.put Backend.operations key ⟨now, records⟩ (env.disturbed 0 (j + 1) before)).2
  /-- If the write succeeds, the store holds exactly what was returned, whatever it is. -/
  held : ∀ j < attempts, ∀ records, (∀ i < j, (env.turns i).Fails) →
    (env.turns j).outcome = .ok records →
      (Cache.put Backend.operations key ⟨now, records⟩ (env.disturbed 0 (j + 1) before)).1 = true →
        run.2.store.Holds key (Cached.toEntry ⟨now, records⟩)
  /-- The cache reads it back, if the store gives back what it is given. -/
  kept : ∀ j < attempts, ∀ records, (∀ i < j, (env.turns i).Fails) →
    (env.turns j).outcome = .ok records →
      (Cache.put Backend.operations key ⟨now, records⟩ (env.disturbed 0 (j + 1) before)).1 = true →
      run.2.store.Preserves (FeatureRecord.listToJson records) →
        Cache.get Backend.operations key run.2.store = (some ⟨now, records⟩, run.2.store)
  /-- After the last failure nothing is written, and the entry read then, or else
  the first one, stands in. -/
  failure : ∀ e, (∀ i < attempts - 1, (env.turns i).Fails) →
    (env.turns (attempts - 1)).outcome = .error e →
      run.2.calls = attempts ∧
      run.2.store = env.disturbed 0 attempts before ∧
      StandsIn ((Cache.get Backend.operations key run.2.store).1.or first) (some e.message) run.1

/-- A run that goes to the service returns no fresh catalog. -/
theorem Settled.freshness_ne {env : Surroundings Backend} {key : String} {attempts : Nat}
    {now : Int} {first : Option Cached} {before : Backend} {run : Snapshot × Position Backend}
    (h : Settled env key attempts now first before run) (hpos : 0 < attempts) :
    run.1.freshness ≠ .fresh := by
  rcases env.first_success_or_failures attempts with ⟨j, hj, hfails, records, hok⟩ | hfails
  · rw [(h.success j hj records hfails hok).1]
    exact Freshness.noConfusion
  · obtain ⟨e, hlast⟩ := hfails (attempts - 1) (by omega)
    exact (h.failure e (fun i hi => hfails i (by omega)) hlast).2.2.freshness_ne

/-- A run that goes to the service makes a request. -/
theorem Settled.calls_pos {env : Surroundings Backend} {key : String} {attempts : Nat}
    {now : Int} {first : Option Cached} {before : Backend} {run : Snapshot × Position Backend}
    (h : Settled env key attempts now first before run) (hpos : 0 < attempts) :
    0 < run.2.calls := by
  rcases env.first_success_or_failures attempts with ⟨j, hj, hfails, records, hok⟩ | hfails
  · rw [(h.success j hj records hfails hok).2.1]
    omega
  · obtain ⟨e, hlast⟩ := hfails (attempts - 1) (by omega)
    rw [(h.failure e (fun i hi => hfails i (by omega)) hlast).1]
    exact hpos

/-- A run that gives what it has fetched has written exactly this. -/
theorem Settled.of_fetched {env : Surroundings Backend} {key : String} {attempts : Nat}
    {now : Int} {first : Option Cached} {before : Backend} {run : Snapshot × Position Backend}
    (h : Settled env key attempts now first before run) (hpos : 0 < attempts)
    (hfetched : run.1.freshness = .fetched) :
    ∃ j records, run.1 = ⟨records, .fetched, some now, none⟩ ∧
      run.2.store =
        (Cache.put Backend.operations key ⟨now, records⟩ (env.disturbed 0 (j + 1) before)).2 := by
  rcases env.first_success_or_failures attempts with ⟨j, hj, hfails, records, hok⟩ | hfails
  · obtain ⟨hgiven, -, hstore⟩ := h.success j hj records hfails hok
    exact ⟨j, records, hgiven, hstore⟩
  · obtain ⟨e, hlast⟩ := hfails (attempts - 1) (by omega)
    exact absurd hfetched
      (h.failure e (fun i hi => hfails i (by omega)) hlast).2.2.freshness_ne_fetched

/-- Reading leaves a store as it is. -/
theorem get_store (key : String) (b : Backend) : (Cache.get Backend.operations key b).2 = b := rfl

/-- The cache finds what its store gives back of a catalog that it holds. -/
theorem get_eq_of_holds {key : String} {e : Entry} {b : Backend} (h : b.Holds key e) :
    (Cache.get Backend.operations key b).1 = Cache.cached? ((b.readBack key e).map some) :=
  congrArg Cache.cached? h.get_eq

/-- This is the catalog itself if the store gives back what it is given. -/
theorem get_of_holds {key : String} {c : Cached} {b : Backend} (h : b.Holds key c.toEntry)
    (hvalue : b.Preserves (FeatureRecord.listToJson c.records)) :
    (Cache.get Backend.operations key b).1 = some c := by
  have hback : b.readBack key c.toEntry = .ok c.toEntry :=
    Backend.readBack_of_preserves (e := c.toEntry) hvalue key
  rw [get_eq_of_holds h, hback]
  exact c.ofEntry?_toEntry

/-- After a catalog was written the store holds it if it was kept, and is as before if not. -/
theorem store_of_put {key : String} {c : Cached} {b after : Backend} {kept : Bool}
    (h : Cache.put Backend.operations key c b = (kept, after)) :
    if kept then after.Holds key c.toEntry else after = b := by
  cases hput : b.put key c.toEntry with
  | ok written =>
      simp only [Cache.put, Backend.operations, hput, Backend.settle, Prod.mk.injEq] at h
      obtain ⟨rfl, rfl⟩ := h
      exact Backend.holds_of_put hput
  | error e =>
      simp only [Cache.put, Backend.operations, hput, Backend.settle, Prod.mk.injEq] at h
      obtain ⟨rfl, rfl⟩ := h
      rfl

/-- What the cache has kept its store holds. -/
theorem holds_put_of_kept {key : String} {c : Cached} {b : Backend}
    (hkept : (Cache.put Backend.operations key c b).1 = true) :
    (Cache.put Backend.operations key c b).2.Holds key c.toEntry := by
  have hput : Cache.put Backend.operations key c b =
      (true, (Cache.put Backend.operations key c b).2) := Prod.ext hkept rfl
  simpa using store_of_put hput

/-- What the cache has kept it gives back. -/
theorem get_put_of_kept {key : String} {c : Cached} {b : Backend}
    (hkept : (Cache.put Backend.operations key c b).1 = true)
    (hvalue : (Cache.put Backend.operations key c b).2.Preserves
      (FeatureRecord.listToJson c.records)) :
    Cache.get Backend.operations key (Cache.put Backend.operations key c b).2 =
      (some c, (Cache.put Backend.operations key c b).2) :=
  Prod.ext (get_of_holds (holds_put_of_kept hkept) hvalue) rfl

/-- Going to the service settles a run, wherever it starts. -/
theorem settled_fetchOrFallback (env : Surroundings Backend) (a : Accessor) (key : String)
    (first : Option Cached) (p : Position Backend) (honline : a.online = true)
    (hcalls : p.calls = 0) :
    Settled env key (max 1 a.attempts) (env.clock p.looks) first p.store
      ((a.fetchOrFallback first).run (env.host Backend.operations) key p) := by
  have hfirst : ∀ i, (env.turns (p.calls + i)) = env.turns i := by
    intro i
    rw [hcalls, Nat.zero_add]
  have hsuccess : ∀ j < max 1 a.attempts, ∀ records, (∀ i < j, (env.turns i).Fails) →
      (env.turns j).outcome = .ok records →
        (a.fetchOrFallback first).run (env.host Backend.operations) key p = _ :=
    fun j hj records hfails hok =>
      run_fetchOrFallback_success env Backend.operations a key first honline hj
        (by simpa [hfirst] using hfails) (by simpa [hfirst] using hok)
  have hstore : ∀ j, (afterLook (env.afterRequests a.backoffBaseMs 0 (j + 1) p)).store =
      env.disturbed 0 (j + 1) p.store := by
    intro j
    rw [afterLook, afterRequests, hcalls]
  refine ⟨?success, ?held, ?kept, ?failure⟩
  case success =>
    intro j hj records hfails hok
    rw [hsuccess j hj records hfails hok]
    refine ⟨rfl, ?_, ?_⟩
    · simp [afterWrite, afterLook, afterRequests, hcalls]
    · rw [← hstore]
      rfl
  case held =>
    intro j hj records hfails hok hkept
    rw [hsuccess j hj records hfails hok]
    rw [← hstore] at hkept
    exact holds_put_of_kept hkept
  case kept =>
    intro j hj records hfails hok hkept hvalue
    rw [hsuccess j hj records hfails hok] at hvalue ⊢
    rw [← hstore] at hkept
    exact get_put_of_kept hkept hvalue
  case failure =>
    intro e hfails hlast
    have hcount : max 1 a.attempts = a.attempts - 1 + 1 := by omega
    rw [hcount, Nat.add_sub_cancel] at hfails hlast
    rw [run_fetchOrFallback_failure env Backend.operations a key first honline
      (by simpa [hfirst] using hfails) (by simpa [hfirst] using hlast), hcount]
    have hafter : (afterRead Backend.operations key
        (env.afterRequests a.backoffBaseMs 0 (a.attempts - 1 + 1) p)).store =
        env.disturbed 0 (a.attempts - 1 + 1) p.store := by
      rw [afterRead, get_store, afterRequests, hcalls]
    refine ⟨?_, hafter, ?_⟩
    · simp [afterRead, afterRequests, hcalls]
    · rw [hafter, hcalls]
      exact standsIn_fallback _ _

/-- The time to live in milliseconds, as long as it fits a signed number of 64 bits. -/
theorem ttl_ofSettings {settings : CatalogSettings} (online : Bool)
    (hfits : settings.cacheTtlSecs.toNat * 1000 < Bound.signed64) :
    (Accessor.ofSettings settings online).ttl = settings.cacheTtlSecs.toNat * 1000 := by
  have hsmall : settings.cacheTtlSecs.toNat < 2 ^ 63 := by
    unfold Bound.signed64 at hfits
    omega
  have hsecs : settings.cacheTtlSecs.toInt64.toInt = settings.cacheTtlSecs.toNat :=
    BitVec.toInt_eq_toNat_of_lt (x := settings.cacheTtlSecs.toBitVec) (by
      rw [UInt64.toNat_toBitVec]
      omega)
  rw [Accessor.ofSettings, hsecs]

/-- **Fetching and refreshing.**  For all settings, every content of the store,
every clock and every sequence of requests, during which others may do anything
to the store:

* fetching returns a fresh catalog exactly if the entry that it reads first is
  younger than the time to live; then it requests nothing and leaves the store
  alone.  Refreshing never returns a fresh catalog;
* otherwise, with a service, both settle for the first success among the
  attempts, which the store holds afterwards if the write succeeds, or for what
  the cache holds after the last failure;
* without a service, the entry that was read first stands in;
* every store gives back a catalog whose support by browsers has no
  floating-point numbers and is not nested too deeply. -/
theorem fetch_and_refresh_outcome (settings : CatalogSettings) (env : Surroundings Backend)
    (before : Backend) :
    let key := keyOf settings
    let attempts := max 1 settings.maxAttempts.toNat
    let accessor := Accessor.ofSettings settings
    let start : Position Backend := { store := before }
    let fetched online := (accessor online).fetch.run (env.host Backend.operations) key start
    let refreshed online := (accessor online).refresh.run (env.host Backend.operations) key start
    let first := (Cache.get Backend.operations key before).1
    let Young c := env.clock 0 - c.timestamp < (accessor true).ttl
    (settings.cacheTtlSecs.toNat * 1000 < Bound.signed64 →
      (accessor true).ttl = settings.cacheTtlSecs.toNat * 1000) ∧
    (∀ online,
      ((fetched online).1.freshness = .fresh ↔ ∃ c, first = some c ∧ Young c) ∧
      (∀ c, first = some c → Young c →
        (fetched online).1 = ⟨c.records, .fresh, some c.timestamp, none⟩ ∧
        (fetched online).2.calls = 0 ∧ (fetched online).2.store = before) ∧
      (refreshed online).1.freshness ≠ .fresh) ∧
    ((∀ c, first = some c → ¬ Young c) →
      Settled env key attempts (env.clock 1) first before (fetched true)) ∧
    Settled env key attempts (env.clock 0) first before (refreshed true) ∧
    ((∀ c, first = some c → ¬ Young c) →
      StandsIn first none (fetched false).1 ∧
      (fetched false).2.calls = 0 ∧ (fetched false).2.store = before) ∧
    (StandsIn first none (refreshed false).1 ∧
      (refreshed false).2.calls = 0 ∧ (refreshed false).2.store = before) ∧
    ∀ records : List FeatureRecord,
      (∀ r ∈ records, ∀ v ∈ r.browserSupport, Json.Plain 124 v) →
        ∀ b : Backend, b.Preserves (FeatureRecord.listToJson records) := by
  intro key attempts accessor start fetched refreshed first Young
  have hattempts : max 1 (accessor true).attempts = attempts := by
    simp only [accessor, attempts, Accessor.ofSettings]
    omega
  have hpos : 0 < attempts := by omega
  have hyoung : ∀ online c, first = some c → Young c →
      fetched online = (.ofFresh c, afterLook (afterRead Backend.operations key start)) :=
    fun online c hfirst hc =>
      run_fetch_fresh env Backend.operations (accessor online) key hfirst hc
  have hold : (∀ c, first = some c → ¬ Young c) → ∀ online,
      fetched online = ((accessor online).fetchOrFallback first).run (env.host Backend.operations)
        key (afterLook (afterRead Backend.operations key start)) :=
    fun hnone online =>
      run_fetch_otherwise env Backend.operations (accessor online) key hnone
  have hsettledFetch : (∀ c, first = some c → ¬ Young c) →
      Settled env key attempts (env.clock 1) first before (fetched true) := by
    intro hnone
    rw [hold hnone true, ← hattempts]
    exact settled_fetchOrFallback env (accessor true) key first
      (afterLook (afterRead Backend.operations key start)) rfl rfl
  have hrefreshed : ∀ online, refreshed online =
      ((accessor online).fetchOrFallback first).run (env.host Backend.operations) key
        (afterRead Backend.operations key start) :=
    fun online => run_refresh env Backend.operations (accessor online) key start
  have hsettledRefresh : Settled env key attempts (env.clock 0) first before (refreshed true) := by
    rw [hrefreshed, ← hattempts]
    exact settled_fetchOrFallback env (accessor true) key first
      (afterRead Backend.operations key start) rfl rfl
  have hofflineFetch : (∀ c, first = some c → ¬ Young c) →
      fetched false = (.fallback first none, afterLook (afterRead Backend.operations key start)) := by
    intro hnone
    rw [hold hnone false]
    exact run_fetchOrFallback_offline env Backend.operations (accessor false) key rfl
  have hofflineRefresh : refreshed false =
      (.fallback first none, afterRead Backend.operations key start) := by
    rw [hrefreshed]
    exact run_fetchOrFallback_offline env Backend.operations (accessor false) key rfl
  refine ⟨ttl_ofSettings true, ?_, hsettledFetch, hsettledRefresh, ?_, ?_, ?_⟩
  · intro online
    refine ⟨⟨?_, ?_⟩, ?_, ?_⟩
    · intro hfresh
      apply Classical.byContradiction
      intro hno
      have hnone : ∀ c, first = some c → ¬ Young c := fun c hfirst hc => hno ⟨c, hfirst, hc⟩
      cases online with
      | true => exact (hsettledFetch hnone).freshness_ne hpos hfresh
      | false =>
          rw [hofflineFetch hnone] at hfresh
          exact (standsIn_fallback first none).freshness_ne hfresh
    · rintro ⟨c, hfirst, hc⟩
      rw [hyoung online c hfirst hc]
      rfl
    · intro c hfirst hc
      rw [hyoung online c hfirst hc]
      exact ⟨rfl, rfl, rfl⟩
    · cases online with
      | true => exact hsettledRefresh.freshness_ne hpos
      | false =>
          rw [hofflineRefresh]
          exact (standsIn_fallback first none).freshness_ne
  · intro hnone
    rw [hofflineFetch hnone]
    exact ⟨standsIn_fallback first none, rfl, rfl⟩
  · rw [hofflineRefresh]
    exact ⟨standsIn_fallback first none, rfl, rfl⟩
  · exact fun records h b => Backend.preserves_of_plain (FeatureRecord.plain_listToJson h) b

/-- An old row stands in a table.  The first request fails, and during the second another scan
writes a catalog; the one that is fetched takes its place, although it has a number that JSON need
not give back as it is. -/
theorem fetch_and_refresh_outcome_disturbed :
    let old : Cached := ⟨0, [.ofParts "api-old" "" none]⟩
    let support : Json := .double ⟨false, 5444517870735016, -132⟩
    let records : List FeatureRecord := [{ identifier := "api-fetch", browserSupport := [support] }]
    let env : Surroundings Backend :=
      { clock := fun i => 1767225600000 + i
        turns := fun i =>
          if i = 0 then ⟨id, .error (.catalog "down")⟩
          else ⟨fun b => (Cache.put Backend.operations (keyOf {}) ⟨1, []⟩ b).2, .ok records⟩ }
    let before : Backend := .table ⟨some [Table.rowOf (keyOf {}) old.toEntry]⟩
    let run := (Accessor.ofSettings {} true).fetch.run (env.host Backend.operations) (keyOf {})
      { store := before }
    (Cache.get Backend.operations (keyOf {}) before).1 = some old ∧
      run.1 = ⟨records, .fetched, some 1767225600001, none⟩ ∧ run.2.calls = 2 ∧
      run.2.store.Holds (keyOf {}) (Cached.toEntry ⟨1767225600001, records⟩) := by
  intro old support records env before run
  have hholds : before.Holds (keyOf {}) old.toEntry :=
    Backend.holds_table_rowOf (keyOf {}) old.toEntry
  have hplain : ∀ r ∈ old.records, ∀ v ∈ r.browserSupport, Json.Plain 124 v :=
    List.forall_mem_singleton.mpr nofun
  have hfirst : (Cache.get Backend.operations (keyOf {}) before).1 = some old :=
    get_of_holds hholds (Backend.preserves_of_plain (FeatureRecord.plain_listToJson hplain) before)
  obtain ⟨-, -, hsettled, -⟩ := fetch_and_refresh_outcome {} env before
  have hsettled := hsettled fun c hc => by
    obtain rfl : old = c := Option.some.inj (hfirst.symm.trans hc)
    decide
  have hfails : ∀ i < 1, (env.turns i).Fails := by
    intro i hi
    obtain rfl : i = 0 := by omega
    exact ⟨.catalog "down", rfl⟩
  obtain ⟨hgiven, hcalls, -⟩ := hsettled.success 1 (by decide) records hfails rfl
  exact ⟨hfirst, hgiven, hcalls, hsettled.held 1 (by decide) records hfails rfl rfl⟩

end WebBaseline.Catalog
