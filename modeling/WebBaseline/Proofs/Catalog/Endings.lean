import WebBaseline.Proofs.Catalog.FetchOutcome

/-!
# How runs end

A run of an accessor ends in one of a few ways: with a fresh entry, with the
first success among its attempts, or with what stands in after the last failure
or without a service.  What is to be shown of every run is shown of each of these.

* `Ending` — the ways, with the number of requests and the store;
* `ending_fetchOrFallback` — a run that goes to the service;
* `ending_fetch`, `ending_refresh` — fetching and refreshing;
* `Ending.calls_le` — how many requests there are.
-/

namespace WebBaseline.Catalog

open Store Surroundings

variable {env : Surroundings Backend} {a : Accessor} {key : String} {Fresh : Cached → Prop}
  {now : Int} {first : Option Cached} {before : Backend} {run : Snapshot × Position Backend}

/-- How a run of an accessor ends.  `Fresh` says which entries are fresh, `now` is the time of a
success, `first` the entry that was read first, and `before` the store at that moment. -/
inductive Ending (env : Surroundings Backend) (a : Accessor) (key : String)
    (Fresh : Cached → Prop) (now : Int) (first : Option Cached) (before : Backend)
    (run : Snapshot × Position Backend) : Prop
  /-- The entry that was read first is fresh, and nothing is requested. -/
  | fresh (c : Cached) (found : first = some c) (isFresh : Fresh c) (gives : run.1 = .ofFresh c)
      (calls : run.2.calls = 0) (store : run.2.store = before)
  /-- A request succeeds, and what it gave is written. -/
  | fetched (online : a.online = true) (old : ∀ c, first = some c → ¬ Fresh c) (j : Nat)
      (within : j < max 1 a.attempts) (records : List FeatureRecord)
      (fails : ∀ i < j, (env.turns i).Fails) (succeeds : (env.turns j).outcome = .ok records)
      (gives : run.1 = .ofFetched ⟨now, records⟩) (calls : run.2.calls = j + 1)
      (store : run.2.store =
        (Cache.put Backend.operations key ⟨now, records⟩ (env.disturbed 0 (j + 1) before)).2)
  /-- All requests fail, and what is then in the cache, or else the first entry, stands in. -/
  | failed (online : a.online = true) (old : ∀ c, first = some c → ¬ Fresh c)
      (error : RequestError) (fails : ∀ i < max 1 a.attempts, (env.turns i).Fails)
      (gives : run.1 = .fallback
        ((Cache.get Backend.operations key run.2.store).1.or first) (some error.message))
      (calls : run.2.calls = max 1 a.attempts)
      (store : run.2.store = env.disturbed 0 (max 1 a.attempts) before)
  /-- There is no service, and the first entry stands in. -/
  | alone (offline : a.online = false) (old : ∀ c, first = some c → ¬ Fresh c)
      (gives : run.1 = .fallback first none) (calls : run.2.calls = 0)
      (store : run.2.store = before)

/-- What stands in is what falling back gives. -/
theorem StandsIn.eq_fallback {entry : Option Cached} {error : Option String}
    {snapshot : Snapshot} (h : StandsIn entry error snapshot) :
    snapshot = .fallback entry error := by
  cases entry with
  | none => exact h
  | some c => exact h

/-- A run that would go to the service ends there, or with what was read. -/
theorem ending_fetchOrFallback (env : Surroundings Backend) (a : Accessor) (key : String)
    {first : Option Cached} (hold : ∀ c, first = some c → ¬ Fresh c) {p : Position Backend}
    (hcalls : p.calls = 0) :
    Ending env a key Fresh (env.clock p.looks) first p.store
      ((a.fetchOrFallback first).run (env.host Backend.operations) key p) := by
  cases honline : a.online with
  | false =>
      rw [env.run_fetchOrFallback_offline Backend.operations a key honline]
      exact .alone honline hold rfl hcalls rfl
  | true =>
      have hsettled := settled_fetchOrFallback env a key first p honline hcalls
      rcases env.first_success_or_failures (max 1 a.attempts) with
        ⟨j, hj, hfails, records, hok⟩ | hfails
      · obtain ⟨hgives, hmade, hstore⟩ := hsettled.success j hj records hfails hok
        exact .fetched honline hold j hj records hfails hok hgives hmade hstore
      · obtain ⟨e, hlast⟩ := hfails (max 1 a.attempts - 1) (by omega)
        obtain ⟨hmade, hstore, hstands⟩ :=
          hsettled.failure e (fun i hi => hfails i (by omega)) hlast
        exact .failed honline hold e hfails hstands.eq_fallback hmade hstore

/-- **Fetching** ends with the entry that is read first if that is fresh, and else as refreshing
does after a look at the clock. -/
theorem ending_fetch (env : Surroundings Backend) (a : Accessor) (key : String)
    (before : Backend) :
    Ending env a key (fun c => env.clock 0 - c.timestamp < a.ttl) (env.clock 1)
      (Cache.get Backend.operations key before).1 before
      (a.fetch.run (env.host Backend.operations) key { store := before }) := by
  by_cases hfresh : ∃ c, (Cache.get Backend.operations key before).1 = some c ∧
      env.clock 0 - c.timestamp < a.ttl
  · obtain ⟨c, hfound, hc⟩ := hfresh
    have hrun := env.run_fetch_fresh Backend.operations a key (p := { store := before }) hfound hc
    rw [hrun]
    exact .fresh c hfound hc rfl rfl rfl
  · have hold : ∀ c, (Cache.get Backend.operations key before).1 = some c →
        ¬ env.clock 0 - c.timestamp < a.ttl := fun c hfound hc => hfresh ⟨c, hfound, hc⟩
    have hrun := env.run_fetch_otherwise Backend.operations a key (p := { store := before }) hold
    rw [hrun]
    exact ending_fetchOrFallback env a key hold
      (p := afterLook (afterRead Backend.operations key { store := before })) rfl

/-- **Refreshing** never finds an entry fresh. -/
theorem ending_refresh (env : Surroundings Backend) (a : Accessor) (key : String)
    (before : Backend) :
    Ending env a key (fun _ => False) (env.clock 0)
      (Cache.get Backend.operations key before).1 before
      (a.refresh.run (env.host Backend.operations) key { store := before }) :=
  ending_fetchOrFallback env a key (fun _ _ => id)
    (p := afterRead Backend.operations key { store := before }) rfl

/-- The number of attempts of the accessor for settings. -/
theorem attempts_ofSettings (settings : CatalogSettings) (online : Bool) :
    max 1 (Accessor.ofSettings settings online).attempts = max 1 settings.maxAttempts.toNat := by
  simp only [Accessor.ofSettings]
  omega

/-- **Requests.**  With a service a run finds a fresh entry and makes none, or it makes at least one
and at most as many as it may. -/
theorem Ending.calls_le (h : Ending env a key Fresh now first before run)
    (honline : a.online = true) :
    ((∃ c, Fresh c) ∧ run.1.freshness = .fresh ∧ run.2.calls = 0) ∨
      (run.1.freshness ≠ .fresh ∧ 1 ≤ run.2.calls ∧ run.2.calls ≤ max 1 a.attempts) := by
  rcases h with ⟨c, -, hc, hgives, hcalls, -⟩ | ⟨-, -, j, hj, records, -, -, hgives, hcalls, -⟩ |
    ⟨-, -, e, -, hgives, hcalls, -⟩ | ⟨hoffline, -, -, -, -⟩
  · rw [hgives]
    exact Or.inl ⟨⟨c, hc⟩, rfl, hcalls⟩
  · rw [hgives]
    exact Or.inr ⟨Freshness.noConfusion, by omega, by omega⟩
  · rw [hgives]
    exact Or.inr ⟨(standsIn_fallback _ _).freshness_ne, by omega, by omega⟩
  · exact absurd (honline.symm.trans hoffline) Bool.noConfusion

end WebBaseline.Catalog
