import WebBaseline.Proofs.Catalog.Endings

/-!
# When a catalog is called stale

A snapshot is stale if an expired catalog stands in for one that could not be
requested.  Whether the entry of the cache has expired is looked at once, before
the first request; what stands in after the last one is read anew, and it may be
an entry that others have written meanwhile.

* `isOffline_iff` — the runs that give a stale snapshot;
* `young_of_written_meanwhile` — one of them, with an entry that is not expired;
* `stale_label` — when the label says what it means, for every run.
-/

namespace WebBaseline.Catalog

open Store Surroundings

/-- Only an entry that stands in is stale. -/
theorem isOffline_fallback (entry : Option Cached) (error : Option String) :
    (Snapshot.fallback entry error).isOffline = entry.isSome := by
  cases entry <;> rfl

/-- What stands in is shown with its time. -/
theorem shows_of_isOffline_fallback {entry : Option Cached} {error : Option String}
    (h : (Snapshot.fallback entry error).isOffline = true) :
    ∃ c, entry = some c ∧ (Snapshot.fallback entry error).records = c.records ∧
      (Snapshot.fallback entry error).timestamp = some c.timestamp := by
  cases entry with
  | none => exact absurd h Bool.noConfusion
  | some c => exact ⟨c, rfl, rfl, rfl⟩

/-- Whether others leave alone what the cache finds under a key. -/
def Surroundings.LeavesFound (env : Surroundings Backend) (key : String) : Prop :=
  ∀ i b, (Cache.get Backend.operations key ((env.turns i).meanwhile b)).1 =
    (Cache.get Backend.operations key b).1

/-- Then the cache finds the same after any number of their turns. -/
theorem Surroundings.LeavesFound.get_disturbed {env : Surroundings Backend} {key : String}
    (h : env.LeavesFound key) (count number : Nat) (b : Backend) :
    (Cache.get Backend.operations key (env.disturbed number count b)).1 =
      (Cache.get Backend.operations key b).1 := by
  induction count generalizing number b with
  | zero => rfl
  | succ count ih => rw [Surroundings.disturbed, ih, h]

/-- An entry that has expired is not young again later. -/
theorem not_young_of_le {c : Cached} {ttl t now : Int} (h : ¬ t - c.timestamp < ttl)
    (hle : t ≤ now) : ¬ now - c.timestamp < ttl := by
  omega

/-- **Stale runs.**  A run is stale if no entry is fresh at first, all attempts fail, and there is
an entry at the end or at the beginning. -/
theorem isOffline_iff {env : Surroundings Backend} {a : Accessor} (honline : a.online = true)
    {key : String} {Fresh : Cached → Prop} {now : Int} {first : Option Cached} {before : Backend}
    {run : Snapshot × Position Backend} (h : Ending env a key Fresh now first before run) :
    run.1.isOffline = true ↔
      (∀ c, first = some c → ¬ Fresh c) ∧ (∀ i < max 1 a.attempts, (env.turns i).Fails) ∧
        ((Cache.get Backend.operations key run.2.store).1.or first).isSome = true := by
  rcases h with ⟨c, hfound, hfresh, hgives, -, -⟩ |
    ⟨-, -, j, hj, records, -, hok, hgives, -, -⟩ | ⟨-, hold, e, hfails, hgives, -, -⟩ |
    ⟨hoffline, -, -, -, -⟩
  · rw [hgives]
    exact ⟨fun h => absurd h Bool.noConfusion, fun h => absurd hfresh (h.1 c hfound)⟩
  · rw [hgives]
    refine ⟨fun h => absurd h Bool.noConfusion, fun h => ?_⟩
    obtain ⟨e, he⟩ := h.2.1 j hj
    rw [hok] at he
    cases he
  · rw [hgives, isOffline_fallback]
    exact ⟨fun h => ⟨hold, hfails, h⟩, fun h => h.2.2⟩
  · exact absurd (honline.symm.trans hoffline) Bool.noConfusion

/-- What a stale run shows, and how the store has come to be what it is. -/
theorem shows_of_isOffline {env : Surroundings Backend} {a : Accessor} (honline : a.online = true)
    {key : String} {Fresh : Cached → Prop} {now : Int} {first : Option Cached} {before : Backend}
    {run : Snapshot × Position Backend} (h : Ending env a key Fresh now first before run)
    (hstale : run.1.isOffline = true) :
    (∃ c, (Cache.get Backend.operations key run.2.store).1.or first = some c ∧
      run.1.records = c.records ∧ run.1.timestamp = some c.timestamp) ∧
    run.2.store = env.disturbed 0 (max 1 a.attempts) before := by
  rcases h with ⟨c, -, -, hgives, -, -⟩ | ⟨-, -, j, -, records, -, -, hgives, -, -⟩ |
    ⟨-, -, e, -, hgives, -, hstore⟩ | ⟨hoffline, -, -, -, -⟩
  · rw [hgives] at hstale
    exact absurd hstale Bool.noConfusion
  · rw [hgives] at hstale
    exact absurd hstale Bool.noConfusion
  · rw [hgives] at hstale ⊢
    exact ⟨shows_of_isOffline_fallback hstale, hstore⟩
  · exact absurd (honline.symm.trans hoffline) Bool.noConfusion

/-- **An entry that is not expired is called stale.**  While a request is under way that fails,
another scan writes the catalog that it has just fetched.  This one stands in, as if it were old. -/
theorem young_of_written_meanwhile :
    let settings : CatalogSettings := { maxAttempts := 1 }
    let record : FeatureRecord := .ofParts "api-fetch" "fetch" (some "wide")
    let written (b : Backend) :=
      (Cache.put Backend.operations (keyOf settings) ⟨1000, [record]⟩ b).2
    let env : Surroundings Backend := ⟨fun _ => 1000, fun _ => ⟨written, .error (.catalog "down")⟩⟩
    let a := Accessor.ofSettings settings true
    let run := a.fetch.run (env.host Backend.operations) (keyOf settings) { store := .memory {} }
    run.1 = ⟨[record], .stale, some 1000, some "Catalog error: down"⟩ ∧
    run.1.isOffline = true ∧ ∀ i, env.clock i - 1000 < a.ttl := by
  intro settings record written env a run
  have hfound : (Cache.get Backend.operations (keyOf settings) (written (.memory {}))).1 =
      some ⟨1000, [record]⟩ :=
    congrArg Prod.fst (get_put_of_kept (b := .memory {}) rfl trivial)
  have hfallback : run.1 = .fallback
      ((Cache.get Backend.operations (keyOf settings) (written (.memory {}))).1.or none)
      (some "Catalog error: down") := by
    simp only [run, env, written]
    generalize keyOf settings = key
    rfl
  rw [hfound] at hfallback
  have hyoung : (1000 : Int) - 1000 < a.ttl := by decide
  exact ⟨hfallback, by rw [hfallback]; rfl, fun _ => hyoung⟩

/-- **The label.**  For all settings, every content of the store, every clock and every sequence of
requests, during which others may do anything to the store:

* a fetch gives a stale snapshot exactly if the entry that it reads first is not younger than the
  time to live, all attempts fail, and there is an entry at the end or was one at the beginning;
* it then shows the entry found at the end, or else the first one, and at any later time that entry
  has expired exactly if there is none at the end that has not;
* so the label is right if others leave alone what the cache finds under the key. -/
theorem stale_label (settings : CatalogSettings) (env : Surroundings Backend) (before : Backend) :
    let key := keyOf settings
    let a := Accessor.ofSettings settings true
    let run := a.fetch.run (env.host Backend.operations) key { store := before }
    let first := (Cache.get Backend.operations key before).1
    let last := (Cache.get Backend.operations key run.2.store).1
    let Young (now : Int) (c : Cached) := now - c.timestamp < a.ttl
    (run.1.isOffline = true ↔
      (∀ c, first = some c → ¬ Young (env.clock 0) c) ∧
      (∀ i < max 1 settings.maxAttempts.toNat, (env.turns i).Fails) ∧
      (last.or first).isSome = true) ∧
    (run.1.isOffline = true →
      ∃ c, last.or first = some c ∧ run.1.records = c.records ∧
        run.1.timestamp = some c.timestamp ∧
        (∀ now, env.clock 0 ≤ now → (¬ Young now c ↔ ∀ l, last = some l → ¬ Young now l)) ∧
        (env.LeavesFound key → ∀ now, env.clock 0 ≤ now → ¬ Young now c)) := by
  intro key a run first last Young
  have hending := ending_fetch env a key before
  have hiff := isOffline_iff rfl hending
  rw [attempts_ofSettings] at hiff
  refine ⟨hiff, fun hstale => ?_⟩
  obtain ⟨⟨c, hc, hshows⟩, hstore⟩ := shows_of_isOffline rfl hending hstale
  change last.or first = some c at hc
  change run.2.store = env.disturbed 0 (max 1 a.attempts) before at hstore
  have hold : ∀ c, first = some c → ¬ Young (env.clock 0) c := (hiff.mp hstale).1
  refine ⟨c, hc, hshows.1, hshows.2, fun now hnow => ?_, fun hleaves now hnow => ?_⟩
  · rcases Option.or_eq_some_iff.mp hc with hlast | ⟨hlast, hfirst⟩
    · exact ⟨fun h l hl => Option.some.inj (hlast.symm.trans hl) ▸ h, fun h => h c hlast⟩
    · refine ⟨fun _ l hl => ?_, fun _ => not_young_of_le (hold c hfirst) hnow⟩
      rw [hlast] at hl
      cases hl
  · have hsame : last = first := by
      rw [show last = (Cache.get Backend.operations key run.2.store).1 from rfl, hstore]
      exact hleaves.get_disturbed _ 0 before
    have hfirst : first = some c := by
      rw [hsame, Option.or_self] at hc
      exact hc
    exact not_young_of_le (hold c hfirst) hnow

end WebBaseline.Catalog
