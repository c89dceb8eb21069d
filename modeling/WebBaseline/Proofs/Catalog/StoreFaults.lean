import Mathlib.Data.List.Forall2
import Mathlib.Logic.Function.Basic
import WebBaseline.Proofs.Catalog.Session

/-!
# Stores with faults

Any access to a store may fail, and a store may hold what is no catalog.  To
accessors all this is as if there were nothing: what they give and what they
request is what they would give and request with a map of catalogs on which the
accesses that fail are left out.

* `Keeper` — a store that gives back what it was given;
* `Keeper.faulty`, `reliable` — such a store with faults, and the map of catalogs;
* `Plan.Heedless` — plans that go on alike whether or not a write was kept;
* `run_mirror`, `perform_mirror`, `performVisits_mirror` — one plan, one call and
  several calls on both;
* `perform_success`, `perform_failure` — a call that goes to the service;
* `faults_are_misses` — all sessions.
-/

namespace WebBaseline.Catalog

open Store

/-! ### Stores -/

/-- A store that gives back what it was given.  `entry` is what it holds, which may be anything. -/
structure Keeper (σ : Type) where
  operations : Operations σ
  entry : σ → String → Option Entry
  get_eq : ∀ key s, operations.get key s = (.ok (entry s key), s)
  entry_put : ∀ key e s,
    entry (operations.put key e s).2 = Function.update (entry s) key (some e)
  entry_remove : ∀ key s, entry (operations.remove key s).2 = Function.update (entry s) key none

/-- Memory is such a store. -/
def Keeper.memory : Keeper Memory where
  operations :=
    { get := fun key m => (.ok (m.get key), m)
      put := fun key e m => (.ok (), m.put key e)
      remove := fun key m => (.ok (), m.remove key) }
  entry := Memory.get
  get_eq := fun _ _ => rfl
  entry_put := by
    intro key e m
    funext other
    rw [Memory.get_put, Function.update_apply]
  entry_remove := by
    intro key m
    funext other
    rw [Memory.get_remove, Function.update_apply]

/-- On memory these are the operations of the stores that there are. -/
theorem Keeper.operations_memory (key : String) (e : Entry) (m : Memory) :
    Backend.operations.get key (.memory m) = (memory.operations.get key m).map id .memory ∧
      Backend.operations.put key e (.memory m) =
        (memory.operations.put key e m).map id .memory ∧
      Backend.operations.remove key (.memory m) = (memory.operations.remove key m).map id .memory :=
  ⟨rfl, rfl, rfl⟩

/-- Which accesses to a store fail, by their numbers. -/
abbrev Faults := Nat → Option Store.Error

section Accesses

variable {σ α : Type} (faults : Faults)

/-- An access that fails if there is a fault, and then leaves the store as it is. -/
def failing (access : σ → Except Store.Error α × σ) (s : σ × Nat) :
    Except Store.Error α × σ × Nat :=
  match faults s.2 with
  | some e => (.error e, s.1, s.2 + 1)
  | none => ((access s.1).1, (access s.1).2, s.2 + 1)

/-- An access that never fails: it is left out if there is a fault. -/
def omitting (absent : α) (access : σ → α × σ) (s : σ × Nat) : Except Store.Error α × σ × Nat :=
  match faults s.2 with
  | some _ => (.ok absent, s.1, s.2 + 1)
  | none => (.ok (access s.1).1, (access s.1).2, s.2 + 1)

/-- The store with faults; next to its state stands the number of the next access. -/
def Keeper.faulty (k : Keeper σ) : Operations (σ × Nat) where
  get key := failing faults (k.operations.get key)
  put key e := failing faults (k.operations.put key e)
  remove key := failing faults (k.operations.remove key)

/-- A map of catalogs as a store that never fails; the accesses with faults are left out. -/
def reliable : Operations ((String → Option Cached) × Nat) where
  get key := omitting faults none fun catalogs => ((catalogs key).map Cached.toEntry, catalogs)
  put key e := omitting faults () fun catalogs =>
    ((), Function.update catalogs key (Cached.ofEntry? e))
  remove key := omitting faults () fun catalogs => ((), Function.update catalogs key none)

end Accesses

namespace Keeper

variable {σ : Type} (k : Keeper σ)

/-- The catalogs that a store holds; an entry that is no catalog does not count. -/
def catalogs (s : σ) (key : String) : Option Cached := (k.entry s key).bind Cached.ofEntry?

/-- The map of catalogs for a store, at the same access. -/
def mirror (s : σ × Nat) : (String → Option Cached) × Nat := (k.catalogs s.1, s.2)

/-- A map is updated where the store is. -/
theorem catalogs_of_entry_update {s after : σ} {key : String} {found : Option Entry}
    (h : k.entry after = Function.update (k.entry s) key found) :
    k.catalogs after = Function.update (k.catalogs s) key (found.bind Cached.ofEntry?) := by
  funext other
  rw [catalogs, h, Function.update_apply, Function.update_apply]
  split <;> rfl

variable (faults : Faults) (key : String) (s : σ × Nat)

/-- A read finds nothing if it fails, and else the catalog that the store holds. -/
theorem get_faulty :
    Cache.get (k.faulty faults) key s =
      (if (faults s.2).isSome then none else k.catalogs s.1 key, s.1, s.2 + 1) := by
  simp only [Cache.get, faulty, failing]
  cases faults s.2 with
  | some e => rfl
  | none =>
      simp only [k.get_eq, Option.isSome_none, Bool.false_eq_true, if_false]
      cases hentry : k.entry s.1 key with
      | none => simp [catalogs, hentry, Cache.cached?]
      | some e => simp [catalogs, hentry, Cache.cached?]

omit k in
/-- A map gives nothing if the read is left out, and else the catalog that it holds. -/
theorem get_reliable (s : (String → Option Cached) × Nat) :
    Cache.get (reliable faults) key s =
      (if (faults s.2).isSome then none else s.1 key, s.1, s.2 + 1) := by
  simp only [Cache.get, reliable, omitting]
  cases faults s.2 with
  | some e => rfl
  | none =>
      simp only [Option.isSome_none, Bool.false_eq_true, if_false]
      cases s.1 key with
      | none => rfl
      | some c => simp [Cache.cached?, Cached.ofEntry?_toEntry]

/-- A read finds the same in both. -/
theorem get_mirror :
    Cache.get (reliable faults) key (k.mirror s) =
      ((Cache.get (k.faulty faults) key s).1,
        k.mirror (Cache.get (k.faulty faults) key s).2) := by
  rw [k.get_faulty, get_reliable]
  rfl

/-- After a write both hold the same, whether or not it was kept. -/
theorem put_mirror (c : Cached) :
    (Cache.put (reliable faults) key c (k.mirror s)).2 =
      k.mirror (Cache.put (k.faulty faults) key c s).2 := by
  simp only [Cache.put, reliable, faulty, omitting, failing, mirror]
  cases faults s.2 with
  | some e => rfl
  | none =>
      rw [k.catalogs_of_entry_update (k.entry_put key c.toEntry s.1)]
      rfl

/-- After a removal both hold the same. -/
theorem invalidate_mirror :
    Cache.invalidate (reliable faults) key (k.mirror s) =
      k.mirror (Cache.invalidate (k.faulty faults) key s) := by
  simp only [Cache.invalidate, reliable, faulty, omitting, failing, mirror]
  cases faults s.2 with
  | some e => rfl
  | none =>
      rw [k.catalogs_of_entry_update (k.entry_remove key s.1)]
      rfl

end Keeper

/-! ### Plans -/

/-- Whether a plan goes on alike after a write that was kept and after one that was not. -/
def Plan.Heedless {α : Type} : Plan α → Prop
  | done _ => True
  | read next => ∀ found, (next found).Heedless
  | write _ next => next true = next false ∧ ∀ kept, (next kept).Heedless
  | remove next => next.Heedless
  | clock next => ∀ now, (next now).Heedless
  | request next => ∀ outcome, (next outcome).Heedless
  | wait _ next => next.Heedless

theorem Plan.Heedless.map {α β : Type} {f : α → β} {p : Plan α} (h : p.Heedless) :
    (p.map f).Heedless := by
  induction p with
  | done a => trivial
  | read next ih => exact fun found => ih found (h found)
  | write c next ih =>
      have hsame : (next true).map f = (next false).map f := by rw [h.1]
      exact ⟨hsame, fun kept => ih kept (h.2 kept)⟩
  | remove next ih => exact ih h
  | clock next ih => exact fun now => ih now (h now)
  | request next ih => exact fun outcome => ih outcome (h outcome)
  | wait d next ih => exact ih h

namespace Accessor

variable (a : Accessor)

theorem heedless_requestWithRetry {α : Type}
    {next : Except RequestError (List FeatureRecord) → Plan α}
    (h : ∀ outcome, (next outcome).Heedless) (left attempt : Nat) :
    (a.requestWithRetry next left attempt).Heedless := by
  induction left generalizing attempt with
  | zero => exact h
  | succ left ih =>
      intro outcome
      cases outcome with
      | ok records => exact h (.ok records)
      | error e => exact ih (attempt + 1)

theorem heedless_fetchOrFallback (cached : Option Cached) :
    (a.fetchOrFallback cached).Heedless := by
  unfold fetchOrFallback
  split
  · refine a.heedless_requestWithRetry (fun outcome => ?_) _ _
    cases outcome with
    | ok records => exact fun now => ⟨rfl, fun kept => trivial⟩
    | error e => exact fun latest => trivial
  · trivial

/-- **Accessors do not heed** whether their writes were kept. -/
theorem heedless_plan (call : Call) : (a.plan call).Heedless := by
  cases call with
  | fetch =>
      refine Plan.Heedless.map fun cached now => ?_
      cases cached with
      | none => exact a.heedless_fetchOrFallback none
      | some c =>
          dsimp only
          split
          · trivial
          · exact a.heedless_fetchOrFallback (some c)
  | refresh => exact Plan.Heedless.map fun cached => a.heedless_fetchOrFallback cached
  | invalidate => trivial

end Accessor

/-! ### Calls -/

/-- A call with everything it meets with except for the store. -/
structure Visit where
  accessor : Accessor
  call : Call
  /-- The times that successive looks at the clock show. -/
  clock : Nat → Int
  /-- How successive requests end. -/
  outcomes : Nat → Except RequestError (List FeatureRecord)

namespace Visit

variable {σ : Type} (v : Visit)

/-- What a call meets with.  Nobody else does anything meanwhile. -/
def surroundings (σ : Type) : Surroundings σ := ⟨v.clock, fun i => ⟨id, v.outcomes i⟩⟩

/-- Carry out a call on a store. -/
def perform (ops : Operations σ) (s : σ) : Report × σ :=
  let run := (v.accessor.plan v.call).run ((v.surroundings σ).host ops) v.accessor.key
    { store := s }
  (⟨.gave run.1, run.2.calls, run.2.waits⟩, run.2.store)

end Visit

/-- Carry out calls one after the other. -/
def performVisits {σ : Type} (ops : Operations σ) : List Visit → σ → List Report × σ
  | [], s => ([], s)
  | v :: rest, s =>
    let (report, after) := v.perform ops s
    let (more, last) := performVisits ops rest after
    (report :: more, last)

/-- What holds of each call holds of several. -/
theorem forall₂_performVisits {σ : Type} {ops : Operations σ} {P : Visit → Report → Prop}
    (h : ∀ v s, P v (v.perform ops s).1) (visits : List Visit) (s : σ) :
    List.Forall₂ P visits (performVisits ops visits s).1 := by
  induction visits generalizing s with
  | nil => exact List.Forall₂.nil
  | cons v rest ih => exact List.Forall₂.cons (h v s) (ih _)

namespace Keeper

variable {σ : Type} (k : Keeper σ) (faults : Faults)

/-- A position with the map of catalogs in place of the store. -/
def mirrorPosition (p : Position (σ × Nat)) : Position ((String → Option Cached) × Nat) where
  store := k.mirror p.store
  looks := p.looks
  calls := p.calls
  waits := p.waits

/-- **One plan.**  A heedless plan comes to the same on a store with faults and on the map of its
catalogs, and afterwards these are the catalogs of the store. -/
theorem run_mirror (v : Visit) {α : Type} {plan : Plan α} (h : plan.Heedless) (key : String)
    (p : Position (σ × Nat)) :
    plan.run ((v.surroundings _).host (reliable faults)) key (k.mirrorPosition p) =
      ((plan.run ((v.surroundings _).host (k.faulty faults)) key p).map id k.mirrorPosition) := by
  induction plan generalizing p with
  | done a => rfl
  | read next ih =>
      have hget := k.get_mirror faults key p.store
      rw [Surroundings.run_read, Surroundings.run_read, ← ih _ (h _)]
      simp only [mirrorPosition, Surroundings.afterRead, hget]
  | write c next ih =>
      -- The replies may differ, but the plan goes on alike.
      have hreply : ∀ kept, next kept = next true := by
        intro kept
        cases kept with
        | true => rfl
        | false => exact h.1.symm
      have hput := k.put_mirror faults key p.store c
      rw [Surroundings.run_write, Surroundings.run_write, hreply, hreply (Cache.put _ _ _ _).1,
        ← ih _ (h.2 _)]
      simp only [mirrorPosition, Surroundings.afterWrite, hput]
  | remove next ih =>
      have hremove := k.invalidate_mirror faults key p.store
      have hrest := ih h { p with store := Cache.invalidate (k.faulty faults) key p.store }
      simp only [mirrorPosition, ← hremove] at hrest
      exact hrest
  | clock next ih => exact ih (v.clock p.looks) (h _) (Surroundings.afterLook p)
  | request next ih =>
      exact ih (v.outcomes p.calls) (h _) ((v.surroundings _).afterRequest p)
  | wait d next ih => exact ih h (Surroundings.afterDelay d p)

/-- **One call** comes to the same on both. -/
theorem perform_mirror (v : Visit) (s : σ × Nat) :
    v.perform (reliable faults) (k.mirror s) =
      ((v.perform (k.faulty faults) s).map id k.mirror) := by
  have hrun := k.run_mirror faults v (v.accessor.heedless_plan v.call) v.accessor.key
    { store := s }
  have hstart : k.mirrorPosition { store := s } = { store := k.mirror s } := rfl
  rw [hstart] at hrun
  simp only [Visit.perform, hrun]
  rfl

/-- **Several calls** come to the same on both. -/
theorem performVisits_mirror (visits : List Visit) (s : σ × Nat) :
    performVisits (reliable faults) visits (k.mirror s) =
      ((performVisits (k.faulty faults) visits s).map id k.mirror) := by
  induction visits generalizing s with
  | nil => rfl
  | cons v rest ih =>
      simp only [performVisits, k.perform_mirror faults v s, Prod.map_fst, Prod.map_snd, id_eq, ih]
      rfl

end Keeper

/-! ### Going to the service -/

namespace Visit

variable {σ : Type} {ops : Operations σ} {v : Visit} {s : σ}

/-- Whether a call goes to the service, or would if there is none: a refresh does, and a fetch
does without a fresh catalog. -/
def GoesOn (v : Visit) (found : Option Cached) : Prop :=
  v.call = .refresh ∨
    v.call = .fetch ∧ ∀ c, found = some c → ¬ v.clock 0 - c.timestamp < v.accessor.ttl

/-- How often a call that goes to the service has looked at the clock before. -/
def looksBefore (v : Visit) : Nat := if v.call = .fetch then 1 else 0

/-- Such a call reads the cache and goes on with what it finds. -/
theorem perform_of_goesOn (h : v.GoesOn (Cache.get ops v.accessor.key s).1) :
    v.perform ops s =
      let run := (v.accessor.fetchOrFallback (Cache.get ops v.accessor.key s).1).run
        ((v.surroundings σ).host ops) v.accessor.key
        { store := (Cache.get ops v.accessor.key s).2, looks := v.looksBefore }
      (⟨.gave (some run.1), run.2.calls, run.2.waits⟩, run.2.store) := by
  rcases h with hcall | ⟨hcall, hold⟩
  · simp only [perform, hcall, Accessor.plan, Surroundings.run_map, Surroundings.run_refresh,
      looksBefore]
    rfl
  · have hfetch := (v.surroundings σ).run_fetch_otherwise ops v.accessor v.accessor.key
      (p := { store := s }) hold
    simp only [perform, hcall, Accessor.plan, Surroundings.run_map, hfetch, looksBefore]
    rfl

/-- Nobody has changed the store when the requests have ended. -/
theorem disturbed_surroundings (v : Visit) (first count : Nat) (s : σ) :
    (v.surroundings σ).disturbed first count s = s := by
  induction count generalizing first with
  | zero => rfl
  | succ count ih => exact ih (first + 1)

/-- **After a success** the catalog is given, and written to the store. -/
theorem perform_success (honline : v.accessor.online = true)
    (h : v.GoesOn (Cache.get ops v.accessor.key s).1) {j : Nat} {records : List FeatureRecord}
    (hj : j < max 1 v.accessor.attempts) (hfails : ∀ i < j, ∃ e, v.outcomes i = .error e)
    (hok : v.outcomes j = .ok records) :
    let content : Cached := ⟨v.clock v.looksBefore, records⟩
    (v.perform ops s).1.reply = .gave (some (.ofFetched content)) ∧
      (v.perform ops s).1.calls = j + 1 ∧
      (v.perform ops s).2 =
        (Cache.put ops v.accessor.key content (Cache.get ops v.accessor.key s).2).2 := by
  have hrun := (v.surroundings σ).run_fetchOrFallback_success ops v.accessor v.accessor.key
    (Cache.get ops v.accessor.key s).1
    (p := { store := (Cache.get ops v.accessor.key s).2, looks := v.looksBefore }) honline hj
    (by simpa [surroundings, Turn.Fails] using hfails) (by simpa [surroundings] using hok)
  rw [perform_of_goesOn h, hrun]
  refine ⟨rfl, Nat.zero_add (j + 1), ?_⟩
  simp only [Surroundings.afterWrite, Surroundings.afterLook, Surroundings.afterRequests,
    disturbed_surroundings]
  rfl

/-- **After the last failure** the store is read once more, and what is found then, or else what
was found first, stands in. -/
theorem perform_failure (honline : v.accessor.online = true)
    (h : v.GoesOn (Cache.get ops v.accessor.key s).1) {e : RequestError}
    (hfails : ∀ i < v.accessor.attempts - 1, ∃ e, v.outcomes i = .error e)
    (hlast : v.outcomes (v.accessor.attempts - 1) = .error e) :
    let first := Cache.get ops v.accessor.key s
    let second := Cache.get ops v.accessor.key first.2
    (v.perform ops s).1.reply =
        .gave (some (.fallback (second.1.or first.1) (some e.message))) ∧
      (v.perform ops s).1.calls = v.accessor.attempts - 1 + 1 ∧
      (v.perform ops s).2 = second.2 := by
  have hrun := (v.surroundings σ).run_fetchOrFallback_failure ops v.accessor v.accessor.key
    (Cache.get ops v.accessor.key s).1
    (p := { store := (Cache.get ops v.accessor.key s).2, looks := v.looksBefore }) honline
    (by simpa [surroundings, Turn.Fails] using hfails) (by simpa [surroundings] using hlast)
  rw [perform_of_goesOn h, hrun]
  refine ⟨?_, Nat.zero_add _, ?_⟩
  · simp only [disturbed_surroundings]
  · simp only [Surroundings.afterRead, Surroundings.afterRequests, disturbed_surroundings]

/-- Every call gives something; only forgetting a catalog gives no snapshot. -/
theorem reply_perform (v : Visit) (ops : Operations σ) (s : σ) :
    ∃ given : Option Snapshot, (v.perform ops s).1.reply = .gave given ∧
      (given.isSome ↔ v.call ≠ .invalidate) := by
  refine ⟨_, rfl, ?_⟩
  cases hcall : v.call with
  | fetch => simp [Accessor.plan, Surroundings.run_map]
  | refresh => simp [Accessor.plan, Surroundings.run_map]
  | invalidate => simp [Accessor.plan, Surroundings.run_map]

end Visit

/-! ### Sessions -/

namespace Keeper

variable {σ : Type} (k : Keeper σ) {faults : Faults} {key : String} {s : σ × Nat}

/-- A write that fails changes nothing. -/
theorem put_faulty_of_fault {e : Store.Error} (h : faults s.2 = some e) (c : Cached) :
    (Cache.put (k.faulty faults) key c s).2 = (s.1, s.2 + 1) := by
  simp only [Cache.put, faulty, failing, h]

end Keeper

/-- **Faults are misses.**  For every store, whatever it holds, for all faults, and for every
sequence of calls of any accessors:

* all reports, with their snapshots and numbers of requests, are those of a map of the store's
  catalogs on which the accesses with faults are left out, and afterwards the map is still that of
  the store's catalogs;
* every call gives something, and every fetch and refresh a snapshot;
* a call that then goes to the service and has its first success within its attempts gives exactly
  what it has fetched, whatever the faults; if the write fails, the store is as before;
* a call whose attempts all fail and that then cannot read the store gives what it read first. -/
theorem faults_are_misses {σ : Type} (k : Keeper σ) (faults : Faults) (visits : List Visit)
    (s : σ × Nat) :
    let faulty := performVisits (k.faulty faults) visits s
    let spared := performVisits (reliable faults) visits (k.mirror s)
    (spared.1 = faulty.1 ∧ spared.2 = k.mirror faulty.2) ∧
    List.Forall₂ (fun v r => ∃ given : Option Snapshot, Report.reply r = .gave given ∧
      (given.isSome ↔ Visit.call v ≠ .invalidate)) visits faulty.1 ∧
    ∀ (v : Visit) (found : Option Cached),
      let last := faulty.2
      let run := v.perform (k.faulty faults) last
      found = (if (faults last.2).isSome then none else k.catalogs last.1 v.accessor.key) →
      v.accessor.online = true → v.GoesOn found →
        (∀ j < max 1 v.accessor.attempts, ∀ records,
          (∀ i < j, ∃ e, v.outcomes i = .error e) → v.outcomes j = .ok records →
            run.1.reply = .gave (some ⟨records, .fetched, some (v.clock v.looksBefore), none⟩) ∧
            run.1.calls = j + 1 ∧
            (faults (last.2 + 1) ≠ none → run.2.1 = last.1)) ∧
        ∀ e, (∀ i < v.accessor.attempts - 1, ∃ e, v.outcomes i = .error e) →
          v.outcomes (v.accessor.attempts - 1) = .error e → faults (last.2 + 1) ≠ none →
            ∃ snapshot, run.1.reply = .gave (some snapshot) ∧
              StandsIn found (some e.message) snapshot ∧
              run.1.calls = max 1 v.accessor.attempts ∧ run.2.1 = last.1 := by
  intro faulty spared
  have hmirror := k.performVisits_mirror faults visits s
  refine ⟨⟨congrArg Prod.fst hmirror, congrArg Prod.snd hmirror⟩, ?_, ?_⟩
  · exact forall₂_performVisits (fun v s => v.reply_perform (k.faulty faults) s) visits s
  · intro v found last run hfound honline hgoes
    have hget := k.get_faulty faults v.accessor.key last
    rw [← hfound] at hget
    have hgoes' : v.GoesOn (Cache.get (k.faulty faults) v.accessor.key last).1 := by rwa [hget]
    constructor
    · intro j hj records hfails hok
      obtain ⟨hreply, hcalls, hstore⟩ := v.perform_success honline hgoes' hj hfails hok
      refine ⟨hreply, hcalls, fun hfault => ?_⟩
      obtain ⟨f, hf⟩ := Option.ne_none_iff_exists'.mp hfault
      have hput : (Cache.put (k.faulty faults) v.accessor.key ⟨v.clock v.looksBefore, records⟩
          (last.1, last.2 + 1)).2 = (last.1, last.2 + 2) := k.put_faulty_of_fault hf _
      change (v.perform (k.faulty faults) last).2.1 = last.1
      rw [hstore, hget, hput]
    · intro e hfails hlast hfault
      obtain ⟨hreply, hcalls, hstore⟩ := v.perform_failure honline hgoes' hfails hlast
      have hsecond : Cache.get (k.faulty faults) v.accessor.key (last.1, last.2 + 1) =
          (none, last.1, last.2 + 2) := by
        rw [k.get_faulty, if_pos (Option.isSome_iff_ne_none.mpr hfault)]
      rw [hget, hsecond] at hreply hstore
      refine ⟨_, hreply, standsIn_fallback found (some e.message), ?_, ?_⟩
      · change (v.perform (k.faulty faults) last).1.calls = _
        rw [hcalls]
        omega
      · change (v.perform (k.faulty faults) last).2.1 = last.1
        rw [hstore]

end WebBaseline.Catalog
