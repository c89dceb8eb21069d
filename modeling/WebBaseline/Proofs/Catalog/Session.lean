import WebBaseline.Proofs.Catalog.FetchOutcome
import WebBaseline.Proofs.Catalog.Interleaving
import WebBaseline.Proofs.Store.Frame

/-!
# Whole operations on one store

Accessors for any settings share a store, and their operations are carried out
one after the other.  Each operation meets with its own clock and its own
outcomes of requests, which may be anything.

* `Operation.perform`, `performAll` — one operation, and several;
* `run_alike`, `view_run_other`, `exact_run` — what a plan does to a store, step
  by step;
* `perform_of_view`, `view_perform_other` — an operation depends on what the
  store shows of its own key, and changes nothing else;
* `perform_fetch_young`, `perform_fetch_old`, `store_of_fetched`,
  `holds_of_fetched`, `get_of_fetched` — fetching;
* `view_performAll_other`, `reads_performAll`, `exact_performAll` — sessions;
* `performAll_fetch_young`, `performAll_fetch_old`, `performAll_fetch_forgotten` —
  a fetch after a session that leaves a catalog alone.
-/

namespace WebBaseline.Catalog

open Store

/-! ### Operations -/

/-- The address of the catalog that settings point at. -/
def addressOf (s : CatalogSettings) : String := address s.baseUrl s.endpoint

/-- What is done with the catalog that settings point at: an accessor is called,
or a catalog is written to the cache. -/
inductive Task where
  | call (call : Call)
  | put (content : Cached)

/-- What comes of a task: a call gives what its plan gives, and a write tells
whether it was kept. -/
inductive Reply where
  | gave (snapshot : Option Snapshot)
  | wrote (kept : Bool)

/-- A task with everything it meets with except for the store. -/
structure Operation where
  settings : CatalogSettings
  /-- Whether there is a service to ask. -/
  online : Bool
  task : Task
  /-- The times that successive looks at the clock show. -/
  clock : Nat → Int
  /-- How successive requests end. -/
  outcomes : Nat → Except RequestError (List FeatureRecord)

/-- What an operation comes to: its reply, how often it requested the catalog,
and the delays that it waited for. -/
structure Report where
  reply : Reply
  calls : Nat
  waits : List Duration

namespace Operation

variable (o : Operation)

/-- The accessor that carries out an operation. -/
def accessor : Accessor := .ofSettings o.settings o.online

/-- The address that an operation requests. -/
def address : String := addressOf o.settings

/-- The key of the entry that an operation is about. -/
def key : String := keyOf o.settings

/-- What an operation does. -/
def plan : Plan Reply :=
  match o.task with
  | .call call => (o.accessor.plan call).map .gave
  | .put content => .write content fun kept => .done (.wrote kept)

/-- What an operation meets with.  Nobody else does anything meanwhile. -/
def surroundings : Surroundings Backend := ⟨o.clock, fun i => ⟨id, o.outcomes i⟩⟩

/-- Carry out an operation on a store. -/
def perform (b : Backend) : Report × Backend :=
  let run := o.plan.run (o.surroundings.host Backend.operations) o.key { store := b }
  (⟨run.1, run.2.calls, run.2.waits⟩, run.2.store)

end Operation

/-- Carry out operations one after the other. -/
def performAll : List Operation → Backend → List (Operation × Report) × Backend
  | [], b => ([], b)
  | o :: rest, b =>
    let (report, after) := o.perform b
    let (more, last) := performAll rest after
    ((o, report) :: more, last)

/-- The store after more operations. -/
theorem performAll_cons_snd (o : Operation) (rest : List Operation) (b : Backend) :
    (performAll (o :: rest) b).2 = (performAll rest (o.perform b).2).2 := rfl

/-! ### The cache on a store -/

/-- Stores that show the same of a key are read alike. -/
theorem get_of_view {b b' : Backend} {key : String} (h : b.view key = b'.view key) :
    (Cache.get Backend.operations key b).1 = (Cache.get Backend.operations key b').1 :=
  congrArg Cache.cached? (Backend.get_eq_of_view h)

/-- A write comes to this. -/
theorem put_eq (key : String) (c : Cached) (b : Backend) :
    Cache.put Backend.operations key c b = (b.isUsable, b.afterPut key c.toEntry) := by
  rw [← b.isOk_put key c.toEntry, Cache.put]
  simp only [Backend.operations, Backend.afterPut]
  cases b.put key c.toEntry <;> rfl

/-- A write is kept exactly if the store can be used. -/
theorem put_kept (key : String) (c : Cached) (b : Backend) :
    (Cache.put Backend.operations key c b).1 = b.isUsable := by rw [put_eq]

/-- Where a store holds nothing the cache finds nothing. -/
theorem get_of_held_none {b : Backend} {key : String} (h : b.held key = none) :
    (Cache.get Backend.operations key b).1 = none := by
  show Cache.cached? (b.get key) = none
  cases hget : b.get key with
  | error e => rfl
  | ok found =>
      cases found with
      | none => rfl
      | some e => exact absurd hget (Backend.get_of_held_none h e)

/-! ### Plans step by step -/

/-- Whether a time is a signed number of 64 bits. -/
def IsTime (t : Int) : Prop := -Bound.signed64 ≤ t ∧ t < Bound.signed64

namespace Surroundings

variable {α : Type} (env : Surroundings Backend)

/-- Whether nobody does anything to the store while a request is under way. -/
def Quiet : Prop := ∀ i b, (env.turns i).meanwhile b = b

/-- In quiet surroundings requests leave the store alone. -/
theorem Quiet.disturbed {env : Surroundings Backend} (h : env.Quiet) (first count : Nat)
    (b : Backend) : env.disturbed first count b = b := by
  induction count generalizing first b with
  | zero => rfl
  | succ count ih => rw [Surroundings.disturbed, h, ih]

/-- A plan with another form of its result is carried out alike. -/
theorem run_map {σ β : Type} (env : Surroundings σ) (ops : Operations σ) (f : α → β) (p : Plan α)
    (key : String) (s : Position σ) :
    (p.map f).run (env.host ops) key s = ((p.run (env.host ops) key s).map f id) := by
  induction p generalizing s with
  | done a => rfl
  | read next ih => exact ih _ _
  | write c next ih => exact ih _ _
  | remove next ih => exact ih _
  | clock next ih => exact ih _ _
  | request next ih => exact ih _ _
  | wait d next ih => exact ih _

/-- Whether two positions differ at most in what their stores show of other keys. -/
structure Alike (key : String) (s s' : Position Backend) : Prop where
  view : s.store.view key = s'.store.view key
  looks : s.looks = s'.looks
  calls : s.calls = s'.calls
  waits : s.waits = s'.waits

/-- **What a plan depends on.**  From positions that differ at most in what
their stores show of other keys, a plan comes to the same. -/
theorem run_alike (hquiet : env.Quiet) (p : Plan α) {key : String} {s s' : Position Backend}
    (h : Alike key s s') :
    (p.run (env.host Backend.operations) key s).1 =
        (p.run (env.host Backend.operations) key s').1 ∧
      Alike key (p.run (env.host Backend.operations) key s).2
        (p.run (env.host Backend.operations) key s').2 := by
  induction p generalizing s s' with
  | done a => exact ⟨rfl, h⟩
  | read next ih =>
      -- Both runs find the same, so they go on with the same rest of the plan.
      rw [run_read, run_read, get_of_view h.view]
      exact ih _ ⟨h.view, h.looks, h.calls, h.waits⟩
  | write c next ih =>
      have husable : s.store.isUsable = s'.store.isUsable := congrArg Backend.View.usable h.view
      rw [run_write, run_write, put_eq, put_eq, husable]
      refine ih _ ⟨?_, h.looks, h.calls, h.waits⟩
      simp only [afterWrite, put_eq]
      exact Backend.view_put_congr h.view key c.toEntry
  | remove next ih => exact ih ⟨Backend.view_remove_congr h.view key, h.looks, h.calls, h.waits⟩
  | clock next ih =>
      rw [run_clock, run_clock, h.looks]
      exact ih _ ⟨h.view, congrArg (· + 1) h.looks, h.calls, h.waits⟩
  | request next ih =>
      rw [run_request, run_request, h.calls]
      refine ih _ ⟨?_, h.looks, congrArg (· + 1) h.calls, h.waits⟩
      simp only [afterRequest, hquiet _ _]
      exact h.view
  | wait d next ih =>
      rw [run_wait, run_wait]
      exact ih ⟨h.view, h.looks, h.calls, congrArg (· ++ [d]) h.waits⟩

/-- **What a plan leaves alone.**  A plan for the entry of one key changes
nothing of what the store shows of another. -/
theorem view_run_other (hquiet : env.Quiet) (p : Plan α) {key other : String} (h : key ≠ other)
    (s : Position Backend) :
    (p.run (env.host Backend.operations) key s).2.store.view other = s.store.view other := by
  induction p generalizing s with
  | done a => rfl
  | read next ih => exact ih _ _
  | write c next ih =>
      rw [run_write, ih]
      simp only [afterWrite, put_eq]
      exact Backend.view_put_other h s.store c.toEntry
  | remove next ih => exact (ih _).trans (Backend.view_remove_other h s.store)
  | clock next ih => exact ih _ _
  | request next ih =>
      rw [run_request, ih]
      simp only [afterRequest, hquiet _ _]
  | wait d next ih => exact ih _

/-- **What a plan writes.**  A plan that writes only with times that it has seen
keeps a store exact, if the clock shows times of 64 bits. -/
theorem exact_run (hquiet : env.Quiet) (hclock : ∀ i, IsTime (env.clock i))
    {post : List Action → α → Prop} {p : Plan α} {own : List Action} (hp : p.Justified post own)
    (hlooks : ∀ t, .look t ∈ own → IsTime t) {key : String} {s : Position Backend}
    (h : s.store.Exact) : (p.run (env.host Backend.operations) key s).2.store.Exact := by
  -- An action that is no look adds nothing to the times that were seen.
  have hmore : ∀ {own : List Action} (action : Action), (∀ t, .look t ∈ own → IsTime t) →
      (∀ t, action ≠ .look t) → ∀ t, .look t ∈ action :: own → IsTime t :=
    fun action hown hne t ht => hown t ((List.mem_cons.mp ht).resolve_left fun e => hne t e.symm)
  induction p generalizing own s with
  | done a => exact h
  | read next ih => exact ih _ (hp _) (hmore _ hlooks fun t => Action.noConfusion) h
  | write c next ih =>
      have htime := hlooks _ hp.2.1
      exact ih _ (hp.2.2 _) (hmore _ hlooks fun t => Action.noConfusion)
        (h.afterPut key htime.1 htime.2)
  | remove next ih =>
      exact ih hp (hmore _ hlooks fun t => Action.noConfusion) (h.afterRemove key)
  | clock next ih =>
      refine ih _ (hp _) (fun t ht => ?_) h
      rcases List.mem_cons.mp ht with heq | ht
      · obtain rfl := Action.look.inj heq
        exact hclock s.looks
      · exact hlooks t ht
  | request next ih =>
      refine ih _ (hp _) (hmore _ hlooks fun t => Action.noConfusion) ?_
      simp only [hquiet _ _]
      exact h
  | wait d next ih => exact ih hp (hmore _ hlooks fun t => Action.noConfusion) h

end Surroundings

/-! ### One operation -/

namespace Operation

variable {o : Operation}

/-- An operation is carried out in quiet surroundings. -/
theorem quiet_surroundings (o : Operation) : o.surroundings.Quiet := fun _ _ => rfl

/-- **What an operation depends on.**  On stores that show the same of its key an
operation comes to the same, and they show the same of the key afterwards. -/
theorem perform_of_view {b b' : Backend} (h : b.view o.key = b'.view o.key) :
    (o.perform b).1 = (o.perform b').1 ∧
      (o.perform b).2.view o.key = (o.perform b').2.view o.key := by
  have hstart : Surroundings.Alike o.key { store := b } { store := b' } := ⟨h, rfl, rfl, rfl⟩
  obtain ⟨hreply, hlast⟩ := o.surroundings.run_alike o.quiet_surroundings o.plan hstart
  refine ⟨?_, hlast.view⟩
  simp only [perform, hreply, hlast.calls, hlast.waits]

/-- **What an operation leaves alone.**  It changes nothing of what the store
shows of other keys. -/
theorem view_perform_other {other : String} (h : o.key ≠ other) (b : Backend) :
    (o.perform b).2.view other = b.view other :=
  o.surroundings.view_run_other o.quiet_surroundings o.plan h { store := b }

/-- Carrying out a call is carrying out the plan of the accessor. -/
theorem perform_call {call : Call} (htask : o.task = .call call) (b : Backend) :
    o.perform b =
      let run := (o.accessor.plan call).run (o.surroundings.host Backend.operations) o.key
        { store := b }
      (⟨.gave run.1, run.2.calls, run.2.waits⟩, run.2.store) := by
  have hplan : o.plan = (o.accessor.plan call).map .gave := by rw [plan, htask]
  simp only [perform, hplan, Surroundings.run_map]
  rfl

/-- Whether the clock and the writes of an operation have times of 64 bits. -/
structure Timely (o : Operation) : Prop where
  clock : ∀ i, IsTime (o.clock i)
  written : ∀ c, o.task = .put c → IsTime c.timestamp

/-- An operation keeps a store exact. -/
theorem exact_perform (hwell : o.Timely) {b : Backend} (h : b.Exact) :
    (o.perform b).2.Exact := by
  cases htask : o.task with
  | call call =>
      rw [perform_call htask]
      exact o.surroundings.exact_run o.quiet_surroundings hwell.clock
        (o.accessor.justified_plan call) (fun t ht => absurd ht List.not_mem_nil) h
  | put c =>
      have hplan : o.plan = .write c fun kept => .done (.wrote kept) := by rw [plan, htask]
      have htime := hwell.written c htask
      rw [perform, hplan]
      exact h.afterPut o.key htime.1 htime.2

end Operation

/-! ### Fetching -/

namespace Operation

variable {o : Operation} {b : Backend}

/-- Whether an operation fetches a catalog while one of a given time is fresh. -/
structure FetchesYoung (o : Operation) (fetched : Int) : Prop where
  task : o.task = .call .fetch
  young : o.clock 0 - fetched < o.accessor.ttl

/-- Carrying out a fetch is carrying out its plan. -/
theorem perform_fetch (htask : o.task = .call .fetch) (b : Backend) :
    o.perform b =
      let run := o.accessor.fetch.run (o.surroundings.host Backend.operations) o.key { store := b }
      (⟨.gave (some run.1), run.2.calls, run.2.waits⟩, run.2.store) := by
  rw [perform_call htask, Accessor.plan]
  simp only [Surroundings.run_map]
  rfl

/-- Carrying out a refresh is going to the service after one read. -/
theorem perform_refresh (htask : o.task = .call .refresh) (b : Backend) :
    o.perform b =
      let run := (o.accessor.fetchOrFallback (Cache.get Backend.operations o.key b).1).run
        (o.surroundings.host Backend.operations) o.key
        (Surroundings.afterRead Backend.operations o.key { store := b })
      (⟨.gave (some run.1), run.2.calls, run.2.waits⟩, run.2.store) := by
  rw [perform_call htask, Accessor.plan]
  simp only [Surroundings.run_map]
  rfl

/-- A catalog that is found and fresh is all that a fetch gives. -/
theorem perform_fetch_young {c : Cached} (hread : (Cache.get Backend.operations o.key b).1 = some c)
    (h : o.FetchesYoung c.timestamp) :
    o.perform b = (⟨.gave (some ⟨c.records, .fresh, some c.timestamp, none⟩), 0, []⟩, b) := by
  have hrun := o.surroundings.run_fetch_fresh Backend.operations o.accessor o.key
    (p := { store := b }) hread h.young
  rw [perform_fetch h.task, hrun]
  rfl

/-- Whether a call has gone to the service, and says so. -/
structure WentToService (r : Report) : Prop where
  requested : 0 < r.calls
  notFresh : ∃ snapshot, r.reply = .gave (some snapshot) ∧ snapshot.freshness ≠ .fresh

/-- Without a fresh catalog a fetch goes to the service. -/
theorem perform_fetch_old (htask : o.task = .call .fetch) (honline : o.online = true)
    (hold : ∀ c, (Cache.get Backend.operations o.key b).1 = some c →
      ¬ o.clock 0 - c.timestamp < o.accessor.ttl) :
    WentToService (o.perform b).1 := by
  have hsettled := settled_fetchOrFallback o.surroundings o.accessor o.key
    (Cache.get Backend.operations o.key b).1
    (Surroundings.afterLook (Surroundings.afterRead Backend.operations o.key { store := b }))
    honline rfl
  rw [perform_fetch htask,
    o.surroundings.run_fetch_otherwise Backend.operations o.accessor o.key hold]
  have hpos : 0 < max 1 o.accessor.attempts := by omega
  exact ⟨hsettled.calls_pos hpos, _, rfl, hsettled.freshness_ne hpos⟩

/-- What is given after going to the service as fetched has been written as it is given. -/
theorem store_of_fetchOrFallback {first : Option Cached} {p : Position Backend}
    (hstore : p.store = b) (hcalls : p.calls = 0) {records : List FeatureRecord} {t : Int}
    {error : Option String} :
    let run := (o.accessor.fetchOrFallback first).run (o.surroundings.host Backend.operations)
      o.key p
    run.1 = ⟨records, .fetched, some t, error⟩ →
      run.2.store = (Cache.put Backend.operations o.key ⟨t, records⟩ b).2 := by
  intro run hrun
  cases honline : o.accessor.online with
  | true =>
      have hsettled : Settled _ _ _ _ first p.store run :=
        settled_fetchOrFallback o.surroundings o.accessor o.key first p honline hcalls
      obtain ⟨j, fetched, hgiven, hafter⟩ := hsettled.of_fetched (by omega) (by rw [hrun])
      rw [hrun] at hgiven
      simp only [Snapshot.mk.injEq, Option.some.injEq, true_and] at hgiven
      obtain ⟨rfl, rfl, -⟩ := hgiven
      rw [hafter, o.quiet_surroundings.disturbed, hstore]
  | false =>
      have hfallback : run = (.fallback first none, p) :=
        Surroundings.run_fetchOrFallback_offline _ _ _ _ honline
      rw [hfallback] at hrun
      exact absurd (congrArg Snapshot.freshness hrun)
        (standsIn_fallback first none).freshness_ne_fetched

/-- A call that gives what it has fetched has written exactly this. -/
theorem store_of_fetched {call : Call} (htask : o.task = .call call) {records : List FeatureRecord}
    {t : Int} {error : Option String}
    (hreply : (o.perform b).1.reply = .gave (some ⟨records, .fetched, some t, error⟩)) :
    (o.perform b).2 = (Cache.put Backend.operations o.key ⟨t, records⟩ b).2 := by
  cases call with
  | fetch =>
      by_cases hyoung : ∃ c, (Cache.get Backend.operations o.key b).1 = some c ∧
          o.clock 0 - c.timestamp < o.accessor.ttl
      · obtain ⟨c, hread, hc⟩ := hyoung
        rw [perform_fetch_young hread ⟨htask, hc⟩] at hreply
        simp at hreply
      · have hrun := o.surroundings.run_fetch_otherwise Backend.operations o.accessor o.key
          (p := { store := b }) fun c hread hc => hyoung ⟨c, hread, hc⟩
        rw [perform_fetch htask, hrun] at hreply ⊢
        exact store_of_fetchOrFallback rfl rfl (Option.some.inj (Reply.gave.inj hreply))
  | refresh =>
      rw [perform_refresh htask] at hreply ⊢
      exact store_of_fetchOrFallback rfl rfl (Option.some.inj (Reply.gave.inj hreply))
  | invalidate =>
      rw [perform_call htask] at hreply
      cases Reply.gave.inj hreply

/-- What a call gives as fetched the store holds afterwards, if it can be used. -/
theorem holds_of_fetched {call : Call} (htask : o.task = .call call) {records : List FeatureRecord}
    {t : Int} {error : Option String}
    (hreply : (o.perform b).1.reply = .gave (some ⟨records, .fetched, some t, error⟩))
    (husable : b.isUsable = true) :
    (o.perform b).2.Holds o.key (Cached.toEntry ⟨t, records⟩) := by
  have hkept : (Cache.put Backend.operations o.key ⟨t, records⟩ b).1 = true := by
    rw [put_kept, husable]
  rw [store_of_fetched htask hreply]
  exact holds_put_of_kept hkept

/-- It is found as it was given, if the store gives back what it is given. -/
theorem get_of_fetched {call : Call} (htask : o.task = .call call) {records : List FeatureRecord}
    {t : Int} {error : Option String}
    (hreply : (o.perform b).1.reply = .gave (some ⟨records, .fetched, some t, error⟩))
    (husable : b.isUsable = true)
    (hpreserves : (o.perform b).2.Preserves (FeatureRecord.listToJson records)) :
    (Cache.get Backend.operations o.key (o.perform b).2).1 = some ⟨t, records⟩ :=
  get_of_holds (holds_of_fetched htask hreply husable) hpreserves

/-- After the catalog was forgotten a store holds nothing under the key. -/
theorem held_of_invalidate (htask : o.task = .call .invalidate) (b : Backend) :
    (o.perform b).2.held o.key = none := by
  rw [perform_call htask]
  exact b.held_settle_remove o.key

end Operation

/-! ### Sessions -/

/-- What operations with other keys leave of a key. -/
theorem view_performAll_other {key : String} {operations : List Operation}
    (h : ∀ o ∈ operations, o.key ≠ key) (b : Backend) :
    (performAll operations b).2.view key = b.view key := by
  induction operations generalizing b with
  | nil => rfl
  | cons o rest ih =>
      rw [performAll_cons_snd, ih fun o' ho' => h o' (List.mem_cons_of_mem o ho')]
      exact Operation.view_perform_other (h o List.mem_cons_self) b

/-- **What stays to be found.**  A catalog that the cache finds is still found
after operations with other keys and fetches while it is fresh. -/
theorem reads_performAll {key : String} {c : Cached} {operations : List Operation}
    (h : ∀ o ∈ operations, o.key ≠ key ∨ o.FetchesYoung c.timestamp) {b : Backend}
    (hread : (Cache.get Backend.operations key b).1 = some c) :
    (Cache.get Backend.operations key (performAll operations b).2).1 = some c := by
  induction operations generalizing b with
  | nil => exact hread
  | cons o rest ih =>
      rw [performAll_cons_snd]
      refine ih (fun o' ho' => h o' (List.mem_cons_of_mem o ho')) ?_
      by_cases hkey : o.key = key
      · subst hkey
        have hyoung := (h o List.mem_cons_self).resolve_left fun hne => hne rfl
        rw [Operation.perform_fetch_young hread hyoung]
        exact hread
      · rw [get_of_view (Operation.view_perform_other hkey b)]
        exact hread

section Later

variable {key : String} {c : Cached} {between : List Operation} {later : Operation} {b : Backend}

/-- **A fresh catalog** that the cache finds is given after every session that
leaves it alone, without a request. -/
theorem performAll_fetch_young (hread : (Cache.get Backend.operations key b).1 = some c)
    (hbetween : ∀ o ∈ between, o.key ≠ key ∨ o.FetchesYoung c.timestamp) (hkey : later.key = key)
    (hlater : later.FetchesYoung c.timestamp) :
    later.perform (performAll between b).2 =
      (⟨.gave (some ⟨c.records, .fresh, some c.timestamp, none⟩), 0, []⟩,
        (performAll between b).2) := by
  subst hkey
  exact Operation.perform_fetch_young (reads_performAll hbetween hread) hlater

/-- **An old catalog** sends a fetch to the service after every session that
leaves it alone. -/
theorem performAll_fetch_old (hread : (Cache.get Backend.operations key b).1 = some c)
    (hbetween : ∀ o ∈ between, o.key ≠ key ∨ o.FetchesYoung c.timestamp) (hkey : later.key = key)
    (htask : later.task = .call .fetch) (honline : later.online = true)
    (hold : ¬ later.clock 0 - c.timestamp < later.accessor.ttl) :
    Operation.WentToService (later.perform (performAll between b).2).1 := by
  subst hkey
  refine Operation.perform_fetch_old htask honline fun found hfound => ?_
  obtain rfl : c = found := Option.some.inj ((reads_performAll hbetween hread).symm.trans hfound)
  exact hold

/-- **A forgotten catalog** sends a fetch to the service after every session of
operations with other keys. -/
theorem performAll_fetch_forgotten (hheld : b.held key = none)
    (hbetween : ∀ o ∈ between, o.key ≠ key) (hkey : later.key = key)
    (htask : later.task = .call .fetch) (honline : later.online = true) :
    Operation.WentToService (later.perform (performAll between b).2).1 := by
  subst hkey
  refine Operation.perform_fetch_old htask honline fun c hc => ?_
  have hnone : (performAll between b).2.held later.key = none :=
    (Backend.held_eq_of_view (view_performAll_other hbetween b)).trans hheld
  rw [get_of_held_none hnone] at hc
  cases hc

end Later

/-- Operations keep a store exact. -/
theorem exact_performAll {operations : List Operation} (h : ∀ o ∈ operations, o.Timely)
    {b : Backend} (hb : b.Exact) : (performAll operations b).2.Exact := by
  induction operations generalizing b with
  | nil => exact hb
  | cons o rest ih =>
      exact ih (fun o' ho' => h o' (List.mem_cons_of_mem o ho'))
        (Operation.exact_perform (h o List.mem_cons_self) hb)

end WebBaseline.Catalog
