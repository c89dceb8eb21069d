import WebBaseline.Catalog.Accessor

/-!
# Clients of one store

Accessors for the entry of one key share a store and run at the same time.
Every operation on the store takes effect at once, and between any two steps of
one client the others may take theirs.  A schedule says whose turn it is, and
what that client meets with: any sequence of calls, of times and of outcomes of
requests is possible.

* `Clients.step`, `Clients.run` — one turn, and all turns of a schedule;
* `Clients.endsAlone` — a client that is left alone carries out its plan;
* `Plan.Justified` — what a plan ensures however its steps turn out;
* `justified_plan` — accessors write what they have fetched and show what they
  have read or fetched, in each of their calls.
-/

namespace WebBaseline.Catalog

open Store

/-! ### Calls and their steps -/

/-- What an accessor may be asked to do. -/
inductive Call where
  | fetch
  | refresh
  | invalidate
deriving DecidableEq, Repr

/-- A plan with another form of its result. -/
def Plan.map {α β : Type} (f : α → β) : Plan α → Plan β
  | done a => done (f a)
  | read next => read fun found => (next found).map f
  | write c next => write c fun kept => (next kept).map f
  | remove next => remove (next.map f)
  | clock next => clock fun now => (next now).map f
  | request next => request fun outcome => (next outcome).map f
  | wait d next => wait d (next.map f)

/-- The plan of a call.  Only forgetting the catalog gives no snapshot. -/
def Accessor.plan (a : Accessor) : Call → Plan (Option Snapshot)
  | .fetch => a.fetch.map some
  | .refresh => a.refresh.map some
  | .invalidate => Accessor.invalidate.map fun _ => none

/-- What a client does in one step, and what comes of it. -/
inductive Action where
  | start (call : Call)
  | read (found : Option Cached)
  | write (content : Cached) (kept : Bool)
  | remove
  | look (now : Int)
  | request (outcome : Except RequestError (List FeatureRecord))
  | wait (delay : Duration)
  | finish (snapshot : Option Snapshot)

/-- What a client meets with in one step: what it is asked to do next, what the
clock shows, and how a request ends. -/
structure Input where
  call : Call
  now : Int
  outcome : Except RequestError (List FeatureRecord)

/-- The first step of a plan, what is left to do, and the store after it. -/
def Plan.step (key : String) (input : Input) (store : Backend) :
    Plan (Option Snapshot) → Action × Option (Plan (Option Snapshot)) × Backend
  | done snapshot => (.finish snapshot, none, store)
  | read next =>
    let (found, after) := Cache.get Backend.operations key store
    (.read found, some (next found), after)
  | write c next =>
    let (kept, after) := Cache.put Backend.operations key c store
    (.write c kept, some (next kept), after)
  | remove next => (.remove, some next, Cache.invalidate Backend.operations key store)
  | clock next => (.look input.now, some (next input.now), store)
  | request next => (.request input.outcome, some (next input.outcome), store)
  | wait d next => (.wait d, some next, store)

/-- The next step of an accessor: if it has nothing left to do it starts a call. -/
def Accessor.step (a : Accessor) (input : Input) (store : Backend) :
    Option (Plan (Option Snapshot)) → Action × Option (Plan (Option Snapshot)) × Backend
  | none => (.start input.call, some (a.plan input.call), store)
  | some p => p.step a.key input store

/-! ### Schedules -/

/-- A step that a client has taken, with the store before and after it. -/
structure Moment (ι : Type) where
  client : ι
  action : Action
  before : Backend
  after : Backend

/-- Accessors for the entry of one key. -/
structure Clients (ι : Type) where
  key : String
  accessor : ι → Accessor
  sameKey : ∀ i, (accessor i).key = key

/-- A store with the clients that share it. -/
structure Shared (ι : Type) where
  store : Backend
  /-- What is left to do of the calls that clients have started. -/
  left : ι → Option (Plan (Option Snapshot))
  /-- The steps taken so far, the latest first. -/
  history : List (Moment ι)

namespace Clients

variable {ι : Type} [DecidableEq ι] (clients : Clients ι)

/-- A client takes its turn. -/
def step (s : Shared ι) (turn : ι × Input) : Shared ι :=
  let i := turn.1
  let taken := (clients.accessor i).step turn.2 s.store (s.left i)
  { store := taken.2.2
    left := fun j => if j = i then taken.2.1 else s.left j
    history := ⟨i, taken.1, s.store, taken.2.2⟩ :: s.history }

/-- The clients take the turns of a schedule. -/
def run (initial : Backend) (schedule : List (ι × Input)) : Shared ι :=
  schedule.foldl clients.step { store := initial, left := fun _ => none, history := [] }

end Clients

/-- The steps of a client in its current or last call, the latest first. -/
def ownMoments {ι : Type} [DecidableEq ι] (i : ι) : List (Moment ι) → List (Moment ι)
  | [] => []
  | m :: earlier =>
    if m.client = i then
      match m.action with
      | .start _ => []
      | _ => m :: ownMoments i earlier
    else ownMoments i earlier

/-! ### A client alone -/

/-- The host that carries out plans with inputs one after the other; a state is
the store with the number of the next input. -/
def Input.host (inputs : Nat → Input) : Host (StateM (Backend × Nat)) where
  read key s :=
    let (found, store) := Cache.get Backend.operations key s.1
    (found, store, s.2 + 1)
  write key c s :=
    let (kept, store) := Cache.put Backend.operations key c s.1
    (kept, store, s.2 + 1)
  remove key s := ((), Cache.invalidate Backend.operations key s.1, s.2 + 1)
  clock s := ((inputs s.2).now, s.1, s.2 + 1)
  request s := ((inputs s.2).outcome, s.1, s.2 + 1)
  wait _ s := ((), s.1, s.2 + 1)

/-- A run of a plan takes its first step and goes on with what is left. -/
theorem Plan.run_of_step (inputs : Nat → Input) (key : String) {p q : Plan (Option Snapshot)}
    {store : Backend} {n : Nat} (h : (p.step key (inputs n) store).2.1 = some q) :
    p.run (Input.host inputs) key (store, n) =
      q.run (Input.host inputs) key ((p.step key (inputs n) store).2.2, n + 1) := by
  cases p with
  | done result => cases h
  | _ =>
      obtain rfl := Option.some.inj h
      rfl

namespace Clients

variable {ι : Type} [DecidableEq ι] (clients : Clients ι)

/-- A turn of a client that has something left to do. -/
theorem step_of_left {s : Shared ι} {i : ι} {p : Plan (Option Snapshot)}
    (hleft : s.left i = some p) (input : Input) :
    let taken := p.step clients.key input s.store
    clients.step s (i, input) =
      { store := taken.2.2
        left := fun j => if j = i then taken.2.1 else s.left j
        history := ⟨i, taken.1, s.store, taken.2.2⟩ :: s.history } := by
  simp only [step, hleft, Accessor.step, clients.sameKey]

/-- Whether a client that is left alone ends a plan as a run of the plan does. -/
def EndsAlone (inputs : Nat → Input) (i : ι) (p : Plan (Option Snapshot)) (s : Shared ι)
    (n : Nat) : Prop :=
  let ran := p.run (Input.host inputs) clients.key (s.store, n)
  ∃ count, let last := ((List.range' n count).map fun k => (i, inputs k)).foldl clients.step s
    last.store = ran.2.1 ∧ last.left i = none ∧
    ∃ before, last.history.head? = some ⟨i, .finish ran.1, before, last.store⟩

/-- A plan ends if it does so after its first step. -/
theorem EndsAlone.again {inputs : Nat → Input} {i : ι} {p q : Plan (Option Snapshot)}
    {s : Shared ι} {n : Nat} (hleft : s.left i = some p)
    (hnext : (p.step clients.key (inputs n) s.store).2.1 = some q)
    (h : (clients.step s (i, inputs n)).left i = some q →
      clients.EndsAlone inputs i q (clients.step s (i, inputs n)) (n + 1)) :
    clients.EndsAlone inputs i p s n := by
  obtain ⟨count, hcount⟩ := h (by rw [clients.step_of_left hleft, ← hnext]; exact if_pos rfl)
  refine ⟨count + 1, ?_⟩
  rw [Plan.run_of_step inputs clients.key hnext]
  have hstore : (clients.step s (i, inputs n)).store =
      (p.step clients.key (inputs n) s.store).2.2 := by rw [clients.step_of_left hleft]
  rw [← hstore]
  exact hcount

/-- **A client alone** carries out its plan: after some turns of its own it ends
with the same result and the same store as a run of the plan. -/
theorem endsAlone (inputs : Nat → Input) {s : Shared ι} {i : ι} {p : Plan (Option Snapshot)}
    (hleft : s.left i = some p) (n : Nat) : clients.EndsAlone inputs i p s n := by
  induction p generalizing s n with
  | done result =>
      refine ⟨1, ?_⟩
      rw [List.range'_one, List.map_cons, List.map_nil, List.foldl_cons, List.foldl_nil,
        clients.step_of_left hleft]
      exact ⟨rfl, if_pos rfl, s.store, rfl⟩
  | read next ih => exact .again clients hleft rfl fun h => ih _ h (n + 1)
  | write c next ih => exact .again clients hleft rfl fun h => ih _ h (n + 1)
  | remove next ih => exact .again clients hleft rfl fun h => ih h (n + 1)
  | clock next ih => exact .again clients hleft rfl fun h => ih _ h (n + 1)
  | request next ih => exact .again clients hleft rfl fun h => ih _ h (n + 1)
  | wait delay next ih => exact .again clients hleft rfl fun h => ih h (n + 1)

end Clients

/-! ### What plans ensure -/

/-- Whether, after some actions of its call, a plan writes only what it has
fetched, with the time that it has seen, and ends as `post` says, however its
steps turn out.  The latest action comes first. -/
def Plan.Justified {α : Type} (post : List Action → α → Prop) : Plan α → List Action → Prop
  | done a, own => post own a
  | read next, own => ∀ found, (next found).Justified post (.read found :: own)
  | write c next, own =>
    .request (.ok c.records) ∈ own ∧ .look c.timestamp ∈ own ∧
      ∀ kept, (next kept).Justified post (.write c kept :: own)
  | remove next, own => next.Justified post (.remove :: own)
  | clock next, own => ∀ now, (next now).Justified post (.look now :: own)
  | request next, own => ∀ outcome, (next outcome).Justified post (.request outcome :: own)
  | wait d next, own => next.Justified post (.wait d :: own)

/-- A plan with another form of its result ensures the same. -/
theorem Plan.Justified.map {α β : Type} {f : α → β} {post : List Action → β → Prop} {p : Plan α}
    {own : List Action} (h : p.Justified (fun own a => post own (f a)) own) :
    (p.map f).Justified post own := by
  induction p generalizing own with
  | done a => exact h
  | read next ih => exact fun found => ih found (h found)
  | write c next ih => exact ⟨h.1, h.2.1, fun kept => ih kept (h.2.2 kept)⟩
  | remove next ih => exact ih h
  | clock next ih => exact fun now => ih now (h now)
  | request next ih => exact fun outcome => ih outcome (h outcome)
  | wait d next ih => exact ih h

/-- Whether the actions of a call explain the snapshot that it gives. -/
structure Explains (own : List Action) (snapshot : Snapshot) : Prop where
  /-- What is shown from the cache is what some read has found. -/
  shown : snapshot.freshness = .fresh ∨ snapshot.freshness = .stale →
    ∃ c, .read (some c) ∈ own ∧ snapshot.records = c.records ∧
      snapshot.timestamp = some c.timestamp
  /-- What is shown as fetched is what has been fetched, and was written as it is shown. -/
  fetched : snapshot.freshness = .fetched →
    .request (.ok snapshot.records) ∈ own ∧
    (∀ records, .request (.ok records) ∈ own → records = snapshot.records) ∧
    ∃ now kept, .look now ∈ own ∧ .write ⟨now, snapshot.records⟩ kept ∈ own ∧
      snapshot.timestamp = some now
  /-- Nothing is shown only if no read has found anything. -/
  nothing : snapshot.freshness = .unavailable →
    snapshot.records = [] ∧ snapshot.timestamp = none ∧
    ∀ found, .read found ∈ own → found = none

/-- Whether the actions of a call explain its result; that of forgetting the
catalog needs no explanation. -/
def Accounts (own : List Action) : Option Snapshot → Prop
  | some snapshot => Explains own snapshot
  | none => True

/-- A fresh catalog is one that was read. -/
theorem explains_ofFresh {own : List Action} {c : Cached} (h : .read (some c) ∈ own) :
    Explains own (.ofFresh c) where
  shown := fun _ => ⟨c, h, rfl, rfl⟩
  fetched := fun h => Freshness.noConfusion h
  nothing := fun h => Freshness.noConfusion h

/-- A catalog that is all that was fetched explains itself, once it has been written. -/
theorem explains_ofFetched {own : List Action} {c : Cached} (kept : Bool)
    (hrequest : ∀ records, .request (.ok records) ∈ own ↔ records = c.records)
    (hlook : .look c.timestamp ∈ own) (hwrite : .write c kept ∈ own) :
    Explains own (.ofFetched c) where
  shown := fun h => h.elim Freshness.noConfusion Freshness.noConfusion
  fetched := fun _ => ⟨(hrequest _).mpr rfl, fun records => (hrequest records).mp,
    c.timestamp, kept, hlook, hwrite, rfl⟩
  nothing := fun h => Freshness.noConfusion h

/-- What stands in is what was read, or nothing if nothing was. -/
theorem explains_fallback {own : List Action} {entry : Option Cached} (error : Option String)
    (hsome : ∀ c, entry = some c → .read (some c) ∈ own)
    (hnone : entry = none → ∀ found, .read found ∈ own → found = none) :
    Explains own (.fallback entry error) := by
  cases entry with
  | none => exact {
      shown := fun h => h.elim Freshness.noConfusion Freshness.noConfusion
      fetched := fun h => Freshness.noConfusion h
      nothing := fun _ => ⟨rfl, rfl, hnone rfl⟩ }
  | some c => exact {
      shown := fun _ => ⟨c, hsome c rfl, rfl, rfl⟩
      fetched := fun h => Freshness.noConfusion h
      nothing := fun h => Freshness.noConfusion h }

/-- Whether an action is part of a try that gave nothing. -/
def Action.Fruitless : Action → Prop
  | .request (.error _) | .wait _ => True
  | _ => False

/-- Other actions are not among those of tries that gave nothing. -/
theorem mem_fruitless_append {action : Action} (h : ¬ action.Fruitless) {tries own : List Action}
    (htries : ∀ x ∈ tries, x.Fruitless) : action ∈ tries ++ own ↔ action ∈ own := by
  rw [List.mem_append]
  exact or_iff_right fun hmem => h (htries action hmem)

namespace Accessor

variable (a : Accessor)

/-- **Requests that are tried again.**  Before the last one there are tries that
gave nothing; what follows only has to be justified after all of them. -/
theorem justified_requestWithRetry {α : Type} {post : List Action → α → Prop}
    {next : Except RequestError (List FeatureRecord) → Plan α} {own : List Action}
    (h : ∀ outcome tries, (∀ x ∈ tries, x.Fruitless) →
      (next outcome).Justified post (.request outcome :: (tries ++ own))) (left attempt : Nat) :
    (a.requestWithRetry next left attempt).Justified post own := by
  induction left generalizing attempt own with
  | zero => exact fun outcome => h outcome [] fun x hx => absurd hx List.not_mem_nil
  | succ left ih =>
      intro outcome
      cases outcome with
      | ok records => exact h (.ok records) [] fun x hx => absurd hx List.not_mem_nil
      | error e =>
          refine ih (fun outcome tries htries => ?_) (attempt + 1)
          -- One more failure and one more delay come before the next request.
          have hmore := h outcome (tries ++ [.wait (backoffDelay a.backoffBaseMs attempt),
            .request (.error e)])
          rw [List.append_assoc] at hmore
          refine hmore fun x hx => ?_
          rcases List.mem_append.mp hx with hx | hx
          · exact htries x hx
          · simp only [List.mem_cons, List.not_mem_nil, or_false] at hx
            rcases hx with rfl | rfl <;> trivial

/-- Going to the service is justified after one read. -/
theorem justified_fetchOrFallback {own : List Action} {cached : Option Cached}
    (hreads : ∀ found, .read found ∈ own ↔ found = cached)
    (hrequests : ∀ outcome, .request outcome ∉ own) :
    (a.fetchOrFallback cached).Justified Explains own := by
  unfold fetchOrFallback
  split
  · refine a.justified_requestWithRetry (fun outcome tries htries => ?_) _ _
    have hread : ∀ found, .read found ∈ tries ++ own ↔ found = cached := fun found =>
      (mem_fruitless_append id htries).trans (hreads found)
    cases outcome with
    | ok records =>
        intro now
        refine ⟨by simp, by simp, fun kept => ?_⟩
        refine explains_ofFetched kept (fun other => ?_) (by simp) (by simp)
        have hother : .request (.ok other) ∉ tries ++ own := fun hmem =>
          hrequests _ ((mem_fruitless_append id htries).mp hmem)
        simp [hother]
    | error e =>
        -- The entry read last stands in, or else the one read first.
        intro latest
        refine explains_fallback _ (fun c hc => ?_) fun hnone found hfound => ?_
        · cases latest with
          | none =>
              obtain rfl : cached = some c := by simpa using hc
              simp [hread]
          | some d =>
              obtain rfl : d = c := by simpa using hc
              simp
        · obtain ⟨rfl, rfl⟩ := Option.or_eq_none_iff.mp hnone
          simpa [hread] using hfound
  · refine explains_fallback _ (fun c hc => ?_) fun hnone found hfound => ?_
    · exact (hreads _).mpr hc.symm
    · exact ((hreads found).mp hfound).trans hnone

/-- **Calls.**  In each of its calls an accessor writes only what it has
fetched, and its actions explain the snapshot that it gives. -/
theorem justified_plan (call : Call) : (a.plan call).Justified Accounts [] := by
  cases call with
  | fetch =>
      refine Plan.Justified.map fun cached now => ?_
      have hfetch : (a.fetchOrFallback cached).Justified Explains [.look now, .read cached] :=
        a.justified_fetchOrFallback (by simp) (by simp)
      cases cached with
      | none => exact hfetch
      | some c =>
          dsimp only
          split
          · exact explains_ofFresh (by simp)
          · exact hfetch
  | refresh =>
      refine Plan.Justified.map fun cached => ?_
      exact a.justified_fetchOrFallback (by simp) (by simp)
  | invalidate => trivial

end Accessor

end WebBaseline.Catalog
