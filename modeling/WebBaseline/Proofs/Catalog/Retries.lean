import WebBaseline.Catalog.Accessor

/-!
# Requests that are tried again

An accessor meets with a store, a clock and requests.  Nothing is assumed of
these surroundings: requests end one after the other as they like, without an
end, and while one is under way others may do anything to the store.

* `run_requestWithRetry_success` — after failures that still leave attempts, a
  success is taken up at once;
* `run_requestWithRetry_failure` — when every attempt fails, the last failure is
  taken up, and there is no further request.

Both say exactly how many requests were made, which delays were waited for, and
that nothing but the others' doing has changed the store.
-/

namespace WebBaseline.Catalog

/-- One request: what others do to the store while it is under way, and how it
ends. -/
structure Turn (σ : Type) where
  meanwhile : σ → σ
  outcome : Except RequestError (List FeatureRecord)

/-- Whether a request ends with an error. -/
def Turn.Fails {σ : Type} (t : Turn σ) : Prop := ∃ e, t.outcome = .error e

/-- What an accessor meets with: the times that successive looks at the clock
show, and the turns of successive requests. -/
structure Surroundings (σ : Type) where
  clock : Nat → Int
  turns : Nat → Turn σ

/-- How far a run has come: the store, and what has been asked for so far. -/
structure Position (σ : Type) where
  store : σ
  looks : Nat := 0
  calls : Nat := 0
  waits : List Duration := []

namespace Surroundings

variable {σ : Type} (env : Surroundings σ)

/-- Surroundings with the operations of a store as a host of plans. -/
def host (ops : Store.Operations σ) : Host (StateM (Position σ)) where
  read key p :=
    let (cached, s) := Cache.get ops key p.store
    (cached, { p with store := s })
  write key c p :=
    let (kept, s) := Cache.put ops key c p.store
    (kept, { p with store := s })
  remove key p := ((), { p with store := Cache.invalidate ops key p.store })
  clock p := (env.clock p.looks, { p with looks := p.looks + 1 })
  request p :=
    let turn := env.turns p.calls
    (turn.outcome, { p with store := turn.meanwhile p.store, calls := p.calls + 1 })
  wait d p := ((), { p with waits := p.waits ++ [d] })

/-- The store after what others do in `count` turns from number `first` on. -/
def disturbed (first : Nat) : Nat → σ → σ
  | 0, s => s
  | count + 1, s => disturbed (first + 1) count ((env.turns first).meanwhile s)

/-- The position after `count` requests with a delay between any two; `attempt`
is the number of the first of them. -/
def afterRequests (baseMs : UInt64) (attempt count : Nat) (p : Position σ) : Position σ :=
  { p with
    store := env.disturbed p.calls count p.store
    calls := p.calls + count
    waits := p.waits ++ (List.range (count - 1)).map fun i => backoffDelay baseMs (attempt + i) }

/-- The position after the cache has been read. -/
def afterRead (ops : Store.Operations σ) (key : String) (p : Position σ) : Position σ :=
  { p with store := (Cache.get ops key p.store).2 }

/-- The position after a catalog has been written to the cache. -/
def afterWrite (ops : Store.Operations σ) (key : String) (c : Cached) (p : Position σ) :
    Position σ :=
  { p with store := (Cache.put ops key c p.store).2 }

/-- The position after a look at the clock. -/
def afterLook (p : Position σ) : Position σ := { p with looks := p.looks + 1 }

/-- The position after one request. -/
def afterRequest (p : Position σ) : Position σ :=
  { p with store := (env.turns p.calls).meanwhile p.store, calls := p.calls + 1 }

/-- The position after a delay. -/
def afterDelay (d : Duration) (p : Position σ) : Position σ := { p with waits := p.waits ++ [d] }

/-- One request has no delay. -/
theorem afterRequests_one (baseMs : UInt64) (attempt : Nat) (p : Position σ) :
    env.afterRequests baseMs attempt 1 p = env.afterRequest p := by
  simp [afterRequests, afterRequest, disturbed]

/-- A failed request and the delay after it come before the requests that follow. -/
theorem afterRequests_again (baseMs : UInt64) (attempt count : Nat) (p : Position σ) :
    env.afterRequests baseMs (attempt + 1) (count + 1)
        (afterDelay (backoffDelay baseMs attempt) (env.afterRequest p)) =
      env.afterRequests baseMs attempt (count + 2) p := by
  have hdelays : (List.range (count + 1)).map (fun i => backoffDelay baseMs (attempt + i)) =
      backoffDelay baseMs attempt ::
        (List.range count).map fun i => backoffDelay baseMs (attempt + 1 + i) := by
    rw [List.range_succ_eq_map, List.map_cons, List.map_map]
    simp [Function.comp_def, Nat.add_assoc, Nat.add_comm 1]
  have hcount : p.calls + 1 + (count + 1) = p.calls + (count + 2) := by omega
  simp [afterRequests, afterRequest, afterDelay, disturbed, hdelays, hcount]

section Run

variable {α : Type} (ops : Store.Operations σ) (key : String)
  (next : Except RequestError (List FeatureRecord) → Plan α)

/-- Reading asks the store. -/
theorem run_read (next : Option Cached → Plan α) (p : Position σ) :
    (Plan.read next).run (env.host ops) key p =
      (next (Cache.get ops key p.store).1).run (env.host ops) key (afterRead ops key p) := rfl

/-- Writing asks the store, which says whether it has kept the catalog. -/
theorem run_write (c : Cached) (next : Bool → Plan α) (p : Position σ) :
    (Plan.write c next).run (env.host ops) key p =
      (next (Cache.put ops key c p.store).1).run (env.host ops) key (afterWrite ops key c p) := rfl

/-- A look at the clock shows the next time. -/
theorem run_clock (next : Int → Plan α) (p : Position σ) :
    (Plan.clock next).run (env.host ops) key p =
      (next (env.clock p.looks)).run (env.host ops) key (afterLook p) := rfl

/-- A request is answered by its turn. -/
theorem run_request (p : Position σ) :
    (Plan.request next).run (env.host ops) key p =
      (next (env.turns p.calls).outcome).run (env.host ops) key (env.afterRequest p) := rfl

/-- A delay goes by. -/
theorem run_wait (d : Duration) (rest : Plan α) (p : Position σ) :
    (Plan.wait d rest).run (env.host ops) key p = rest.run (env.host ops) key (afterDelay d p) := rfl

/-- A plan that is done gives its result. -/
theorem run_done (result : α) (p : Position σ) :
    (Plan.done result).run (env.host ops) key p = (result, p) := rfl

variable (a : Accessor)

/-- A failure that leaves attempts is followed by a delay and the next attempt. -/
theorem run_requestWithRetry_again {left attempt : Nat} {p : Position σ}
    (hfails : (env.turns p.calls).Fails) :
    (a.requestWithRetry next (left + 1) attempt).run (env.host ops) key p =
      (a.requestWithRetry next left (attempt + 1)).run (env.host ops) key
        (afterDelay (backoffDelay a.backoffBaseMs attempt) (env.afterRequest p)) := by
  obtain ⟨e, he⟩ := hfails
  rw [Accessor.requestWithRetry, run_request, he, run_wait]

/-- A success is taken up at once. -/
theorem run_requestWithRetry_ok {left attempt : Nat} {p : Position σ}
    {records : List FeatureRecord} (hok : (env.turns p.calls).outcome = .ok records) :
    (a.requestWithRetry next left attempt).run (env.host ops) key p =
      (next (.ok records)).run (env.host ops) key (env.afterRequest p) := by
  cases left with
  | zero => rw [Accessor.requestWithRetry, run_request, hok]
  | succ left => rw [Accessor.requestWithRetry, run_request, hok]

/-- **A success is taken up.**  If the first `j` requests fail and the next one
succeeds, and there are attempts for all of these, exactly `j + 1` requests are
made, with a delay after each failure. -/
theorem run_requestWithRetry_success {left j : Nat} (hleft : j ≤ left)
    {records : List FeatureRecord} {attempt : Nat} {p : Position σ}
    (hfails : ∀ i < j, (env.turns (p.calls + i)).Fails)
    (hok : (env.turns (p.calls + j)).outcome = .ok records) :
    (a.requestWithRetry next left attempt).run (env.host ops) key p =
      (next (.ok records)).run (env.host ops) key
        (env.afterRequests a.backoffBaseMs attempt (j + 1) p) := by
  induction j generalizing left attempt p with
  | zero => rw [afterRequests_one, run_requestWithRetry_ok env ops key next a (by simpa using hok)]
  | succ j ih =>
      obtain ⟨left, rfl⟩ : ∃ rest, left = rest + 1 := ⟨left - 1, by omega⟩
      rw [run_requestWithRetry_again env ops key next a (by simpa using hfails 0 (by omega)),
        ih (by omega) ?_ ?_, afterRequests_again]
      · intro i hi
        have h := hfails (i + 1) (by omega)
        rwa [show p.calls + (i + 1) = p.calls + 1 + i by omega] at h
      · rwa [show p.calls + (j + 1) = p.calls + 1 + j by omega] at hok

/-- **Failures are final after the last attempt.**  If the next request and all
`left` after it fail, exactly these are made, with a delay between any two, and
the last failure is taken up. -/
theorem run_requestWithRetry_failure {left : Nat} {e : RequestError} {attempt : Nat}
    {p : Position σ} (hfails : ∀ i < left, (env.turns (p.calls + i)).Fails)
    (hlast : (env.turns (p.calls + left)).outcome = .error e) :
    (a.requestWithRetry next left attempt).run (env.host ops) key p =
      (next (.error e)).run (env.host ops) key
        (env.afterRequests a.backoffBaseMs attempt (left + 1) p) := by
  induction left generalizing attempt p with
  | zero =>
      rw [Nat.add_zero] at hlast
      rw [afterRequests_one, Accessor.requestWithRetry, run_request, hlast]
  | succ left ih =>
      rw [run_requestWithRetry_again env ops key next a (by simpa using hfails 0 (by omega)),
        ih ?_ ?_, afterRequests_again]
      · intro i hi
        have h := hfails (i + 1) (by omega)
        rwa [show p.calls + (i + 1) = p.calls + 1 + i by omega] at h
      · rwa [show p.calls + (left + 1) = p.calls + 1 + left by omega] at hlast

end Run

end Surroundings

end WebBaseline.Catalog
