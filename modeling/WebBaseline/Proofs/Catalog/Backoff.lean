import Mathlib.Algebra.Order.Group.Nat
import WebBaseline.Proofs.Catalog.Retries
import WebBaseline.Proofs.Catalog.Spans
import WebBaseline.Proofs.Settings.Validity

/-!
# Delays between requests

The delay after a failed request doubles from one to the next, until the cap on the doublings or
the longest span stops it.  Valid settings allow so few attempts that neither ever does.

* `toNanos_backoffDelay` — a delay in nanoseconds;
* `Surroundings.events` — the requests and delays of a run, in their order;
* `Surroundings.events_requestWithRetry` — the events of requests that are tried again: each
  failure but the last is followed by its delay;
* `backoff_exact` — what the delays are, for all settings and runs.
-/

namespace WebBaseline.Catalog

/-! ### One delay -/

/-- A delay is as many times the base as its doublings say, cut off at the longest span. -/
theorem toNanos_backoffDelay (baseMs : UInt64) (attempt : Nat) :
    (backoffDelay baseMs attempt).toNanos =
      min (baseMs.toNat * 2 ^ min attempt 16 * 1000000) Duration.longest.toNanos := by
  rw [backoffDelay, Duration.toNanos_saturatingMul, Duration.toNanos_ofMillis,
    Nat.one_shiftLeft, Nat.mul_right_comm, mostDoublings]

/-- Milliseconds make a span if their whole seconds fit. -/
theorem millis_le_longest_iff {ms : Nat} :
    ms * 1000000 ≤ Duration.longest.toNanos ↔ ms / 1000 < 2 ^ 64 := by
  rw [Duration.le_longest_iff, show nanosPerSecond = 1000 * 1000000 from rfl,
    Nat.mul_div_mul_right _ _ (by decide)]
  exact Iff.rfl

/-- A delay that is a span is exact. -/
theorem toNanos_backoffDelay_of_lt {baseMs : UInt64} {attempt : Nat}
    (hfits : baseMs.toNat * 2 ^ min attempt 16 / 1000 < 2 ^ 64) :
    (backoffDelay baseMs attempt).toNanos = baseMs.toNat * 2 ^ min attempt 16 * 1000000 := by
  rw [toNanos_backoffDelay, Nat.min_eq_left (millis_le_longest_iff.mpr hfits)]

/-- A delay that would be longer than any span is the longest one. -/
theorem backoffDelay_eq_longest {baseMs : UInt64} {attempt : Nat}
    (hlong : ¬ baseMs.toNat * 2 ^ min attempt 16 / 1000 < 2 ^ 64) :
    backoffDelay baseMs attempt = .longest := by
  have hle := Nat.le_of_not_le (mt millis_le_longest_iff.mp hlong)
  rw [← Duration.toNanos_inj, toNanos_backoffDelay, Nat.min_eq_right hle]

/-- Delays do not become shorter. -/
theorem backoffDelay_le_backoffDelay (baseMs : UInt64) {earlier later : Nat}
    (h : earlier ≤ later) : backoffDelay baseMs earlier ≤ backoffDelay baseMs later := by
  have hdoublings : min earlier 16 ≤ min later 16 := by omega
  have hpow := Nat.pow_le_pow_right (n := 2) (by decide) hdoublings
  have hproduct := Nat.mul_le_mul_right 1000000 (Nat.mul_le_mul_left baseMs.toNat hpow)
  rw [Duration.le_iff, toNanos_backoffDelay, toNanos_backoffDelay]
  omega

/-- Nine doublings of any base are a span. -/
theorem doubled_lt (baseMs : UInt64) {attempt : Nat} (h : attempt ≤ 9) :
    baseMs.toNat * 2 ^ attempt / 1000 < 2 ^ 64 := by
  have hpow : 2 ^ attempt ≤ 2 ^ 9 := Nat.pow_le_pow_right (by decide) h
  have hproduct := Nat.mul_le_mul_left baseMs.toNat hpow
  have hbase := baseMs.toNat_lt
  omega

/-! ### The events of a run -/

/-- What an accessor does towards others. -/
inductive Event where
  /-- It requests the catalog. -/
  | request
  /-- It waits. -/
  | delay (d : Duration)
deriving DecidableEq, Repr

/-- Failed requests, each with its delay, and one more request. -/
def timeline (baseMs : UInt64) (attempt failures : Nat) : List Event :=
  (List.range failures).flatMap
    (fun i => [.request, .delay (backoffDelay baseMs (attempt + i))]) ++ [.request]

/-- The first failed request and its delay come before the others. -/
theorem timeline_succ (baseMs : UInt64) (attempt failures : Nat) :
    timeline baseMs attempt (failures + 1) =
      .request :: .delay (backoffDelay baseMs attempt) ::
        timeline baseMs (attempt + 1) failures := by
  simp only [timeline, List.range_succ_eq_map, List.flatMap_cons, List.flatMap_map,
    Nat.add_zero, Nat.succ_eq_add_one, Nat.add_assoc, Nat.add_comm 1]
  rfl

namespace Surroundings

variable {σ α : Type} (env : Surroundings σ) (ops : Store.Operations σ) (key : String)

/-- A step that is noted down as some events. -/
def noting (step : StateM (Position σ) α) (note : List Event) :
    StateM (Position σ × List Event) α := fun p =>
  let (result, q) := step p.1
  (result, q, p.2 ++ note)

/-- The surroundings as a host that notes requests and delays down. -/
def notingHost : Host (StateM (Position σ × List Event)) where
  read k := noting ((env.host ops).read k) []
  write k c := noting ((env.host ops).write k c) []
  remove k := noting ((env.host ops).remove k) []
  clock := noting (env.host ops).clock []
  request := noting (env.host ops).request [.request]
  wait d := noting ((env.host ops).wait d) [.delay d]

/-- The events of a run. -/
def events (plan : Plan α) (p : Position σ) : List Event :=
  (plan.run (env.notingHost ops) key (p, [])).2.2

/-- Whether noting a run down changes nothing else, and goes on from what is noted already. -/
def IsNoted (plan : Plan α) (p : Position σ) : Prop :=
  ∀ before, plan.run (env.notingHost ops) key (p, before) =
    ((plan.run (env.host ops) key p).1, (plan.run (env.host ops) key p).2,
      before ++ env.events ops key plan p)

variable {env ops key}

/-- The events of a plan are those of its first step and those of the rest. -/
theorem IsNoted.events_of_step {plan rest : Plan α} {p q : Position σ}
    (hrest : env.IsNoted ops key rest q) (note : List Event)
    (hstep : ∀ before, plan.run (env.notingHost ops) key (p, before) =
      rest.run (env.notingHost ops) key (q, before ++ note)) :
    env.events ops key plan p = note ++ env.events ops key rest q := by
  rw [events, hstep, hrest, List.nil_append]

/-- A plan is noted down if the rest of it is after its first step. -/
theorem IsNoted.of_step {plan rest : Plan α} {p q : Position σ} {note : List Event}
    (hrest : env.IsNoted ops key rest q)
    (hstep : ∀ before, plan.run (env.notingHost ops) key (p, before) =
      rest.run (env.notingHost ops) key (q, before ++ note))
    (hplain : plan.run (env.host ops) key p = rest.run (env.host ops) key q) :
    env.IsNoted ops key plan p := fun before => by
  rw [hstep, hrest, hplain, hrest.events_of_step note hstep, List.append_assoc]

variable (env ops key)

/-- Every run is noted down. -/
theorem isNoted (plan : Plan α) (p : Position σ) : env.IsNoted ops key plan p := by
  induction plan generalizing p with
  | done result =>
      exact fun before => congrArg (fun note => (result, p, note)) (List.append_nil before).symm
  | read next ih => exact .of_step (ih _ _) (fun _ => rfl) rfl
  | write c next ih => exact .of_step (ih _ _) (fun _ => rfl) rfl
  | remove next ih => exact .of_step (ih _) (fun _ => rfl) rfl
  | clock next ih => exact .of_step (ih _ _) (fun _ => rfl) rfl
  | request next ih => exact .of_step (ih _ _) (fun _ => rfl) rfl
  | wait d next ih => exact .of_step (ih _) (fun _ => rfl) rfl

/-- Reading is no event. -/
theorem events_read (next : Option Cached → Plan α) (p : Position σ) :
    env.events ops key (.read next) p =
      env.events ops key (next (Cache.get ops key p.store).1) (afterRead ops key p) :=
  (env.isNoted ops key _ _).events_of_step [] fun _ => rfl

/-- Looking at the clock is no event. -/
theorem events_clock (next : Int → Plan α) (p : Position σ) :
    env.events ops key (.clock next) p =
      env.events ops key (next (env.clock p.looks)) (afterLook p) :=
  (env.isNoted ops key _ _).events_of_step [] fun _ => rfl

/-- A request is an event. -/
theorem events_request (next : Except RequestError (List FeatureRecord) → Plan α)
    (p : Position σ) :
    env.events ops key (.request next) p =
      .request :: env.events ops key (next (env.turns p.calls).outcome) (env.afterRequest p) :=
  (env.isNoted ops key _ _).events_of_step [.request] fun _ => rfl

/-- A delay is an event. -/
theorem events_wait (d : Duration) (rest : Plan α) (p : Position σ) :
    env.events ops key (.wait d rest) p = .delay d :: env.events ops key rest (afterDelay d p) :=
  (env.isNoted ops key _ _).events_of_step [.delay d] fun _ => rfl

/-! ### Requests that are tried again -/

variable {env} in
/-- A request that ends with a catalog does not fail. -/
theorem not_fails_of_ok {i : Nat} {records : List FeatureRecord}
    (hok : (env.turns i).outcome = .ok records) : ¬ (env.turns i).Fails := by
  rintro ⟨e, he⟩
  cases hok.symm.trans he

/-- **No delay after the last request.**  What is tried again and has no events afterwards consists
of some failures, each with its delay, and one more request.  That one succeeds unless no attempts
are left. -/
theorem events_requestWithRetry (a : Accessor)
    (next : Except RequestError (List FeatureRecord) → Plan α)
    (hquiet : ∀ outcome q, env.events ops key (next outcome) q = [])
    (left attempt : Nat) (p : Position σ) :
    ∃ failures ≤ left, (∀ i < failures, (env.turns (p.calls + i)).Fails) ∧
      (failures < left → ¬ (env.turns (p.calls + failures)).Fails) ∧
      env.events ops key (a.requestWithRetry next left attempt) p =
        timeline a.backoffBaseMs attempt failures := by
  induction left generalizing attempt p with
  | zero =>
      refine ⟨0, Nat.le_refl 0, fun i hi => absurd hi (Nat.not_lt_zero i),
        fun h => absurd h (Nat.lt_irrefl 0), ?_⟩
      rw [Accessor.requestWithRetry, events_request, hquiet]
      rfl
  | succ left ih =>
      cases hturn : (env.turns p.calls).outcome with
      | ok records =>
          refine ⟨0, Nat.zero_le _, fun i hi => absurd hi (Nat.not_lt_zero i),
            fun _ => not_fails_of_ok hturn, ?_⟩
          rw [Accessor.requestWithRetry, events_request, hturn, hquiet]
          rfl
      | error e =>
          -- The attempts that are left start with the next delay, one call further on.
          obtain ⟨failures, hle, hfails, hlast, hevents⟩ := ih (attempt + 1)
            (afterDelay (backoffDelay a.backoffBaseMs attempt) (env.afterRequest p))
          have hcalls : ∀ i, (afterDelay (backoffDelay a.backoffBaseMs attempt)
              (env.afterRequest p)).calls + i = p.calls + (i + 1) := fun i =>
            Nat.succ_add_eq_add_succ p.calls i
          simp only [hcalls] at hfails hlast
          refine ⟨failures + 1, by omega, fun i hi => ?_, fun hlt => hlast (by omega), ?_⟩
          · cases i with
            | zero => exact ⟨e, hturn⟩
            | succ i => exact hfails i (by omega)
          · rw [Accessor.requestWithRetry, events_request, hturn, events_wait, hevents,
              timeline_succ]

/-- Whether events are those of the attempts of an accessor; `first` requests came before. -/
def Attempted (a : Accessor) (first : Nat) (happened : List Event) : Prop :=
  ∃ failures < max 1 a.attempts, (∀ i < failures, (env.turns (first + i)).Fails) ∧
    (failures + 1 < a.attempts → ¬ (env.turns (first + failures)).Fails) ∧
    happened = timeline a.backoffBaseMs 0 failures

/-- Whether a run has the events of its attempts, or none, being without a service or in no need
of one. -/
def Eventful (a : Accessor) (plan : Plan Snapshot) (p : Position σ) : Prop :=
  (env.events ops key plan p = [] ∧
    (a.online = false ∨ (plan.run (env.host ops) key p).1.freshness = .fresh)) ∨
  env.Attempted a p.calls (env.events ops key plan p)

variable {env ops key} in
/-- A run has the events of the plan that it goes on with, after steps that are no events. -/
theorem Eventful.of_rest {a : Accessor} {plan rest : Plan Snapshot} {p q : Position σ}
    (h : env.Eventful ops key a rest q)
    (hevents : env.events ops key plan p = env.events ops key rest q)
    (hrun : plan.run (env.host ops) key p = rest.run (env.host ops) key q)
    (hcalls : p.calls = q.calls) : env.Eventful ops key a plan p := by
  rwa [Eventful, hevents, hrun, hcalls]

/-- Requests that are tried again as often as an accessor may are its attempts. -/
theorem attempted_requestWithRetry (a : Accessor)
    (next : Except RequestError (List FeatureRecord) → Plan α)
    (hquiet : ∀ outcome q, env.events ops key (next outcome) q = []) (p : Position σ) :
    env.Attempted a p.calls
      (env.events ops key (a.requestWithRetry next (a.attempts - 1) 0) p) := by
  obtain ⟨failures, hle, hfails, hlast, hevents⟩ :=
    env.events_requestWithRetry ops key a next hquiet (a.attempts - 1) 0 p
  exact ⟨failures, by omega, hfails, fun h => hlast (by omega), hevents⟩

/-- Going to the service comes to attempts, because nothing that follows them is an event. -/
theorem eventful_fetchOrFallback (a : Accessor) (cached : Option Cached) (p : Position σ) :
    env.Eventful ops key a (a.fetchOrFallback cached) p := by
  unfold Accessor.fetchOrFallback
  split
  next =>
    refine Or.inr (env.attempted_requestWithRetry ops key a _ (fun outcome q => ?_) p)
    cases outcome with
    | ok records => rfl
    | error e => rfl
  next hoffline => exact Or.inl ⟨rfl, Or.inl (Bool.eq_false_iff.mpr hoffline)⟩

/-- So does refreshing. -/
theorem eventful_refresh (a : Accessor) (p : Position σ) :
    env.Eventful ops key a a.refresh p :=
  (env.eventful_fetchOrFallback ops key a _ _).of_rest (env.events_read ops key _ p) rfl rfl

/-- So does fetching, unless there is a fresh entry. -/
theorem eventful_fetch (a : Accessor) (p : Position σ) : env.Eventful ops key a a.fetch p := by
  refine Eventful.of_rest ?_ (env.events_read ops key _ p) rfl rfl
  refine Eventful.of_rest ?_ (env.events_clock ops key _ _) rfl rfl
  cases (Cache.get ops key p.store).1 with
  | none => exact env.eventful_fetchOrFallback ops key a none _
  | some c =>
      simp only
      split
      · exact Or.inl ⟨rfl, Or.inr rfl⟩
      · exact env.eventful_fetchOrFallback ops key a (some c) _

end Surroundings

/-! ### The delays of all settings -/

/-- Valid settings allow at least one and at most ten attempts. -/
theorem maxAttempts_of_validate {settings : CatalogSettings} (h : settings.validate = .ok ()) :
    1 ≤ settings.maxAttempts.toNat ∧ settings.maxAttempts.toNat ≤ 10 := by
  have hall := settings.checks_validate.eq_ok_iff.mp h
  exact hall _ List.mem_cons_self

/-- **Delays are exact.**  For every base and every attempt the delay is the base, doubled as often
as there were attempts before it but at most sixteen times, if that is a span, and the longest span
otherwise; and delays do not become shorter.

If the settings are valid, a run that fetches or refreshes has no events, being without a service
or in no need of one, or it makes fewer failed requests than attempts are allowed, each with its
delay after it, and then one last request without a delay.  Each of these delays is the base doubled
as often as there were requests before: neither the cap on the doublings nor the longest span is
ever reached. -/
theorem backoff_exact (settings : CatalogSettings) :
    let base := settings.backoffBaseMs.toNat
    let delay := backoffDelay settings.backoffBaseMs
    (∀ attempt, (delay attempt).nanos < 10 ^ 9 ∧
      if base * 2 ^ min attempt 16 / 1000 < 2 ^ 64 then
        (delay attempt).secs * 10 ^ 9 + (delay attempt).nanos = base * 2 ^ min attempt 16 * 10 ^ 6
      else delay attempt = .longest) ∧
    (∀ earlier later, earlier ≤ later → delay earlier ≤ delay later) ∧
    (settings.validate = .ok () →
      ∀ {σ : Type} (env : Surroundings σ) (ops : Store.Operations σ) (key : String)
        (online : Bool) (p : Position σ),
      let a := Accessor.ofSettings settings online
      ∀ plan ∈ [a.fetch, a.refresh],
        (env.events ops key plan p = [] ∧
          (online = false ∨ (plan.run (env.host ops) key p).1.freshness = .fresh)) ∨
        ∃ failures < settings.maxAttempts.toNat,
          (∀ i < failures, (env.turns (p.calls + i)).Fails) ∧
          (failures + 1 < settings.maxAttempts.toNat →
            ¬ (env.turns (p.calls + failures)).Fails) ∧
          env.events ops key plan p =
            (List.range failures).flatMap (fun i => [.request, .delay (delay i)]) ++ [.request] ∧
          ∀ i < failures, i < 16 ∧ base * 2 ^ i / 1000 < 2 ^ 64 ∧
            (delay i).secs * 10 ^ 9 + (delay i).nanos = base * 2 ^ i * 10 ^ 6) := by
  refine ⟨fun attempt => ⟨(backoffDelay _ attempt).nanos_lt, ?_⟩,
    fun _ _ => backoffDelay_le_backoffDelay _, ?_⟩
  · split
    next hfits => exact toNanos_backoffDelay_of_lt hfits
    next hlong => exact backoffDelay_eq_longest hlong
  intro hvalid σ env ops key online p a plan hplan
  obtain ⟨hone, hten⟩ := maxAttempts_of_validate hvalid
  have hattempts : a.attempts = settings.maxAttempts.toNat := Nat.max_eq_right hone
  have heventful : env.Eventful ops key a plan p := by
    simp only [List.mem_cons, List.not_mem_nil, or_false] at hplan
    rcases hplan with rfl | rfl
    · exact env.eventful_fetch ops key a p
    · exact env.eventful_refresh ops key a p
  refine heventful.imp_right fun ⟨failures, hlt, hfails, hlast, hevents⟩ => ?_
  rw [hattempts] at hlt hlast
  refine ⟨failures, by omega, hfails, hlast, ?_, fun i hi => ?_⟩
  · rw [hevents, timeline]
    simp only [Nat.zero_add]
    rfl
  · have hfits := doubled_lt settings.backoffBaseMs (show i ≤ 9 by omega)
    have hmin : min i 16 = i := by omega
    have hexact : (backoffDelay settings.backoffBaseMs i).toNanos =
        settings.backoffBaseMs.toNat * 2 ^ min i 16 * 1000000 :=
      toNanos_backoffDelay_of_lt (by rwa [hmin])
    rw [hmin] at hexact
    exact ⟨by omega, hfits, hexact⟩

/-- With the greatest base and the most attempts, all of which fail, there are nine delays.  Even
the last, of more than a hundred thousand million years, is exact. -/
theorem backoff_exact_greatest :
    let settings : CatalogSettings := { backoffBaseMs := 0xFFFFFFFFFFFFFFFF, maxAttempts := 10 }
    let env : Surroundings Store.Backend := ⟨fun _ => 0, fun _ => ⟨id, .error (.catalog "down")⟩⟩
    settings.validate = .ok () ∧
      env.events Store.Backend.operations "key" (Accessor.ofSettings settings true).refresh
          { store := .broken } =
        (List.range 9).flatMap
          (fun i => [.request, .delay (backoffDelay settings.backoffBaseMs i)]) ++ [.request] ∧
      (backoffDelay settings.backoffBaseMs 8).secs * 10 ^ 9 +
          (backoffDelay settings.backoffBaseMs 8).nanos =
        (2 ^ 64 - 1) * 2 ^ 8 * 10 ^ 6 := by
  intro settings env
  have hvalid : settings.validate = .ok () := by decide +kernel
  have hold : ((Accessor.ofSettings settings true).refresh.run
      (env.host Store.Backend.operations) "key" { store := .broken }).1.freshness ≠ .fresh := by
    decide +kernel
  obtain ⟨failures, hlt, -, hlast, hevents, hexact⟩ :=
    ((backoff_exact settings).2.2 hvalid env Store.Backend.operations "key" true
      { store := .broken } _ (List.mem_cons_of_mem _ List.mem_cons_self)).resolve_left
      fun hnone => hnone.2.elim Bool.noConfusion hold
  have hten : settings.maxAttempts.toNat = 10 := rfl
  have hnine : failures = 9 := by
    refine Nat.le_antisymm (by omega) (Nat.le_of_not_lt fun hfew => ?_)
    exact hlast (by omega) ⟨.catalog "down", rfl⟩
  subst hnine
  exact ⟨hvalid, hevents, (hexact 8 (by omega)).2.2⟩

end WebBaseline.Catalog
