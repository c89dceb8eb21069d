import Mathlib.Data.List.Induction
import WebBaseline.Proofs.Catalog.FetchOutcome
import WebBaseline.Proofs.Catalog.Interleaving

/-!
# An entry that clients share

Whatever the order in which the clients of one store take their steps, the
entry that they share is never mixed from what two of them wrote, and no
snapshot is mixed from two entries.

* `Trace` — steps that follow one another, each of them one operation on the
  store that the client may take after its own earlier ones;
* `Clients.consistent_run` — what clients do is a trace;
* `Trace.origin`, `Trace.store_eq` — where the entry of a trace comes from;
* `shared_entry_intact` — the entry and the snapshots, for every schedule.
-/

namespace WebBaseline.Catalog

open Store

/-! ### Single steps -/

variable {ι : Type}

/-- Whether an action may have changed the entry. -/
def Action.Changes : Action → Prop
  | .write _ true | .remove => True
  | _ => False

namespace Moment

/-- Whether a step is one operation on the store, or leaves it alone. -/
def Atomic (key : String) (m : Moment ι) : Prop :=
  match m.action with
  | .read found => Cache.get Backend.operations key m.before = (found, m.after)
  | .write c kept => Cache.put Backend.operations key c m.before = (kept, m.after)
  | .remove => Cache.invalidate Backend.operations key m.before = m.after
  | .start _ | .look _ | .request _ | .wait _ | .finish _ => m.after = m.before

/-- Whether the earlier actions of its call give a client cause for a step: it
writes what it has fetched at a time that it has seen, and gives a snapshot that
they explain. -/
def Grounded (own : List Action) (m : Moment ι) : Prop :=
  match m.action with
  | .write c _ => .request (.ok c.records) ∈ own ∧ .look c.timestamp ∈ own
  | .finish result => Accounts own result
  | .start _ | .read _ | .remove | .look _ | .request _ | .wait _ => True

/-- Only kept writes and removals change a store. -/
theorem Atomic.after_eq {key : String} {m : Moment ι} (h : m.Atomic key)
    (hchanges : ¬ m.action.Changes) : m.after = m.before := by
  obtain ⟨i, action, before, after⟩ := m
  cases action with
  | read found => exact (congrArg Prod.snd h).symm
  | write c kept =>
      cases kept with
      | true => exact absurd trivial hchanges
      | false => simpa using store_of_put h
  | remove => exact absurd trivial hchanges
  | start call => exact h
  | look now => exact h
  | request outcome => exact h
  | wait delay => exact h
  | finish snapshot => exact h

/-- What a read finds is what the store then holds. -/
theorem Atomic.found {key : String} {m : Moment ι} {found : Option Cached} (h : m.Atomic key)
    (haction : m.action = .read found) : (Cache.get Backend.operations key m.before).1 = found := by
  rw [Atomic, haction] at h
  exact congrArg Prod.fst h

/-- After a kept write the store holds what was written. -/
theorem Atomic.holds {key : String} {m : Moment ι} {c : Cached} (h : m.Atomic key)
    (haction : m.action = .write c true) : m.after.Holds key c.toEntry := by
  rw [Atomic, haction] at h
  simpa using store_of_put h

/-- After a removal the store holds nothing. -/
theorem Atomic.held_none {key : String} {m : Moment ι} (h : m.Atomic key)
    (haction : m.action = .remove) : m.after.held key = none := by
  rw [Atomic, haction] at h
  rw [← h]
  exact m.before.held_settle_remove key

end Moment

/-- What a client has done in its call once an action follows others. -/
def Action.following (own : List Action) : Action → List Action
  | .start _ => []
  | action => action :: own

/-- Whether what is left to do of a call is justified after some actions of it. -/
def LeftJustified (own : List Action) : Option (Plan (Option Snapshot)) → Prop
  | some p => p.Justified Accounts own
  | none => True

/-- **One step.**  What an accessor does is one operation for which there is
cause, and what is left to do is justified after it. -/
theorem Accessor.justified_step (a : Accessor) {own : List Action}
    {left : Option (Plan (Option Snapshot))} (h : LeftJustified own left) (input : Input) (i : ι)
    (store : Backend) :
    let taken := a.step input store left
    let m : Moment ι := ⟨i, taken.1, store, taken.2.2⟩
    m.Atomic a.key ∧ m.Grounded own ∧ LeftJustified (taken.1.following own) taken.2.1 := by
  cases left with
  | none => exact ⟨rfl, trivial, a.justified_plan input.call⟩
  | some p =>
      cases p with
      | done result => exact ⟨rfl, h, trivial⟩
      | read next => exact ⟨rfl, trivial, h _⟩
      | write c next => exact ⟨rfl, ⟨h.1, h.2.1⟩, h.2.2 _⟩
      | remove next => exact ⟨rfl, trivial, h⟩
      | clock next => exact ⟨rfl, trivial, h _⟩
      | request next => exact ⟨rfl, trivial, h _⟩
      | wait delay next => exact ⟨rfl, trivial, h⟩

/-! ### What calls give -/

/-- Whether a snapshot is one that a call may give after the steps `own`. -/
structure Answers (key : String) (own : List (Moment ι)) (snapshot : Snapshot) : Prop where
  /-- What is shown from the cache is, time and records together, what the store
  held at the moment of one of the reads. -/
  shown : snapshot.freshness = .fresh ∨ snapshot.freshness = .stale →
    ∃ m ∈ own, ∃ c, m.action = .read (some c) ∧
      (Cache.get Backend.operations key m.before).1 = some c ∧
      snapshot.records = c.records ∧ snapshot.timestamp = some c.timestamp
  /-- What is shown as fetched is what the one successful request gave, with the
  time at which it was written. -/
  fetched : snapshot.freshness = .fetched →
    (∃ m ∈ own, m.action = .request (.ok snapshot.records)) ∧
    (∀ m ∈ own, ∀ records, m.action = .request (.ok records) → records = snapshot.records) ∧
    ∃ now, snapshot.timestamp = some now ∧ (∃ m ∈ own, m.action = .look now) ∧
      ∃ m ∈ own, ∃ kept, m.action = .write ⟨now, snapshot.records⟩ kept
  /-- Nothing is shown only if there was nothing at any of the reads. -/
  nothing : snapshot.freshness = .unavailable →
    snapshot.records = [] ∧ snapshot.timestamp = none ∧
    ∀ m ∈ own, ∀ found, m.action = .read found →
      (Cache.get Backend.operations key m.before).1 = none

/-- What the actions of a call explain it may give. -/
theorem Explains.answers {key : String} {own : List (Moment ι)} {snapshot : Snapshot}
    (h : Explains (own.map (·.action)) snapshot) (hatomic : ∀ m ∈ own, m.Atomic key) :
    Answers key own snapshot where
  shown := by
    intro hfreshness
    obtain ⟨c, hread, hsame⟩ := h.shown hfreshness
    obtain ⟨m, hm, haction⟩ := List.mem_map.mp hread
    exact ⟨m, hm, c, haction, (hatomic m hm).found haction, hsame⟩
  fetched := by
    intro hfreshness
    obtain ⟨hrequest, honly, now, kept, hlook, hwrite, htime⟩ := h.fetched hfreshness
    refine ⟨List.mem_map.mp hrequest, fun m hm records haction => ?_, now, htime,
      List.mem_map.mp hlook, ?_⟩
    · exact honly records (List.mem_map.mpr ⟨m, hm, haction⟩)
    · obtain ⟨m, hm, haction⟩ := List.mem_map.mp hwrite
      exact ⟨m, hm, kept, haction⟩
  nothing := by
    intro hfreshness
    obtain ⟨hrecords, htime, hreads⟩ := h.nothing hfreshness
    refine ⟨hrecords, htime, fun m hm found haction => ?_⟩
    rw [(hatomic m hm).found haction]
    exact hreads found (List.mem_map.mpr ⟨m, hm, haction⟩)

/-! ### Traces -/

variable [DecidableEq ι]

/-- The actions of a client in its current or last call, the latest first. -/
def ownActions (i : ι) (history : List (Moment ι)) : List Action :=
  (ownMoments i history).map (·.action)

/-- A step adds an action to those of its client. -/
theorem ownActions_cons (i : ι) (m : Moment ι) (earlier : List (Moment ι)) :
    ownActions i (m :: earlier) =
      if m.client = i then m.action.following (ownActions i earlier)
      else ownActions i earlier := by
  rw [ownActions, ownMoments]
  split
  · cases haction : m.action with
    | start call => rfl
    | _ => simp [Action.following, haction, ownActions]
  · rfl

/-- Steps on an initial store that follow one another, the latest first, with
the store after them. -/
inductive Trace (key : String) (initial : Backend) : List (Moment ι) → Backend → Prop
  | nil : Trace key initial [] initial
  | cons {m : Moment ι} {earlier : List (Moment ι)} (before : Trace key initial earlier m.before)
      (atomic : m.Atomic key) (grounded : m.Grounded (ownActions m.client earlier)) :
      Trace key initial (m :: earlier) m.after

/-- Where the entry that a store holds comes from. -/
inductive Origin (key : String) (initial : Backend) (history : List (Moment ι))
    (store : Backend) : Prop
  /-- It has been there from the start. -/
  | initial (same : store.held key = initial.held key)
  /-- There is none, since a client has removed it. -/
  | removed (m : Moment ι) (mem : m ∈ history) (action : m.action = .remove)
      (absent : store.held key = none)
  /-- A client wrote it, with what it has fetched and the time that it has seen
  in the same call. -/
  | written (later : List (Moment ι)) (m : Moment ι) (earlier : List (Moment ι)) (c : Cached)
      (split : history = later ++ m :: earlier) (action : m.action = .write c true)
      (requested : .request (.ok c.records) ∈ ownActions m.client earlier)
      (looked : .look c.timestamp ∈ ownActions m.client earlier)
      (holds : store.Holds key c.toEntry)

/-- One more step that leaves the store as it is does not change where its entry comes from. -/
theorem Origin.cons {key : String} {initial store : Backend} {history : List (Moment ι)}
    (h : Origin key initial history store) (m : Moment ι) :
    Origin key initial (m :: history) store := by
  cases h with
  | initial same => exact .initial same
  | removed n mem action absent => exact .removed n (List.mem_cons_of_mem m mem) action absent
  | written later n earlier c split action requested looked holds =>
      exact .written (m :: later) n earlier c (congrArg (m :: ·) split) action requested looked
        holds

namespace Trace

variable {key : String} {initial store : Backend} {history later earlier : List (Moment ι)}
  {m : Moment ι}

/-- Each step of a trace comes after a trace. -/
theorem cut (h : Trace key initial (later ++ m :: earlier) store) :
    Trace key initial earlier m.before ∧ m.Atomic key ∧
      m.Grounded (ownActions m.client earlier) := by
  induction later generalizing store with
  | nil =>
      cases h with
      | cons before atomic grounded => exact ⟨before, atomic, grounded⟩
  | cons n later ih =>
      cases h with
      | cons before atomic grounded => exact ih before

/-- **The entry.**  It is the initial one, or none after a removal, or exactly
what one client wrote after it had fetched it. -/
theorem origin (h : Trace key initial history store) : Origin key initial history store := by
  induction h with
  | nil => exact .initial rfl
  | @cons m earlier before atomic grounded ih =>
      by_cases hchanges : m.action.Changes
      · cases haction : m.action with
        | write c kept =>
            obtain rfl : kept = true := by
              cases kept with
              | true => rfl
              | false => simp [haction, Action.Changes] at hchanges
            rw [Moment.Grounded, haction] at grounded
            exact .written [] m earlier c rfl haction grounded.1 grounded.2 (atomic.holds haction)
        | remove => exact .removed m List.mem_cons_self haction (atomic.held_none haction)
        | _ => simp [haction, Action.Changes] at hchanges
      · rw [atomic.after_eq hchanges]
        exact ih.cons m

/-- **The last change.**  The store stays as a step has left it until the next
kept write or removal. -/
theorem store_eq (h : Trace key initial (later ++ m :: earlier) store)
    (hlater : ∀ n ∈ later, ¬ n.action.Changes) : store = m.after := by
  induction later generalizing store with
  | nil =>
      cases h with
      | cons => rfl
  | cons n later ih =>
      cases h with
      | cons before atomic grounded =>
          rw [atomic.after_eq (hlater n List.mem_cons_self)]
          exact ih before fun k hk => hlater k (List.mem_cons_of_mem n hk)

end Trace

/-! ### Runs are traces -/

/-- Whether what clients have done so far is a trace, and what they have left to
do is justified after it. -/
structure Consistent (key : String) (initial : Backend) (s : Shared ι) : Prop where
  trace : Trace key initial s.history s.store
  left : ∀ i, LeftJustified (ownActions i s.history) (s.left i)

namespace Clients

variable (clients : Clients ι) (initial : Backend)

/-- Clients start with a store on which nothing has been done. -/
theorem consistent_nil : Consistent clients.key initial (clients.run initial []) where
  trace := .nil
  left := fun _ => trivial

variable {initial}

/-- **One turn** of a client keeps a state consistent. -/
theorem consistent_step {s : Shared ι} (h : Consistent clients.key initial s)
    (turn : ι × Input) : Consistent clients.key initial (clients.step s turn) := by
  obtain ⟨hatomic, hgrounded, hleft⟩ :=
    (clients.accessor turn.1).justified_step (h.left turn.1) turn.2 turn.1 s.store
  rw [clients.sameKey] at hatomic
  refine ⟨.cons h.trace hatomic hgrounded, fun j => ?_⟩
  by_cases hj : turn.1 = j
  · subst hj
    simp only [step, ownActions_cons, if_true]
    exact hleft
  · simp only [step, ownActions_cons, if_neg hj, if_neg (Ne.symm hj)]
    exact h.left j

variable (initial)

/-- **Runs.**  After every schedule the state is consistent. -/
theorem consistent_run (schedule : List (ι × Input)) :
    Consistent clients.key initial (clients.run initial schedule) := by
  induction schedule using List.reverseRecOn with
  | nil => exact clients.consistent_nil initial
  | append_singleton schedule turn ih =>
      rw [run, List.foldl_append]
      exact clients.consistent_step ih turn

/-- Every step of a run is the turn of a client after a beginning of the schedule. -/
theorem run_cut {schedule : List (ι × Input)} {later : List (Moment ι)} {m : Moment ι}
    {earlier : List (Moment ι)}
    (h : (clients.run initial schedule).history = later ++ m :: earlier) :
    ∃ first turn rest, schedule = first ++ turn :: rest ∧ turn.1 = m.client ∧
      (clients.run initial first).history = earlier ∧
      (clients.run initial first).store = m.before ∧
      (clients.run initial (first ++ [turn])).store = m.after := by
  induction schedule using List.reverseRecOn generalizing later with
  | nil => simp [run] at h
  | append_singleton schedule turn ih =>
      have hrun : clients.run initial (schedule ++ [turn]) =
          clients.step (clients.run initial schedule) turn := by
        rw [run, List.foldl_append]
        rfl
      rw [hrun] at h
      cases later with
      | nil =>
          obtain ⟨rfl, rfl⟩ := List.cons.inj h
          exact ⟨schedule, turn, [], rfl, rfl, rfl, rfl, by rw [hrun]; rfl⟩
      | cons n later =>
          obtain ⟨first, turn', rest, hsplit, hmoment⟩ := ih (List.cons.inj h).2
          refine ⟨first, turn', rest ++ [turn], ?_, hmoment⟩
          rw [hsplit, List.append_assoc, List.cons_append]

/-- Clients take their steps in the order of the schedule. -/
theorem clients_run (schedule : List (ι × Input)) :
    (clients.run initial schedule).history.map (·.client) = (schedule.map (·.1)).reverse := by
  induction schedule using List.reverseRecOn with
  | nil => rfl
  | append_singleton schedule turn ih =>
      rw [run, List.foldl_append, List.map_append, List.reverse_append, ← ih]
      rfl

end Clients

/-! ### Schedules -/

/-- Steps of a call are among all steps. -/
theorem mem_of_mem_ownMoments {i : ι} {history : List (Moment ι)} {m : Moment ι}
    (h : m ∈ ownMoments i history) : m ∈ history := by
  induction history with
  | nil => exact h
  | cons n earlier ih =>
      rw [ownMoments] at h
      split at h
      · split at h
        · exact absurd h List.not_mem_nil
        · rcases List.mem_cons.mp h with rfl | h
          · exact List.mem_cons_self
          · exact List.mem_cons_of_mem n (ih h)
      · exact List.mem_cons_of_mem n (ih h)

/-- **Sharing an entry.**  For any number of accessors for the entry of one key,
any store, and any schedule of their steps, during any calls and with any
outcomes of their requests:

* every step is taken in the order of the schedule, and is one operation on the
  store as the steps before it have left it;
* the entry is the initial one, or none after a removal, or exactly what one
  client wrote after it had fetched it in the same call;
* it stays as the last kept write or removal has left it;
* each call answers from what its own steps have found;
* a catalog that the store holds is read back as it was written, if its support
  by browsers has no floating-point numbers and is not nested too deeply. -/
theorem shared_entry_intact (clients : Clients ι) (initial : Backend)
    (schedule : List (ι × Input)) :
    let run := clients.run initial
    let key := clients.key
    let history := (run schedule).history
    let store := (run schedule).store
    history.map (·.client) = (schedule.map (·.1)).reverse ∧
    (∀ later m earlier, history = later ++ m :: earlier → m.Atomic key ∧
      ∃ first turn rest, schedule = first ++ turn :: rest ∧ turn.1 = m.client ∧
        (run first).history = earlier ∧ (run first).store = m.before ∧
        (run (first ++ [turn])).store = m.after) ∧
    Origin key initial history store ∧
    (∀ later m earlier, history = later ++ m :: earlier →
      (∀ n ∈ later, ¬ n.action.Changes) →
        (∀ c, m.action = .write c true → store.Holds key c.toEntry) ∧
        (m.action = .remove → store.held key = none)) ∧
    (∀ later m earlier snapshot, history = later ++ m :: earlier →
      m.action = .finish (some snapshot) →
        Answers key (ownMoments m.client earlier) snapshot) ∧
    ∀ c, store.Holds key c.toEntry →
      (∀ r ∈ c.records, ∀ v ∈ r.browserSupport, Json.Plain 124 v) →
        (Cache.get Backend.operations key store).1 = some c := by
  intro run key history store
  have htrace : Trace key initial history store := (clients.consistent_run initial schedule).trace
  have hcut : ∀ {later m earlier}, history = later ++ m :: earlier →
      Trace key initial earlier m.before ∧ m.Atomic key ∧
        m.Grounded (ownActions m.client earlier) := fun hsplit => (hsplit ▸ htrace).cut
  refine ⟨clients.clients_run initial schedule, fun later m earlier hsplit => ?_, htrace.origin,
    fun later m earlier hsplit hlater => ?_, fun later m earlier snapshot hsplit haction => ?_,
    fun c hholds hplain => ?_⟩
  · exact ⟨(hcut hsplit).2.1, clients.run_cut initial hsplit⟩
  · have hstore : store = m.after := (hsplit ▸ htrace).store_eq hlater
    rw [hstore]
    exact ⟨fun c haction => (hcut hsplit).2.1.holds haction, (hcut hsplit).2.1.held_none⟩
  · obtain ⟨hbefore, -, hgrounded⟩ := hcut hsplit
    rw [Moment.Grounded, haction] at hgrounded
    refine Explains.answers hgrounded fun n hn => ?_
    obtain ⟨later', earlier', hsplit'⟩ := List.append_of_mem (mem_of_mem_ownMoments hn)
    exact (hsplit' ▸ hbefore).cut.2.1
  · exact get_of_holds hholds
      (Backend.preserves_of_plain (FeatureRecord.plain_listToJson hplain) store)

/-- Two clients refresh at the same time, and the one that writes last prevails. -/
example :
    let clients : Clients Bool := ⟨"k", fun _ => ⟨"k", 1000, 1, 0, true⟩, fun _ => rfl⟩
    let turn (i : Bool) : Bool × Input :=
      (i, ⟨.refresh, cond i 1 2, .ok [.ofParts (cond i "a" "b") "" none]⟩)
    let order := [true, false, true, false, true, false, false, false, true, true]
    (clients.run (.memory {}) (order.map turn)).store.held "k" =
      some (.inl (Cached.toEntry ⟨1, [.ofParts "a" "" none]⟩)) := rfl

end WebBaseline.Catalog
