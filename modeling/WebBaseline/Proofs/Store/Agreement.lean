import WebBaseline.Proofs.Store.ReadBack
import WebBaseline.Store.Archive

/-!
# Stores agree

Memory keeps entries, and a table keeps the texts of their values with
checksums, which it checks when it reads.  Whatever is asked of them, both
answer alike: with the entry that was written last under a key and not removed
since.  A table may be closed and opened again at any time.

* `Step`, `lastEntry`, `answers` — what may be asked, and what is answered;
* `ofFile_archive` — a table is opened as it was closed;
* `Shows.perform` — one step of a store that shows some contents;
* `Shows.run` — sequences of steps;
* `stores_agree` — both kinds of stores, for every sequence of steps.
-/

namespace WebBaseline.Store

/-! ### Steps and their answers -/

/-- Whether an entry is one that every store keeps: its time has 64 bits, its
value has no floating-point numbers and is nested at most 127 levels. -/
structure Entry.Storable (e : Entry) : Prop where
  low : -Bound.signed64 ≤ e.timestamp
  high : e.timestamp < Bound.signed64
  plain : Json.Plain 127 e.data

/-- What may be done with a store. -/
inductive Step where
  | get (key : String)
  | put (key : String) (e : Entry)
  | remove (key : String)
  /-- Close the store and open it again, if it is in a file. -/
  | reopen

/-- What a store answers. -/
inductive Answer where
  | entry (found : Option Entry)
  | done

namespace Step

/-- Whether a step writes what every store keeps. -/
def Storable : Step → Prop
  | put _ e => e.Storable
  | get _ | remove _ | reopen => True

/-- What a step leaves under a key, if it has to do with that. -/
def leaves? (key : String) : Step → Option (Option Entry)
  | put k e => if k = key then some (some e) else none
  | remove k => if k = key then some none else none
  | get _ | reopen => none

end Step

/-- The entry under a key after steps on an empty store: what the last step
that has to do with the key leaves. -/
def lastEntry (steps : List Step) (key : String) : Option Entry :=
  (steps.reverse.findSome? (Step.leaves? key)).getD none

/-- The answer to a step if the store has some contents. -/
def answerOf (contents : String → Option Entry) : Step → Answer
  | .get key => .entry (contents key)
  | .put _ _ | .remove _ | .reopen => .done

/-- The answers to steps on an empty store. -/
def answers (steps : List Step) : List Answer :=
  steps.mapIdx fun i step => answerOf (lastEntry (steps.take i)) step

/-- A further step leaves something under a key, or what was there before. -/
theorem lastEntry_append_singleton (steps : List Step) (step : Step) (key : String) :
    lastEntry (steps ++ [step]) key = (step.leaves? key).getD (lastEntry steps key) := by
  rw [lastEntry, List.reverse_append, List.reverse_singleton, List.singleton_append,
    List.findSome?_cons]
  cases step.leaves? key <;> rfl

namespace Backend

/-- Close a store and open it again.  Memory lasts as long as it is used. -/
def reopen : Backend → Except Error Backend
  | table t => (Table.ofFile t.archive).map table
  | b => .ok b

/-- Carry out a step. -/
def perform (b : Backend) : Step → Except Error Answer × Backend
  | .get key => ((b.get key).map .entry, b)
  | .put key e =>
    let (outcome, after) := b.settle (b.put key e); (outcome.map fun _ => .done, after)
  | .remove key =>
    let (outcome, after) := b.settle (b.remove key); (outcome.map fun _ => .done, after)
  | .reopen => let (outcome, after) := b.settle b.reopen; (outcome.map fun _ => .done, after)

/-- Carry out steps, and collect the answers. -/
def run : List Step → Backend → List (Except Error Answer) × Backend
  | [], b => ([], b)
  | step :: rest, b =>
    let (answer, after) := b.perform step
    let (more, last) := run rest after
    (answer :: more, last)

end Backend

/-! ### Exact rows -/

/-- Whether a cell is read back from the text that it is kept as: it holds no
floating-point number, and its integer has 64 bits. -/
def Cell.Exact : Cell → Prop
  | integer i => -Bound.signed64 ≤ i ∧ i < Bound.signed64
  | double _ => False
  | nothing | text _ | bytes _ => True

/-- Whether all cells of a row are exact. -/
structure Row.Exact (r : Row) : Prop where
  timestamp : r.timestamp.Exact
  payload : r.payload.Exact
  checksum : r.checksum.Exact

/-- The text of an exact cell determines it. -/
theorem Cell.Exact.plain {c : Cell} (h : c.Exact) {levels : Nat} :
    Json.Plain (levels + 1) c.toJson := by
  cases c with
  | nothing => exact .null
  | integer i => exact .integer h.1 (Int.lt_trans h.2 (by decide))
  | double x => exact h.elim
  | text s => exact .text s
  | bytes value =>
      refine .array fun v hv => ?_
      obtain ⟨b, -, rfl⟩ := List.mem_map.mp hv
      have hlt : b.toNat < UInt8.size := b.toNat_lt_size
      have hsize : (UInt8.size : Int) < Bound.unsigned64 := by decide
      exact .integer (Int.le_trans (by decide) (Int.natCast_nonneg _)) (by omega)

/-- The row of an entry is exact if its time has 64 bits, whatever its value is. -/
theorem Table.exact_rowOf (key : String) {e : Entry} (hlow : -Bound.signed64 ≤ e.timestamp)
    (hhigh : e.timestamp < Bound.signed64) : (Table.rowOf key e).Exact where
  timestamp := ⟨hlow, hhigh⟩
  payload := trivial
  checksum := trivial

/-! ### Sound tables -/

/-- Whether rows are those of a table that nobody else has changed: one for a
key, each made from an entry. -/
structure SoundRows (rows : List Row) : Prop where
  distinct : (rows.map (·.key)).Nodup
  written : ∀ r ∈ rows, ∃ e : Entry, e.Storable ∧ r = Table.rowOf r.key e

namespace SoundRows

variable {rows : List Row} (h : SoundRows rows)
include h

/-- Some rows of a sound table are sound. -/
theorem filter (p : Row → Bool) : SoundRows (rows.filter p) where
  distinct := h.distinct.sublist (List.filter_sublist.map _)
  written := fun r hr => h.written r (List.mem_filter.mp hr).1

/-- A row for an entry in place of those of its key keeps a table sound. -/
theorem replaced (key : String) {e : Entry} (he : e.Storable) :
    SoundRows (rows.filter (·.key != key) ++ [Table.rowOf key e]) where
  distinct := by
    rw [List.map_append, List.map_singleton, List.nodup_append]
    refine ⟨(h.filter _).distinct, List.pairwise_singleton _ _, ?_⟩
    intro a ha b hb
    obtain ⟨r, hr, rfl⟩ := List.mem_map.mp ha
    obtain rfl := List.mem_singleton.mp hb
    simpa using (List.mem_filter.mp hr).2
  written := by
    intro r hr
    rcases List.mem_append.mp hr with hr | hr
    · exact h.written r (List.mem_filter.mp hr).1
    · obtain rfl := List.mem_singleton.mp hr
      exact ⟨e, he, rfl⟩

/-- The rows of a sound table are exact. -/
theorem exact : ∀ r ∈ rows, r.Exact := by
  intro r hr
  obtain ⟨e, he, hrow⟩ := h.written r hr
  rw [hrow]
  exact Table.exact_rowOf r.key he.low he.high

end SoundRows

/-- The text that exact rows are kept as determines them. -/
theorem plain_array {rows : List Row} (h : ∀ r ∈ rows, r.Exact) :
    Json.Plain 127 (.array (rows.map Row.toJson)) := by
  apply Json.Plain.array
  intro v hv
  obtain ⟨r, hr, rfl⟩ := List.mem_map.mp hv
  apply Json.Plain.array
  simp only [List.forall_mem_cons, List.not_mem_nil, false_imp_iff, implies_true, and_true]
  exact ⟨.text r.key, (h r hr).timestamp.plain, (h r hr).payload.plain, (h r hr).checksum.plain⟩

/-- **Opening again.**  A table of exact rows is opened as it was closed. -/
theorem Table.ofFile_archive {rows : List Row} (h : ∀ r ∈ rows, r.Exact) :
    Table.ofFile (Table.archive ⟨some rows⟩) = .ok ⟨some rows⟩ := by
  have hparse : Json.parse (Table.archive ⟨some rows⟩) = .ok (.array (rows.map Row.toJson)) :=
    Json.parse_compact (plain_array h)
  have hnonempty : (Table.archive ⟨some rows⟩).isEmpty = false := by
    simp [Table.archive, Json.compact]
  simp only [Table.ofFile, hnonempty, Table.ofArchive?, hparse,
    mapM_map_eq_some Row.ofJson?_toJson]
  rfl

/-! ### Stores that show some contents -/

namespace Backend

/-- Whether a store is as its own operations leave it. -/
def Sound : Backend → Prop
  | memory _ => True
  | table t => ∃ rows, t = ⟨some rows⟩ ∧ SoundRows rows
  | broken => False

/-- Whether a store that nobody else has changed has some contents. -/
structure Shows (contents : String → Option Entry) (b : Backend) : Prop where
  get : ∀ key, b.get key = .ok (contents key)
  sound : b.Sound

/-- A sound store accepts every entry that stores keep. -/
theorem Sound.put {b : Backend} (h : b.Sound) (key : String) {e : Entry} (he : e.Storable) :
    ∃ after, b.put key e = .ok after ∧ after.Sound ∧ after.Preserves e.data := by
  cases b with
  | memory m => exact ⟨memory (m.put key e), rfl, trivial, trivial⟩
  | table t =>
      obtain ⟨rows, rfl, hrows⟩ := h
      exact ⟨_, rfl, ⟨_, rfl, hrows.replaced key he⟩, Json.parse_compact he.plain⟩
  | broken => exact h.elim

/-- A sound store removes every key. -/
theorem Sound.remove {b : Backend} (h : b.Sound) (key : String) :
    ∃ after, b.remove key = .ok after ∧ after.Sound := by
  cases b with
  | memory m => exact ⟨memory (m.remove key), rfl, trivial⟩
  | table t =>
      obtain ⟨rows, rfl, hrows⟩ := h
      exact ⟨_, rfl, _, rfl, hrows.filter _⟩
  | broken => exact h.elim

/-- A sound store is opened as it was closed. -/
theorem Sound.reopen {b : Backend} (h : b.Sound) : b.reopen = .ok b := by
  cases b with
  | memory m => rfl
  | table t =>
      obtain ⟨rows, rfl, hrows⟩ := h
      rw [Backend.reopen, Table.ofFile_archive hrows.exact]
      rfl
  | broken => exact h.elim

/-- Removing what a sound store does not have leaves it as it is. -/
theorem Sound.remove_absent {b : Backend} (h : b.Sound) {key : String}
    (habsent : b.get key = .ok none) : b.remove key = .ok b := by
  cases b with
  | memory m =>
      have hnone : m.get key = none := Except.ok.inj habsent
      have hkeep : m.entries.filter (·.1 != key) = m.entries := by
        rw [List.filter_eq_self]
        intro p hp
        have hall := List.find?_eq_none.mp (Option.map_eq_none_iff.mp hnone) p hp
        simpa using hall
      rw [Backend.remove, Memory.remove, hkeep]
  | table t =>
      obtain ⟨rows, rfl, hrows⟩ := h
      have hkeep : rows.filter (·.key != key) = rows := by
        rw [List.filter_eq_self]
        intro r hr
        cases hfind : rows.find? (·.key == key) with
        | none =>
            have hall := List.find?_eq_none.mp hfind r hr
            simpa using hall
        | some found =>
            obtain ⟨e, he, hrow⟩ := hrows.written found (List.mem_of_find?_eq_some hfind)
            have hread : Table.readRow found = .ok e :=
              hrow ▸ Table.readRow_rowOf (Json.parse_compact he.plain)
            simp [Backend.get, Table.get, hfind, hread, Except.map] at habsent
      simp only [Backend.remove, Table.remove, hkeep]
      rfl
  | broken => exact h.elim

/-- **One step.**  A store that shows some contents answers from them, and then
shows what the step leaves. -/
theorem Shows.perform {contents : String → Option Entry} {b : Backend} (h : b.Shows contents)
    {step : Step} (hstep : step.Storable) :
    ∃ after, b.perform step = (.ok (answerOf contents step), after) ∧
      after.Shows fun key => (step.leaves? key).getD (contents key) := by
  cases step with
  | get key => exact ⟨b, by rw [Backend.perform, h.get]; rfl, h⟩
  | put key e =>
      obtain ⟨after, hput, hsound, hvalue⟩ := h.sound.put key hstep
      refine ⟨after, by rw [Backend.perform, hput]; rfl, fun other => ?_, hsound⟩
      by_cases hother : other = key
      · subst hother
        rw [get_of_put hput hvalue]
        simp [Step.leaves?]
      · rw [get_of_put_other hput hother, h.get]
        simp [Step.leaves?, Ne.symm hother]
  | remove key =>
      obtain ⟨after, hremove, hsound⟩ := h.sound.remove key
      refine ⟨after, by rw [Backend.perform, hremove]; rfl, fun other => ?_, hsound⟩
      rw [get_of_remove hremove, h.get]
      by_cases hother : other = key
      · subst hother
        simp [Step.leaves?]
      · simp [Step.leaves?, hother, Ne.symm hother]
  | reopen => exact ⟨b, by rw [Backend.perform, h.sound.reopen]; rfl, h⟩

/-- **Runs.**  After some steps a store that shows what they leave answers
further ones as the steps before them say. -/
theorem Shows.run {before steps : List Step} {b : Backend} (h : b.Shows (lastEntry before))
    (hsteps : ∀ step ∈ steps, step.Storable) :
    ∃ after, b.run steps = ((steps.mapIdx fun i step =>
        answerOf (lastEntry (before ++ steps.take i)) step).map .ok, after) ∧
      after.Shows (lastEntry (before ++ steps)) := by
  induction steps generalizing before b with
  | nil =>
      refine ⟨b, rfl, ?_⟩
      rwa [List.append_nil]
  | cons step rest ih =>
      obtain ⟨after, hperform, hshows⟩ := h.perform (hsteps step List.mem_cons_self)
      have hnext : after.Shows (lastEntry (before ++ [step])) := by
        have hcontents : lastEntry (before ++ [step]) =
            fun key => (step.leaves? key).getD (lastEntry before key) :=
          funext (lastEntry_append_singleton before step)
        rwa [hcontents]
      obtain ⟨last, hrun, hlast⟩ := ih hnext fun s hs => hsteps s (List.mem_cons_of_mem step hs)
      refine ⟨last, ?_, ?_⟩
      · rw [Backend.run, hperform]
        simp [hrun]
      · simpa using hlast

/-- An operation of a table that succeeds leaves a table. -/
theorem name_map_table {outcome : Except Error Table} {after : Backend}
    (h : outcome.map table = .ok after) : after.name = "sqlite" := by
  cases outcome with
  | ok t => obtain rfl := Except.ok.inj h; rfl
  | error e => cases h

/-- Whether it succeeds or not, an operation that keeps the kind of a store does so. -/
theorem name_settle {b : Backend} {outcome : Except Error Backend}
    (h : ∀ after, outcome = .ok after → after.name = b.name) :
    (b.settle outcome).2.name = b.name := by
  cases outcome with
  | ok after => exact h after rfl
  | error e => rfl

/-- A step does not change the kind of a store. -/
theorem name_perform (b : Backend) (step : Step) : (b.perform step).2.name = b.name := by
  cases step with
  | get key => rfl
  | put key e =>
      refine name_settle fun after hput => ?_
      cases b with
      | memory m => obtain rfl := Except.ok.inj hput; rfl
      | table t => exact name_map_table hput
      | broken => cases hput
  | remove key =>
      refine name_settle fun after hremove => ?_
      cases b with
      | memory m => obtain rfl := Except.ok.inj hremove; rfl
      | table t => exact name_map_table hremove
      | broken => cases hremove
  | reopen =>
      refine name_settle fun after hreopen => ?_
      cases b with
      | table t => exact name_map_table hreopen
      | memory m => obtain rfl := Except.ok.inj hreopen; rfl
      | broken => obtain rfl := Except.ok.inj hreopen; rfl

/-- Nor do several. -/
theorem name_run (b : Backend) (steps : List Step) : (b.run steps).2.name = b.name := by
  induction steps generalizing b with
  | nil => rfl
  | cons step rest ih => exact (ih _).trans (name_perform b step)

/-- What is true of a store after some steps on an empty one, whatever is done next. -/
structure Reflects (steps : List Step) (b : Backend) : Prop where
  /-- Reading finds what was written last and not removed since, and never fails. -/
  get : ∀ key, b.get key = .ok (lastEntry steps key)
  /-- Writing replaces the entry of its key and no other. -/
  put : ∀ key e, e.Storable → ∃ after, b.put key e = .ok after ∧
    after.get key = .ok (some e) ∧ ∀ other, other ≠ key → after.get other = b.get other
  /-- Removing loses the entry of its key and no other, and does nothing if there is none. -/
  remove : ∀ key, ∃ after, b.remove key = .ok after ∧
    after.get key = .ok none ∧ (∀ other, other ≠ key → after.get other = b.get other) ∧
    (lastEntry steps key = none → after = b)
  /-- Opening again changes nothing. -/
  reopen : b.reopen = .ok b

/-- A store that shows what steps leave reflects them. -/
theorem Shows.reflects {steps : List Step} {b : Backend} (h : b.Shows (lastEntry steps)) :
    b.Reflects steps where
  get := h.get
  put := by
    intro key e he
    obtain ⟨after, hput, -, hvalue⟩ := h.sound.put key he
    exact ⟨after, hput, get_of_put hput hvalue, fun other hother => get_of_put_other hput hother⟩
  remove := by
    intro key
    obtain ⟨after, hremove, -⟩ := h.sound.remove key
    refine ⟨after, hremove, ?_, fun other hother => ?_, fun habsent => ?_⟩
    · rw [get_of_remove hremove, if_pos rfl]
    · rw [get_of_remove hremove, if_neg hother]
    · have hsame := h.sound.remove_absent ((h.get key).trans (congrArg Except.ok habsent))
      exact Except.ok.inj (hremove.symm.trans hsame)
  reopen := h.sound.reopen

end Backend

/-- **Stores agree.**  For every sequence of steps, with any keys and any
entries that stores keep, memory and a table that start empty:

* give the same answers, none of which is a failure: under each key the entry
  that was written last and not removed since is found;
* then still do, and writing, removing and opening again change nothing else;
* the table has one row for a key at most, and each row has the checksum of its payload. -/
theorem stores_agree (steps : List Step) (hsteps : ∀ step ∈ steps, step.Storable) :
    let memory := (Backend.memory {}).run steps
    let table := (Backend.table {}).run steps
    memory.1 = (answers steps).map .ok ∧ table.1 = (answers steps).map .ok ∧
    memory.2.Reflects steps ∧ table.2.Reflects steps ∧
    ∃ rows, table.2 = .table ⟨some rows⟩ ∧ (rows.map (·.key)).Nodup ∧
      ∀ r ∈ rows, ∃ payload, r.payload = .text payload ∧
        r.checksum = .text (Digest.sha256 payload) := by
  intro memory table
  have hmemory : (Backend.memory {}).Shows (lastEntry []) := ⟨fun key => rfl, trivial⟩
  have htable : (Backend.table {}).Shows (lastEntry []) :=
    ⟨fun key => rfl, [], rfl, List.Pairwise.nil, fun r hr => absurd hr List.not_mem_nil⟩
  obtain ⟨after, hrun, hshows⟩ := hmemory.run hsteps
  obtain ⟨after', hrun', hshows'⟩ := htable.run hsteps
  have hanswers : memory = ((answers steps).map .ok, after) := hrun
  have hanswers' : table = ((answers steps).map .ok, after') := hrun'
  have hname : after'.name = "sqlite" :=
    (congrArg (·.2.name) hrun').symm.trans (Backend.name_run _ steps)
  rw [hanswers, hanswers']
  refine ⟨rfl, rfl, hshows.reflects, hshows'.reflects, ?_⟩
  cases after' with
  | table t =>
      obtain ⟨rows, rfl, hrows⟩ := hshows'.sound
      refine ⟨rows, rfl, hrows.distinct, fun r hr => ?_⟩
      obtain ⟨e, -, hrow⟩ := hrows.written r hr
      rw [hrow]
      exact ⟨_, rfl, rfl⟩
  | memory m => simp [Backend.name] at hname
  | broken => simp [Backend.name] at hname

/-- Entries that are written over, removed and read again, with the table opened in between. -/
theorem stores_agree_overwritten :
    let first : Entry := ⟨7, .text "v"⟩
    let second : Entry := ⟨8, .array [.integer 1, .null]⟩
    let steps := [Step.put "a" first, .put "b" first, .reopen, .put "a" second, .remove "b",
      .remove "c", .reopen, .get "a", .get "b"]
    (∀ step ∈ steps, step.Storable) ∧
    ((Backend.memory {}).run steps).1 = ((Backend.table {}).run steps).1 ∧
    ((Backend.table {}).run steps).1 =
      [.ok .done, .ok .done, .ok .done, .ok .done, .ok .done, .ok .done, .ok .done,
        .ok (.entry (some second)), .ok (.entry none)] := by
  intro first second steps
  have hfirst : first.Storable := ⟨by decide, by decide, .text "v"⟩
  have hsecond : second.Storable := by
    refine ⟨by decide, by decide, .array ?_⟩
    simp only [List.forall_mem_cons, List.not_mem_nil, false_imp_iff, implies_true, and_true]
    exact ⟨.integer (by decide) (by decide), .null⟩
  have hsteps : ∀ step ∈ steps, step.Storable := by
    simp [steps, Step.Storable, hfirst, hsecond]
  obtain ⟨hmemory, htable, -⟩ := stores_agree steps hsteps
  exact ⟨hsteps, hmemory.trans htable.symm, htable.trans rfl⟩

end WebBaseline.Store
