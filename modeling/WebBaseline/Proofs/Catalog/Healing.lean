import WebBaseline.Proofs.Catalog.Endings
import WebBaseline.Proofs.Catalog.Rows
import WebBaseline.Proofs.Catalog.Session

/-!
# Damaged rows

Others may change a row of the table as they like.  Reading it notices every
change that the checksum does not go with; what is left then counts as nothing,
so it is never shown, and the next success of a request puts a sound row in its
place.

* `Content`, `checked_get` — what a look at a row says, check by check;
* `KeepsTables` — what others may do to a table while a request is under way;
* `Mended`, `mended_of_ending` — what one run shows, and what it leaves;
* `damaged_rows_heal` — all rows, and all runs;
* `not_read_back` — numbers that a table does not give back as they are.
-/

namespace WebBaseline.Catalog

open Store Surroundings

/-! ### Looking at a row -/

/-- What a row with columns of the table's types holds. -/
structure Content where
  timestamp : Int
  payload : String
  checksum : String

namespace Content

/-- The row of a key with a content. -/
def row (key : String) (c : Content) : Row :=
  ⟨key, .integer c.timestamp, .text c.payload, .text c.checksum⟩

/-- Whether the checksum is that of the payload. -/
def Intact (c : Content) : Prop := c.checksum = Digest.sha256 c.payload

end Content

/-- Whether a look under a key has said what there is to say of a content: the checksum is checked
first, and then the text. -/
structure Checked (key : String) (content : Content)
    (outcome : Except Store.Error (Option Entry)) : Prop where
  corrupted : ∀ e, outcome = .error e ∧ e.kind = .corrupted ↔
    ¬ content.Intact ∧ e = .corrupted key
  unreadable : ∀ e, outcome = .error e ∧ e.kind = .serialization ↔
    content.Intact ∧ ∃ fault, Json.parse content.payload = .error fault ∧ e = .ofJsonError fault
  entry : ∀ found, outcome = .ok found ↔ content.Intact ∧
    ∃ data, Json.parse content.payload = .ok data ∧ found = some ⟨content.timestamp, data⟩

namespace Checked

variable {key : String} {content : Content}

/-- A checksum of something else. -/
theorem of_not_intact (h : ¬ content.Intact) : Checked key content (.error (.corrupted key)) where
  corrupted := by
    intro e
    constructor
    · rintro ⟨heq, -⟩
      exact ⟨h, (Except.error.inj heq).symm⟩
    · rintro ⟨-, rfl⟩
      exact ⟨rfl, rfl⟩
  unreadable := by
    intro e
    constructor
    · rintro ⟨heq, hkind⟩
      obtain rfl := Except.error.inj heq
      exact ErrorKind.noConfusion hkind
    · exact fun hintact => absurd hintact.1 h
  entry := fun _ => ⟨nofun, fun hintact => absurd hintact.1 h⟩

/-- A payload that is no text of a value. -/
theorem of_unreadable (h : content.Intact) {fault : Json.SyntaxError}
    (hparse : Json.parse content.payload = .error fault) :
    Checked key content (.error (.ofJsonError fault)) where
  corrupted := by
    intro e
    constructor
    · rintro ⟨heq, hkind⟩
      obtain rfl := Except.error.inj heq
      exact ErrorKind.noConfusion hkind
    · exact fun hdamaged => absurd h hdamaged.1
  unreadable := by
    intro e
    constructor
    · rintro ⟨heq, -⟩
      exact ⟨h, fault, hparse, (Except.error.inj heq).symm⟩
    · rintro ⟨-, other, hother, rfl⟩
      obtain rfl := Except.error.inj (hparse.symm.trans hother)
      exact ⟨rfl, rfl⟩
  entry := by
    refine fun _ => ⟨nofun, ?_⟩
    rintro ⟨-, data, hdata, -⟩
    rw [hparse] at hdata
    exact absurd hdata nofun

/-- The text of a value. -/
theorem of_readable (h : content.Intact) {data : Json}
    (hparse : Json.parse content.payload = .ok data) :
    Checked key content (.ok (some ⟨content.timestamp, data⟩)) where
  corrupted := fun _ => ⟨fun herror => absurd herror.1 nofun, fun hdamaged => absurd h hdamaged.1⟩
  unreadable := by
    refine fun _ => ⟨fun herror => absurd herror.1 nofun, ?_⟩
    rintro ⟨-, fault, hfault, -⟩
    rw [hparse] at hfault
    exact absurd hfault nofun
  entry := by
    intro found
    constructor
    · intro heq
      exact ⟨h, data, hparse, (Except.ok.inj heq).symm⟩
    · rintro ⟨-, other, hother, rfl⟩
      obtain rfl := Except.ok.inj (hparse.symm.trans hother)
      rfl

end Checked

/-- **Looking at a row.**  Each kind of outcome has exactly its cause. -/
theorem checked_readRow (key : String) (content : Content) :
    Checked key content ((Table.readRow (content.row key)).map some) := by
  by_cases hintact : content.Intact
  · have hsum : Digest.sha256 content.payload = content.checksum := hintact.symm
    simp only [Table.readRow, Content.row, hsum, if_true]
    cases hparse : Json.parse content.payload with
    | error fault => exact .of_unreadable hintact hparse
    | ok data => exact .of_readable hintact hparse
  · have hsum : ¬ Digest.sha256 content.payload = content.checksum := fun h => hintact h.symm
    simp only [Table.readRow, Content.row, if_neg hsum]
    exact .of_not_intact hintact

/-- So it is with the row that a table finds; the look leaves the table as it is. -/
theorem checked_get {rows : List Row} {key : String} {content : Content}
    (hfound : rows.find? (·.key == key) = some (content.row key)) :
    let got := Backend.operations.get key (.table ⟨some rows⟩)
    Checked key content got.1 ∧ got.2 = .table ⟨some rows⟩ := by
  have hget : Table.get ⟨some rows⟩ key = (Table.readRow (content.row key)).map some := by
    simp only [Table.get, hfound]
  refine ⟨?_, rfl⟩
  change Checked key content (Table.get ⟨some rows⟩ key)
  rw [hget]
  exact checked_readRow key content

/-! ### Runs on a table -/

/-- Whether others leave the table in its place; they may change its rows as they like. -/
def Surroundings.KeepsTables (env : Surroundings Backend) : Prop :=
  ∀ i rows, ∃ after, (env.turns i).meanwhile (.table ⟨some rows⟩) = .table ⟨some after⟩

/-- After turns of others there is still a table. -/
theorem Surroundings.KeepsTables.disturbed {env : Surroundings Backend} (h : env.KeepsTables)
    (count number : Nat) (rows : List Row) :
    ∃ after, env.disturbed number count (.table ⟨some rows⟩) = .table ⟨some after⟩ := by
  induction count generalizing number rows with
  | zero => exact ⟨rows, rfl⟩
  | succ count ih =>
      obtain ⟨after, hafter⟩ := h number rows
      rw [Surroundings.disturbed, hafter]
      exact ih (number + 1) after

/-- Whether the row of a key holds a catalog. -/
def HoldsUnder (rows : List Row) (key : String) (c : Cached) : Prop :=
  ∃ row, rows.find? (·.key == key) = some row ∧ row.Holds c

/-- Whether a text is read as a list of records. -/
def ReadsAs (payload : String) (records : List FeatureRecord) : Prop :=
  ∃ data, Json.parse payload = .ok data ∧ FeatureRecord.listOfJson data = .ok records

/-- What a run on a table shows and leaves; `rows` are those before it and `last` those after it. -/
structure Mended (key : String) (rows last : List Row) (snapshot : Snapshot) : Prop where
  /-- What is fresh is in a sound row. -/
  fresh : snapshot.freshness = .fresh → ∃ c, HoldsUnder rows key c ∧
    snapshot.records = c.records ∧ snapshot.timestamp = some c.timestamp
  /-- What stands in is in a sound row too, which others may have left. -/
  stale : snapshot.freshness = .stale → ∃ c, (HoldsUnder last key c ∨ HoldsUnder rows key c) ∧
    snapshot.records = c.records ∧ snapshot.timestamp = some c.timestamp
  /-- Otherwise there are no records. -/
  unavailable : snapshot.freshness = .unavailable → snapshot.records = []
  /-- What was fetched is in the one row of the key, with its checksum. -/
  fetched : snapshot.freshness = .fetched → ∃ now, snapshot.timestamp = some now ∧
    let payload := (FeatureRecord.listToJson snapshot.records).compact
    let found := (Cache.get Backend.operations key (.table ⟨some last⟩)).1
    last.filter (·.key == key) = [Content.row key ⟨now, payload, Digest.sha256 payload⟩] ∧
    (found = some ⟨now, snapshot.records⟩ ↔ ReadsAs payload snapshot.records) ∧
    (Json.Plain 127 (FeatureRecord.listToJson snapshot.records) → ReadsAs payload snapshot.records)

/-- Writing a catalog leaves its row as the only one of the key. -/
theorem put_table (key : String) (c : Cached) (rows : List Row) :
    ∃ last, (Cache.put Backend.operations key c (.table ⟨some rows⟩)).2 = .table ⟨some last⟩ ∧
      last.filter (·.key == key) = [Table.rowOf key c.toEntry] := by
  refine ⟨_, rfl, ?_⟩
  have hothers : ∀ row ∈ rows.filter (·.key != key), ¬ (row.key == key) = true := by
    intro row hrow
    simpa using (List.mem_filter.mp hrow).2
  rw [List.filter_append, List.filter_eq_nil_iff.mpr hothers]
  simp [Table.rowOf]

/-- The cache finds a catalog in the only row of its key if its text is read as it. -/
theorem get_of_filter_eq {rows : List Row} {key : String} {c : Cached}
    (hrows : rows.filter (·.key == key) = [Table.rowOf key c.toEntry]) :
    (Cache.get Backend.operations key (.table ⟨some rows⟩)).1 = some c ↔
      ReadsAs (FeatureRecord.listToJson c.records).compact c.records := by
  have hfound : rows.find? (·.key == key) = some (Table.rowOf key c.toEntry) := by
    rw [← List.head?_filter, hrows, List.head?_cons]
  rw [get_table_eq_some_iff, hfound]
  constructor
  · rintro ⟨_, ⟨⟩, -, hpayload, -, hdata, hrecords⟩
    obtain rfl := Cell.text.inj hpayload
    exact ⟨_, hdata, hrecords⟩
  · rintro ⟨data, hdata, hrecords⟩
    exact ⟨_, rfl, .sound rfl rfl rfl hdata hrecords⟩

/-- The text of records that have no floating-point numbers is read as them. -/
theorem readsAs_compact {records : List FeatureRecord}
    (hplain : Json.Plain 127 (FeatureRecord.listToJson records)) :
    ReadsAs (FeatureRecord.listToJson records).compact records :=
  ⟨_, Json.parse_compact hplain, FeatureRecord.listOfJson_listToJson records⟩

/-- What stands in is what was found at the end, or else at the beginning. -/
theorem mended_fallback {key : String} {rows last : List Row} {entry : Option Cached}
    {error : Option String}
    (hentry : ∀ c, entry = some c → HoldsUnder last key c ∨ HoldsUnder rows key c) :
    Mended key rows last (.fallback entry error) := by
  cases entry with
  | none => exact ⟨nofun, nofun, fun _ => rfl, nofun⟩
  | some c => exact ⟨nofun, fun _ => ⟨c, hentry c rfl, rfl, rfl⟩, nofun, nofun⟩

/-- **One run** on a table: what it shows and leaves.  If nobody else changes the table, then only
a success does. -/
theorem mended_of_ending {env : Surroundings Backend} (hkeeps : env.KeepsTables) {a : Accessor}
    {key : String} {Fresh : Cached → Prop} {now : Int} {rows : List Row}
    {run : Snapshot × Position Backend}
    (h : Ending env a key Fresh now
      (Cache.get Backend.operations key (.table ⟨some rows⟩)).1 (.table ⟨some rows⟩) run) :
    ∃ last, run.2.store = .table ⟨some last⟩ ∧ Mended key rows last run.1 ∧
      (env.Quiet → run.1.freshness ≠ .fetched → last = rows) := by
  rcases h with ⟨c, hfound, -, hgives, -, hstore⟩ | ⟨-, -, j, -, records, -, -, hgives, -, hstore⟩ |
    ⟨-, -, e, -, hgives, -, hstore⟩ | ⟨-, -, hgives, -, hstore⟩
  · refine ⟨rows, hstore, ?_, fun _ _ => rfl⟩
    rw [hgives]
    exact ⟨fun _ => ⟨c, get_table_eq_some_iff.mp hfound, rfl, rfl⟩, nofun, nofun, nofun⟩
  · obtain ⟨after, hafter⟩ := hkeeps.disturbed (j + 1) 0 rows
    obtain ⟨last, hlast, hrow⟩ := put_table key ⟨now, records⟩ after
    rw [hafter, hlast] at hstore
    refine ⟨last, hstore, ?_, fun _ hnot => absurd (by rw [hgives]; rfl) hnot⟩
    rw [hgives]
    exact ⟨nofun, nofun, nofun, fun _ => ⟨now, rfl, hrow, get_of_filter_eq hrow, readsAs_compact⟩⟩
  · obtain ⟨last, hlast⟩ := hkeeps.disturbed (max 1 a.attempts) 0 rows
    refine ⟨last, hstore.trans hlast, ?_, fun hquiet _ => ?_⟩
    · rw [hgives, hstore, hlast]
      refine mended_fallback fun c hc => ?_
      rcases Option.or_eq_some_iff.mp hc with hc | ⟨-, hc⟩
      · exact Or.inl (get_table_eq_some_iff.mp hc)
      · exact Or.inr (get_table_eq_some_iff.mp hc)
    · rw [hquiet.disturbed] at hlast
      simpa using hlast.symm
  · refine ⟨rows, hstore, ?_, fun _ _ => rfl⟩
    rw [hgives]
    exact mended_fallback fun c hc => Or.inr (get_table_eq_some_iff.mp hc)

/-- **Damaged rows.**

* A look under a key whose row has columns of the table's types leaves the table as it is.  It
  reports damage exactly if the checksum is not that of the payload, and else a text that cannot be
  read exactly if the payload is none of JSON; otherwise it gives the value of the payload with the
  time of the row.
* For all settings, all rows, every clock and every sequence of requests, during which others may
  change the rows as they like, a fetch and a refresh show records of a row only if its checksum
  matches and its payload is the text of a list of them.  After a success the row of the key is
  sound.  It is read back as it was fetched exactly if its text is read as the same records; so it
  is if the support by browsers has no floating-point numbers and nothing is nested deeper than is
  read. -/
theorem damaged_rows_heal :
    (∀ (rows : List Row) (key : String) (content : Content),
      rows.find? (·.key == key) = some (content.row key) →
        let got := Backend.operations.get key (.table ⟨some rows⟩)
        Checked key content got.1 ∧ got.2 = .table ⟨some rows⟩) ∧
    ∀ (settings : CatalogSettings) (online anew : Bool) (env : Surroundings Backend)
      (rows : List Row), env.KeepsTables →
        let key := keyOf settings
        let a := Accessor.ofSettings settings online
        let run := (if anew then a.refresh else a.fetch).run (env.host Backend.operations) key
          { store := .table ⟨some rows⟩ }
        ∃ last, run.2.store = .table ⟨some last⟩ ∧ Mended key rows last run.1 ∧
          (env.Quiet → run.1.freshness ≠ .fetched → last = rows) := by
  refine ⟨fun rows key content => checked_get, fun settings online anew env rows hkeeps => ?_⟩
  cases anew with
  | false => exact mended_of_ending hkeeps (ending_fetch env _ (keyOf settings) _)
  | true => exact mended_of_ending hkeeps (ending_refresh env _ (keyOf settings) _)

/-- Surroundings in which requests succeed, always at the time 5. -/
def succeeding (records : List FeatureRecord) : Surroundings Backend :=
  ⟨fun _ => 5, fun _ => ⟨id, .ok records⟩⟩

/-- A row whose checksum was lost, and a fetch that puts another in its place. -/
theorem damaged_rows_heal_without_checksum :
    let content : Content := ⟨4, "[]", ""⟩
    let before : Backend := .table ⟨some [content.row (keyOf {})]⟩
    let records : List FeatureRecord := [.ofParts "api-fetch" "fetch" (some "wide")]
    let run := (Accessor.ofSettings {} true).fetch.run
      ((succeeding records).host Backend.operations) (keyOf {}) { store := before }
    Backend.operations.get (keyOf {}) before = (.error (.corrupted (keyOf {})), before) ∧
    run.1 = ⟨records, .fetched, some 5, none⟩ ∧
    (Cache.get Backend.operations (keyOf {}) run.2.store).1 = some ⟨5, records⟩ := by
  intro content before records run
  obtain ⟨hlook, hmend⟩ := damaged_rows_heal
  obtain ⟨hchecked, hsame⟩ := hlook [content.row (keyOf {})] (keyOf {}) content
    (List.find?_cons_of_pos (beq_self_eq_true _))
  have hdamaged : ¬ content.Intact := by
    change ¬ ("" = Digest.sha256 "[]")
    decide +kernel
  have hget : (Backend.operations.get (keyOf {}) before).1 = .error (.corrupted (keyOf {})) :=
    ((hchecked.corrupted _).mpr ⟨hdamaged, rfl⟩).1
  have hnothing : (Cache.get Backend.operations (keyOf {}) before).1 = none :=
    congrArg Cache.cached? hget
  have hgives : run.1 = .ofFetched ⟨5, records⟩ := by
    have hrun := (succeeding records).run_fetch_otherwise Backend.operations
      (Accessor.ofSettings {} true) (keyOf {}) (p := { store := before })
      fun c hc => by rw [hnothing] at hc; cases hc
    simp only [run, hrun, hnothing]
    generalize keyOf {} = key
    rfl
  obtain ⟨last, hstore, hmended, -⟩ := hmend {} true false (succeeding records)
    [content.row (keyOf {})] fun _ rows => ⟨rows, rfl⟩
  change run.2.store = _ at hstore
  change Mended (keyOf {}) _ last run.1 at hmended
  obtain ⟨now, htime, -, hback, hplain⟩ := hmended.fetched (congrArg Snapshot.freshness hgives)
  have hnow : now = 5 := by
    have hgiven := (congrArg Snapshot.timestamp hgives).symm.trans htime
    exact (Option.some.inj hgiven).symm
  have hrecords : run.1.records = records := congrArg Snapshot.records hgives
  refine ⟨Prod.ext hget hsame, hgives, ?_⟩
  rw [hstore, ← hnow, ← hrecords]
  refine hback.mpr (hplain (FeatureRecord.plain_listToJson ?_))
  rw [hrecords]
  exact List.forall_mem_singleton.mpr fun v hv => absurd hv List.not_mem_nil

/-! ### What is not read back -/

/-- The value of a text, if it is one of JSON. -/
theorem toOption_parse {text : String} {cs : List Char} (h : text.toList = cs) :
    (Json.parse text).toOption =
      match Json.Reader.value true (2 * cs.length + 2) Json.Reader.maxDepth cs with
      | .ok (v, rest) => if (Json.Reader.skipBlanks rest).isEmpty then some v else none
      | .error _ => none := by
  subst h
  rw [Json.parse]
  rcases Json.Reader.value true (2 * text.toList.length + 2) Json.Reader.maxDepth text.toList with
    e | ⟨v, rest⟩
  · rfl
  · dsimp only
    cases Json.Reader.skipBlanks rest <;> rfl

/-- What the cache finds in a row that it has written. -/
theorem get_rowOf (key : String) (c : Cached) :
    (Cache.get Backend.operations key (.table ⟨some [Table.rowOf key c.toEntry]⟩)).1 =
      (Json.parse (FeatureRecord.listToJson c.records).compact).toOption.bind fun data =>
        Cached.ofEntry? ⟨c.timestamp, data⟩ := by
  rw [get_eq_of_holds (Backend.holds_table_rowOf key c.toEntry), Backend.readBack]
  simp only [Table.readRow, Table.rowOf, Cached.toEntry, if_true]
  cases Json.parse (FeatureRecord.listToJson c.records).compact <;> rfl

/-- A record with an identifier and the support by a browser. -/
def supported (v : Json) : FeatureRecord := { identifier := "api-fetch", browserSupport := [v] }

/-- The text of the list of such a record. -/
theorem toList_compact_supported (v : Json) :
    (FeatureRecord.listToJson [supported v]).compact.toList =
      "[\x7b\"baseline\":null,\"browser_support\":[".toList ++ v.compact.toList ++
        ("],\"description\":\"\",\"identifier\":\"api-fetch\",\"name\":\"\"," ++
          "\"specifications\":[]\x7d]").toList := by
  have hmembers : (supported v).toJson = .object [("baseline", .null),
      ("browser_support", .array [v]), ("description", .text ""), ("identifier", .text "api-fetch"),
      ("name", .text ""), ("specifications", .array [])] := by
    simp only [FeatureRecord.toJson, supported, Json.ofMembers, Json.Members.ofList,
      Json.Members.insert, List.foldl_cons, List.foldl_nil, List.cons_append, List.nil_append,
      List.map_nil, List.isEmpty_cons, Option.map_none, Option.getD_none, Option.toList_none,
      String.reduceLT, String.reduceEq, Bool.false_eq_true, if_true, if_false]
  have hquote : ∀ k ∈ ["baseline", "browser_support", "description", "identifier", "name",
      "specifications", "", "api-fetch"], Json.quote k = "\"" ++ k ++ "\"" := by decide +kernel
  simp only [FeatureRecord.listToJson, List.map_cons, List.map_nil, hmembers, Json.compact,
    Json.compactItems, Json.compactMembers, Json.scalarText, String.toList_append]
  generalize v.compact.toList = cs
  simp [hquote]

/-- Arrays in one another. -/
def nested : Nat → Json
  | 0 => .null
  | n + 1 => .array [nested n]

/-- Their text. -/
theorem toList_compact_nested (n : Nat) : (nested n).compact.toList =
    List.replicate n '[' ++ "null".toList ++ List.replicate n ']' := by
  induction n with
  | zero => rfl
  | succ n ih =>
      simp only [nested, Json.compact, Json.compactItems, String.toList_append, ih]
      rw [List.replicate_succ, List.replicate_succ']
      simp

/-- The texts of the support by browsers. -/
def supportTexts (c : Cached) : List (List String) :=
  c.records.map fun r => r.browserSupport.map Json.compact

/-- **Numbers are rounded twice.**  The number that `1e-24` is read as is written with all its
digits, and these are read as the number before it; so a catalog with it is not read back as it was
fetched and written.  What is nested deeper than is read is not found at all. -/
theorem not_read_back :
    let fetched (v : Json) := (Accessor.ofSettings {} true).fetch.run
      ((succeeding [supported v]).host Backend.operations) (keyOf {}) { store := .table {} }
    let found (v : Json) := (Cache.get Backend.operations (keyOf {}) (fetched v).2.store).1
    let number : Json := .double ⟨false, 5444517870735016, -132⟩
    Json.parse "1e-24" = .ok number ∧
    (fetched number).1 = .ofFetched ⟨5, [supported number]⟩ ∧
    (found number).map supportTexts = some [["1e-24"]] ∧
    supportTexts ⟨5, [supported number]⟩ = [["1.0000000000000001e-24"]] ∧
    found number ≠ some ⟨5, [supported number]⟩ ∧
    (fetched (nested 125)).1 = .ofFetched ⟨5, [supported (nested 125)]⟩ ∧
    found (nested 125) = none := by
  intro fetched found number
  have hrun : ∀ v, fetched v = (.ofFetched ⟨5, [supported v]⟩,
      { store := .table ⟨some [Table.rowOf (keyOf {}) (Cached.toEntry ⟨5, [supported v]⟩)]⟩
        looks := 2, calls := 1 }) := by
    intro v
    simp only [fetched]
    generalize keyOf {} = key
    rfl
  have hfound : ∀ v, found v =
      (Json.parse (FeatureRecord.listToJson [supported v]).compact).toOption.bind fun data =>
        Cached.ofEntry? ⟨5, data⟩ := by
    intro v
    simp only [found, hrun]
    exact get_rowOf _ _
  have hread : (found number).map supportTexts = some [["1e-24"]] := by
    rw [hfound, toOption_parse (toList_compact_supported number)]
    decide +kernel
  have hwritten : supportTexts ⟨5, [supported number]⟩ = [["1.0000000000000001e-24"]] := by
    decide +kernel
  refine ⟨rfl, by rw [hrun], hread, hwritten, fun heq => ?_, by rw [hrun], ?_⟩
  · rw [heq, Option.map_some, hwritten] at hread
    exact absurd hread (by decide)
  · rw [hfound, toOption_parse (toList_compact_supported (nested 125)), toList_compact_nested]
    decide +kernel

end WebBaseline.Catalog
