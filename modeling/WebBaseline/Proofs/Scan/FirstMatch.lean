import Mathlib.Data.List.Nodup
import WebBaseline.Proofs.Scan.Names
import WebBaseline.Proofs.Text.Fragment
import WebBaseline.Scan.Index

/-!
# First matches

The index agrees with a search through the catalog.  While it is built, its
fields stand in one relation to the part of the catalog that has been added:
features are kept by slot, the first slot of every identifier is known, and
each domain lists its slots in the order of the catalog.

* `Indexes.addRecord`, `indexes_addRecords` — adding records keeps the relation;
* `Indexes.firstScriptSlot_eq` — the slots of two domains, filtered, joined and
  sorted, start with the first match of the whole catalog;
* `Resolves.resolveName`, `resolves_resolveNames` — resolving names keeps what
  is known of the names before;
* `lookup_build`, `scriptFeature_build` — both look-ups are searches;
* `build_finds_first` — what is found, in terms of the catalog.
-/

namespace WebBaseline

/-! ### Domains -/

/-- A text starts with at most one of two prefixes that differ in a character. -/
theorem not_startsWith_of_startsWith {s p q : String} (hp : s.startsWith p = true)
    (hpq : ¬ p.toList <+: q.toList) (hqp : ¬ q.toList <+: p.toList) :
    s.startsWith q = false := by
  rw [Bool.eq_false_iff]
  intro hq
  rw [String.startsWith_string_iff] at hp hq
  rcases List.prefix_or_prefix_of_prefix hp hq with h | h
  · exact hpq h
  · exact hqp h

/-- Scripts name the features whose identifiers start in one of two ways. -/
theorem Domain.isScript_ofIdentifier (identifier : String) :
    (Domain.ofIdentifier identifier).isScript = true ↔
      identifier.startsWith "api-" = true ∨ identifier.startsWith "js-" = true := by
  unfold Domain.ofIdentifier
  split
  · rename_i hcss
    have hapi : identifier.startsWith "api-" = false :=
      not_startsWith_of_startsWith hcss (by decide) (by decide)
    have hjs : identifier.startsWith "js-" = false :=
      not_startsWith_of_startsWith hcss (by decide) (by decide)
    simp [hapi, hjs, isScript]
  · split
    · rename_i hhtml
      have hapi : identifier.startsWith "api-" = false :=
        not_startsWith_of_startsWith hhtml (by decide) (by decide)
      have hjs : identifier.startsWith "js-" = false :=
        not_startsWith_of_startsWith hhtml (by decide) (by decide)
      simp [hapi, hjs, isScript]
    · split
      · rename_i hapi
        simp [hapi, isScript]
      · split
        · rename_i hjs
          simp [hjs, isScript]
        · rename_i hapi hjs
          simp [hapi, hjs, isScript]

/-- Domains differ in their numbers. -/
theorem Domain.number_inj {d e : Domain} : d.number = e.number ↔ d = e := by
  cases d <;> cases e <;> decide

/-! ### Least elements -/

/-- Sorting puts a least number first. -/
theorem head?_mergeSort_eq_some {slots : List Nat} {slot : Nat}
    (h : slots.mergeSort.head? = some slot) : slot ∈ slots ∧ ∀ other ∈ slots, slot ≤ other := by
  obtain ⟨rest, hsorted⟩ := List.head?_eq_some_iff.mp h
  have hpairwise : (slot :: rest).Pairwise fun a b => decide (a ≤ b) = true := by
    rw [← hsorted]
    exact List.pairwise_mergeSort (by simp; omega) (by simp; omega) slots
  have hmem : ∀ other, other ∈ slots ↔ other = slot ∨ other ∈ rest := by
    intro other
    rw [← (List.mergeSort_perm slots _).mem_iff, hsorted, List.mem_cons]
  refine ⟨(hmem slot).mpr (Or.inl rfl), fun other hother => ?_⟩
  rcases (hmem other).mp hother with rfl | hrest
  · exact Nat.le_refl other
  · exact of_decide_eq_true ((List.pairwise_cons.mp hpairwise).1 other hrest)

namespace FeatureIndex

/-! ### Adding records -/

/-- How an index stands to the records that were added to it. -/
structure Indexes (catalog : List FeatureRecord) (index : FeatureIndex) : Prop where
  /-- Features are kept by slot. -/
  features : index.features.toList = catalog.map .ofRecord
  /-- The first slot of every identifier is known. -/
  exact : ∀ id, index.exact[id]? = catalog.findIdx? (·.identifier == id)
  /-- Each domain lists its slots in the order of the catalog. -/
  byDomain : ∀ d, index.slotsOf d =
    (List.range catalog.length).filter fun slot => catalog[slot]?.any (·.domain == d)

/-- The index of nothing. -/
theorem indexes_nil (policy : PriorityPolicy) : Indexes [] { policy } where
  features := rfl
  exact := fun id => by simp
  byDomain := fun d => by cases d <;> rfl

namespace Indexes

variable {catalog : List FeatureRecord} {index : FeatureIndex}

/-- There is a feature for each record. -/
theorem size_eq (h : Indexes catalog index) : index.features.size = catalog.length := by
  rw [← Array.length_toList, h.features, List.length_map]

/-- The feature of a slot is that of the record. -/
theorem feature_eq (h : Indexes catalog index) (slot : Nat) :
    index.features[slot]? = catalog[slot]?.map .ofRecord := by
  rw [← Array.getElem?_toList, h.features, List.getElem?_map]

/-- A slot is listed by the domain of its record, and by no other. -/
theorem mem_slotsOf (h : Indexes catalog index) (d : Domain) (slot : Nat) :
    slot ∈ index.slotsOf d ↔ ∃ r, catalog[slot]? = some r ∧ r.domain = d := by
  rw [h.byDomain, List.mem_filter, List.mem_range]
  cases hr : catalog[slot]? with
  | none => simp
  | some r =>
      have hlt : slot < catalog.length := (List.getElem?_eq_some_iff.mp hr).1
      simp [hlt]

end Indexes

/-- A record is listed in its own domain, and the other domains stay as they are. -/
theorem slotsOf_addRecord (index : FeatureIndex) (r : FeatureRecord) (d : Domain) :
    (index.addRecord r).slotsOf d =
      if r.domain = d then index.slotsOf d ++ [index.features.size] else index.slotsOf d := by
  by_cases hd : r.domain = d
  · subst hd
    simp [slotsOf, addRecord]
  · have hnumber : r.domain.number.val ≠ d.number.val := by
      intro heq
      exact hd (Domain.number_inj.mp (Fin.ext heq))
    simp [slotsOf, addRecord, hd, Vector.getElem_set_ne _ _ hnumber]

/-- **One record more.**  Adding a record keeps the relation to the catalog. -/
theorem Indexes.addRecord {catalog : List FeatureRecord} {index : FeatureIndex}
    (h : Indexes catalog index) (r : FeatureRecord) :
    Indexes (catalog ++ [r]) (index.addRecord r) where
  features := by simp [FeatureIndex.addRecord, h.features]
  exact := by
    intro id
    have hmem : r.identifier ∈ index.exact ↔
        (catalog.findIdx? (·.identifier == r.identifier)).isSome := by
      rw [Std.HashMap.mem_iff_isSome_getElem?, h.exact]
    simp only [FeatureIndex.addRecord, Std.HashMap.getElem?_insertIfNew, h.exact, h.size_eq,
      List.findIdx?_append, hmem]
    by_cases hid : r.identifier = id
    · subst hid
      cases hfound : catalog.findIdx? (·.identifier == r.identifier) <;> simp
    · simp [hid]
  byDomain := by
    intro d
    rw [slotsOf_addRecord, h.byDomain, h.size_eq, List.length_append, List.length_singleton,
      List.range_succ, List.filter_append]
    have hold : (List.range catalog.length).filter
          (fun slot => (catalog ++ [r])[slot]?.any (·.domain == d)) =
        (List.range catalog.length).filter fun slot => catalog[slot]?.any (·.domain == d) := by
      apply List.filter_congr
      intro slot hslot
      rw [List.getElem?_append_left (List.mem_range.mp hslot)]
    rw [hold]
    by_cases hd : r.domain = d <;> simp [hd]

/-- All records of a catalog. -/
theorem indexes_addRecords {done : List FeatureRecord} {index : FeatureIndex}
    (h : Indexes done index) (more : List FeatureRecord) :
    Indexes (done ++ more) (more.foldl FeatureIndex.addRecord index) := by
  induction more generalizing done index with
  | nil => simpa using h
  | cons r rest ih => simpa using ih (h.addRecord r)

/-! ### Resolving names -/

/-- Whether a name of scripts with a fragment may stand for a record. -/
def matchesFragment (fragment : String) (r : FeatureRecord) : Bool :=
  r.domain.isScript && Text.contains r.identifier fragment

namespace Indexes

variable {catalog : List FeatureRecord} {index : FeatureIndex}

/-- The slots that qualify are those of the records that do. -/
theorem mem_candidates (h : Indexes catalog index) (fragment : String) (slot : Nat) :
    slot ∈ index.scriptSlots.filter (index.slotContains fragment) ↔
      ∃ r, catalog[slot]? = some r ∧ matchesFragment fragment r = true := by
  have hslots : slot ∈ index.scriptSlots ↔
      ∃ d : Domain, d.isScript = true ∧ ∃ r, catalog[slot]? = some r ∧ r.domain = d := by
    simp only [scriptSlots, List.mem_flatMap, List.mem_filter, Domain.mem_all, true_and,
      h.mem_slotsOf]
  rw [List.mem_filter, hslots, slotContains, h.feature_eq]
  constructor
  · rintro ⟨⟨d, hd, r, hr, rfl⟩, hcontains⟩
    refine ⟨r, hr, ?_⟩
    rw [hr] at hcontains
    exact Bool.and_eq_true_iff.mpr ⟨hd, hcontains⟩
  · rintro ⟨r, hr, hmatch⟩
    have ⟨hd, hcontains⟩ := Bool.and_eq_true_iff.mp hmatch
    rw [hr]
    exact ⟨⟨r.domain, hd, r, rfl, rfl⟩, hcontains⟩

/-- **The first match.**  The slots of the domains for scripts, filtered,
joined and sorted, start with the first match of the whole catalog. -/
theorem firstScriptSlot_eq (h : Indexes catalog index) (fragment : String) :
    index.firstScriptSlot fragment = catalog.findIdx? (matchesFragment fragment) := by
  have hmem := h.mem_candidates fragment
  cases hfirst : index.firstScriptSlot fragment with
  | none =>
      have hempty : index.scriptSlots.filter (index.slotContains fragment) = [] := by
        have hsorted := List.head?_eq_none_iff.mp hfirst
        have hlength := congrArg List.length hsorted
        rw [List.length_mergeSort] at hlength
        exact List.eq_nil_of_length_eq_zero hlength
      symm
      rw [List.findIdx?_eq_none_iff]
      intro r hr
      obtain ⟨slot, hslot⟩ := List.mem_iff_getElem?.mp hr
      rw [Bool.eq_false_iff]
      intro hmatch
      have hin := (hmem slot).mpr ⟨r, hslot, hmatch⟩
      rw [hempty] at hin
      exact List.not_mem_nil hin
  | some slot =>
      obtain ⟨hin, hleast⟩ := head?_mergeSort_eq_some hfirst
      obtain ⟨r, hr, hmatch⟩ := (hmem slot).mp hin
      obtain ⟨hlt, hget⟩ := List.getElem?_eq_some_iff.mp hr
      symm
      rw [List.findIdx?_eq_some_iff_getElem]
      refine ⟨hlt, by rw [hget]; exact hmatch, ?_⟩
      intro other hother hmatches
      have hsome : catalog[other]? = some catalog[other] :=
        List.getElem?_eq_getElem (by omega)
      have hle := hleast other ((hmem other).mpr ⟨_, hsome, hmatches⟩)
      omega

/-- Resolving a name leaves the records alone. -/
theorem resolveName (h : Indexes catalog index) (entry : String × String) :
    Indexes catalog (index.resolveName entry) := by
  unfold FeatureIndex.resolveName
  split
  · exact ⟨h.features, h.exact, h.byDomain⟩
  · exact h

end Indexes

/-- The slot that a name stands for. -/
def slotOfName (catalog : List FeatureRecord) (entries : List (String × String)) (name : String) :
    Option Nat :=
  ((entries.find? (·.1 == name)).map (·.2)).bind fun fragment =>
    catalog.findIdx? (matchesFragment fragment)

/-- How an index stands to its catalog and to the names that were resolved. -/
structure Resolves (catalog : List FeatureRecord) (entries : List (String × String))
    (index : FeatureIndex) : Prop extends Indexes catalog index where
  /-- The names stand for the first matches. -/
  names : ∀ name, index.scriptNames[name]? = slotOfName catalog entries name

/-- **One name more.**  Resolving a new name keeps what is known of the others. -/
theorem Resolves.resolveName {catalog : List FeatureRecord} {entries : List (String × String)}
    {index : FeatureIndex} (h : Resolves catalog entries index) {entry : String × String}
    (hnew : entry.1 ∉ entries.map (·.1)) :
    Resolves catalog (entries ++ [entry]) (index.resolveName entry) where
  toIndexes := h.toIndexes.resolveName entry
  names := by
    intro name
    have hnone : entries.find? (·.1 == entry.1) = none := by
      rw [List.find?_eq_none]
      intro e he heq
      exact hnew (List.mem_map.mpr ⟨e, he, beq_iff_eq.mp heq⟩)
    have hnames := h.names name
    unfold slotOfName at hnames ⊢
    unfold FeatureIndex.resolveName
    rw [List.find?_append, h.toIndexes.firstScriptSlot_eq]
    by_cases hname : entry.1 = name
    · subst hname
      rw [hnone] at hnames ⊢
      cases hslot : catalog.findIdx? (matchesFragment entry.2) with
      | none => simpa [hslot] using hnames
      | some slot => simp [hslot]
    · cases hslot : catalog.findIdx? (matchesFragment entry.2) with
      | none => simp [hnames, hname]
      | some slot => simp [hnames, hname, Std.HashMap.getElem?_insert]

/-- All names of a table. -/
theorem resolves_resolveNames {catalog : List FeatureRecord} {done : List (String × String)}
    {index : FeatureIndex} (h : Resolves catalog done index) {more : List (String × String)}
    (hnames : ((done ++ more).map (·.1)).Nodup) :
    Resolves catalog (done ++ more) (more.foldl FeatureIndex.resolveName index) := by
  induction more generalizing done index with
  | nil => simpa using h
  | cons entry rest ih =>
      have hnew : entry.1 ∉ done.map (·.1) := by
        intro hin
        rw [List.map_append, List.nodup_append] at hnames
        exact hnames.2.2 entry.1 hin entry.1 (by simp) rfl
      have hstep := ih (h.resolveName hnew) (by simpa using hnames)
      simpa using hstep

/-- Adding records resolves no names. -/
theorem scriptNames_addRecords (records : List FeatureRecord) (index : FeatureIndex) :
    (records.foldl FeatureIndex.addRecord index).scriptNames = index.scriptNames := by
  induction records generalizing index with
  | nil => rfl
  | cons r rest ih => exact ih (index.addRecord r)

/-- What a built index knows of its catalog and its names. -/
theorem resolves_build (catalog : List FeatureRecord) (table : NameTable)
    (policy : PriorityPolicy) :
    Resolves catalog table.entries (build catalog table policy) := by
  have hindexes : Indexes catalog (catalog.foldl FeatureIndex.addRecord { policy }) := by
    simpa using indexes_addRecords (indexes_nil policy) catalog
  have hstart : Resolves catalog [] (catalog.foldl FeatureIndex.addRecord { policy }) :=
    ⟨hindexes, fun name => by simp [scriptNames_addRecords, slotOfName]⟩
  exact resolves_resolveNames hstart table.nodup_names

/-! ### Look-ups -/

variable (catalog : List FeatureRecord) (table : NameTable) (policy : PriorityPolicy)

/-- Looking up an identifier is a search through the catalog. -/
theorem lookup_build (identifier : String) :
    (build catalog table policy).lookup identifier = search catalog identifier := by
  have h := resolves_build catalog table policy
  rw [lookup, h.exact, search, List.find?_eq_bind_findIdx?_getElem?]
  simp only [h.feature_eq, Option.map_bind]
  rfl

/-- So is looking up a name of scripts. -/
theorem scriptFeature_build (name : String) :
    (build catalog table policy).scriptFeature name = searchScript catalog table name := by
  have h := resolves_build catalog table policy
  rw [scriptFeature, h.names, slotOfName, searchScript, Option.bind_assoc]
  have hfragment : searchFragment catalog = fun fragment =>
      (catalog.findIdx? (matchesFragment fragment)).bind
        fun slot => (build catalog table policy).features[slot]? := by
    funext fragment
    rw [searchFragment]
    have hfind : catalog.find? (matchesFragment fragment) =
        (catalog.findIdx? (matchesFragment fragment)).bind fun slot => catalog[slot]? :=
      List.find?_eq_bind_findIdx?_getElem?
    unfold matchesFragment at hfind
    rw [hfind]
    simp only [h.feature_eq, Option.map_bind]
    rfl
  rw [hfragment]
  rfl

/-! ### Counts -/

/-- The places of a list with a property are as many as its items with it. -/
theorem countP_range_getElem? (p : FeatureRecord → Bool) (records : List FeatureRecord) :
    (List.range records.length).countP (fun slot => records[slot]?.any p) = records.countP p := by
  induction records using List.reverseRecOn with
  | nil => rfl
  | append_singleton records r ih =>
      have hold : (List.range records.length).countP (fun slot => (records ++ [r])[slot]?.any p) =
          (List.range records.length).countP fun slot => records[slot]?.any p := by
        apply List.countP_congr
        intro slot hslot
        rw [List.getElem?_append_left (List.mem_range.mp hslot)]
      rw [List.length_append, List.length_singleton, List.range_succ, List.countP_append, hold, ih,
        List.countP_append]
      simp

/-- A domain counts its own records. -/
theorem Indexes.countOf_eq {catalog : List FeatureRecord} {index : FeatureIndex}
    (h : Indexes catalog index) (d : Domain) :
    index.countOf d = catalog.countP (·.domain == d) := by
  rw [countOf, h.byDomain, ← List.countP_eq_length_filter, countP_range_getElem?]

/-- Each record is of one domain. -/
theorem sum_countP_domain (records : List FeatureRecord) :
    records.countP (·.domain == .css) + records.countP (·.domain == .html) +
      records.countP (·.domain == .api) + records.countP (·.domain == .js) +
      records.countP (·.domain == .other) = records.length := by
  induction records with
  | nil => rfl
  | cons r rest ih =>
      simp only [List.countP_cons, List.length_cons]
      cases hd : r.domain <;> simp <;> omega

/-- Each domain lists a slot once at most. -/
theorem Indexes.nodup_slotsOf {catalog : List FeatureRecord} {index : FeatureIndex}
    (h : Indexes catalog index) (d : Domain) : (index.slotsOf d).Nodup := by
  rw [h.byDomain]
  exact List.nodup_range.filter _

/-! ### What is found -/

/-- Whether a name of scripts with a fragment may stand for a record: the
identifier starts in one of two ways and contains the fragment. -/
def NamedBy (fragment : String) (r : FeatureRecord) : Prop :=
  ("api-".toList <+: r.identifier.toList ∨ "js-".toList <+: r.identifier.toList) ∧
    fragment.toList <:+: r.identifier.toList

/-- Whether a feature is that of the first record with a property; the name is
the identifier if the record has none. -/
def IsFirst (Qualifies : FeatureRecord → Prop) (catalog : List FeatureRecord)
    (f : IndexedFeature) : Prop :=
  ∃ before r after, catalog = before ++ r :: after ∧ (∀ q ∈ before, ¬ Qualifies q) ∧ Qualifies r ∧
    f = ⟨r.identifier, if r.name = "" then r.identifier else r.name, .ofCode r.statusCode⟩

theorem matchesFragment_iff (fragment : String) (r : FeatureRecord) :
    matchesFragment fragment r = true ↔ NamedBy fragment r := by
  rw [matchesFragment, Bool.and_eq_true, FeatureRecord.domain, Domain.isScript_ofIdentifier,
    Text.contains_iff, String.startsWith_string_iff, String.startsWith_string_iff, NamedBy]

/-- The feature of a record, part by part. -/
theorem ofRecord_eq (r : FeatureRecord) : IndexedFeature.ofRecord r =
    ⟨r.identifier, if r.name = "" then r.identifier else r.name, .ofCode r.statusCode⟩ := by
  simp [IndexedFeature.ofRecord, FeatureRecord.displayName, FeatureRecord.status]

/-- A search finds the first record that qualifies. -/
theorem find?_map_eq_some_iff {p : FeatureRecord → Bool} {Qualifies : FeatureRecord → Prop}
    (hp : ∀ r, p r = true ↔ Qualifies r) (catalog : List FeatureRecord) (f : IndexedFeature) :
    (catalog.find? p).map .ofRecord = some f ↔ IsFirst Qualifies catalog f := by
  have hnot : ∀ r, (!p r) = true ↔ ¬ Qualifies r := by
    intro r
    rw [← hp, Bool.not_eq_true', Bool.not_eq_true]
  rw [Option.map_eq_some_iff]
  constructor
  · rintro ⟨r, hfind, rfl⟩
    obtain ⟨hr, before, after, hsplit, hbefore⟩ := List.find?_eq_some_iff_append.mp hfind
    exact ⟨before, r, after, hsplit, fun q hq => (hnot q).mp (hbefore q hq), (hp r).mp hr,
      ofRecord_eq r⟩
  · rintro ⟨before, r, after, hsplit, hbefore, hr, rfl⟩
    refine ⟨r, List.find?_eq_some_iff_append.mpr ?_, ofRecord_eq r⟩
    exact ⟨(hp r).mpr hr, before, after, hsplit, fun q hq => (hnot q).mpr (hbefore q hq)⟩

/-- A search finds nothing if no record qualifies. -/
theorem find?_map_eq_none_iff {p : FeatureRecord → Bool} {Qualifies : FeatureRecord → Prop}
    (hp : ∀ r, p r = true ↔ Qualifies r) (catalog : List FeatureRecord) :
    (catalog.find? p).map IndexedFeature.ofRecord = none ↔ ∀ r ∈ catalog, ¬ Qualifies r := by
  rw [Option.map_eq_none_iff, List.find?_eq_none]
  exact forall₂_congr fun r _ => not_congr (hp r)

/-- **The index and the catalog.**  For every catalog, in which identifiers may
be repeated and names may be empty, and every table of names:

* an identifier is found unless no record has it, and then the first record
  that does counts;
* a name of scripts is found unless it is not in the table or no record for
  scripts contains its fragment, and then the first such record of the whole
  catalog counts;
* each record is listed once, in the domain it belongs to, and the counts of
  the domains add up to the number of records;
* further names take precedence over the built-in ones. -/
theorem build_finds_first (catalog : List FeatureRecord) (table : NameTable)
    (policy : PriorityPolicy) :
    let index := build catalog table policy
    (∀ id, index.lookup id = none ↔ ∀ r ∈ catalog, r.identifier ≠ id) ∧
    (∀ id f, index.lookup id = some f ↔ IsFirst (·.identifier = id) catalog f) ∧
    (∀ name, index.scriptFeature name = none ↔
      ∀ fragment, table.fragment? name = some fragment → ∀ r ∈ catalog, ¬ NamedBy fragment r) ∧
    (∀ name f, index.scriptFeature name = some f ↔
      ∃ fragment, table.fragment? name = some fragment ∧ IsFirst (NamedBy fragment) catalog f) ∧
    (∀ slot < catalog.length, ∃! d, slot ∈ index.slotsOf d) ∧
    (∀ d, (index.slotsOf d).Nodup ∧ index.countOf d = catalog.countP (·.domain == d)) ∧
    index.countOf .css + index.countOf .html + index.countOf .api + index.countOf .js +
      index.countOf .other = index.size ∧
    index.size = catalog.length ∧
    ∀ extras : NameTable, ∀ name, (NameTable.withExtras extras.entries).fragment? name =
      (extras.fragment? name).or (NameTable.builtIn.fragment? name) := by
  intro index
  have h : Indexes catalog index := (resolves_build catalog table policy).toIndexes
  have hid : ∀ id r, (FeatureRecord.identifier r == id) = true ↔ r.identifier = id :=
    fun id r => beq_iff_eq
  have hscript : ∀ name, index.scriptFeature name =
      (table.fragment? name).bind fun fragment =>
        (catalog.find? (matchesFragment fragment)).map .ofRecord :=
    scriptFeature_build catalog table policy
  refine ⟨?_, ?_, ?_, ?_, ?_, ?_, ?_, h.size_eq, NameTable.fragment?_withExtras⟩
  · intro id
    rw [lookup_build, search]
    exact find?_map_eq_none_iff (hid id) catalog
  · intro id f
    rw [lookup_build, search]
    exact find?_map_eq_some_iff (hid id) catalog f
  · intro name
    rw [hscript, Option.bind_eq_none_iff]
    exact forall₂_congr fun fragment _ =>
      find?_map_eq_none_iff (matchesFragment_iff fragment) catalog
  · intro name f
    rw [hscript, Option.bind_eq_some_iff]
    exact exists_congr fun fragment => and_congr_right fun _ =>
      find?_map_eq_some_iff (matchesFragment_iff fragment) catalog f
  · intro slot hslot
    have hget : catalog[slot]? = some catalog[slot] := List.getElem?_eq_getElem hslot
    refine ⟨catalog[slot].domain, (h.mem_slotsOf _ slot).mpr ⟨_, hget, rfl⟩, ?_⟩
    intro d hd
    obtain ⟨r, hr, rfl⟩ := (h.mem_slotsOf d slot).mp hd
    rw [hget] at hr
    rw [Option.some.inj hr]
  · exact fun d => ⟨h.nodup_slotsOf d, h.countOf_eq d⟩
  · simp only [h.countOf_eq]
    rw [sum_countP_domain]
    exact h.size_eq.symm

end FeatureIndex

end WebBaseline
