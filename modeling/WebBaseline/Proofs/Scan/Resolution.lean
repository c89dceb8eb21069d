import WebBaseline.Proofs.Scan.FirstMatch

/-!
# What identifiers and names resolve to

Identifiers and names of scripts are resolved to the first record that
qualifies, and whether a record qualifies depends on its identifier only.  So
the record that is found is the first one of its identifier, and records that
are appended to a catalog are found only where there was nothing before, and
only with identifiers that are new.

* `find?_identifier_of_find?`, `find?_append_filter` — both facts, for every
  such condition;
* `search_of_searchScript` — a name stands for a record that its identifier finds as well;
* `search_filter`, `searchScript_filter` — both searches in two catalogs, one of
  which has some of the identifiers only.
-/

namespace WebBaseline.FeatureIndex

variable {p : FeatureRecord → Bool} {catalog : List FeatureRecord} {r : FeatureRecord}

/-- **The first of its identifier.**  If a condition depends on identifiers only, the first record
that satisfies it is the first one of its identifier. -/
theorem find?_identifier_of_find? (hp : ∀ q r, q.identifier = r.identifier → p q = p r)
    (h : catalog.find? p = some r) : catalog.find? (·.identifier == r.identifier) = some r := by
  obtain ⟨hr, before, after, hsplit, hbefore⟩ := List.find?_eq_some_iff_append.mp h
  refine List.find?_eq_some_iff_append.mpr ⟨beq_self_eq_true _, before, after, hsplit, ?_⟩
  intro q hq
  rw [Bool.not_eq_true', beq_eq_false_iff_ne]
  intro hsame
  have hnot : p q = false := by simpa using hbefore q hq
  rw [hp q r hsame, hr] at hnot
  cases hnot

/-- Whether some record of a catalog has an identifier. -/
def knows (catalog : List FeatureRecord) (identifier : String) : Bool :=
  catalog.any (·.identifier == identifier)

theorem knows_iff {identifier : String} :
    knows catalog identifier = true ↔ ∃ r ∈ catalog, r.identifier = identifier := by
  simp [knows]

/-- **Appended records.**  If a condition depends on identifiers only, what is found in a catalog is
what is found in a longer one, unless that has a new identifier. -/
theorem find?_append_filter (hp : ∀ q r, q.identifier = r.identifier → p q = p r)
    (catalog more : List FeatureRecord) :
    catalog.find? p =
      ((catalog ++ more).find? p).filter fun r => knows catalog r.identifier := by
  rw [List.find?_append]
  cases hfind : catalog.find? p with
  | some r =>
      have hknown : knows catalog r.identifier = true :=
        knows_iff.mpr ⟨r, List.mem_of_find?_eq_some hfind, rfl⟩
      rw [Option.some_or, Option.filter_some, if_pos hknown]
  | none =>
      rw [Option.none_or]
      symm
      rw [Option.filter_eq_none_iff]
      intro r hr hknown
      obtain ⟨q, hq, hsame⟩ := knows_iff.mp hknown
      have hnot : ¬ p q = true := List.find?_eq_none.mp hfind q hq
      rw [hp q r hsame] at hnot
      exact hnot (List.find?_some hr)

/-- Whether a record has an identifier depends on its identifier. -/
theorem hasIdentifier_congr (id : String) (q r : FeatureRecord)
    (h : q.identifier = r.identifier) : (q.identifier == id) = (r.identifier == id) := by
  rw [h]

/-- Whether a name of scripts may stand for a record depends on its identifier. -/
theorem matchesFragment_congr (fragment : String) (q r : FeatureRecord)
    (h : q.identifier = r.identifier) :
    matchesFragment fragment q = matchesFragment fragment r := by
  rw [matchesFragment, matchesFragment, FeatureRecord.domain, FeatureRecord.domain, h]

/-! ### Searches -/

variable {table : NameTable} {f : IndexedFeature}

/-- A search by name is one for the first match of a fragment. -/
theorem searchScript_eq_some_iff {name : String} :
    searchScript catalog table name = some f ↔
      ∃ fragment, table.fragment? name = some fragment ∧
        (catalog.find? (matchesFragment fragment)).map .ofRecord = some f :=
  Option.bind_eq_some_iff

/-- What an identifier finds is a part of the first record that has it. -/
theorem exists_first_of_search {id : String} (h : search catalog id = some f) :
    ∃ before r after, catalog = before ++ r :: after ∧ (∀ q ∈ before, q.identifier ≠ id) ∧
      r.identifier = id ∧ f = .ofRecord r := by
  obtain ⟨r, hr, rfl⟩ := Option.map_eq_some_iff.mp h
  obtain ⟨hid, before, after, hsplit, hbefore⟩ := List.find?_eq_some_iff_append.mp hr
  refine ⟨before, r, after, hsplit, fun q hq => ?_, beq_iff_eq.mp hid, rfl⟩
  simpa using hbefore q hq

/-- What an identifier finds has it. -/
theorem identifier_of_search {id : String} (h : search catalog id = some f) :
    f.identifier = id := by
  obtain ⟨-, r, -, -, -, hid, rfl⟩ := exists_first_of_search h
  exact hid

/-- **Names and identifiers agree.**  What a name of scripts stands for is found by its identifier
as well. -/
theorem search_of_searchScript {name : String} (h : searchScript catalog table name = some f) :
    search catalog f.identifier = some f := by
  obtain ⟨fragment, -, hfind⟩ := searchScript_eq_some_iff.mp h
  obtain ⟨r, hr, rfl⟩ := Option.map_eq_some_iff.mp hfind
  have hfirst := find?_identifier_of_find? (matchesFragment_congr fragment) hr
  exact Option.map_eq_some_iff.mpr ⟨r, hfirst, rfl⟩

/-- A name of scripts stands for a feature that scripts can use. -/
theorem isScript_of_searchScript {name : String} (h : searchScript catalog table name = some f) :
    f.identifier.startsWith "api-" = true ∨ f.identifier.startsWith "js-" = true := by
  obtain ⟨fragment, -, hfind⟩ := searchScript_eq_some_iff.mp h
  obtain ⟨r, hr, rfl⟩ := Option.map_eq_some_iff.mp hfind
  have hmatches : matchesFragment fragment r = true := List.find?_some hr
  exact (Domain.isScript_ofIdentifier r.identifier).mp (Bool.and_eq_true_iff.mp hmatches).1

/-- A search by identifier is narrowed to some identifiers as finding records is. -/
theorem search_filter {few many : List FeatureRecord} {known : String → Bool} {id : String}
    (h : few.find? (·.identifier == id) =
      (many.find? (·.identifier == id)).filter fun r => known r.identifier) :
    search few id = (search many id).filter fun f => known f.identifier := by
  rw [search, search, h, Option.filter_map]
  rfl

/-- So is a search by name. -/
theorem searchScript_filter {few many : List FeatureRecord} {known : String → Bool}
    {name : String}
    (h : ∀ fragment, table.fragment? name = some fragment →
      few.find? (matchesFragment fragment) =
        (many.find? (matchesFragment fragment)).filter fun r => known r.identifier) :
    searchScript few table name =
      (searchScript many table name).filter fun f => known f.identifier := by
  unfold searchScript
  cases hfragment : table.fragment? name with
  | none => rfl
  | some fragment =>
      have hfind := h fragment hfragment
      unfold matchesFragment at hfind
      rw [Option.bind_some, Option.bind_some, searchFragment, searchFragment, hfind,
        Option.filter_map]
      rfl

/-! ### The policy of an index -/

/-- Building an index keeps its policy. -/
theorem policy_build (catalog : List FeatureRecord) (table : NameTable) (policy : PriorityPolicy) :
    (build catalog table policy).policy = policy := by
  have hrecords : ∀ (records : List FeatureRecord) (index : FeatureIndex),
      (records.foldl addRecord index).policy = index.policy := by
    intro records
    induction records with
    | nil => exact fun index => rfl
    | cons r rest ih => exact fun index => ih (index.addRecord r)
  have hnames : ∀ (entries : List (String × String)) (index : FeatureIndex),
      (entries.foldl FeatureIndex.resolveName index).policy = index.policy := by
    intro entries
    induction entries with
    | nil => exact fun index => rfl
    | cons entry rest ih =>
        intro index
        rw [List.foldl_cons, ih, FeatureIndex.resolveName]
        split <;> rfl
  rw [build, hnames, hrecords]

end WebBaseline.FeatureIndex
