import WebBaseline.Proofs.Feature.Reading

/-!
# Lenient reading

Every object is a record, however wrong the types of its members are.  Each
field has a value of its own for what it cannot read, so that what stands under
one key has no say in the other fields, a link in the other links, or the two
parts of a baseline in each other.

* `Members.assign`, `Members.get?_assign` — an object with something else, or
  nothing, under one key;
* `AgreesBut`, `ofMembers_agreesBut` — one key, one field;
* `forall₂_lenientLinks`, `lenientLinks_unreadable` — the links of an array;
* `status_eq_iff` — the status of a record;
* `ReadsAs`, `readsAs_ofMembers` — what each field is read from;
* `reads_every_object` — the reader on all objects.
-/

namespace WebBaseline

open Json

/-! ### Objects that differ under one key -/

namespace Json.Members

/-- An object with a value put under a key, or without that key. -/
def assign (key : String) : Option Json → Members → Members
  | some v, m => m.insert key v
  | none, m => m.filter (·.1 != key)

/-- Leaving a key out takes its value away and no other. -/
theorem get?_filter_ne (m : Members) (key j : String) :
    get? j (m.filter (·.1 != key)) = if key = j then none else m.get? j := by
  induction m with
  | nil => simp [get?]
  | cons p rest ih =>
      obtain ⟨k, v⟩ := p
      rw [List.filter_cons, get?]
      by_cases hk : k = key
      · subst hk
        by_cases hj : k = j
        · simpa [hj] using ih
        · simp [ih, hj]
      · by_cases hj : k = j
        · subst hj
          simp [get?, hk, Ne.symm hk]
        · simp [get?, ih, hk, hj]

/-- What an object has under each key after one of them was assigned. -/
theorem get?_assign (m : Members) (key j : String) (v : Option Json) :
    (m.assign key v).get? j = if key = j then v else m.get? j := by
  cases v with
  | none => exact get?_filter_ne m key j
  | some v => exact get?_insert m key j v

/-- Assigning a key keeps the order of the others. -/
theorem Ascending.assign {m : Members} (h : m.Ascending) (key : String) (v : Option Json) :
    (m.assign key v).Ascending := by
  cases v with
  | none => exact List.Pairwise.sublist (List.filter_sublist.map _) h
  | some v => exact ascending_insert h

/-- The text under a key, if there is one. -/
def text? (key : String) (m : Members) : Option String := (m.get? key).bind Json.text?

theorem text?_eq_some_iff {m : Members} {key s : String} :
    m.text? key = some s ↔ m.get? key = some (.text s) := by
  rw [text?, Option.bind_eq_some_iff]
  constructor
  · rintro ⟨v, hv, hs⟩
    cases v with
    | text t => exact hv.trans (congrArg (some ∘ Json.text) (Option.some.inj hs))
    | _ => cases hs
  · exact fun h => ⟨.text s, h, rfl⟩

end Json.Members

/-! ### Codes -/

namespace Status

/-- The codes of the statuses that are known. -/
def codes : List (String × Status) :=
  [("wide", .widely), ("newly", .newly), ("limited", .limited)]

/-- A code stands for a status other than unknown exactly if it is that status's code. -/
theorem ofCode_eq_iff {s : Status} (hs : s ≠ unknown) (code : Option String) :
    ofCode code = s ↔ ∃ c, code = some c ∧ (c, s) ∈ codes := by
  cases code with
  | none => simp [ofCode, hs.symm]
  | some c =>
      simp only [ofCode, codes, Option.some.injEq, exists_eq_left', List.mem_cons, Prod.mk.injEq,
        List.not_mem_nil, or_false]
      by_cases hwide : c = "wide"
      · subst hwide
        simp [eq_comm]
      · by_cases hnewly : c = "newly"
        · subst hnewly
          simp [eq_comm]
        · by_cases hlimited : c = "limited"
          · subst hlimited
            simp [eq_comm]
          · simp [hwide, hnewly, hlimited, hs.symm]

end Status

namespace FeatureRecord

/-! ### One key, one field -/

/-- Whether two records agree in every field but that of a key. -/
structure AgreesBut (key : String) (r s : FeatureRecord) : Prop where
  identifier : key ≠ "identifier" → r.identifier = s.identifier
  name : key ≠ "name" → r.name = s.name
  description : key ≠ "description" → r.description = s.description
  baseline : key ≠ "baseline" → r.baseline = s.baseline
  specifications : key ≠ "specifications" → r.specifications = s.specifications
  mdnUrl : key ≠ "mdn_url" → r.mdnUrl = s.mdnUrl
  browserSupport : key ≠ "browser_support" → r.browserSupport = s.browserSupport

/-- Objects that agree under all keys but one make records that agree in all
fields but that of the key. -/
theorem ofMembers_agreesBut {m n : Members} {key : String}
    (h : ∀ j, key ≠ j → m.get? j = n.get? j) : AgreesBut key (ofMembers m) (ofMembers n) where
  identifier hkey := by simp only [ofMembers, h _ hkey]
  name hkey := by simp only [ofMembers, h _ hkey]
  description hkey := by simp only [ofMembers, h _ hkey]
  baseline hkey := by simp only [ofMembers, h _ hkey]
  specifications hkey := by simp only [ofMembers, h _ hkey]
  mdnUrl hkey := by simp only [ofMembers, h _ hkey]
  browserSupport hkey := by simp only [ofMembers, h _ hkey]

/-! ### Links and baselines -/

/-- Whether a link is what a value says of its name and its address: each is
there exactly if the value is an object that has a text for it. -/
def IsLinkOf (v : Json) (l : SpecificationLink) : Prop :=
  (∀ s, l.name = some s ↔ v.get? "name" = some (.text s)) ∧
  ∀ s, l.url = some s ↔ v.get? "url" = some (.text s)

/-- **The links of an array.**  There is one for each object, in their order. -/
theorem forall₂_lenientLinks (items : List Json) :
    List.Forall₂ IsLinkOf (items.filter Json.isObject) (lenientLinks (.array items)) := by
  change List.Forall₂ IsLinkOf _ (items.filterMap SpecificationLink.ofJson?)
  induction items with
  | nil => exact List.Forall₂.nil
  | cons v rest ih =>
      cases v with
      | object m =>
          exact List.Forall₂.cons
            ⟨fun _ => Members.text?_eq_some_iff, fun _ => Members.text?_eq_some_iff⟩ ih
      | _ => exact ih

/-- What is no object is no link, and leaves the other links as they are. -/
theorem lenientLinks_unreadable {v : Json} (h : v.isObject = false) (before after : List Json) :
    lenientLinks (.array (before ++ v :: after)) = lenientLinks (.array (before ++ after)) := by
  have hnone : SpecificationLink.ofJson? v = none := by
    cases v with
    | object m => cases h
    | _ => rfl
  change (before ++ v :: after).filterMap _ = (before ++ after).filterMap _
  rw [List.filterMap_append, List.filterMap_cons_none hnone, ← List.filterMap_append]

/-! ### The status -/

/-- The code of a record is that of the object under `baseline`. -/
theorem statusCode_ofMembers_eq_some_iff {m : Members} {code : String} :
    (ofMembers m).statusCode = some code ↔
      ∃ b, m.get? "baseline" = some (.object b) ∧ Members.get? "status" b = some (.text code) := by
  rw [statusCode, Option.bind_eq_some_iff]
  dsimp only [ofMembers]
  cases m.get? "baseline" with
  | none => simp
  | some v =>
      cases v with
      | object b =>
          simp only [Option.map_some, Option.getD_some, Baseline.ofJson?, Option.some.injEq,
            exists_eq_left', Json.object.injEq]
          exact Members.text?_eq_some_iff
      | _ => simp [Baseline.ofJson?]

/-- **The status of a record.**  It is known only from a code in the object
under `baseline`. -/
theorem status_eq_iff {m : Members} {s : Status} (hs : s ≠ .unknown) :
    (ofMembers m).status = s ↔
      ∃ b code, m.get? "baseline" = some (.object b) ∧
        Members.get? "status" b = some (.text code) ∧ (code, s) ∈ Status.codes := by
  rw [status, Status.ofCode_eq_iff hs]
  simp only [statusCode_ofMembers_eq_some_iff]
  constructor
  · rintro ⟨code, ⟨b, hb, hcode⟩, hmem⟩
    exact ⟨b, code, hb, hcode, hmem⟩
  · rintro ⟨b, code, hb, hcode, hmem⟩
    exact ⟨code, ⟨b, hb, hcode⟩, hmem⟩

/-! ### What each field is read from -/

/-- Whether a record is what the members of an object say. -/
structure ReadsAs (m : Members) (r : FeatureRecord) : Prop where
  /-- What should be a text and is none counts as empty, or as absent. -/
  identifier : r.identifier = (m.text? "identifier").getD ""
  name : r.name = (m.text? "name").getD ""
  description : r.description = (m.text? "description").getD ""
  mdnUrl : r.mdnUrl = m.text? "mdn_url"
  /-- What should be an array and is none counts as empty. -/
  browserSupport : r.browserSupport = ((m.get? "browser_support").bind Json.items?).getD []
  /-- Both parts of a baseline are read, each if it is a text. -/
  baseline : ∀ b, m.get? "baseline" = some (.object b) → ∃ x, r.baseline = some x ∧
    (∀ s, x.status = some s ↔ Members.get? "status" b = some (.text s)) ∧
    ∀ s, x.since = some s ↔ Members.get? "since" b = some (.text s)
  baseline_none : (∀ b, m.get? "baseline" ≠ some (.object b)) → r.baseline = none
  /-- Each object is a link, and nothing else is. -/
  specifications : ∀ items, m.get? "specifications" = some (.array items) →
    List.Forall₂ IsLinkOf (items.filter Json.isObject) r.specifications
  specifications_nil : (∀ items, m.get? "specifications" ≠ some (.array items)) →
    r.specifications = []
  /-- The status is known only if the baseline has its code. -/
  status : ∀ s, s ≠ Status.unknown → (r.status = s ↔
    ∃ b code, m.get? "baseline" = some (.object b) ∧
      Members.get? "status" b = some (.text code) ∧ (code, s) ∈ Status.codes)

/-- The text of a field that has none is empty. -/
theorem lenientText_get? (m : Members) (key : String) :
    ((m.get? key).map lenientText).getD "" = (m.text? key).getD "" := by
  rw [Members.text?]
  cases m.get? key <;> rfl

/-- The record of an object is what its members say. -/
theorem readsAs_ofMembers (m : Members) : ReadsAs m (ofMembers m) where
  identifier := lenientText_get? m "identifier"
  name := lenientText_get? m "name"
  description := lenientText_get? m "description"
  mdnUrl := by
    dsimp only [ofMembers]
    rw [Members.text?]
    cases m.get? "mdn_url" <;> rfl
  browserSupport := by
    dsimp only [ofMembers]
    cases m.get? "browser_support" <;> rfl
  baseline b hb := by
    refine ⟨Baseline.ofMembers b, ?_, fun _ => Members.text?_eq_some_iff,
      fun _ => Members.text?_eq_some_iff⟩
    simp only [ofMembers, hb, Option.map_some, Option.getD_some, Baseline.ofJson?]
  baseline_none hnone := by
    dsimp only [ofMembers]
    cases hget : m.get? "baseline" with
    | none => rfl
    | some v =>
        cases v with
        | object b => exact absurd hget (hnone b)
        | _ => rfl
  specifications items hitems := by
    simp only [ofMembers, hitems, Option.map_some, Option.getD_some]
    exact forall₂_lenientLinks items
  specifications_nil hnone := by
    dsimp only [ofMembers]
    cases hget : m.get? "specifications" with
    | none => rfl
    | some v =>
        cases v with
        | array items => exact absurd hget (hnone items)
        | _ => rfl
  status _ hs := status_eq_iff hs

/-- A record is written as an object without repeated keys. -/
theorem exists_toJson (r : FeatureRecord) : ∃ n : Members, r.toJson = .object n ∧ n.Ascending :=
  ⟨_, rfl, Members.ascending_ofList _⟩

/-- **Lenient reading.**  For every object, whatever its keys and its values:

* it is a record, each field of which is read from its own member;
* with any two values under one key, or without the key, it is two records that
  agree in all fields but that of the key;
* a link that cannot be read is as good as left out;
* the record is written as an object, from which it is read back; so is every
  record that is read from any value. -/
theorem reads_every_object (m : Members) (hkeys : m.Ascending) :
    (∃ r, ofJson (.object m) = .ok r ∧ ReadsAs m r) ∧
    (∀ key v w, ∃ r s, ofJson (.object (m.assign key v)) = .ok r ∧
      ofJson (.object (m.assign key w)) = .ok s ∧ AgreesBut key r s) ∧
    (∀ before link after, link.isObject = false →
      ofJson (.object (m.insert "specifications" (.array (before ++ link :: after)))) =
        ofJson (.object (m.insert "specifications" (.array (before ++ after))))) ∧
    ∀ v r, ofJson v = .ok r →
      ∃ n : Members, r.toJson = .object n ∧ n.Ascending ∧ ofJson (.object n) = .ok r := by
  have hread : ∀ key v, ofJson (.object (m.assign key v)) = .ok (ofMembers (m.assign key v)) :=
    fun key v => ofJson_object (hkeys.assign key v).nodup
  refine ⟨⟨ofMembers m, ofJson_object hkeys.nodup, readsAs_ofMembers m⟩, ?_, ?_, ?_⟩
  · intro key v w
    refine ⟨_, _, hread key v, hread key w, ofMembers_agreesBut fun j hj => ?_⟩
    rw [Members.get?_assign, Members.get?_assign, if_neg hj, if_neg hj]
  · intro before link after hlink
    have hsame := lenientLinks_unreadable hlink before after
    rw [ofJson_object (Members.ascending_insert hkeys).nodup,
      ofJson_object (Members.ascending_insert hkeys).nodup]
    simp [ofMembers, Members.get?_insert, hsame]
  · intro _ r _
    obtain ⟨n, hn, hascending⟩ := exists_toJson r
    exact ⟨n, hn, hascending, hn ▸ ofJson_toJson r⟩

/-- An object whose members are nearly all of the wrong type. -/
def wrongMembers : Members :=
  [("baseline", .object [("since", .bool false), ("status", .text "newly")]),
    ("browser_support", .text "none"), ("description", .integer 7), ("id", .text "x"),
    ("identifier", .text "css-properties-gap"), ("mdn_url", .object []), ("name", .null),
    ("specifications", .array [.object [("url", .integer 3)], .text "junk",
      .object [("url", .text "https://drafts.csswg.org/css-align/")]])]

theorem reads_every_object_wrong :
    wrongMembers.Ascending ∧ ∃ r, ofJson (.object wrongMembers) = .ok r ∧
      r.identifier = "css-properties-gap" ∧ r.name = "" ∧ r.mdnUrl = none ∧
      r.browserSupport = [] ∧ r.specifications.length = 2 ∧ r.status = .newly := by
  have hkeys : wrongMembers.Ascending := by
    unfold wrongMembers Members.Ascending
    decide
  obtain ⟨⟨r, hread, hfields⟩, -⟩ := reads_every_object wrongMembers hkeys
  refine ⟨hkeys, r, hread, hfields.identifier, hfields.name, hfields.mdnUrl,
    hfields.browserSupport, ?_, ?_⟩
  · exact (hfields.specifications _ rfl).length_eq.symm
  · exact (hfields.status .newly (by decide)).mpr ⟨_, "newly", rfl, rfl, by decide⟩

end FeatureRecord

end WebBaseline
