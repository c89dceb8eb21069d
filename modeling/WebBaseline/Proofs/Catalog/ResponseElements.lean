import Mathlib.Data.List.Basic
import WebBaseline.Catalog.Response
import WebBaseline.Proofs.Feature.Reading
import WebBaseline.Proofs.Json.Ordered

/-!
# Which elements of a response are kept

An element of a response describes a feature if it is an object with an
identifier.  What reads records also takes a list of their fields, so an array
that starts with an identifier is kept as well.

* `describedBy?`, `listedBy?` — the two forms of an element that is kept;
* `recordOf?_eq` — one element;
* `kept_elements` — whole responses, and when only descriptions are kept;
* `recordsOf_listed` — the smallest response of which more is kept.
-/

namespace WebBaseline.Catalog

/-- The record of an object whose identifier is a text, unless that is empty. -/
def describedBy? : Json → Option FeatureRecord
  | .object m =>
    match Json.Members.get? "identifier" m with
    | some (.text identifier) => if identifier = "" then none else some (.ofMembers m)
    | _ => none
  | _ => none

/-- The record of an array of fields whose first is a text, unless that is
empty or there are more items than fields. -/
def listedBy? : Json → Option FeatureRecord
  | .array (.text identifier :: rest) =>
    if identifier = "" ∨ FeatureRecord.fields.length ≤ rest.length then none
    else some (.ofValues (.text identifier :: rest))
  | _ => none

/-- An object is kept if it describes a feature. -/
theorem recordOf?_object {m : Json.Members} (hkeys : m.Ascending) :
    recordOf? (.object m) = describedBy? (.object m) := by
  rw [recordOf?, FeatureRecord.ofJson_object hkeys.nodup]
  dsimp only [describedBy?, FeatureRecord.ofMembers]
  cases hget : m.get? "identifier" with
  | none => rfl
  | some v =>
      cases v with
      | text identifier => simp [FeatureRecord.lenientText, Json.text?, String.isEmpty_iff]
      | _ => rfl

/-- An array is kept if it lists the fields of a feature. -/
theorem recordOf?_array (values : List Json) :
    recordOf? (.array values) = listedBy? (.array values) := by
  rw [recordOf?, FeatureRecord.ofJson_array]
  cases values with
  | nil => rfl
  | cons v rest =>
      by_cases hlength : (v :: rest).length ≤ FeatureRecord.fields.length
      · have hroom : ¬ FeatureRecord.fields.length ≤ rest.length := by
          rw [List.length_cons] at hlength
          omega
        rw [if_pos hlength]
        cases v with
        | text identifier =>
            simp [listedBy?, hroom, FeatureRecord.ofValues, FeatureRecord.lenientText, Json.text?]
        | _ => rfl
      · have hfull : FeatureRecord.fields.length ≤ rest.length := by
          rw [List.length_cons] at hlength
          omega
        rw [if_neg hlength]
        cases v with
        | text identifier => simp [listedBy?, hfull]
        | _ => rfl

/-- **One element.**  It is kept if it is of one of the two forms. -/
theorem recordOf?_eq {e : Json} (h : e.Ordered) :
    recordOf? e = (describedBy? e).or (listedBy? e) := by
  cases e with
  | object m =>
      have hlisted : listedBy? (.object m) = none := rfl
      rw [recordOf?_object (Json.Ordered.object_iff.mp h).1, hlisted, Option.or_none]
  | array values =>
      have hdescribed : describedBy? (.array values) = none := rfl
      rw [recordOf?_array, hdescribed, Option.none_or]
  | _ => rfl

/-- An element has one form. -/
theorem describedBy?_eq_none_of_listed {e : Json} {r : FeatureRecord}
    (h : listedBy? e = some r) : describedBy? e = none := by
  cases e with
  | array values => rfl
  | _ => cases h

/-- Of a list of elements only descriptions are kept if none of them is of the other form. -/
theorem filterMap_or_eq_iff (elements : List Json) :
    (elements.filterMap fun e => (describedBy? e).or (listedBy? e)) =
        elements.filterMap describedBy? ↔
      ∀ e ∈ elements, listedBy? e = none := by
  constructor
  · intro h e he
    cases hlisted : listedBy? e with
    | none => rfl
    | some r =>
        -- Each description is kept in any case, so one record more makes the list longer.
        have hle : ∀ l : List Json, (l.filterMap describedBy?).length ≤
            (l.filterMap fun e => (describedBy? e).or (listedBy? e)).length := by
          intro l
          rw [List.length_filterMap_eq_countP, List.length_filterMap_eq_countP]
          refine List.countP_mono_left fun e _ hsome => ?_
          rw [Option.isSome_or, hsome, Bool.true_or]
        obtain ⟨before, after, rfl⟩ := List.append_of_mem he
        have hlength := congrArg List.length h
        simp only [List.filterMap_append, List.filterMap_cons, hlisted,
          describedBy?_eq_none_of_listed hlisted, Option.none_or, List.length_append,
          List.length_cons] at hlength
        have hbefore := hle before
        have hafter := hle after
        omega
  · intro h
    refine List.filterMap_congr fun e he => ?_
    rw [h e he, Option.or_none]

/-- **Which elements are kept.**  For every body of a response, its objects
being in order as all are that have been read (`Json.ordered_of_parse`):

* nothing is kept unless the body is an object whose `features` is an array;
* then, in their order, those elements are kept that describe a feature or list
  its fields, with one record for each and whatever the other elements are;
* only elements that describe a feature are kept exactly if none lists the
  fields of one. -/
theorem kept_elements (body : Json) (hbody : body.Ordered) :
    ((∀ m elements, body = .object m →
        Json.Members.get? "features" m ≠ some (.array elements)) → recordsOf body = []) ∧
    ∀ m elements, body = .object m →
      Json.Members.get? "features" m = some (.array elements) →
        (recordsOf body = elements.filterMap fun e => (describedBy? e).or (listedBy? e)) ∧
        (recordsOf body = elements.filterMap describedBy? ↔
          ∀ e ∈ elements, listedBy? e = none) := by
  refine ⟨fun hnone => ?_, ?_⟩
  · have hitems : (body.get? "features").bind Json.items? = none := by
      rw [Option.bind_eq_none_iff]
      intro v hget
      cases body with
      | object m =>
          cases v with
          | array elements => exact absurd hget (hnone m elements rfl)
          | _ => rfl
      | _ => cases hget
    rw [recordsOf, hitems]
  · rintro m elements rfl hfeatures
    have hordered : ∀ e ∈ elements, e.Ordered := Json.Ordered.array_iff.mp (hbody.get? hfeatures)
    have hkept : recordsOf (.object m) =
        elements.filterMap fun e => (describedBy? e).or (listedBy? e) := by
      simp only [recordsOf, Json.get?, hfeatures, Option.bind_some, Json.items?]
      exact List.filterMap_congr fun e he => recordOf?_eq (hordered e he)
    refine ⟨hkept, ?_⟩
    rw [hkept]
    exact filterMap_or_eq_iff elements

/-- A response with elements of several forms: descriptions, a list of fields
and elements of which none is kept. -/
def mixedResponse : Json :=
  .object [("features", .array
    [.object [("identifier", .text "api-fetch"), ("name", .integer 5)], .null, .text "css",
      .object [("identifier", .integer 42)], .array [.text "api-x", .text "x"],
      .object [("identifier", .text "html-element-dialog")]])]

theorem ordered_mixedResponse : mixedResponse.Ordered := by
  have hkeys : Json.Members.Ascending [("identifier", .text "api-fetch"), ("name", .integer 5)] :=
    List.pairwise_pair.mpr (by decide)
  have hkey : ∀ p : String × Json, Json.Members.Ascending [p] := fun p =>
    List.pairwise_singleton _ p.1
  simp [mixedResponse, hkeys, hkey]

theorem kept_elements_mixed :
    mixedResponse.Ordered ∧
    recordsOf mixedResponse = [{ identifier := "api-fetch" },
      { identifier := "api-x", name := "x" }, { identifier := "html-element-dialog" }] := by
  refine ⟨ordered_mixedResponse, ?_⟩
  rw [((kept_elements mixedResponse ordered_mixedResponse).2 _ _ rfl rfl).1]
  rfl

/-- A response whose only element is a list of fields: it is no object, but is kept. -/
theorem recordsOf_listed :
    let elements := [Json.array [.text "api-fetch"]]
    recordsOf (.object [("features", .array elements)]) = [{ identifier := "api-fetch" }] ∧
    elements.filterMap describedBy? = [] :=
  ⟨rfl, rfl⟩

end WebBaseline.Catalog
