import WebBaseline.Feature.Record

/-!
# Responses of the catalog service

A response is an object with an array of features.  Elements without an
identifier are skipped; anything else that is wrong with an element is
mended as `FeatureRecord.ofJson` does.
-/

namespace WebBaseline.Catalog

/-- The record of one element of a response, unless the element is to be skipped. -/
def recordOf? (element : Json) : Option FeatureRecord :=
  match FeatureRecord.ofJson element with
  | .ok r => if r.identifier.isEmpty then none else some r
  | .error _ => none

/-- The records of a response. -/
def recordsOf (body : Json) : List FeatureRecord :=
  match (body.get? "features").bind Json.items? with
  | some elements => elements.filterMap recordOf?
  | none => []

end WebBaseline.Catalog
