import WebBaseline.Feature.Domain
import WebBaseline.Feature.Status
import WebBaseline.Json.Decoding

/-!
# Feature records

One tracked feature of the web platform, as a catalog describes it.  Reading a
record is lenient: a field of the wrong type counts as absent, so no record is
lost over one bad field, and no field affects another.
-/

namespace WebBaseline

/-- How well a feature is supported, and since when. -/
structure Baseline where
  /-- The catalog's code for the status. -/
  status : Option String := none
  since : Option String := none
deriving BEq, DecidableEq, Repr, Inhabited

/-- A link to a specification. -/
structure SpecificationLink where
  name : Option String := none
  url : Option String := none
deriving BEq, DecidableEq, Repr, Inhabited

/-- A tracked feature. -/
structure FeatureRecord where
  identifier : String := ""
  name : String := ""
  description : String := ""
  baseline : Option Baseline := none
  specifications : List SpecificationLink := []
  mdnUrl : Option String := none
  /-- Support by browsers, kept as it is. -/
  browserSupport : List Json := []
deriving BEq, Inhabited

namespace Baseline

/-- Read from an object. -/
def ofMembers (m : Json.Members) : Baseline where
  status := (m.get? "status").bind Json.text?
  since := (m.get? "since").bind Json.text?

/-- Read leniently: what is no object counts as absent. -/
def ofJson? : Json → Option Baseline
  | .object m => some (ofMembers m)
  | _ => none

/-- The object for a baseline. -/
def toJson (b : Baseline) : Json :=
  .ofMembers ([("status", .ofText? b.status)] ++
    (b.since.map fun s => ("since", Json.text s)).toList)

end Baseline

namespace SpecificationLink

/-- Read from an object. -/
def ofMembers (m : Json.Members) : SpecificationLink where
  name := (m.get? "name").bind Json.text?
  url := (m.get? "url").bind Json.text?

/-- Read leniently: what is no object is dropped. -/
def ofJson? : Json → Option SpecificationLink
  | .object m => some (ofMembers m)
  | _ => none

/-- The object for a link. -/
def toJson (l : SpecificationLink) : Json :=
  .ofMembers [("name", .ofText? l.name), ("url", .ofText? l.url)]

end SpecificationLink

namespace FeatureRecord

/-- A record with an identifier, a name and a status code only. -/
def ofParts (identifier name : String) (code : Option String) : FeatureRecord where
  identifier := identifier
  name := name
  baseline := code.map fun c => { status := some c }

/-- The catalog's code for the status, if the record has one. -/
def statusCode (r : FeatureRecord) : Option String := r.baseline.bind (·.status)

/-- The status of the feature. -/
def status (r : FeatureRecord) : Status := .ofCode r.statusCode

/-- The status of a record that may be missing. -/
def statusOf (r : Option FeatureRecord) : Status := .ofCode (r.bind statusCode)

/-- The domain of the feature. -/
def domain (r : FeatureRecord) : Domain := .ofIdentifier r.identifier

/-- The addresses of the specifications that have one. -/
def specUrls (r : FeatureRecord) : List String := r.specifications.filterMap (·.url)

/-- The name that users see: the identifier if the record has no name. -/
def displayName (r : FeatureRecord) : String :=
  if r.name.isEmpty then r.identifier else r.name

/-! ### Reading -/

/-- A text; the empty one for anything else. -/
def lenientText (v : Json) : String := v.text?.getD ""

/-- The items of an array; none for anything else. -/
def lenientItems (v : Json) : List Json := v.items?.getD []

/-- The links of an array, without what is no object. -/
def lenientLinks (v : Json) : List SpecificationLink :=
  (lenientItems v).filterMap SpecificationLink.ofJson?

open Decoding in
/-- The fields of a record. -/
def fields : List (Field Json Fault FeatureRecord) :=
  [ .optional "identifier" (fun v => .ok (lenientText v)) (fun a r => { r with identifier := a }),
    .optional "name" (fun v => .ok (lenientText v)) (fun a r => { r with name := a }),
    .optional "description" (fun v => .ok (lenientText v)) (fun a r => { r with description := a }),
    .optional "baseline" (fun v => .ok (Baseline.ofJson? v)) (fun a r => { r with baseline := a }),
    .optional "specifications" (fun v => .ok (lenientLinks v))
      (fun a r => { r with specifications := a }),
    .optional "mdn_url" (fun v => .ok v.text?) (fun a r => { r with mdnUrl := a }),
    .optional "browser_support" (fun v => .ok (lenientItems v))
      (fun a r => { r with browserSupport := a }) ]

/-- Read a record from an object, or from an array of its fields in their order. -/
def ofJson (v : Json) : Except Decoding.Fault FeatureRecord :=
  Json.format.readRecord "FeatureRecord" false fields {} v

/-- Read a list of records. -/
def listOfJson (v : Json) : Except Decoding.Fault (List FeatureRecord) :=
  Json.format.readList ofJson v

/-! ### Writing -/

/-- The object for a record.  Fields that a record may lack are left out. -/
def toJson (r : FeatureRecord) : Json :=
  .ofMembers (
    [("identifier", .text r.identifier), ("name", .text r.name),
     ("description", .text r.description),
     ("baseline", (r.baseline.map Baseline.toJson).getD .null),
     ("specifications", .array (r.specifications.map SpecificationLink.toJson))] ++
    (r.mdnUrl.map fun u => ("mdn_url", Json.text u)).toList ++
    (if r.browserSupport.isEmpty then [] else [("browser_support", .array r.browserSupport)]))

/-- The array for a list of records. -/
def listToJson (records : List FeatureRecord) : Json := .array (records.map toJson)

end FeatureRecord

end WebBaseline
